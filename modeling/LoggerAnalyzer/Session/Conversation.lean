import LoggerAnalyzer.Session.TcpSession

/-!
# The conversation of a session

What passes between a session and its client depends on a few fields of the session only: its
decoder, its state, its flag, the upload, the timeline and whether writes are accepted. These make
up a `Conversation`.

The relations of this module say what each part of the code can do to a conversation: `Closes`,
`Sends`, `Takes` (a piece of a payload), `Reacts` (to a frame), `Turn` (one round of the loop over a
read) and `TimesOut`. Each has one constructor for each way through the code, with the condition
under which the code takes it. That the code does one of these is for the module after this one.
-/

namespace LoggerAnalyzer

open Incremental FrameDecoder

/-- What the conversation with the client depends on. -/
structure Conversation (D : Type) where
  decoder : FrameDecoder
  state : SessionState
  closeAfterFlush : Bool
  upload : UploadState D
  timeline : List Happening
  uvWrite : Stream' Bool

def TcpSession.conversation {D : Type} (s : TcpSession D) : Conversation D :=
  ⟨s.decoder, s.state, s.closeAfterFlush, s.upload, s.timeline, s.env.uvWrite⟩

/-! ## The fields of a payload -/

/-- The client's name in a HELLO. -/
def helloFields (payload : Bytes) : Option Bytes :=
  let version := (PayloadReader.new payload).u16
  match version.1, version.2.str16.1 with
  | some _, some name => some name
  | _, _ => none

/-- The size and the name in an UPLOAD_BEGIN. -/
def uploadBeginFields (payload : Bytes) : Option (ℕ × Bytes) :=
  let total := (PayloadReader.new payload).u64
  match total.1, total.2.str16.1 with
  | some total, some name => some (total.toNat, name)
  | _, _ => none

/-- The size in an UPLOAD_END. -/
def uploadEndFields (payload : Bytes) : Option ℕ :=
  (PayloadReader.new payload).u64.1.map UInt64.toNat

namespace Conversation

variable {D : Type}

def note (h : Happening) (c : Conversation D) : Conversation D :=
  { c with timeline := c.timeline ++ [h] }

def enter (state : SessionState) (c : Conversation D) : Conversation D :=
  { c with state := state }.note (.entered state)

def flag (c : Conversation D) : Conversation D :=
  { c with closeAfterFlush := true }.note .flagged

def setUpload (upload : UploadState D) (c : Conversation D) : Conversation D :=
  { c with upload := upload }

/-- Whether a payload is wanted piece by piece. -/
def streams (c : Conversation D) (type : MsgType) (length : UInt64) : Bool :=
  type = .uploadChunk && c.state = .uploading && length.toNat ≤ kDefaultMaxChunk

/-- The frame in the decoder is dispatched. -/
def receive (c : Conversation D) : Conversation D :=
  c.note (.received c.decoder.header c.decoder.payload)

/-! ## Closing and sending -/

inductive Closes : Conversation D → Conversation D → Prop where
  | again {c} (closing : c.state = .closing) : Closes c c
  | handles {c} (opened : c.state ≠ .closing) : Closes c (c.enter .closing)
  | nothing {c} (opened : c.state ≠ .closing) :
    Closes c ((c.enter .closing).note .sessionClosed)

inductive Sends (type : MsgType) (payload : Bytes) : Conversation D → Conversation D → Prop where
  | dropped {c} (closing : c.state = .closing) : Sends type payload c c
  | accepted {c} (opened : c.state ≠ .closing) (ok : c.uvWrite.head = true) :
    Sends type payload c ({ c with uvWrite := c.uvWrite.tail }.note (.sent type payload))
  | refused {c c'} (opened : c.state ≠ .closing) (refusal : c.uvWrite.head = false)
    (closes : Closes { c with uvWrite := c.uvWrite.tail } c') : Sends type payload c c'

inductive SendsAll : List (MsgType × Bytes) → Conversation D → Conversation D → Prop where
  | nil {c} : SendsAll [] c c
  | cons {m ms c c' c''} (first : Sends m.1 m.2 c c') (others : SendsAll ms c' c'') :
    SendsAll (m :: ms) c c''

theorem SendsAll.append {ms ms' : List (MsgType × Bytes)} {c c' c'' : Conversation D}
    (h : SendsAll ms c c') (h' : SendsAll ms' c' c'') : SendsAll (ms ++ ms') c c'' := by
  induction h with
  | nil => exact h'
  | cons first _ ih => exact .cons first (ih h')

/-- Sending and closing leave these as they are. -/
structure Kept (c c' : Conversation D) : Prop where
  decoder : c'.decoder = c.decoder
  closeAfterFlush : c'.closeAfterFlush = c.closeAfterFlush
  upload : c'.upload = c.upload

theorem Kept.trans {c c' c'' : Conversation D} (h : Kept c c') (h' : Kept c' c'') : Kept c c'' :=
  ⟨h'.decoder.trans h.decoder, h'.closeAfterFlush.trans h.closeAfterFlush,
    h'.upload.trans h.upload⟩

theorem Closes.kept {c c' : Conversation D} (h : Closes c c') : Kept c c' := by
  cases h <;> exact ⟨rfl, rfl, rfl⟩

theorem Closes.state {c c' : Conversation D} (h : Closes c c') : c'.state = .closing := by
  cases h with
  | again closing => exact closing
  | handles => rfl
  | nothing => rfl

theorem Sends.state {type : MsgType} {payload : Bytes} {c c' : Conversation D}
    (h : Sends type payload c c') : c'.state = c.state ∨ c'.state = .closing := by
  cases h with
  | dropped => exact .inl rfl
  | accepted => exact .inl rfl
  | refused _ _ closes => exact .inr closes.state

theorem Sends.kept {type : MsgType} {payload : Bytes} {c c' : Conversation D}
    (h : Sends type payload c c') : Kept c c' := by
  cases h with
  | dropped => exact ⟨rfl, rfl, rfl⟩
  | accepted => exact ⟨rfl, rfl, rfl⟩
  | refused _ _ closes =>
    exact ⟨closes.kept.decoder, closes.kept.closeAfterFlush, closes.kept.upload⟩

theorem SendsAll.kept {ms : List (MsgType × Bytes)} {c c' : Conversation D}
    (h : SendsAll ms c c') : Kept c c' := by
  induction h with
  | nil => exact ⟨rfl, rfl, rfl⟩
  | cons first _ ih => exact first.kept.trans ih

/-- The frames with which a result is sent. -/
def resultFrames (csv : Bytes) : List (MsgType × Bytes) :=
  (.resultBegin, TcpSession.resultBeginPayload csv)
    :: (TcpSession.resultChunks csv.length csv).map (fun chunk ↦ (.resultChunk, chunk))
    ++ [(.resultEnd, [])]

variable [DoubleOps D]

/-! ## Reacting to the client -/

/-- The bytes of a piece are counted. -/
def counted (piece : Bytes) (u : UploadState D) : UploadState D :=
  { u with received := (u.received + piece.length) % 2 ^ 64 }

/-- An acknowledgement is due. -/
def acked (u : UploadState D) : UploadState D := { u with lastAckAt := u.received }

/-- A piece of a chunk is counted and goes through the splitter. -/
def take (piece : Bytes) (c : Conversation D) : Conversation D :=
  (c.setUpload ((counted piece c.upload).feed piece)).note (.fed piece)

/-- What `payloadChunk` does. -/
inductive Takes (piece : Bytes) : Conversation D → Conversation D → Prop where
  | ignored {c} (state : c.state ≠ .uploading) : Takes piece c c
  | overrun {c c' message} (state : c.state = .uploading)
    (beyond : c.upload.declared < (counted piece c.upload).received)
    (sends : Sends .error (errorPayload .sizeMismatch message)
      ((c.setUpload (counted piece c.upload)).enter .ready) c') : Takes piece c c'.flag
  | fed {c} (state : c.state = .uploading)
    (within : (counted piece c.upload).received ≤ c.upload.declared)
    (soon : sub64 (c.take piece).upload.received (c.take piece).upload.lastAckAt
      < kAckIntervalBytes) : Takes piece c (c.take piece)
  | acknowledged {c c' payload} (state : c.state = .uploading)
    (within : (counted piece c.upload).received ≤ c.upload.declared)
    (sends : Sends .uploadAck payload
      ((c.take piece).setUpload (acked (c.take piece).upload)) c')
    (due : kAckIntervalBytes
      ≤ sub64 (c.take piece).upload.received (c.take piece).upload.lastAckAt)
    (counts : payload = (acked (c.take piece).upload).ackPayload) : Takes piece c c'

/-- What is handed over to the sink is taken, if there is anything. -/
inductive TakesPiece : Option Bytes → Conversation D → Conversation D → Prop where
  | none {c} : TakesPiece none c c
  | some {piece c c'} (takes : Takes piece c c') : TakesPiece (some piece) c c'

/-- The upload that begins when there was `u` before. -/
def freshUpload (id : UInt32) (total : ℕ) (name : Bytes) (startNs : ℕ) (u : UploadState D) :
    UploadState D :=
  { id := id, name := name, declared := total, received := 0, lastAckAt := 0, startNs := startNs
    lineOffset := 0, splitter := u.splitter.reset, agg := u.agg.reset, resultCsv := [] }

/-- What `dispatchFrame` does after the frame was received, and whether the loop goes on. -/
inductive Reacts : Conversation D → Conversation D → Bool → Prop where
  | refused {c c' code message}
    (why : c.state = .awaitHello ∧
          (c.decoder.header.type = .hello → helloFields c.decoder.payload = none) ∨
        c.state = .ready ∧ c.decoder.header.type = .uploadBegin ∧
          uploadBeginFields c.decoder.payload = none)
    (sends : Sends .error (errorPayload code message) c c') : Reacts c c'.flag false
  | greeted {c c' name payload} (state : c.state = .awaitHello)
    (type : c.decoder.header.type = .hello) (fields : helloFields c.decoder.payload = some name)
    (sends : Sends .helloAck payload (c.enter .ready) c') : Reacts c c' true
  | scolded {c c' code message} (state : c.state = .ready)
    (why : c.decoder.header.type ≠ .bye ∧ c.decoder.header.type ≠ .cancel ∧
      (c.decoder.header.type = .uploadBegin →
        ∃ name, uploadBeginFields c.decoder.payload = some (0, name)))
    (sends : Sends .error (errorPayload code message) c c') : Reacts c c' true
  | goodbye {c c'} (state : c.state = .ready) (type : c.decoder.header.type = .bye)
    (closes : Closes c c') : Reacts c c' false
  | nothing {c} (state : c.state = .ready) (type : c.decoder.header.type = .cancel) :
    Reacts c c true
  | began {c c' total name id startNs payload} (state : c.state = .ready)
    (type : c.decoder.header.type = .uploadBegin)
    (fields : uploadBeginFields c.decoder.payload = some (total, name)) (pos : total ≠ 0)
    (sends : Sends .uploadBeginAck payload
      ((c.setUpload (freshUpload id total name startNs c.upload)).enter .uploading) c') :
    Reacts c c' true
  | chunk {c} (state : c.state = .uploading) (type : c.decoder.header.type = .uploadChunk)
    (streamed : c.decoder.streaming = true) : Reacts c c true
  | aborted {c c' code message} (state : c.state = .uploading)
    (why : c.decoder.header.type = .uploadChunk ∧ c.decoder.streaming = false ∨
      c.decoder.header.type = .uploadEnd ∧ (c.upload.received = c.upload.declared →
          uploadEndFields c.decoder.payload ≠ some c.upload.declared) ∨
      c.decoder.header.type ≠ .uploadChunk ∧ c.decoder.header.type ≠ .uploadEnd ∧
        c.decoder.header.type ≠ .cancel)
    (sends : Sends .error (errorPayload code message) (c.enter .ready) c') :
    Reacts c c'.flag false
  | cancelled {c c' message} (state : c.state = .uploading)
    (type : c.decoder.header.type = .cancel)
    (sends : Sends .error (errorPayload .cancelled message) (c.enter .ready) c') :
    Reacts c (c'.setUpload c'.upload.clear) true
  | finished {c c' utcNow elapsedMs rss} (state : c.state = .uploading)
    (type : c.decoder.header.type = .uploadEnd)
    (fields : uploadEndFields c.decoder.payload = some c.upload.declared)
    (complete : c.upload.received = c.upload.declared)
    (sends : SendsAll
      ((.analyzeDone, (c.upload.finish.build utcNow elapsedMs rss).donePayload elapsedMs rss)
        :: resultFrames (c.upload.finish.build utcNow elapsedMs rss).resultCsv)
      (c.setUpload (c.upload.finish.build utcNow elapsedMs rss)) c') :
    Reacts c (c'.enter .ready) true
  | closing {c} (state : c.state = .closing) : Reacts c c false

/-- What one round of the loop does with `data` when the decoder holds `p`: what is left of the read
if the loop goes on, and what the decoder holds then. -/
inductive Turn (p data : Bytes) (c : Conversation D) :
    Option Bytes → Bytes → Conversation D → Prop where
  | more {d c'} (next : nextFrame (p ++ data) = .more) (holds : At d (p ++ data))
    (asked : Asked c.streams p data c.decoder.streaming d.streaming)
    (takes : TakesPiece (pieceOf d.streaming (data.drop (kHeaderSize - p.length))) c c') :
    Turn p data c none (p ++ data) { c' with decoder := d }
  | fail {d e c'} (next : nextFrame (p ++ data) = .fail e)
    (holds : At d ((p ++ data).take kHeaderSize)) (error : d.error = e)
    (sends : Sends .error (errorPayload e e.text) { c with decoder := d } c') :
    Turn p data c none ((p ++ data).take kHeaderSize) c'.flag
  | item {d f left c' c'' goesOn} (next : nextFrame (p ++ data) = .item f left)
    (completed : Completed d f)
    (asked : Asked c.streams p data c.decoder.streaming d.streaming)
    (takes : TakesPiece (pieceOf d.streaming (f.payload.drop (p.length - kHeaderSize))) c c')
    (reacts : Reacts ({ c' with decoder := d }.receive) c'' goesOn) :
    Turn p data c (if goesOn then some left else none) []
      { c'' with decoder := c''.decoder.resetFrame }

/-- What `onIdleTimeout` does. -/
inductive TimesOut : Conversation D → Conversation D → Prop where
  | waited {c} (state : c.state = .uploading) : TimesOut c c
  | gaveUp {c c' c'' message} (state : c.state = .uploading)
    (sends : Sends .error (errorPayload .idleTimeout message) (c.enter .ready) c')
    (closes : Closes c' c'') : TimesOut c c''
  | idle {c c' message} (state : c.state ≠ .uploading)
    (sends : Sends .error (errorPayload .idleTimeout message) c c') : TimesOut c c'.flag

end Conversation

end LoggerAnalyzer
