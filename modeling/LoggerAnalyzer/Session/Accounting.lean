import LoggerAnalyzer.Session.Chunks
import LoggerAnalyzer.Session.Earned

/-!
# The counters of an upload

Five counters follow an upload: the session's `received` and `lastAckAt`, its line offset, the lines
of the aggregator and those of the splitter. Each is moved on at its own moment of a callback.
`Accounts` says how they agree with each other and with what the client has sent, and
`Reached.accounts` that they do in every session reached during an upload.

A chunk is counted while it comes in, and only if it is no larger than the session has offered. One
that is larger is collected by the decoder and turned down when it is complete, so none of its bytes
are counted, and `not_accounts_large` shows a session that has some of them.

The counters agree between two rounds of the loop and not within one, so what is proved is an
invariant of the conversation. It says how many bytes of a payload are in by what the decoder
holds, `inside`, and only in the end by the fields of the decoder.
-/

namespace LoggerAnalyzer

open Incremental FrameDecoder

/-! ## What is counted -/

/-- A chunk of a size that the session has offered. -/
def isUploadData (header : FrameHeader) : Bool :=
  header.type = .uploadChunk && header.payloadLen.toNat ≤ kDefaultMaxChunk

/-- The payload bytes of the frames `which` that came in since the last UPLOAD_BEGIN. -/
def payloadBytes (which : FrameHeader → Bool) (timeline : List Happening) : ℕ :=
  timeline.foldl (fun n h ↦
    match h with
    | .received header _ =>
      if header.type = .uploadBegin then 0
      else if which header then n + header.payloadLen.toNat
      else n
    | _ => n) 0

/-- The payload bytes of the frame that is coming in, if it is one of `which`. -/
def payloadBytesNow (which : FrameHeader → Bool) (d : FrameDecoder) : ℕ :=
  if d.state = .payload ∧ which d.header = true then d.payloadGot else 0

/-- The byte counts in the UPLOAD_ACKs that were sent since the last UPLOAD_BEGIN. -/
def ackCounts (timeline : List Happening) : List ℕ :=
  timeline.foldl (fun counts h ↦
    match h with
    | .received header _ => if header.type = .uploadBegin then [] else counts
    | .sent type payload =>
      if type = .uploadAck then counts ++ [(loadBe64 payload).toNat] else counts
    | _ => counts) []

/-- Neither a frame that came in nor an acknowledgement. -/
structure Happening.Uncounted (h : Happening) : Prop where
  notReceived : ∀ header payload, h ≠ .received header payload
  noAck : ∀ payload, h ≠ .sent .uploadAck payload

theorem Happening.uncounted_sent {type : MsgType} (payload : Bytes) (h : type ≠ .uploadAck) :
    (Happening.sent type payload).Uncounted := ⟨fun _ _ ↦ by simp, fun _ ↦ by simp [h]⟩

theorem payloadBytes_received (which : FrameHeader → Bool) (tl : List Happening)
    (header : FrameHeader) (payload : Bytes) :
    payloadBytes which (tl ++ [.received header payload]) =
      if header.type = .uploadBegin then 0
      else if which header then payloadBytes which tl + header.payloadLen.toNat
      else payloadBytes which tl := by
  rw [payloadBytes, List.foldl_append]
  rfl

theorem payloadBytes_other (which : FrameHeader → Bool) (tl : List Happening) {h : Happening}
    (other : ∀ header payload, h ≠ .received header payload) :
    payloadBytes which (tl ++ [h]) = payloadBytes which tl := by
  rw [payloadBytes, List.foldl_append]
  cases h with
  | received header payload => exact absurd rfl (other header payload)
  | _ => rfl

theorem ackCounts_received (tl : List Happening) (header : FrameHeader) (payload : Bytes) :
    ackCounts (tl ++ [.received header payload])
      = if header.type = .uploadBegin then [] else ackCounts tl := by
  rw [ackCounts, List.foldl_append]
  rfl

private theorem ackCounts_ack (tl : List Happening) (payload : Bytes) :
    ackCounts (tl ++ [.sent .uploadAck payload]) = ackCounts tl ++ [(loadBe64 payload).toNat] := by
  rw [ackCounts, List.foldl_append]
  rfl

theorem ackCounts_other (tl : List Happening) {h : Happening} (other : h.Uncounted) :
    ackCounts (tl ++ [h]) = ackCounts tl := by
  rw [ackCounts, List.foldl_append]
  cases h with
  | received header payload => exact absurd rfl (other.notReceived header payload)
  | sent type payload => exact if_neg fun heq : type = .uploadAck ↦ other.noAck payload (heq ▸ rfl)
  | _ => rfl

namespace Conversation

variable {D : Type}

/-! ## The counters of a conversation -/

/-- The counters are right, with `n` bytes of a chunk that is not complete. The acknowledgements are
headed by the beginning of the upload. -/
structure Counted (n : ℕ) (c : Conversation D) : Prop where
  received : c.upload.received = payloadBytes isUploadData c.timeline + n
  fed : (uploadPieces c.timeline).flatten.length = c.upload.received
  within : c.upload.received ≤ c.upload.declared
  lastAckAt : c.upload.lastAckAt ≤ c.upload.received
  acks : (0 :: ackCounts c.timeline).Pairwise (· + kAckIntervalBytes ≤ ·)
  last : ∀ count ∈ 0 :: ackCounts c.timeline, count ≤ c.upload.lastAckAt

/-- The next acknowledgement is not due yet. -/
def Soon (c : Conversation D) : Prop :=
  c.upload.received - c.upload.lastAckAt < kAckIntervalBytes

theorem sub64_of_le {m n : ℕ} (hle : n ≤ m) (hlt : m < 2 ^ 64) : sub64 m n = m - n := by
  rw [sub64, show m + 2 ^ 64 - n = m - n + 2 ^ 64 by omega, Nat.add_mod_right,
    Nat.mod_eq_of_lt (by omega)]

namespace Counted

variable {n : ℕ} {c c' : Conversation D}

/-- What is noted does not matter unless it is counted. -/
theorem note (h : Counted n c) {event : Happening} (other : event.Uncounted)
    (notFed : ∀ piece, event ≠ .fed piece) (staying : event ≠ .entered .uploading) :
    Counted n (c.note event) := by
  have hbytes : payloadBytes isUploadData (c.note event).timeline
      = payloadBytes isUploadData c.timeline := payloadBytes_other _ _ other.notReceived
  have hacks : ackCounts (c.note event).timeline = ackCounts c.timeline := ackCounts_other _ other
  have hpieces : uploadPieces (c.note event).timeline = uploadPieces c.timeline :=
    uploadPieces_other _ notFed staying
  refine ⟨?_, ?_, h.within, h.lastAckAt, ?_, ?_⟩
  · rw [hbytes]
    exact h.received
  · rw [hpieces]
    exact h.fed
  · rw [hacks]
    exact h.acks
  · rw [hacks]
    exact h.last

/-- Nor does what is no part of the upload and of the timeline. -/
theorem congr (h : Counted n c) (upload : c'.upload = c.upload)
    (timeline : c'.timeline = c.timeline) : Counted n c' := by
  obtain ⟨received, fed, within, lastAckAt, acks, last⟩ := h
  rw [← upload] at received fed within lastAckAt last
  rw [← timeline] at received fed acks last
  exact ⟨received, fed, within, lastAckAt, acks, last⟩

end Counted

/-- What is sent while the session stays open is a write that was accepted. -/
theorem Sends.of_opened {type : MsgType} {payload : Bytes} {c c' : Conversation D}
    (h : Sends type payload c c') (opened : c'.state ≠ .closing) :
    c' = { c with uvWrite := c.uvWrite.tail }.note (.sent type payload) := by
  cases h with
  | dropped closing => exact absurd closing opened
  | accepted => rfl
  | refused _ _ closes => exact absurd closes.state opened

theorem Counted.sends {n : ℕ} {type : MsgType} {payload : Bytes} {c c' : Conversation D}
    (h : Counted n c) (hs : Sends type payload c c') (opened : c'.state ≠ .closing)
    (notAck : type ≠ .uploadAck) : Counted n c' := by
  rw [hs.of_opened opened]
  have htail : Counted n { c with uvWrite := c.uvWrite.tail } := h.congr rfl rfl
  exact htail.note (Happening.uncounted_sent payload notAck) (fun _ ↦ by simp) (by simp)

variable [DoubleOps D]

/-! ## A piece of a chunk -/

/-- A piece is counted. -/
theorem Counted.take {n : ℕ} {c : Conversation D} (h : Counted n c) {piece : Bytes}
    (fits : c.upload.received + piece.length < 2 ^ 64)
    (within : (counted piece c.upload).received ≤ c.upload.declared) :
    Counted (n + piece.length) (c.take piece) := by
  have hreceived : (c.take piece).upload.received = c.upload.received + piece.length :=
    Nat.mod_eq_of_lt fits
  have hbytes : payloadBytes isUploadData (c.take piece).timeline
      = payloadBytes isUploadData c.timeline := payloadBytes_other _ _ fun _ _ ↦ by simp
  have hacks : ackCounts (c.take piece).timeline = ackCounts c.timeline :=
    ackCounts_other _ ⟨fun _ _ ↦ by simp, fun _ ↦ by simp⟩
  have hpieces : uploadPieces (c.take piece).timeline = uploadPieces c.timeline ++ [piece] :=
    uploadPieces_fed _ _
  refine ⟨?_, ?_, within, ?_, ?_, ?_⟩
  · rw [hreceived, hbytes, h.received, Nat.add_assoc]
  · rw [hreceived, hpieces, List.flatten_append, List.flatten_singleton, List.length_append, h.fed]
  · rw [hreceived]
    exact h.lastAckAt.trans (Nat.le_add_right _ _)
  · rw [hacks]
    exact h.acks
  · rw [hacks]
    exact h.last

/-- An acknowledgement that is due. -/
theorem Counted.acknowledged {n : ℕ} {c c' : Conversation D} (h : Counted n c)
    (fits : c.upload.received < 2 ^ 64)
    (due : kAckIntervalBytes ≤ c.upload.received - c.upload.lastAckAt)
    (hs : Sends .uploadAck (acked c.upload).ackPayload (c.setUpload (acked c.upload)) c')
    (opened : c'.state ≠ .closing) : Counted n c' := by
  -- the first field of the payload is the count
  have hcount : (loadBe64 (acked c.upload).ackPayload).toNat = c.upload.received := by
    rw [UploadState.ackPayload]
    simp only [List.append_assoc, PayloadWriter.u64]
    rw [loadBe64_store_append]
    exact Nat.mod_eq_of_lt fits
  have htimeline : c'.timeline = c.timeline ++ [.sent .uploadAck (acked c.upload).ackPayload] := by
    rw [hs.of_opened opened]
    rfl
  have hupload : c'.upload = acked c.upload := hs.quiet.upload
  have hacks : ackCounts c'.timeline = ackCounts c.timeline ++ [c.upload.received] := by
    rw [htimeline, ackCounts_ack, hcount]
  refine ⟨?_, ?_, ?_, ?_, ?_, ?_⟩
  · rw [hupload, htimeline, payloadBytes_other _ _ fun _ _ ↦ by simp]
    exact h.received
  · rw [hupload, htimeline, uploadPieces_other _ (fun _ ↦ by simp) (by simp)]
    exact h.fed
  · rw [hupload]
    exact h.within
  · rw [hupload]
    exact Nat.le_refl _
  · -- the new count is ahead of `lastAckAt`, which no count so far exceeds
    rw [hacks, ← List.cons_append, List.pairwise_append]
    refine ⟨h.acks, List.pairwise_singleton _ _, fun count hmem next hnext ↦ ?_⟩
    rw [List.mem_singleton.mp hnext]
    have hlast := h.last count hmem
    have hahead := h.lastAckAt
    omega
  · rw [hacks, hupload, ← List.cons_append]
    intro count hmem
    rcases List.mem_append.mp hmem with hbefore | hnow
    · exact (h.last count hbefore).trans h.lastAckAt
    · exact (List.mem_singleton.mp hnow).le

/-- A piece does not change what was declared. -/
theorem TakesPiece.declared {piece : Option Bytes} {c c' : Conversation D}
    (ht : TakesPiece piece c c') : c'.upload.declared = c.upload.declared := by
  cases ht with
  | none => rfl
  | @some piece _ c' takes =>
    cases takes with
    | ignored => rfl
    | @overrun c₁ _ _ _ sends =>
      rw [show c₁.flag.upload = counted piece c.upload from sends.kept.upload]
      rfl
    | fed => rfl
    | acknowledged _ _ sends =>
      rw [show c'.upload = acked (c.take piece).upload from sends.kept.upload]
      rfl

/-- A piece that leaves the session in the upload. -/
theorem Counted.takes {n : ℕ} {c c' : Conversation D} {piece : Bytes} (h : Counted n c)
    (small : piece.length < 2 ^ 63) (bound : c.upload.declared < 2 ^ 63)
    (ht : Takes piece c c') (state : c'.state = .uploading) :
    Counted (n + piece.length) c' ∧ Soon c' := by
  have hle := h.within
  have hfits : c.upload.received + piece.length < 2 ^ 64 := by omega
  have hreceived : (c.take piece).upload.received = c.upload.received + piece.length :=
    Nat.mod_eq_of_lt hfits
  have hsub : sub64 (c.take piece).upload.received (c.take piece).upload.lastAckAt
      = (c.take piece).upload.received - (c.take piece).upload.lastAckAt := by
    rw [hreceived]
    exact sub64_of_le (h.lastAckAt.trans (Nat.le_add_right _ _)) hfits
  cases ht with
  | ignored hidle => exact absurd state hidle
  | overrun _ _ sends => exact absurd state sends.idle
  | fed _ within soon =>
    rw [hsub] at soon
    exact ⟨h.take hfits within, soon⟩
  | acknowledged _ within sends due counts =>
    have htake := h.take hfits within
    rw [hsub] at due
    refine ⟨htake.acknowledged (hreceived ▸ hfits) due (counts ▸ sends) fun hclosing ↦ ?_, ?_⟩
    · exact absurd (hclosing.symm.trans state) (by decide)
    · rw [Soon, sends.quiet.upload]
      show (c.take piece).upload.received - (c.take piece).upload.received < kAckIntervalBytes
      rw [Nat.sub_self]
      decide

/-- What is handed over of a payload. -/
theorem Counted.takesPiece {n : ℕ} {c c' : Conversation D} {streaming : Bool} {xs : Bytes}
    (h : Counted n c ∧ Soon c) (small : streaming = true → xs.length < 2 ^ 63)
    (bound : c.upload.declared < 2 ^ 63) (ht : TakesPiece (pieceOf streaming xs) c c')
    (state : c'.state = .uploading) :
    Counted (n + if streaming then xs.length else 0) c' ∧ Soon c' := by
  rw [pieceOf] at ht
  by_cases hwanted : xs ≠ [] ∧ streaming = true
  · rw [if_pos hwanted] at ht
    rw [if_pos hwanted.2]
    cases ht with
    | some takes => exact h.1.takes (small hwanted.2) bound takes state
  · rw [if_neg hwanted] at ht
    have hzero : (if streaming then xs.length else 0) = 0 := by
      split_ifs with hstreaming
      · exact List.length_eq_zero_iff.mpr (by simpa [hstreaming] using hwanted)
      · rfl
    cases ht with
    | none => exact hzero.symm ▸ h

/-! ## A frame -/

omit [DoubleOps D] in
/-- A chunk is complete: what was counted piece by piece is counted by its header. -/
theorem Counted.chunk {c : Conversation D}
    (h : Counted c.decoder.header.payloadLen.toNat c) (type : c.decoder.header.type = .uploadChunk)
    (data : isUploadData c.decoder.header = true) : Counted 0 c.receive := by
  have hbegin : c.decoder.header.type ≠ .uploadBegin := ne_of_eq_of_ne type (by decide)
  have hbytes : payloadBytes isUploadData c.receive.timeline
      = payloadBytes isUploadData c.timeline + c.decoder.header.payloadLen.toNat := by
    refine (payloadBytes_received _ _ _ _).trans ?_
    rw [if_neg hbegin, if_pos data]
  have hacks : ackCounts c.receive.timeline = ackCounts c.timeline :=
    (ackCounts_received _ _ _).trans (if_neg hbegin)
  refine ⟨?_, ?_, h.within, h.lastAckAt, ?_, ?_⟩
  · rw [hbytes]
    exact h.received
  · rw [(Quiet.receive c).pieces]
    exact h.fed
  · rw [hacks]
    exact h.acks
  · rw [hacks]
    exact h.last

/-- An upload begins. -/
theorem Counted.began {c : Conversation D} (type : c.decoder.header.type = .uploadBegin)
    (id : UInt32) (total : ℕ) (name : Bytes) (startNs : ℕ) (u : UploadState D) :
    Counted 0 ((c.receive.setUpload (freshUpload id total name startNs u)).enter .uploading) := by
  set c' := (c.receive.setUpload (freshUpload id total name startNs u)).enter .uploading
  have htimeline : c'.timeline
      = c.timeline ++ [.received c.decoder.header c.decoder.payload] ++ [.entered .uploading] := rfl
  have hbytes : payloadBytes isUploadData c'.timeline = 0 := by
    rw [htimeline, payloadBytes_other _ _ fun _ _ ↦ by simp, payloadBytes_received, if_pos type]
  have hacks : ackCounts c'.timeline = [] := by
    rw [htimeline, ackCounts_other _ ⟨fun _ _ ↦ by simp, fun _ ↦ by simp⟩, ackCounts_received,
      if_pos type]
  have hpieces : uploadPieces c'.timeline = [] := uploadPieces_uploading _
  refine ⟨?_, ?_, Nat.zero_le _, Nat.le_refl _, ?_, ?_⟩
  · rw [hbytes]
    rfl
  · rw [hpieces]
    rfl
  · rw [hacks]
    exact List.pairwise_singleton _ _
  · rw [hacks]
    simp

/-- After a frame that leaves the session in an upload, all that is counted is complete. -/
theorem Reacts.counted {c c' : Conversation D} {goesOn : Bool} (hr : Reacts c.receive c' goesOn)
    (h : c.state = .uploading → c.decoder.header.type = .uploadChunk → c.decoder.streaming = true →
      c'.upload.declared = c.upload.declared →
      Counted c.decoder.header.payloadLen.toNat c ∧ Soon c ∧ isUploadData c.decoder.header = true)
    (state : c'.state = .uploading) : Counted 0 c' ∧ Soon c' := by
  cases hr with
  | refused why sends =>
    have hstate := sends.quiet.state state
    rcases why with ⟨heq, -⟩ | ⟨heq, -⟩ <;> exact absurd (heq.symm.trans hstate) (by decide)
  | greeted _ _ _ sends => exact absurd state sends.idle
  | scolded hstate _ sends =>
    exact absurd (hstate.symm.trans (sends.quiet.state state)) (by decide)
  | goodbye _ _ closes => exact absurd (closes.state.symm.trans state) (by decide)
  | nothing hstate => exact absurd (hstate.symm.trans state) (by decide)
  | @began _ total name id startNs payload _ type _ _ sends =>
    have hopened : c'.state ≠ .closing := ne_of_eq_of_ne state (by decide)
    have hbegan := Counted.began (c := c) type id total name startNs c.upload
    refine ⟨hbegan.sends sends hopened (by decide), ?_⟩
    rw [Soon, sends.quiet.upload]
    show 0 - 0 < kAckIntervalBytes
    decide
  | chunk hstate type streamed =>
    obtain ⟨hcounted, hsoon, hdata⟩ := h hstate type streamed rfl
    exact ⟨hcounted.chunk type hdata, hsoon⟩
  | aborted _ _ sends => exact absurd state sends.idle
  | cancelled _ _ sends => exact absurd state sends.idle
  | finished => exact absurd (show SessionState.ready = .uploading from state) (by decide)
  | closing hstate => exact absurd (hstate.symm.trans state) (by decide)

/-! ## Rounds -/

omit [DoubleOps D] in
/-- The session in an upload asks for the payloads that are counted. -/
theorem streams_eq {c : Conversation D} (state : c.state = .uploading) (header : FrameHeader) :
    c.streams header.type header.payloadLen = isUploadData header := by
  rw [streams, isUploadData, decide_eq_true state, Bool.and_true]

/-- Of a payload that is under way it is known whether it is counted. -/
def Told (p : Bytes) (c : Conversation D) : Prop :=
  kHeaderSize ≤ p.length → headerError (decodeHeader (p.take kHeaderSize)) = none →
    (decodeHeader (p.take kHeaderSize)).payloadLen.toNat ≠ 0 →
      c.decoder.streaming = isUploadData (decodeHeader (p.take kHeaderSize))

/-- What holds of a conversation whose decoder holds `p`. -/
structure Consistent (p : Bytes) (c : Conversation D) : Prop where
  streamed : Streamed p c
  told : c.state = .uploading → Told p c
  counted : c.state = .uploading → c.upload.declared < 2 ^ 63 →
    Counted (inside c.decoder.streaming p) c ∧ Soon c

omit [DoubleOps D] in
/-- A header that fails is not streamed, and neither is what it begins with. -/
theorem streaming_of_fail {d : FrameDecoder} {p data : Bytes} {e : ErrorCode} (holds : At d p)
    (next : nextFrame (p ++ data) = .fail e) : d.streaming = false := by
  by_cases hlong : kHeaderSize ≤ p.length
  · have hfirst := (nextFrame_fail next).2
    rw [List.take_append_of_le_length hlong] at hfirst
    have hp := frameParser.fail_append hfirst (p.drop kHeaderSize)
    rw [List.take_append_drop] at hp
    exact holds.streaming_of_fail hp
  · exact holds.streaming_eq_false (Nat.lt_of_not_le hlong)

namespace Consistent

variable {p data : Bytes} {c c' : Conversation D}

/-- A read that ends within a frame. -/
theorem more {d : FrameDecoder} (holds : At c.decoder p) (h : Consistent p c)
    (next : nextFrame (p ++ data) = .more) (holds' : At d (p ++ data))
    (asked : Asked c.streams p data c.decoder.streaming d.streaming)
    (takes : TakesPiece (pieceOf d.streaming (data.drop (kHeaderSize - p.length))) c c')
    (streamed : Streamed (p ++ data) { c' with decoder := d }) :
    Consistent (p ++ data) { c' with decoder := d } := by
  refine ⟨streamed, fun state hlong good pos ↦ ?_, fun state bound ↦ ?_⟩
  · have hstate : c.state = .uploading := takes.state state
    by_cases hfirst : kHeaderSize ≤ p.length
    · rw [List.take_append_of_le_length hfirst] at good pos ⊢
      exact (asked.inside hfirst).trans (h.told hstate hfirst good pos)
    · exact (asked.told (Nat.lt_of_not_le hfirst) hlong good pos).trans (streams_eq hstate _)
  · have hbound : c.upload.declared < 2 ^ 63 := takes.declared ▸ bound
    have hcounted := Counted.takesPiece (h.counted (takes.state state) hbound)
      (h.streamed.length_lt asked holds' next) hbound takes state
    rw [inside_more holds asked] at hcounted
    exact ⟨hcounted.1.congr rfl rfl, hcounted.2⟩

omit [DoubleOps D] in
/-- A header that fails. -/
theorem fail {d : FrameDecoder} {e : ErrorCode} {payload : Bytes} (holds : At c.decoder p)
    (h : Consistent p c) (next : nextFrame (p ++ data) = .fail e)
    (holds' : At d ((p ++ data).take kHeaderSize))
    (sends : Sends .error payload { c with decoder := d } c')
    (streamed : Streamed ((p ++ data).take kHeaderSize) c'.flag) :
    Consistent ((p ++ data).take kHeaderSize) c'.flag := by
  have hfirst := (nextFrame_fail next).2
  have hdecoder : c'.flag.decoder = d := sends.kept.decoder
  refine ⟨streamed, fun _ hlong good ↦ ?_, fun state bound ↦ ?_⟩
  · have hgood := nextFrame_good hlong good
    rw [hfirst] at hgood
    split_ifs at hgood
  · have hopened : c'.state ≠ .closing := ne_of_eq_of_ne state (by decide)
    have hbound : c.upload.declared < 2 ^ 63 :=
      (congrArg UploadState.declared sends.kept.upload) ▸ bound
    obtain ⟨hcounted, hsoon⟩ := h.counted (sends.quiet.state state) hbound
    rw [inside, streaming_of_fail holds next, if_neg Bool.false_ne_true] at hcounted
    rw [inside, hdecoder, holds'.streaming_of_fail hfirst, if_neg Bool.false_ne_true]
    have hset : Counted 0 { c with decoder := d } := hcounted.congr rfl rfl
    have hsent : Counted 0 c' := hset.sends sends hopened (by decide)
    have hflagged : Counted 0 (c'.note .flagged) :=
      hsent.note ⟨fun _ _ ↦ by simp, fun _ ↦ by simp⟩ (fun _ ↦ by simp) (by simp)
    refine ⟨hflagged.congr rfl rfl, ?_⟩
    rw [Soon, show c'.flag.upload = c.upload from sends.kept.upload]
    exact hsoon

/-- A frame. -/
theorem item {d : FrameDecoder} {f : Frame} {left : Bytes} {c₁ : Conversation D} {goesOn : Bool}
    (holds : At c.decoder p) (h : Consistent p c) (next : nextFrame (p ++ data) = .item f left)
    (completed : Completed d f)
    (asked : Asked c.streams p data c.decoder.streaming d.streaming)
    (takes : TakesPiece (pieceOf d.streaming (f.payload.drop (p.length - kHeaderSize))) c c₁)
    (reacts : Reacts ({ c₁ with decoder := d }.receive) c' goesOn)
    (streamed : Streamed [] { c' with decoder := c'.decoder.resetFrame }) :
    Consistent [] { c' with decoder := c'.decoder.resetFrame } := by
  refine ⟨streamed, fun _ hlong ↦ absurd hlong (by decide), fun state bound ↦ ?_⟩
  obtain ⟨hheader, hlen⟩ := nextFrame_item_header next
  refine (reacts.counted (c := { c₁ with decoder := d }) (fun hup type hstreaming hsame ↦ ?_)
    state).imp_left fun hcounted ↦ hcounted.congr rfl rfl
  obtain ⟨-, hmax⟩ := h.streamed.asked asked hstreaming
  rw [← hheader] at hmax
  have hbound : c.upload.declared < 2 ^ 63 := by
    have hc₁ : c₁.upload.declared < 2 ^ 63 := hsame ▸ bound
    rwa [takes.declared] at hc₁
  have hsmall : (f.payload.drop (p.length - kHeaderSize)).length < 2 ^ 63 := by
    have hlimit : kDefaultMaxChunk < 2 ^ 63 := by decide
    rw [List.length_drop]
    omega
  have hcounted := Counted.takesPiece (h.counted (takes.state hup) hbound) (fun _ ↦ hsmall) hbound
    takes hup
  rw [inside_item holds asked next, if_pos hstreaming, ← completed.header] at hcounted
  refine ⟨hcounted.1.congr rfl rfl, hcounted.2, ?_⟩
  rw [isUploadData, Bool.and_eq_true, decide_eq_true_eq, decide_eq_true_eq]
  exact ⟨type, completed.header ▸ hmax⟩

theorem turn {p' : Bytes} {left : Option Bytes} (holds : At c.decoder p) (h : Consistent p c)
    (ht : Turn p data c left p' c') : Consistent p' c' := by
  have hstreamed : Streamed p' c' := h.streamed.turn ht
  cases ht with
  | more next holds' asked takes => exact h.more holds next holds' asked takes hstreamed
  | fail next holds' _ sends => exact h.fail holds next holds' sends hstreamed
  | item next completed asked takes reacts =>
    exact h.item holds next completed asked takes reacts hstreamed

omit [DoubleOps D] in
/-- What goes on outside an upload leaves a payload under way as it is. -/
theorem idle (h : Consistent p c) (decoder : c'.decoder = c.decoder)
    (state : c'.state ≠ .uploading) : Consistent p c' :=
  ⟨fun hs ↦ h.streamed (decoder ▸ hs), fun hup ↦ absurd hup state, fun hup ↦ absurd hup state⟩

omit [DoubleOps D] in
theorem timesOut (h : Consistent p c) (ht : TimesOut c c') : Consistent p c' := by
  cases ht with
  | waited => exact h
  | gaveUp _ sends closes =>
    exact h.idle (closes.kept.decoder.trans sends.kept.decoder)
      (ne_of_eq_of_ne closes.state (by decide))
  | idle state sends => exact h.idle sends.kept.decoder fun hup ↦ state (sends.quiet.state hup)

end Consistent

theorem consistent_invariant : Invariant (fun _ _ ↦ True) (Consistent (D := D)) where
  turn holds _ _ _ h ht := h.turn holds ht
  closes h hc := h.idle hc.kept.decoder (ne_of_eq_of_ne hc.state (by decide))
  handleClosed h := by
    refine ⟨h.streamed, h.told, fun hup bound ↦ ?_⟩
    obtain ⟨hcounted, hsoon⟩ := h.counted hup bound
    exact ⟨hcounted.note ⟨fun _ _ ↦ by simp, fun _ ↦ by simp⟩ (fun _ ↦ by simp) (by simp), hsoon⟩

omit [DoubleOps D] in
/-- What is in of a payload, as the decoder has it. -/
theorem Consistent.payloadBytesNow {p : Bytes} {c : Conversation D} (holds : At c.decoder p)
    (h : Consistent p c) (state : c.state = .uploading) :
    inside c.decoder.streaming p = payloadBytesNow isUploadData c.decoder := by
  have hheader : c.decoder.state = .header →
      LoggerAnalyzer.payloadBytesNow isUploadData c.decoder = 0 := fun hstate ↦
    if_neg fun hboth ↦ absurd (hstate.symm.trans hboth.1) (by decide)
  cases holds with
  | head _ hstate _ _ streaming => rw [hheader hstate, streaming, inside, if_neg (by decide)]
  | bad _ _ hstate _ _ streaming => rw [hheader hstate, streaming, inside, if_neg (by decide)]
  | body hin =>
    have hlong := hin.header_le
    have htold := h.told state hlong hin.good (by have := hin.lt_total; omega)
    rw [LoggerAnalyzer.payloadBytesNow, inside, hin.header, ← htold, hin.got]
    exact if_congr (by simp [hin.state]) rfl rfl

end Conversation

namespace TcpSession

open Conversation

variable {D : Type} [DoubleOps D]

/-! ## The claim -/

/-- The counters of an upload agree with each other and with the payload bytes of the frames `which`
that the client has sent. -/
structure Accounts (which : FrameHeader → Bool) (s : TcpSession D) : Prop where
  received : s.upload.received
    = payloadBytes which s.timeline + payloadBytesNow which s.decoder
  within : s.upload.received ≤ s.upload.declared
  lastAckAt : s.upload.lastAckAt ≤ s.upload.received
  soon : s.upload.received - s.upload.lastAckAt < kAckIntervalBytes
  noWrap : sub64 s.upload.received s.upload.lastAckAt = s.upload.received - s.upload.lastAckAt
  acks : (0 :: ackCounts s.timeline).IsChain (· + kAckIntervalBytes ≤ ·)
  lines : s.upload.agg.totalLines = s.upload.splitter.lines
  offset : s.upload.splitter.oversize = 0 →
    s.upload.lineOffset + s.upload.splitter.carry.length = s.upload.received

/-- **The counters of an upload agree** in every session reached. -/
theorem Reached.accounts {config : SessionConfig} {env : Env} {s : TcpSession D}
    (reached : Reached config env s) (uploading : s.state = .uploading)
    (bound : s.upload.declared < 2 ^ 63) : Accounts isUploadData s := by
  have hstart : Consistent [] (start (D := D) config env).conversation := by
    refine ⟨fun h ↦ absurd h ?_, fun h ↦ absurd h ?_, fun h ↦ absurd h ?_⟩ <;>
      simp [conversation, start]
  obtain ⟨p, holds, hconsistent⟩ := consistent_invariant.reached (fun h ht ↦ h.timesOut ht)
    (sits_start hstart) reached
  obtain ⟨hcounted, hsoon⟩ := hconsistent.counted uploading bound
  rw [hconsistent.payloadBytesNow holds uploading] at hcounted
  have hfed := (reached.analysed.during uploading).1
  have hsplitter : s.upload.splitter = (fed D (uploadPieces s.timeline)).1 :=
    congrArg Prod.fst hfed
  have hagg : s.upload.agg = (fed D (uploadPieces s.timeline)).2.1 :=
    congrArg (fun st ↦ st.2.1) hfed
  have hoffset : s.upload.lineOffset = (fed D (uploadPieces s.timeline)).2.2 :=
    congrArg (fun st ↦ st.2.2) hfed
  have hwithin : s.upload.received ≤ s.upload.declared := hcounted.within
  refine ⟨hcounted.received, hwithin, hcounted.lastAckAt, hsoon, ?_, ?_, ?_, fun hover ↦ ?_⟩
  · exact sub64_of_le hcounted.lastAckAt (by omega)
  · exact hcounted.acks.isChain
  · rw [hagg, hsplitter]
    exact fed_totalLines _
  · rw [hsplitter, fed_oversize, uploadOversize_eq_zero_iff] at hover
    rw [hsplitter, hoffset, fed_offset hover]
    exact hcounted.fed

/-- A session that expects five bytes and has `bytes` of a chunk of `length` bytes. -/
def inChunk (length : ℕ) (bytes : Bytes) : TcpSession ℚ :=
  (start plainConfig calmEnv).run [.read (wire [(.hello, helloPayload 1 (ascii "client")),
      (.uploadBegin, uploadBeginPayload 5 (ascii "log.txt"))]
    ++ encodeHeader { type := .uploadChunk, payloadLen := UInt64.ofNat length } ++ bytes)]

theorem reached_inChunk (length : ℕ) (bytes : Bytes) :
    Reached plainConfig calmEnv (inChunk length bytes) := ⟨_, .inl rfl⟩

/-- Two bytes of a chunk of three. -/
theorem accounts_two : Accounts isUploadData (inChunk 3 (ascii "a\n")) :=
  (reached_inChunk 3 (ascii "a\n")).accounts (by decide +kernel) (by decide +kernel)

/-- One byte of a chunk that is too large. -/
theorem not_accounts_large :
    let s := inChunk (kDefaultMaxChunk + 1) (ascii "a")
    Reached plainConfig calmEnv s ∧ s.state = .uploading ∧ s.upload.declared < 2 ^ 63 ∧
      ¬ Accounts (fun header ↦ header.type = .uploadChunk) s := by
  refine ⟨reached_inChunk _ _, by decide +kernel, by decide +kernel, fun h ↦ ?_⟩
  exact absurd h.received (by decide +kernel)

end TcpSession

end LoggerAnalyzer
