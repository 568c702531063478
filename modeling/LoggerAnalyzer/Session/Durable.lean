import LoggerAnalyzer.Session.Runs

/-!
# What holds whatever a session is called for

Many properties of a session are about a few of its fields: its state, its handles, its queue, what
is on its timeline. The functions of the session touch these in a few ways only, and `Durable` lists
them. A property that keeps through each of them keeps through every function of the session, which
is what this module goes through once.
-/

namespace LoggerAnalyzer

open Incremental FrameDecoder

namespace TcpSession

open Conversation

variable {D : Type} [DoubleOps D]

/-- The property keeps through all that the functions of a session do to the fields it is about. -/
structure Durable (P : TcpSession D → Prop) : Prop where
  congr : ∀ {s s' : TcpSession D}, P s → s'.clientName = s.clientName → s'.timeline = s.timeline →
    s'.writes = s.writes → s'.state = s.state → s'.handlesClosing = s.handlesClosing →
    s'.pendingClose = s.pendingClose → P s'
  note : ∀ {s : TcpSession D} {happening : Happening}, P s →
    (∀ type payload, happening ≠ .sent type payload) → happening ≠ .sessionClosed →
    P (s.note happening)
  enter : ∀ {s : TcpSession D} {state : SessionState}, P s → state ≠ .closing → P (s.enter state)
  named : ∀ {s : TcpSession D} {payload name : Bytes}, P s → helloFields payload = some name →
    P { s with clientName := name }
  queued : ∀ {s : TcpSession D} (type : MsgType) (payload : Bytes), P s →
    P (TcpSession.note (.sent type payload)
      { s with writes := s.writes ++ [serializeFrame type payload] })
  close : ∀ {s : TcpSession D}, P s → P s.close

namespace Durable

variable {P : TcpSession D → Prop} {s : TcpSession D}

theorem flag (hP : Durable P) (h : P s) : P s.flag := by
  have hset : P { s with closeAfterFlush := true } := hP.congr h rfl rfl rfl rfl rfl rfl
  exact hP.note hset (by simp) (by simp)

theorem ready (hP : Durable P) (h : P s) : P (s.enter .ready) := hP.enter h (by decide)

theorem touchIdle (hP : Durable P) (h : P s) : P s.touchIdle := by
  rw [TcpSession.touchIdle]
  split_ifs
  · exact h
  · exact hP.congr h rfl rfl rfl rfl rfl rfl
  · exact hP.congr h rfl rfl rfl rfl rfl rfl

theorem reportPartialUpload (hP : Durable P) (h : P s) (headline : Bytes) :
    P (s.reportPartialUpload headline).2 := by
  rw [TcpSession.reportPartialUpload]
  dsimp only
  split_ifs
  · exact hP.congr h rfl rfl rfl rfl rfl rfl
  · exact hP.congr h rfl rfl rfl rfl rfl rfl

theorem send (hP : Durable P) (h : P s) (type : MsgType) (payload : Bytes) :
    P (s.send type payload) := by
  rw [TcpSession.send]
  split_ifs
  · exact h
  · have hasked : P { s with env := { s.env with uvWrite := s.env.uvWrite.tail } } :=
      hP.congr h rfl rfl rfl rfl rfl rfl
    cases hhead : s.env.uvWrite.head with
    | true =>
      simp only [takeUvWrite, hhead]
      exact hP.queued type payload hasked
    | false =>
      simp only [takeUvWrite, hhead]
      exact hP.close hasked

theorem sendResultCsv (hP : Durable P) (h : P s) : P s.sendResultCsv := by
  have hchunks : ∀ (chunks : List Bytes) (s : TcpSession D), P s →
      P (chunks.foldl (fun s chunk ↦ s.send .resultChunk chunk) s) := by
    intro chunks
    induction chunks with
    | nil => exact fun _ h ↦ h
    | cons chunk chunks ih => exact fun _ h ↦ ih _ (hP.send h _ _)
  exact hP.send (hchunks _ _ (hP.send h _ _)) _ _

theorem abortUpload (hP : Durable P) (h : P s) (code : ErrorCode) (message : Bytes) :
    P (s.abortUpload code message) := by
  have hready := hP.ready (hP.reportPartialUpload h message)
  have haborted := hP.send hready .error (errorPayload code (s.reportPartialUpload message).1)
  rw [TcpSession.abortUpload]
  split_ifs
  · exact hP.congr haborted rfl rfl rfl rfl rfl rfl
  · exact hP.flag haborted

theorem acknowledge (hP : Durable P) (h : P s) : P s.acknowledge := by
  rw [TcpSession.acknowledge]
  split_ifs
  · have hacked : P ({ s with upload := acked s.upload } : TcpSession D).takeHrtime.2 :=
      hP.congr h rfl rfl rfl rfl rfl rfl
    exact hP.send hacked .uploadAck (acked s.upload).ackPayload
  · exact h

theorem payloadChunk (hP : Durable P) (h : P s) (piece : Bytes) : P (s.payloadChunk piece) := by
  rw [TcpSession.payloadChunk]
  split_ifs
  · exact h
  · have hcounted : P { s with upload := counted piece s.upload } :=
      hP.congr h rfl rfl rfl rfl rfl rfl
    have hfed : P { s with upload := (counted piece s.upload).feed piece } :=
      hP.congr h rfl rfl rfl rfl rfl rfl
    dsimp only
    split_ifs
    · exact hP.abortUpload hcounted _ _
    · exact hP.acknowledge (hP.note hfed (by simp) (by simp))

theorem handleHello (hP : Durable P) (h : P s) : P s.handleHello.1 := by
  rw [handleHello_eq]
  cases hfields : helloFields s.decoder.payload with
  | none => exact hP.flag (hP.send h _ _)
  | some name => exact hP.send (hP.ready (hP.named h hfields)) _ _

theorem handleUploadBegin (hP : Durable P) (h : P s) : P s.handleUploadBegin.1 := by
  rw [handleUploadBegin_eq]
  cases uploadBeginFields s.decoder.payload with
  | none => exact hP.flag (hP.send h _ _)
  | some fields =>
    obtain ⟨total, name⟩ := fields
    dsimp only
    split_ifs
    · exact hP.send h _ _
    · have hfresh : P { s.takeHrtime.2 with
          upload := freshUpload s.config.id total name s.takeHrtime.1 s.upload } :=
        hP.congr h rfl rfl rfl rfl rfl rfl
      have hbegun : P (s.beginUpload total name) := hP.enter hfresh (by decide)
      exact hP.send hbegun _ _

theorem handleUploadEnd (hP : Durable P) (h : P s) : P s.handleUploadEnd.1 := by
  rw [TcpSession.handleUploadEnd]
  split
  · exact hP.abortUpload h .unexpectedType _
  · split_ifs
    · exact hP.abortUpload h .sizeMismatch _
    · have hanalyzed : P s.analyze.2.2 := hP.congr h rfl rfl rfl rfl rfl rfl
      exact hP.ready (hP.sendResultCsv (hP.send hanalyzed .analyzeDone _))

theorem dispatchFrame (hP : Durable P) (h : P s) : P s.dispatchFrame.1 := by
  have hnoted : P (s.note (.received s.decoder.header s.decoder.payload)) :=
    hP.note h (by simp) (by simp)
  rw [TcpSession.dispatchFrame]
  generalize s.note (.received s.decoder.header s.decoder.payload) = t at hnoted ⊢
  split
  · split_ifs
    · exact hP.flag (hP.send hnoted _ _)
    · exact hP.handleHello hnoted
  · split_ifs
    · exact hP.close hnoted
    · exact hP.handleUploadBegin hnoted
    · exact hnoted
    · exact hP.send hnoted _ _
  · split_ifs
    · exact hP.abortUpload hnoted .payloadTooLarge _
    · exact hnoted
    · exact hP.handleUploadEnd hnoted
    · exact hP.abortUpload hnoted .cancelled _
    · exact hP.abortUpload hnoted .unexpectedType _
  · exact hnoted

/-- The fields of the decoder are none of those that the property is about. -/
theorem setDecoder (hP : Durable P) (h : P s) (d : FrameDecoder) : P { s with decoder := d } :=
  hP.congr h rfl rfl rfl rfl rfl rfl

theorem turn (hP : Durable P) (h : P s) (data : Bytes) : P (s.turn data).1 := by
  have hfed : P (s.decoder.feed (some sink) data s).sink := by
    rw [feed_eq]
    dsimp only
    generalize (advance _ data s.decoder).piece = piece
    cases piece with
    | none => exact h
    | some piece => exact hP.payloadChunk h piece
  rw [TcpSession.turn]
  generalize s.decoder.feed (some sink) data s = fed at hfed ⊢
  dsimp only
  split
  · exact hP.setDecoder hfed _
  · exact hP.flag (hP.send (hP.setDecoder hfed _) _ _)
  · have hcounted : P { fed.sink with
        decoder := fed.decoder, rxFrames := fed.sink.rxFrames + 1 } :=
      hP.congr hfed rfl rfl rfl rfl rfl rfl
    exact hP.setDecoder (hP.dispatchFrame hcounted) _

theorem process (hP : Durable P) (h : P s) (fuel : ℕ) (data : Bytes) : P (s.process fuel data) := by
  induction fuel generalizing s data with
  | zero => exact h
  | succ fuel ih =>
    rw [TcpSession.process]
    split_ifs
    · exact h
    · have hturn := hP.turn h data
      generalize s.turn data = r at hturn ⊢
      obtain ⟨s', _ | left⟩ := r
      · exact hturn
      · exact ih hturn left

theorem onIdleTimeout (hP : Durable P) (h : P s) : P s.onIdleTimeout := by
  rw [TcpSession.onIdleTimeout]
  split_ifs
  · dsimp only
    split_ifs
    · exact hP.congr h rfl rfl rfl rfl rfl rfl
    · have hstopped : P { s with stallTicks := s.stallTicks + 1, timer := none } :=
        hP.congr h rfl rfl rfl rfl rfl rfl
      exact hP.close (hP.send (hP.ready (hP.reportPartialUpload hstopped _)) _ _)
  · exact hP.flag (hP.send h _ _)

/-- A write is done, and its frame is no longer in the queue. -/
theorem onWrite (hP : Durable P) (hdone : P { s with writes := s.writes.tail }) (ok : Bool) :
    P (s.onWrite ok) := by
  rw [TcpSession.onWrite]
  dsimp only
  split_ifs
  · exact hP.close hdone
  · exact hP.close hdone
  · exact hdone

/-- **The property keeps through every callback**, if it does so when a write is done and when a
handle is closed. -/
theorem step (hP : Durable P) (h : P s) {event : Event}
    (hwritten : ∀ ok, event = .written ok → P { s with writes := s.writes.tail })
    (hclosed : event = .handleClosed → P s.onHandleClosed) : P (s.step event) := by
  cases event with
  | read data =>
    have hcounted : P { s with rxBytes := s.rxBytes + data.length } :=
      hP.congr h rfl rfl rfl rfl rfl rfl
    exact hP.touchIdle (hP.process hcounted data.length data)
  | readEof => exact hP.close h
  | readError => exact hP.close h
  | written ok => exact hP.onWrite (hwritten ok rfl) ok
  | idleTimeout => exact hP.onIdleTimeout h
  | handleClosed => exact hclosed rfl

end Durable

end TcpSession

end LoggerAnalyzer
