import LoggerAnalyzer.Analyze.ResultSize
import LoggerAnalyzer.Session.Earned

/-!
# What a session says

Whatever a session is called for, it keeps its configuration and only adds to what it has sent, and
each frame that it adds can be read by a client: no payload is too long, and a HELLO_ACK or an
UPLOAD_BEGIN_ACK is the one that the code writes. `Says` says so for each function of the session in
turn.
-/

namespace LoggerAnalyzer

open Incremental FrameDecoder

namespace TcpSession

open Conversation

variable {D : Type}

/-- A frame that a session with this configuration may send. -/
structure Sayable (D : Type) (config : SessionConfig) (type : MsgType) (payload : Bytes) :
    Prop where
  length : payload.length ≤ kMaxPayload
  helloAck : type = .helloAck → ∃ s : TcpSession D, s.config = config ∧ payload = s.helloAckPayload
  beginAck : type = .uploadBeginAck → ∃ s : TcpSession D, payload = s.uploadBeginAckPayload

/-! ## The payloads -/

section Payloads

variable {config : SessionConfig}

/-- Any other frame than a HELLO_ACK or an UPLOAD_BEGIN_ACK, if it is short. -/
theorem Sayable.other {type : MsgType} {payload : Bytes} (h : payload.length ≤ kMaxPayload)
    (hne : type ≠ .helloAck ∧ type ≠ .uploadBeginAck) : Sayable D config type payload :=
  ⟨h, fun htype ↦ absurd htype hne.1, fun htype ↦ absurd htype hne.2⟩

/-- A row of values for the modules, none of them long. -/
theorem length_modules_le {f : Module → Bytes} (h : ∀ m, (f m).length ≤ 65537) :
    (Module.all.flatMap f).length ≤ 327685 := by
  have hrow := length_flatMap_le Module.all fun m _ ↦ h m
  rwa [length_all_modules, kModuleCount] at hrow

theorem Sayable.error (code : ErrorCode) (message : Bytes) :
    Sayable D config .error (errorPayload code message) := by
  refine .other ?_ (by decide)
  have hmessage := PayloadWriter.length_str16_le message
  have hmax : 2 + 65537 ≤ kMaxPayload := by decide
  rw [errorPayload, List.length_append, PayloadWriter.length_u16]
  omega

theorem Sayable.of_hello (s : TcpSession D) : Sayable D s.config .helloAck s.helloAckPayload := by
  refine ⟨?_, fun _ ↦ ⟨s, rfl, rfl⟩, fun hne ↦ absurd hne (by decide)⟩
  have hpeer := PayloadWriter.length_str16_le s.config.peer
  have hname := PayloadWriter.length_str16_le
    (ascii "Zhenyu_LoggerAnalyzer/" ++ kServerVersion ++ ascii " libuv " ++ s.config.uvVersion)
  have hmax : 8 + 65537 + 65537 ≤ kMaxPayload := by decide
  rw [helloAckPayload, List.length_append, List.length_append, List.length_append,
    PayloadWriter.length_u32, PayloadWriter.length_u32]
  omega

theorem Sayable.uploadBeginAck (s : TcpSession D) :
    Sayable D config .uploadBeginAck s.uploadBeginAckPayload := by
  refine ⟨?_, fun hne ↦ absurd hne (by decide), fun _ ↦ ⟨s, rfl⟩⟩
  have hnames := length_modules_le fun m ↦ PayloadWriter.length_str16_le m.name
  have hone : (PayloadWriter.u8 (UInt8.ofNat kModuleCount)).length = 1 := rfl
  have hmax : 9 + 327685 ≤ kMaxPayload := by decide
  rw [uploadBeginAckPayload, List.length_append, List.length_append, List.length_append,
    PayloadWriter.length_u32, PayloadWriter.length_u32]
  omega

variable [DoubleOps D]

theorem Sayable.uploadAck (u : UploadState D) : Sayable D config .uploadAck u.ackPayload := by
  refine .other ?_ (by decide)
  have haverage := PayloadWriter.length_str16_le (snprintf 32 (DoubleOps.fixed 6 u.agg.spdAvg))
  have hone : (PayloadWriter.u8 (UInt8.ofNat kModuleCount)).length = 1 := rfl
  have hcounts := length_modules_le (f := fun m ↦
    PayloadWriter.u64 (UInt64.ofNat (u.agg.moduleTotals m))) fun _ ↦ by
      rw [PayloadWriter.length_u64]
      decide
  have hmax : 8 * 5 + 65537 + 1 + 327685 ≤ kMaxPayload := by decide
  simp only [UploadState.ackPayload, List.length_append, PayloadWriter.length_u64]
  omega

theorem Sayable.analyzeDone (u : UploadState D) (elapsedMs rss : ℕ) :
    Sayable D config .analyzeDone (u.donePayload elapsedMs rss) := by
  refine .other ?_ (by decide)
  have haverage := PayloadWriter.length_str16_le (snprintf 32 (DoubleOps.fixed 6 u.agg.spdAvg))
  have hmax : 8 * 9 + 65537 ≤ kMaxPayload := by decide
  simp only [UploadState.donePayload, List.length_append, PayloadWriter.length_u64]
  omega

end Payloads

/-! ## The functions -/

/-- What was sent is still there, and what was added is sayable. -/
structure Says (s s' : TcpSession D) : Prop where
  config : s'.config = s.config
  added : ∃ happenings, s'.timeline = s.timeline ++ happenings ∧
    ∀ type payload, .sent type payload ∈ happenings → Sayable D s.config type payload

namespace Says

variable {s s' s'' : TcpSession D}

theorem refl (s : TcpSession D) : Says s s :=
  ⟨rfl, [], (List.append_nil _).symm, fun _ _ h ↦ absurd h List.not_mem_nil⟩

theorem trans (h : Says s s') (h' : Says s' s'') : Says s s'' := by
  obtain ⟨hconfig, added, htimeline, hall⟩ := h
  obtain ⟨hconfig', added', htimeline', hall'⟩ := h'
  refine ⟨hconfig'.trans hconfig, added ++ added',
    by rw [htimeline', htimeline, List.append_assoc], ?_⟩
  rw [hconfig] at hall'
  exact fun type payload hmem ↦ (List.mem_append.mp hmem).elim (hall type payload)
    (hall' type payload)

/-- Something else in the session changes. -/
theorem congr (h : Says s s') (config : s''.config = s'.config)
    (timeline : s''.timeline = s'.timeline) : Says s s'' := by
  obtain ⟨hconfig, added, htimeline, hall⟩ := h
  exact ⟨config.trans hconfig, added, timeline.trans htimeline, hall⟩

theorem noteSent (h : Says s s') {type : MsgType} {payload : Bytes}
    (hsayable : Sayable D s.config type payload) : Says s (s'.note (.sent type payload)) := by
  refine h.trans ⟨rfl, [.sent type payload], rfl, fun type' payload' hmem ↦ ?_⟩
  obtain ⟨rfl, rfl⟩ := Happening.sent.inj (List.mem_singleton.mp hmem)
  rw [h.config]
  exact hsayable

theorem note (h : Says s s') {happening : Happening}
    (hne : ∀ type payload, happening ≠ .sent type payload) : Says s (s'.note happening) :=
  h.trans ⟨rfl, [happening], rfl, fun type payload hmem ↦
    absurd (List.mem_singleton.mp hmem).symm (hne type payload)⟩

theorem enter (h : Says s s') (state : SessionState) : Says s (s'.enter state) := by
  have hset : Says s { s' with state := state } := h.congr rfl rfl
  exact hset.note (by simp)

theorem flag (h : Says s s') : Says s s'.flag := by
  have hset : Says s { s' with closeAfterFlush := true } := h.congr rfl rfl
  exact hset.note (by simp)

theorem closeHandles (h : Says s s') : Says s s'.closeHandles := by
  have hstopped : Says s { s' with timer := none } := h.congr rfl rfl
  have hclosing : Says s { s' with
      timer := none, handlesClosing := true, pendingClose := s'.pendingClose + 2 } :=
        h.congr rfl rfl
  rw [TcpSession.closeHandles]
  dsimp only
  split_ifs
  · exact hstopped.note (by simp)
  · exact hstopped
  · exact hclosing.note (by simp)
  · exact hclosing

theorem touchIdle (h : Says s s') : Says s s'.touchIdle := by
  rw [TcpSession.touchIdle]
  split_ifs
  · exact h
  · exact h.congr rfl rfl
  · exact h.congr rfl rfl

theorem onHandleClosed (h : Says s s') : Says s s'.onHandleClosed := by
  have hcounted : Says s { s' with pendingClose := s'.pendingClose - 1 } := h.congr rfl rfl
  rw [TcpSession.onHandleClosed]
  dsimp only
  split_ifs
  · exact hcounted
  · exact hcounted.note (by simp)

variable [DoubleOps D]

theorem reportPartialUpload (h : Says s s') (headline : Bytes) :
    Says s (s'.reportPartialUpload headline).2 := by
  rw [TcpSession.reportPartialUpload]
  dsimp only
  split_ifs
  · exact h.congr rfl rfl
  · exact h.congr rfl rfl

theorem close (h : Says s s') : Says s s'.close := by
  rw [TcpSession.close]
  split_ifs
  · exact h
  · exact ((h.enter .closing).reportPartialUpload _).closeHandles
  · exact (h.enter .closing).closeHandles

theorem send (h : Says s s') {type : MsgType} {payload : Bytes}
    (hsayable : Sayable D s.config type payload) : Says s (s'.send type payload) := by
  rw [TcpSession.send]
  split_ifs
  · exact h
  · cases hhead : s'.env.uvWrite.head with
    | true =>
      simp only [takeUvWrite, hhead]
      have hwritten : Says s { s' with
          env := { s'.env with uvWrite := s'.env.uvWrite.tail }
          writes := s'.writes ++ [serializeFrame type payload] } := h.congr rfl rfl
      exact hwritten.noteSent hsayable
    | false =>
      simp only [takeUvWrite, hhead]
      have hrefused : Says s { s' with
          env := { s'.env with uvWrite := s'.env.uvWrite.tail } } := h.congr rfl rfl
      exact hrefused.close

theorem sendResultCsv (h : Says s s') : Says s s'.sendResultCsv := by
  have hname := PayloadWriter.length_str16_le (ascii "result.csv")
  have hmax : 8 + 65537 ≤ kMaxPayload := by decide
  have hbegin : (resultBeginPayload s'.upload.resultCsv).length ≤ kMaxPayload := by
    rw [resultBeginPayload, List.length_append, PayloadWriter.length_u64]
    omega
  have hchunks : ∀ (chunks : List Bytes), (∀ chunk ∈ chunks, chunk.length ≤ kMaxPayload) →
      ∀ s' : TcpSession D, Says s s' →
        Says s (chunks.foldl (fun s chunk ↦ s.send .resultChunk chunk) s') := by
    intro chunks hshort
    induction chunks with
    | nil => exact fun _ h ↦ h
    | cons chunk chunks ih =>
      rw [List.forall_mem_cons] at hshort
      exact fun _ h ↦ ih hshort.2 _ (h.send (.other hshort.1 (by decide)))
  refine (hchunks _ (fun chunk hmem ↦ ?_) _ (h.send (.other hbegin (by decide)))).send
    (.other (Nat.zero_le _) (by decide))
  exact Nat.le_trans (length_resultChunks hmem).2 (by decide)

theorem abortUpload (h : Says s s') (code : ErrorCode) (message : Bytes) :
    Says s (s'.abortUpload code message) := by
  have haborted := ((h.reportPartialUpload message).enter .ready).send
    (.error code (s'.reportPartialUpload message).1)
  rw [TcpSession.abortUpload]
  split_ifs
  · exact haborted.congr rfl rfl
  · exact haborted.flag

theorem acknowledge (h : Says s s') : Says s s'.acknowledge := by
  rw [TcpSession.acknowledge]
  split_ifs
  · have hacked : Says s ({ s' with upload := acked s'.upload } : TcpSession D).takeHrtime.2 :=
      h.congr rfl rfl
    exact hacked.send (.uploadAck (acked s'.upload))
  · exact h

theorem payloadChunk (h : Says s s') (piece : Bytes) : Says s (s'.payloadChunk piece) := by
  rw [TcpSession.payloadChunk]
  split_ifs
  · exact h
  · have hcounted : Says s { s' with upload := counted piece s'.upload } := h.congr rfl rfl
    have hfed : Says s { s' with upload := (counted piece s'.upload).feed piece } := h.congr rfl rfl
    dsimp only
    split_ifs
    · exact hcounted.abortUpload _ _
    · exact (hfed.note (by simp)).acknowledge

theorem handleHello (h : Says s s') : Says s s'.handleHello.1 := by
  rw [handleHello_eq]
  cases helloFields s'.decoder.payload with
  | none => exact (h.send (.error _ _)).flag
  | some name =>
    have hnamed : Says s { s' with clientName := name } := h.congr rfl rfl
    have hready := hnamed.enter .ready
    refine hready.send ?_
    rw [← hready.config]
    exact .of_hello _

theorem handleUploadBegin (h : Says s s') : Says s s'.handleUploadBegin.1 := by
  rw [handleUploadBegin_eq]
  cases uploadBeginFields s'.decoder.payload with
  | none => exact (h.send (.error _ _)).flag
  | some fields =>
    obtain ⟨total, name⟩ := fields
    dsimp only
    split_ifs
    · exact h.send (.error _ _)
    · have hfresh : Says s { s'.takeHrtime.2 with
          upload := freshUpload s'.config.id total name s'.takeHrtime.1 s'.upload } :=
            h.congr rfl rfl
      have hbegun : Says s (s'.beginUpload total name) := hfresh.enter .uploading
      exact hbegun.send (.uploadBeginAck _)

theorem handleUploadEnd (h : Says s s') : Says s s'.handleUploadEnd.1 := by
  rw [TcpSession.handleUploadEnd]
  split
  · exact h.abortUpload .unexpectedType _
  · split_ifs
    · exact h.abortUpload .sizeMismatch _
    · have hanalyzed : Says s s'.analyze.2.2 := h.congr rfl rfl
      exact (hanalyzed.send (.analyzeDone _ _ _)).sendResultCsv.enter _

theorem dispatchFrame (h : Says s s') : Says s s'.dispatchFrame.1 := by
  have hnoted : Says s (s'.note (.received s'.decoder.header s'.decoder.payload)) :=
    h.note (by simp)
  rw [TcpSession.dispatchFrame]
  generalize s'.note (.received s'.decoder.header s'.decoder.payload) = t at hnoted ⊢
  split
  · split_ifs
    · exact (hnoted.send (.error _ _)).flag
    · exact hnoted.handleHello
  · split_ifs
    · exact hnoted.close
    · exact hnoted.handleUploadBegin
    · exact hnoted
    · exact hnoted.send (.error _ _)
  · split_ifs
    · exact hnoted.abortUpload .payloadTooLarge _
    · exact hnoted
    · exact hnoted.handleUploadEnd
    · exact hnoted.abortUpload .cancelled _
    · exact hnoted.abortUpload .unexpectedType _
  · exact hnoted

theorem turn (h : Says s s') (data : Bytes) : Says s (s'.turn data).1 := by
  have hfed : Says s (s'.decoder.feed (some sink) data s').sink := by
    rw [feed_eq]
    dsimp only
    generalize (advance _ data s'.decoder).piece = piece
    cases piece with
    | none => exact h
    | some piece => exact h.payloadChunk piece
  rw [TcpSession.turn]
  generalize s'.decoder.feed (some sink) data s' = fed at hfed ⊢
  dsimp only
  split
  · exact hfed.congr rfl rfl
  · have hset : Says s { fed.sink with decoder := fed.decoder } := hfed.congr rfl rfl
    exact (hset.send (.error _ _)).flag
  · have hcounted : Says s { fed.sink with
        decoder := fed.decoder, rxFrames := fed.sink.rxFrames + 1 } := hfed.congr rfl rfl
    exact hcounted.dispatchFrame.congr rfl rfl

theorem process (h : Says s s') (fuel : ℕ) (data : Bytes) : Says s (s'.process fuel data) := by
  induction fuel generalizing s' data with
  | zero => exact h
  | succ fuel ih =>
    rw [TcpSession.process]
    split_ifs
    · exact h
    · have hturn := h.turn data
      generalize s'.turn data = r at hturn ⊢
      obtain ⟨s'', _ | left⟩ := r
      · exact hturn
      · exact ih hturn left

theorem onWrite (h : Says s s') (ok : Bool) : Says s (s'.onWrite ok) := by
  have hdone : Says s { s' with writes := s'.writes.tail } := h.congr rfl rfl
  rw [TcpSession.onWrite]
  dsimp only
  split_ifs
  · exact hdone.close
  · exact hdone.close
  · exact hdone

theorem onIdleTimeout (h : Says s s') : Says s s'.onIdleTimeout := by
  rw [TcpSession.onIdleTimeout]
  split_ifs
  · dsimp only
    split_ifs
    · exact h.congr rfl rfl
    · have hstopped : Says s { s' with stallTicks := s'.stallTicks + 1, timer := none } :=
        h.congr rfl rfl
      exact (((hstopped.reportPartialUpload _).enter .ready).send (.error _ _)).close
  · exact (h.send (.error _ _)).flag

/-- **A callback of a session.** -/
theorem step (h : Says s s') (event : Event) : Says s (s'.step event) := by
  cases event with
  | read data =>
    have hcounted : Says s { s' with rxBytes := s'.rxBytes + data.length } := h.congr rfl rfl
    exact (hcounted.process data.length data).touchIdle
  | readEof => exact h.close
  | readError => exact h.close
  | written ok => exact h.onWrite ok
  | idleTimeout => exact h.onIdleTimeout
  | handleClosed => exact h.onHandleClosed

/-- **A run of a session.** -/
theorem run (h : Says s s') (events : List Event) : Says s (s'.run events) := by
  induction events generalizing s' with
  | nil => exact h
  | cons event events ih => exact ih (h.step event)

end Says

end TcpSession

end LoggerAnalyzer
