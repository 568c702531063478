import LoggerAnalyzer.Analyze.ResultSize
import LoggerAnalyzer.Client.ServerConnection
import LoggerAnalyzer.Client.TransferClient
import LoggerAnalyzer.Session.Transport

/-!
# No result is too large

A client refuses a result of more than 64 MiB. The result is made of what the aggregator keeps, and
`length_buildResultCsv_lt` says that it is smaller when no fragment is longer than a read. What is
left is that the session brings about what that theorem asks for: `Sized` is about the conversation,
the name in an UPLOAD_BEGIN and the pieces of a read, and `Dated` about the readings that are put
into the result.
-/

namespace LoggerAnalyzer

open Incremental FrameDecoder

/-- The size of the buffer that libuv reads into. -/
def kReadBuffer : ℕ := 262144

theorem PayloadReader.length_of_str16 {r : PayloadReader} {s : Bytes} (h : r.str16.1 = some s) :
    s.length ≤ 0xFFFF := by
  rw [PayloadReader.str16] at h
  split at h
  · cases h
  · rename_i n r' _
    rw [PayloadReader.field] at h
    split_ifs at h
    cases h
    exact (List.length_take_le ..).trans (Nat.le_of_lt_succ n.toNat_lt)

theorem uploadBeginFields_name {payload name : Bytes} {total : ℕ}
    (h : uploadBeginFields payload = some (total, name)) : name.length ≤ 0xFFFF := by
  rw [uploadBeginFields] at h
  split at h
  · rename_i hname
    cases h
    exact PayloadReader.length_of_str16 hname
  · cases h

/-- What is handed over of some bytes is no longer than they are. -/
theorem length_pieceOf_le {streaming : Bool} {xs : Bytes} {n : ℕ} (h : xs.length ≤ n) :
    ∀ b ∈ pieceOf streaming xs, b.length ≤ n := by
  intro b hb
  rw [pieceOf] at hb
  split_ifs at hb
  · cases hb
    exact h
  · cases hb

/-- What a read brings of the payload of the frame that it completes. -/
theorem length_drop_of_item {p data rest : Bytes} {f : Frame}
    (h : nextFrame (p ++ data) = .item f rest) :
    (f.payload.drop (p.length - kHeaderSize)).length ≤ data.length := by
  obtain ⟨raw, happ, hraw, -, hpayload, -⟩ := nextFrame_item h
  have hlen := congrArg List.length happ
  rw [List.length_append, List.length_append] at hlen
  rw [hpayload, List.length_drop, List.length_drop]
  omega

/-! ## Names and pieces -/

namespace Conversation

variable {D : Type}

/-- The name of the file and the pieces of the upload are short. -/
structure Sized (c : Conversation D) : Prop where
  name : c.upload.name.length ≤ 0xFFFF
  received : c.upload.received < 2 ^ 64
  pieces : ∀ piece ∈ uploadPieces c.timeline, piece.length ≤ kReadBuffer

namespace Sized

variable {c c' : Conversation D}

theorem quiet (h : Sized c) (hq : Quiet c c') : Sized c' := by
  obtain ⟨hupload, hpieces, -⟩ := hq
  exact ⟨hupload ▸ h.name, hupload ▸ h.received, hpieces ▸ h.pieces⟩

/-- Another upload of the same name. -/
theorem setUpload (h : Sized c) {u : UploadState D} (name : u.name = c.upload.name)
    (received : u.received < 2 ^ 64) : Sized (c.setUpload u) :=
  ⟨name ▸ h.name, received, h.pieces⟩

theorem enterReady (h : Sized c) : Sized (c.enter .ready) := h.quiet (.enter c (by decide))

variable [DoubleOps D]

omit [DoubleOps D] in
theorem counted_lt (piece : Bytes) (u : UploadState D) : (counted piece u).received < 2 ^ 64 :=
  Nat.mod_lt _ (by decide)

theorem take (h : Sized c) {piece : Bytes} (hpiece : piece.length ≤ kReadBuffer) :
    Sized (c.take piece) := by
  refine ⟨h.name, counted_lt piece c.upload, ?_⟩
  have hpieces : uploadPieces (c.take piece).timeline = uploadPieces c.timeline ++ [piece] :=
    uploadPieces_fed _ _
  rw [hpieces, List.forall_mem_append, List.forall_mem_singleton]
  exact ⟨h.pieces, hpiece⟩

theorem takes (h : Sized c) {piece : Bytes} (hpiece : piece.length ≤ kReadBuffer)
    (ht : Takes piece c c') : Sized c' := by
  cases ht with
  | ignored => exact h
  | overrun state beyond sends =>
    have hcounted := h.setUpload (u := counted piece c.upload) rfl (counted_lt piece c.upload)
    exact (hcounted.enterReady.quiet sends.quiet).quiet (.flag _)
  | fed => exact h.take hpiece
  | acknowledged state within sends =>
    have htake := h.take hpiece
    exact (htake.setUpload (u := acked (c.take piece).upload) rfl htake.received).quiet sends.quiet

theorem reacts {goesOn : Bool} (h : Sized c) (hr : Reacts c c' goesOn) : Sized c' := by
  cases hr with
  | refused why sends => exact (h.quiet sends.quiet).quiet (.flag _)
  | greeted state type fields sends => exact h.enterReady.quiet sends.quiet
  | scolded state why sends => exact h.quiet sends.quiet
  | goodbye state type closes => exact h.quiet closes.quiet
  | nothing => exact h
  | @began _ total name id startNs payload state type fields pos sends =>
    refine Sized.quiet ⟨uploadBeginFields_name fields, Nat.two_pow_pos 64, ?_⟩ sends.quiet
    have hpieces : uploadPieces ((c.setUpload (freshUpload id total name startNs c.upload)).enter
        .uploading).timeline = [] := uploadPieces_uploading _
    rw [hpieces]
    exact fun _ hmem ↦ absurd hmem List.not_mem_nil
  | chunk => exact h
  | aborted state why sends => exact (h.enterReady.quiet sends.quiet).quiet (.flag _)
  | cancelled state type sends =>
    have hready := h.enterReady.quiet sends.quiet
    exact ⟨Nat.zero_le _, Nat.two_pow_pos 64, hready.pieces⟩
  | @finished _ utcNow elapsedMs rss state type fields complete sends =>
    have hbuilt := h.setUpload (u := c.upload.finish.build utcNow elapsedMs rss) rfl h.received
    exact (hbuilt.quiet sends.quiet).enterReady
  | closing => exact h

theorem turn {p data p' : Bytes} {left : Option Bytes} (h : Sized c)
    (hdata : data.length ≤ kReadBuffer) (ht : Turn p data c left p' c') : Sized c' := by
  have hpiece : ∀ {piece : Option Bytes} {c' : Conversation D},
      (∀ b ∈ piece, b.length ≤ kReadBuffer) → TakesPiece piece c c' → Sized c' :=
    fun hlen htakes ↦ by
      cases htakes with
      | none => exact h
      | some takes => exact h.takes (hlen _ rfl) takes
  cases ht with
  | more next holds' asked takes =>
    have hshort := (List.drop_sublist (kHeaderSize - p.length) data).length_le.trans hdata
    have hsized := hpiece (length_pieceOf_le hshort) takes
    exact ⟨hsized.name, hsized.received, hsized.pieces⟩
  | @fail d e c₁ next holds' error sends =>
    have hdecoder : Sized { c with decoder := d } := ⟨h.name, h.received, h.pieces⟩
    exact (hdecoder.quiet sends.quiet).quiet (.flag _)
  | @item d f rest c₁ c₂ goesOn next completed asked takes reacts =>
    have hshort := (length_drop_of_item next).trans hdata
    have hsized := hpiece (length_pieceOf_le hshort) takes
    have hdecoder : Sized { c₁ with decoder := d } := ⟨hsized.name, hsized.received, hsized.pieces⟩
    obtain ⟨hname, hreceived, hpieces⟩ := (hdecoder.quiet (.receive _)).reacts reacts
    exact ⟨hname, hreceived, hpieces⟩

omit [DoubleOps D] in
theorem timesOut (h : Sized c) (ht : TimesOut c c') : Sized c' := by
  cases ht with
  | waited => exact h
  | gaveUp state sends closes => exact (h.enterReady.quiet sends.quiet).quiet closes.quiet
  | idle state sends => exact (h.quiet sends.quiet).quiet (.flag _)

end Sized

theorem sized_invariant [DoubleOps D] :
    Invariant (fun (_ : Conversation D) data ↦ data.length ≤ kReadBuffer) (fun _ c ↦ Sized c) where
  turn _ _ _ hdata h ht := h.turn hdata ht
  closes h hc := h.quiet hc.quiet
  handleClosed h := h.quiet (.note _ (by simp) (by simp))

end Conversation

/-! ## Readings -/

/-- The readings are what the code can get. -/
structure Env.Fits (env : Env) : Prop where
  utcNow : ∀ n, ∃ t, env.utcNow.get n = LoggerAnalyzer.utcNow t
  peakRss : ∀ n, env.peakRss.get n < 2 ^ 64

/-- A result, if there is one, was made of the upload and of readings. -/
def UploadState.Made {D : Type} [DoubleOps D] (u : UploadState D) : Prop :=
  u.resultCsv = [] ∨ ∃ t elapsedMs rss, elapsedMs < 2 ^ 64 ∧ rss < 2 ^ 64 ∧
    u.resultCsv = buildResultCsv (utcNow t) u.agg ⟨u.name, u.received, elapsedMs, rss⟩

theorem UploadState.made_build {D : Type} [DoubleOps D] (u : UploadState D) (t : Tm)
    {elapsedMs rss : ℕ} (helapsed : elapsedMs < 2 ^ 64) (hrss : rss < 2 ^ 64) :
    (u.build (utcNow t) elapsedMs rss).Made :=
  .inr ⟨t, elapsedMs, rss, helapsed, hrss, rfl⟩

namespace TcpSession

open Conversation

variable {D : Type}

/-- On the way from `s` to `s'` nothing is analysed, and readings are all that is taken. -/
structure Keeps (s s' : TcpSession D) : Prop where
  env : s.env.Fits → s'.env.Fits
  quiet : Quiet s.conversation s'.conversation

namespace Keeps

variable {s s' s'' : TcpSession D}

theorem of_eq (env : s'.env = s.env) (conversation : s'.conversation = s.conversation) :
    Keeps s s' :=
  ⟨fun h ↦ env ▸ h, conversation ▸ .refl _⟩

theorem trans (h : Keeps s s') (h' : Keeps s' s'') : Keeps s s'' :=
  ⟨h'.env ∘ h.env, h.quiet.trans h'.quiet⟩

theorem enter (s : TcpSession D) {state : SessionState} (h : state ≠ .uploading) :
    Keeps s (s.enter state) := ⟨id, .enter s.conversation h⟩

theorem flag (s : TcpSession D) : Keeps s s.flag := ⟨id, .flag s.conversation⟩

variable [DoubleOps D]

theorem env_reportPartialUpload (headline : Bytes) (s : TcpSession D) (h : s.env.Fits) :
    (s.reportPartialUpload headline).2.env.Fits := by
  rw [TcpSession.reportPartialUpload]
  dsimp only
  split_ifs
  · exact ⟨h.utcNow, fun n ↦ h.peakRss (n + 1)⟩
  · exact ⟨h.utcNow, fun n ↦ h.peakRss (n + 1)⟩

theorem reportPartialUpload (headline : Bytes) (s : TcpSession D) :
    Keeps s (s.reportPartialUpload headline).2 where
  env := env_reportPartialUpload headline s
  quiet := conversation_reportPartialUpload headline s ▸ .refl _

omit [DoubleOps D] in
theorem env_closeHandles (s : TcpSession D) : s.closeHandles.env = s.env := by
  rw [TcpSession.closeHandles]
  dsimp only
  split_ifs <;> rfl

theorem close (s : TcpSession D) : Keeps s s.close := by
  refine ⟨fun h ↦ ?_, s.closes_close.quiet⟩
  rw [TcpSession.close]
  split_ifs
  · exact h
  · rw [env_closeHandles]
    exact env_reportPartialUpload _ _ h
  · rw [env_closeHandles]
    exact h

theorem send (type : MsgType) (payload : Bytes) (s : TcpSession D) :
    Keeps s (s.send type payload) := by
  refine ⟨fun h ↦ ?_, (sends_send type payload s).quiet⟩
  rw [TcpSession.send]
  split_ifs
  · exact h
  · have htail : { s.env with uvWrite := s.env.uvWrite.tail }.Fits := ⟨h.utcNow, h.peakRss⟩
    cases hhead : s.env.uvWrite.head with
    | true =>
      simp only [takeUvWrite, hhead]
      exact htail
    | false =>
      simp only [takeUvWrite, hhead]
      exact (close _).env htail

theorem sendResultCsv (s : TcpSession D) : Keeps s s.sendResultCsv := by
  have hchunks : ∀ (chunks : List Bytes) (s : TcpSession D),
      Keeps s (chunks.foldl (fun s chunk ↦ s.send .resultChunk chunk) s) := by
    intro chunks
    induction chunks with
    | nil => exact fun s ↦ of_eq rfl rfl
    | cons chunk chunks ih => exact fun s ↦ (send _ _ s).trans (ih _)
  exact ((send _ _ s).trans (hchunks _ _)).trans (send _ _ _)

omit [DoubleOps D] in
theorem touchIdle (s : TcpSession D) : Keeps s s.touchIdle := by
  refine of_eq ?_ (conversation_touchIdle s)
  rw [TcpSession.touchIdle]
  split_ifs <;> rfl

/-- The state that an abort leads to, but for the flag and the upload. -/
theorem aborted (code : ErrorCode) (message : Bytes) (s : TcpSession D) :
    Keeps s (((s.reportPartialUpload message).2.enter .ready).sendError code
      (s.reportPartialUpload message).1) :=
  ((reportPartialUpload message s).trans (enter _ (by decide))).trans (send _ _ _)

end Keeps

variable [DoubleOps D]

/-- The readings fit, those to come and those that a result was made with. -/
structure Dated (s : TcpSession D) : Prop where
  env : s.env.Fits
  during : s.state = .uploading → s.upload.resultCsv = []
  made : s.upload.Made

namespace Dated

variable {s s' : TcpSession D}

theorem keeps (h : Dated s) (hk : Keeps s s') : Dated s' := by
  have hupload : s'.upload = s.upload := hk.quiet.upload
  exact ⟨hk.env h.env, fun hs ↦ hupload ▸ h.during (hk.quiet.state hs), hupload ▸ h.made⟩

/-- The upload is another, without a result. -/
theorem setUpload (h : Dated s) {u : UploadState D} (hcsv : u.resultCsv = []) :
    Dated { s with upload := u } := ⟨h.env, fun _ ↦ hcsv, .inl hcsv⟩

theorem abortUpload (h : Dated s) (code : ErrorCode) (message : Bytes) :
    Dated (s.abortUpload code message) := by
  have haborted := h.keeps (Keeps.aborted code message s)
  rw [TcpSession.abortUpload]
  split_ifs
  · exact haborted.setUpload rfl
  · exact haborted.keeps (.flag _)

theorem acknowledge (h : Dated s) (hcsv : s.upload.resultCsv = []) : Dated s.acknowledge := by
  rw [TcpSession.acknowledge]
  split_ifs
  · have hacked : Dated ({ s with upload := acked s.upload } : TcpSession D).takeHrtime.2 :=
      ⟨⟨h.env.utcNow, h.env.peakRss⟩, fun _ ↦ hcsv, .inl hcsv⟩
    exact hacked.keeps (.send .uploadAck (acked s.upload).ackPayload _)
  · exact h

theorem payloadChunk (h : Dated s) (piece : Bytes) : Dated (s.payloadChunk piece) := by
  rw [TcpSession.payloadChunk]
  by_cases hup : s.state = .uploading
  · have hcsv := h.during hup
    have hcounted := h.setUpload (u := counted piece s.upload) hcsv
    have hfed : Dated (TcpSession.note (.fed piece)
        { s with upload := (counted piece s.upload).feed piece }) :=
      ⟨h.env, fun _ ↦ hcsv, .inl hcsv⟩
    rw [if_neg (not_not.mpr hup)]
    dsimp only
    split_ifs
    · exact hcounted.abortUpload _ _
    · exact hfed.acknowledge hcsv
  · rw [if_pos hup]
    exact h

theorem handleHello (h : Dated s) : Dated s.handleHello.1 := by
  rw [handleHello_eq]
  cases helloFields s.decoder.payload with
  | none => exact (h.keeps (.send _ _ _)).keeps (.flag _)
  | some name =>
    have hnamed : Dated { s with clientName := name } := ⟨h.env, h.during, h.made⟩
    have hready := hnamed.keeps (.enter _ (show SessionState.ready ≠ .uploading by decide))
    exact hready.keeps (.send _ _ _)

theorem handleUploadBegin (h : Dated s) : Dated s.handleUploadBegin.1 := by
  rw [handleUploadBegin_eq]
  cases uploadBeginFields s.decoder.payload with
  | none => exact (h.keeps (.send _ _ _)).keeps (.flag _)
  | some fields =>
    obtain ⟨total, name⟩ := fields
    dsimp only
    split_ifs
    · exact h.keeps (.send _ _ _)
    · have hbegun : Dated (s.beginUpload total name) :=
        ⟨⟨h.env.utcNow, h.env.peakRss⟩, fun _ ↦ rfl, .inl rfl⟩
      exact hbegun.keeps (.send _ _ _)

theorem elapsed_analyze_lt (s : TcpSession D) : s.analyze.1 < 2 ^ 64 := by
  have hsub : sub64 s.env.hrtime.head s.upload.startNs < 2 ^ 64 := Nat.mod_lt _ (by decide)
  exact Nat.lt_of_le_of_lt (Nat.div_le_self _ 1000000) hsub

theorem made_analyze (h : Dated s) : s.analyze.2.2.upload.Made := by
  obtain ⟨t, ht⟩ := h.env.utcNow 0
  have hmade := s.upload.finish.made_build t (elapsed_analyze_lt s) (h.env.peakRss 0)
  rw [← ht] at hmade
  exact hmade

/-- The upload is complete and becomes a result, and the session leaves the upload. -/
theorem finishUpload (h : Dated s) : Dated s.finishUpload := by
  have hbuilt := h.made_analyze
  have henv : s.analyze.2.2.env.Fits :=
    ⟨fun n ↦ h.env.utcNow (n + 1), fun n ↦ h.env.peakRss (n + 1)⟩
  rw [TcpSession.finishUpload]
  generalize s.analyze = done at hbuilt henv ⊢
  obtain ⟨elapsedMs, rss, s'⟩ := done
  dsimp only at hbuilt henv ⊢
  have hsent := (Keeps.send .analyzeDone (s'.upload.donePayload elapsedMs rss) s').trans
    (.sendResultCsv _)
  generalize (s'.send .analyzeDone (s'.upload.donePayload elapsedMs rss)).sendResultCsv = s''
    at hsent ⊢
  have hupload : s''.upload = s'.upload := hsent.quiet.upload
  refine ⟨hsent.env henv, fun hs ↦ ?_, hupload ▸ hbuilt⟩
  have hready : SessionState.ready = .uploading := hs
  exact absurd hready (by decide)

theorem handleUploadEnd (h : Dated s) : Dated s.handleUploadEnd.1 := by
  rw [TcpSession.handleUploadEnd]
  split
  · exact h.abortUpload .unexpectedType _
  · split_ifs
    · exact h.abortUpload .sizeMismatch _
    · exact h.finishUpload

theorem dispatchFrame (h : Dated s) : Dated s.dispatchFrame.1 := by
  have hnoted : Dated (s.note (.received s.decoder.header s.decoder.payload)) :=
    ⟨h.env, h.during, h.made⟩
  rw [TcpSession.dispatchFrame]
  generalize s.note (.received s.decoder.header s.decoder.payload) = t at hnoted ⊢
  split
  · split_ifs
    · exact (hnoted.keeps (.send _ _ _)).keeps (.flag _)
    · exact hnoted.handleHello
  · split_ifs
    · exact hnoted.keeps (.close _)
    · exact hnoted.handleUploadBegin
    · exact hnoted
    · exact hnoted.keeps (.send _ _ _)
  · split_ifs
    · exact hnoted.abortUpload .payloadTooLarge _
    · exact hnoted
    · exact hnoted.handleUploadEnd
    · exact hnoted.abortUpload .cancelled _
    · exact hnoted.abortUpload .unexpectedType _
  · exact hnoted

theorem setDecoder (h : Dated s) (d : FrameDecoder) : Dated { s with decoder := d } :=
  ⟨h.env, h.during, h.made⟩

theorem turn (h : Dated s) (data : Bytes) : Dated (s.turn data).1 := by
  have hfed : Dated (s.decoder.feed (some sink) data s).sink := by
    rw [feed_eq]
    dsimp only
    generalize (advance _ data s.decoder).piece = piece
    cases piece with
    | none => exact h
    | some piece => exact h.payloadChunk piece
  rw [TcpSession.turn]
  generalize s.decoder.feed (some sink) data s = fed at hfed ⊢
  dsimp only
  split
  · exact hfed.setDecoder _
  · exact ((hfed.setDecoder _).keeps (.send _ _ _)).keeps (.flag _)
  · have hcounted : Dated { fed.sink with
        decoder := fed.decoder, rxFrames := fed.sink.rxFrames + 1 } :=
      ⟨hfed.env, hfed.during, hfed.made⟩
    exact hcounted.dispatchFrame.setDecoder _

theorem process (h : Dated s) (fuel : ℕ) (data : Bytes) : Dated (s.process fuel data) := by
  induction fuel generalizing s data with
  | zero => exact h
  | succ fuel ih =>
    rw [TcpSession.process]
    split_ifs
    · exact h
    · have hturn := h.turn data
      generalize s.turn data = r at hturn ⊢
      obtain ⟨s', _ | left⟩ := r
      · exact hturn
      · exact ih hturn left

theorem onWrite (h : Dated s) (ok : Bool) : Dated (s.onWrite ok) := by
  have hdone : Dated { s with writes := s.writes.tail } := ⟨h.env, h.during, h.made⟩
  rw [TcpSession.onWrite]
  dsimp only
  split_ifs
  · exact hdone.keeps (.close _)
  · exact hdone.keeps (.close _)
  · exact hdone

theorem onIdleTimeout (h : Dated s) : Dated s.onIdleTimeout := by
  rw [TcpSession.onIdleTimeout]
  by_cases hup : s.state = .uploading
  · have hticked : Dated { s with stallTicks := s.stallTicks + 1 } := ⟨h.env, h.during, h.made⟩
    have hstopped : Dated { s with stallTicks := s.stallTicks + 1, timer := none } :=
      ⟨h.env, h.during, h.made⟩
    rw [if_pos hup]
    dsimp only
    split_ifs
    · exact hticked
    · exact (hstopped.keeps (.aborted .idleTimeout _ _)).keeps (.close _)
  · rw [if_neg hup]
    exact (h.keeps (.send _ _ _)).keeps (.flag _)

theorem onHandleClosed (h : Dated s) : Dated s.onHandleClosed := by
  have hclosed : Dated { s with pendingClose := s.pendingClose - 1 } := ⟨h.env, h.during, h.made⟩
  rw [TcpSession.onHandleClosed]
  dsimp only
  split_ifs
  · exact hclosed
  · exact ⟨hclosed.env, hclosed.during, hclosed.made⟩

theorem step (h : Dated s) (event : Event) : Dated (s.step event) := by
  cases event with
  | read data =>
    have hcounted : Dated { s with rxBytes := s.rxBytes + data.length } :=
      ⟨h.env, h.during, h.made⟩
    exact (hcounted.process data.length data).keeps (.touchIdle _)
  | readEof => exact h.keeps (.close s)
  | readError => exact h.keeps (.close s)
  | written ok => exact h.onWrite ok
  | idleTimeout => exact h.onIdleTimeout
  | handleClosed => exact h.onHandleClosed

theorem run (h : Dated s) (events : List Event) : Dated (s.run events) := by
  induction events generalizing s with
  | nil => exact h
  | cons event events ih => exact ih (h.step event)

/-- The rounds of a read, and what they are about is a part of the read. -/
theorem rounds (h : Dated s) (fuel : ℕ) (data : Bytes) :
    ∀ r ∈ s.rounds fuel data, Dated r.1 := by
  induction fuel generalizing s data with
  | zero => exact fun r hr ↦ absurd hr List.not_mem_nil
  | succ fuel ih =>
    rw [TcpSession.rounds]
    split_ifs
    · exact fun r hr ↦ absurd hr List.not_mem_nil
    · have hturn := h.turn data
      rw [List.forall_mem_cons]
      refine ⟨h, ?_⟩
      generalize s.turn data = r at hturn ⊢
      obtain ⟨s', _ | left⟩ := r
      · exact fun r hr ↦ absurd hr List.not_mem_nil
      · exact ih hturn left

theorem runRounds (h : Dated s) (events : List Event) : ∀ r ∈ s.runRounds events, Dated r.1 := by
  induction events generalizing s with
  | nil => exact fun r hr ↦ absurd hr List.not_mem_nil
  | cons event events ih =>
    rw [TcpSession.runRounds, List.forall_mem_append]
    refine ⟨?_, ih (h.step event)⟩
    cases event with
    | read data =>
      have hcounted : Dated { s with rxBytes := s.rxBytes + data.length } :=
        ⟨h.env, h.during, h.made⟩
      exact hcounted.rounds data.length data
    | _ => exact fun r hr ↦ absurd hr List.not_mem_nil

theorem start {config : SessionConfig} {env : Env} (h : env.Fits) :
    Dated (start (D := D) config env) := ⟨h, fun _ ↦ rfl, .inl rfl⟩

end Dated

/-! ## Reads of a bounded size -/

/-- A round of a read is about a part of it. -/
theorem length_le_of_mem_rounds {fuel : ℕ} {data : Bytes} {s : TcpSession D}
    {r : TcpSession D × Bytes} (hr : r ∈ s.rounds fuel data) : r.2.length ≤ data.length := by
  induction fuel generalizing data s with
  | zero => exact absurd hr List.not_mem_nil
  | succ fuel ih =>
    rw [TcpSession.rounds] at hr
    split_ifs at hr
    · exact absurd hr List.not_mem_nil
    · rcases List.mem_cons.mp hr with rfl | hr
      · exact Nat.le_refl _
      · have hleft : ∀ left ∈ (s.turn data).2, left.length ≤ data.length := by
          intro left hleft
          rw [TcpSession.turn] at hleft
          dsimp only at hleft
          split at hleft
          · cases hleft
          · cases hleft
          · split_ifs at hleft
            · cases hleft
              exact (List.drop_sublist ..).length_le
            · cases hleft
        generalize s.turn data = turned at hr hleft
        obtain ⟨s', _ | left⟩ := turned
        · exact absurd hr List.not_mem_nil
        · exact (ih hr).trans (hleft left rfl)

/-- Reads that fit into the buffer. -/
def Buffered (events : List Event) : Prop :=
  ∀ data, .read data ∈ events → data.length ≤ kReadBuffer

theorem Buffered.runRounds {events : List Event} (h : Buffered events) (s : TcpSession D) :
    ∀ r ∈ s.runRounds events, r.2.length ≤ kReadBuffer := by
  induction events generalizing s with
  | nil => exact fun r hr ↦ absurd hr List.not_mem_nil
  | cons event events ih =>
    rw [TcpSession.runRounds, List.forall_mem_append]
    refine ⟨fun r hr ↦ ?_, ih (fun data hd ↦ h data (List.mem_cons_of_mem _ hd)) _⟩
    cases event with
    | read data => exact (length_le_of_mem_rounds hr).trans (h data List.mem_cons_self)
    | _ => exact absurd hr List.not_mem_nil

theorem length_resultCsv_lt {config : SessionConfig} {env : Env} (henv : env.Fits)
    {events : List Event} (hreads : Buffered events) {s : TcpSession D}
    (hs : s = (TcpSession.start config env).run events ∨
      ∃ data, (s, data) ∈ (TcpSession.start config env).runRounds events)
    (hsize : (uploadPieces s.timeline).flatten.length < 2 ^ 64) :
    s.upload.resultCsv.length < 64 * 1024 * 1024 := by
  have hguard := hreads.runRounds (TcpSession.start (D := D) config env)
  have hstart : Sits (fun _ c ↦ Sized c) (TcpSession.start (D := D) config env).conversation :=
    sits_start ⟨Nat.zero_le _, Nat.two_pow_pos 64, fun _ hmem ↦ absurd hmem List.not_mem_nil⟩
  obtain ⟨hsized, hdated⟩ : Sized s.conversation ∧ Dated s := by
    rcases hs with rfl | ⟨data, hr⟩
    · obtain ⟨_, -, hsized⟩ := sized_invariant.run (fun _ _ _ _ ↦ Sized.timesOut) hstart hguard
      exact ⟨hsized, (Dated.start henv).run events⟩
    · obtain ⟨_, -, hsized⟩ := sized_invariant.runRounds Sized.timesOut hstart hguard _ hr
      exact ⟨hsized, (Dated.start henv).runRounds events _ hr⟩
  have hreached : Reached config env s := ⟨events, hs⟩
  by_cases hnone : s.upload.resultCsv = []
  · rw [hnone]
    decide
  · obtain ⟨hagg, -⟩ := hreached.analysed.result hnone
    obtain ⟨t, elapsedMs, rss, helapsed, hrss, hcsv⟩ := hdated.made.resolve_left hnone
    have hagg : s.upload.agg = analyzed D (uploadPieces s.timeline) := hagg
    have hlimit : LineSplitter.kDefaultMaxLine ≤ kReadBuffer := by decide
    obtain ⟨hfits, hoversize⟩ := fits_analyzed (D := D) hlimit hsized.pieces
    rw [hcsv, hagg]
    exact length_buildResultCsv_lt hfits hsize hsize (Nat.le_refl _)
      (Nat.lt_of_le_of_lt hoversize hsize) (List.length_take_le ..)
      ⟨hsized.name, hsized.received, helapsed, hrss⟩

/-- **No result is too large for a client.** The counters of the code have 64 bits, and up to there
they are those of the model. -/
theorem resultCsv_length_lt {config : SessionConfig} {env : Env} (henv : env.Fits)
    {events : List Event} (hreads : Buffered events) {s : TcpSession D}
    (hs : s = (TcpSession.start config env).run events ∨
      ∃ data, (s, data) ∈ (TcpSession.start config env).runRounds events)
    (hsize : (uploadPieces s.timeline).flatten.length < 2 ^ 64) :
    s.upload.resultCsv.length < TransferClient.kMaxCsvBytes ∧
      (s.upload.resultCsv.length : ℤ) < ServerConnection.maxCsv.toInt := by
  have hlimit : s.upload.resultCsv.length < 64 * 1024 * 1024 :=
    length_resultCsv_lt henv hreads hs hsize
  exact ⟨hlimit, Int.ofNat_lt.mpr hlimit⟩

/-- Surroundings in which the clock has stopped. -/
def stoppedEnv (t : Tm) : Env := { calmEnv with utcNow := Stream'.const (utcNow t) }

theorem fits_stoppedEnv (t : Tm) : (stoppedEnv t).Fits := by
  have hclock : (stoppedEnv t).utcNow = Stream'.const (utcNow t) := by rw [stoppedEnv]
  refine ⟨fun n ↦ ⟨t, ?_⟩, fun _ ↦ Nat.two_pow_pos 64⟩
  rw [hclock, Stream'.get_const]

def noon : Tm := ⟨2025, 3, 1, 12, 0, 0⟩

/-- A whole upload in one read. -/
def oneRead : Bytes := wire (uploadFrames 1 (ascii "client") (ascii "log.txt") [ascii "a\n"])

theorem atHand_oneRead : AtHand [ascii "a\n"]
    ((TcpSession.start (D := ℚ) plainConfig (stoppedEnv noon)).run [.read oneRead]).conversation :=
  have hcalm : ∀ n, (stoppedEnv noon).uvWrite.get n = true := fun _ ↦ rfl
  (atHand_run plainConfig hcalm 1 (ascii "client") (ascii "log.txt") (by decide) (by decide)
    (by decide) (by simp [Event.smooth]) (by simp [Event.bytes, oneRead])).1

theorem resultCsv_length_lt_one_line :
    let s := (TcpSession.start (D := ℚ) plainConfig (stoppedEnv noon)).run [.read oneRead]
    s.upload.resultCsv ≠ [] ∧ s.upload.resultCsv.length < TransferClient.kMaxCsvBytes ∧
      (s.upload.resultCsv.length : ℤ) < ServerConnection.maxCsv.toInt := by
  intro s
  have hlen : oneRead.length ≤ kReadBuffer := by decide +kernel
  have hreads : Buffered [.read oneRead] := fun data hdata ↦ by
    rw [Event.read.inj (List.mem_singleton.mp hdata)]
    exact hlen
  have hpieces : (uploadPieces s.timeline).flatten = [ascii "a\n"].flatten :=
    atHand_oneRead.cut.flatten
  have hsize : (uploadPieces s.timeline).flatten.length < 2 ^ 64 := by
    rw [hpieces]
    decide
  exact ⟨csv_ne_nil atHand_oneRead,
    resultCsv_length_lt (fits_stoppedEnv noon) hreads (.inl rfl) hsize⟩

end TcpSession

end LoggerAnalyzer
