import LoggerAnalyzer.Session.Conversation

/-!
# The session keeps to the relations

For each function of the session there is a theorem that its effect on the conversation is one of
those that `Conversation` lists. The last of them, `turn_turn`, is about one round of the loop over
a read. `Invariant.run` then turns what the relations preserve into what a run preserves, and no
later proof looks into the session again.

A statement about runs may depend on what happens in them. `runRounds` lists the sessions that the
rounds of a run start from, so that a condition on a run can be a condition on these.
-/

namespace LoggerAnalyzer

open Incremental FrameDecoder

namespace TcpSession

/-! ## Closing and sending -/

open Conversation

variable {D : Type}

theorem conversation_closeHandles (s : TcpSession D) :
    s.closeHandles.conversation = s.conversation ∨
      s.closeHandles.conversation = s.conversation.note .sessionClosed := by
  rw [closeHandles]
  dsimp only
  split_ifs
  · exact .inr rfl
  · exact .inl rfl
  · exact .inr rfl
  · exact .inl rfl

theorem closes_closeHandles {s : TcpSession D} {c : Conversation D} (opened : c.state ≠ .closing)
    (h : s.conversation = c.enter .closing) : Closes c s.closeHandles.conversation := by
  rcases s.conversation_closeHandles with hsame | hclosed
  · rw [hsame, h]
    exact .handles opened
  · rw [hclosed, h]
    exact .nothing opened

variable [DoubleOps D]

@[simp] theorem conversation_reportPartialUpload (headline : Bytes) (s : TcpSession D) :
    (s.reportPartialUpload headline).2.conversation = s.conversation := by
  rw [reportPartialUpload]
  dsimp only
  split_ifs <;> rfl

theorem closes_close (s : TcpSession D) : Closes s.conversation s.close.conversation := by
  rw [close]
  split_ifs with hclosing huploading
  · exact .again hclosing
  · exact closes_closeHandles hclosing (conversation_reportPartialUpload _ _)
  · exact closes_closeHandles hclosing rfl

theorem sends_send (type : MsgType) (payload : Bytes) (s : TcpSession D) :
    Sends type payload s.conversation (s.send type payload).conversation := by
  rw [send]
  split_ifs with hclosing
  · exact .dropped hclosing
  · cases hhead : s.env.uvWrite.head with
    | true =>
      simp only [takeUvWrite, hhead]
      exact .accepted hclosing hhead
    | false =>
      simp only [takeUvWrite, hhead]
      exact .refused hclosing hhead
        (closes_close { s with env := { s.env with uvWrite := s.env.uvWrite.tail } })

private theorem sendsAll_foldl (chunks : List Bytes) (s : TcpSession D) :
    SendsAll (chunks.map fun chunk ↦ (.resultChunk, chunk)) s.conversation
      (chunks.foldl (fun s chunk ↦ s.send .resultChunk chunk) s).conversation := by
  induction chunks generalizing s with
  | nil => exact .nil
  | cons chunk chunks ih => exact .cons (sends_send _ _ s) (ih _)

theorem sendsAll_sendResultCsv (s : TcpSession D) :
    SendsAll (resultFrames s.upload.resultCsv) s.conversation s.sendResultCsv.conversation :=
  .cons (sends_send _ _ s)
    ((sendsAll_foldl _ _).append (.cons (sends_send _ _ _) .nil))

/-! ## The upload -/

theorem sends_report (code : ErrorCode) (headline : Bytes) (s : TcpSession D) :
    Sends .error (errorPayload code (s.reportPartialUpload headline).1)
      (s.conversation.enter .ready)
      (((s.reportPartialUpload headline).2.enter .ready).sendError code
        (s.reportPartialUpload headline).1).conversation := by
  have hsends := sends_send .error (errorPayload code (s.reportPartialUpload headline).1)
    ((s.reportPartialUpload headline).2.enter .ready)
  exact conversation_reportPartialUpload headline s ▸ hsends

theorem sends_abortUpload (code : ErrorCode) (message : Bytes) (s : TcpSession D) :
    ∃ detail s', Sends .error (errorPayload code detail) (s.conversation.enter .ready)
        (conversation s') ∧
      s.abortUpload code message
        = if code = .cancelled then { s' with upload := s'.upload.clear } else s'.flag := by
  exact ⟨(s.reportPartialUpload message).1, ((s.reportPartialUpload message).2.enter
    .ready).sendError code (s.reportPartialUpload message).1, sends_report code message s, rfl⟩

private theorem acknowledge_cases (s : TcpSession D) :
    s.acknowledge = s ∧ sub64 s.upload.received s.upload.lastAckAt < kAckIntervalBytes ∨
      kAckIntervalBytes ≤ sub64 s.upload.received s.upload.lastAckAt ∧ ∃ s' : TcpSession D,
        s'.conversation = s.conversation.setUpload (acked s.upload) ∧
          s.acknowledge = s'.send .uploadAck (acked s.upload).ackPayload := by
  rw [acknowledge]
  split_ifs with hdue
  · exact .inr ⟨hdue, _, rfl, rfl⟩
  · exact .inl ⟨rfl, Nat.not_le.mp hdue⟩

theorem takes_payloadChunk (piece : Bytes) (s : TcpSession D) :
    Takes piece s.conversation (s.payloadChunk piece).conversation := by
  rw [payloadChunk]
  split_ifs with hstate
  · exact .ignored hstate
  have state : s.state = .uploading := not_not.mp hstate
  dsimp only
  split_ifs with hover
  · obtain ⟨detail, s', hsends, habort⟩ := sends_abortUpload .sizeMismatch
      (ascii "received more bytes than declared")
      { s with upload := counted piece s.upload }
    rw [show { s.upload with received := (s.upload.received + piece.length) % 2 ^ 64 }
      = counted piece s.upload from rfl, habort, if_neg (by decide)]
    exact .overrun (c := s.conversation) state hover hsends
  · have hfed : ∀ s' : TcpSession D, s'.conversation = s.conversation.take piece →
        Takes piece s.conversation s'.acknowledge.conversation := fun s' hs' ↦ by
      have hupload : s'.upload = (s.conversation.take piece).upload :=
        congrArg Conversation.upload hs'
      rcases acknowledge_cases s' with ⟨hsame, hsoon⟩ | ⟨hdue, s'', hs'', hack⟩
      · rw [hsame, hs']
        exact .fed state (Nat.not_lt.mp hover) (hupload ▸ hsoon)
      · have hsends := sends_send .uploadAck (acked s'.upload).ackPayload s''
        rw [hs'', ← hack, hs', hupload] at hsends
        exact .acknowledged state (Nat.not_lt.mp hover) hsends (hupload ▸ hdue) rfl
    exact hfed _ rfl

theorem takesPiece_handOver (piece : Option Bytes) (s : TcpSession D) :
    TakesPiece piece s.conversation (handOver (some sink) piece s).conversation := by
  cases piece with
  | none => exact .none
  | some piece => exact .some (takes_payloadChunk piece s)

/-! ## Dispatching -/

theorem handleHello_eq (s : TcpSession D) :
    s.handleHello = match helloFields s.decoder.payload with
      | some name =>
        let s := { s with clientName := name }.enter .ready
        (s.send .helloAck s.helloAckPayload, true)
      | none => ((s.sendError .unexpectedType (ascii "malformed HELLO payload")).flag, false) := by
  rw [handleHello, helloFields]
  dsimp only
  cases (PayloadReader.new s.decoder.payload).u16.1 <;>
    cases (PayloadReader.new s.decoder.payload).u16.2.str16.1 <;> rfl

theorem handleUploadBegin_eq (s : TcpSession D) :
    s.handleUploadBegin = match uploadBeginFields s.decoder.payload with
      | some (total, name) =>
        if total = 0 then
          (s.sendError .sizeMismatch (ascii "upload size must be greater than zero"), true)
        else
          let s := s.beginUpload total name
          (s.send .uploadBeginAck s.uploadBeginAckPayload, true)
      | none =>
        ((s.sendError .unexpectedType (ascii "malformed UPLOAD_BEGIN payload")).flag, false) := by
  rw [handleUploadBegin, uploadBeginFields]
  dsimp only
  cases (PayloadReader.new s.decoder.payload).u64.1 <;>
    cases (PayloadReader.new s.decoder.payload).u64.2.str16.1 <;> rfl

theorem reacts_handleHello {s : TcpSession D} (state : s.state = .awaitHello)
    (type : s.decoder.header.type = .hello) :
    Reacts s.conversation s.handleHello.1.conversation s.handleHello.2 := by
  rw [handleHello_eq]
  cases hfields : helloFields s.decoder.payload with
  | none => exact .refused (.inl ⟨state, fun _ ↦ hfields⟩) (sends_send _ _ s)
  | some name =>
    exact .greeted state type hfields (sends_send _ _ ({ s with clientName := name }.enter .ready))

theorem reacts_handleUploadBegin {s : TcpSession D} (state : s.state = .ready)
    (type : s.decoder.header.type = .uploadBegin) :
    Reacts s.conversation s.handleUploadBegin.1.conversation s.handleUploadBegin.2 := by
  rw [handleUploadBegin_eq]
  cases hfields : uploadBeginFields s.decoder.payload with
  | none => exact .refused (.inr ⟨state, type, hfields⟩) (sends_send _ _ s)
  | some fields =>
    obtain ⟨total, name⟩ := fields
    dsimp only
    split_ifs with hzero
    · refine .scolded state ⟨?_, ?_, fun _ ↦ ⟨name, by rw [← hzero]; exact hfields⟩⟩
        (sends_send _ _ s)
      · exact ne_of_eq_of_ne type (by decide)
      · exact ne_of_eq_of_ne type (by decide)
    · exact .began (c := s.conversation) state type hfields hzero
        (sends_send _ _ (s.beginUpload total name))

/-- The code of an abort that is not the client's, with the reason for it. -/
theorem reacts_abortUpload {s : TcpSession D} {code : ErrorCode} (hcode : code ≠ .cancelled)
    (message : Bytes) (state : s.state = .uploading)
    (why : s.decoder.header.type = .uploadChunk ∧ s.decoder.streaming = false ∨
      s.decoder.header.type = .uploadEnd ∧ (s.upload.received = s.upload.declared →
          uploadEndFields s.decoder.payload ≠ some s.upload.declared) ∨
      s.decoder.header.type ≠ .uploadChunk ∧ s.decoder.header.type ≠ .uploadEnd ∧
        s.decoder.header.type ≠ .cancel) :
    Reacts s.conversation (s.abortUpload code message).conversation false := by
  obtain ⟨detail, s', hsends, habort⟩ := sends_abortUpload code message s
  rw [habort, if_neg hcode]
  exact .aborted state why hsends

theorem conversation_analyze (s : TcpSession D) :
    ∃ utcNow, s.analyze.2.2.conversation
      = s.conversation.setUpload (s.upload.finish.build utcNow s.analyze.1 s.analyze.2.1) :=
  ⟨s.env.utcNow.head, rfl⟩

theorem reacts_finishUpload {s : TcpSession D} (state : s.state = .uploading)
    (type : s.decoder.header.type = .uploadEnd)
    (fields : uploadEndFields s.decoder.payload = some s.upload.declared)
    (complete : s.upload.received = s.upload.declared) :
    Reacts s.conversation s.finishUpload.conversation true := by
  obtain ⟨utcNow, hanalyze⟩ := s.conversation_analyze
  have hupload : s.analyze.2.2.upload
      = s.upload.finish.build utcNow s.analyze.1 s.analyze.2.1 :=
    congrArg Conversation.upload hanalyze
  rw [finishUpload]
  generalize s.analyze = done at hanalyze hupload ⊢
  obtain ⟨elapsedMs, rss, s'⟩ := done
  dsimp only at hanalyze hupload ⊢
  have hdone := sends_send .analyzeDone (s'.upload.donePayload elapsedMs rss) s'
  have hresult := sendsAll_sendResultCsv
    (s'.send .analyzeDone (s'.upload.donePayload elapsedMs rss))
  rw [show (s'.send .analyzeDone _).upload = s'.upload from hdone.kept.upload] at hresult
  rw [hupload] at hdone hresult ⊢
  rw [hanalyze] at hdone
  have hfinished := Reacts.finished (c := s.conversation) state type fields complete
    (.cons hdone hresult)
  exact hfinished

theorem reacts_handleUploadEnd {s : TcpSession D} (state : s.state = .uploading)
    (type : s.decoder.header.type = .uploadEnd) :
    Reacts s.conversation s.handleUploadEnd.1.conversation s.handleUploadEnd.2 := by
  rw [handleUploadEnd]
  have hfields : uploadEndFields s.decoder.payload
      = (PayloadReader.new s.decoder.payload).u64.1.map UInt64.toNat := rfl
  cases hclaimed : (PayloadReader.new s.decoder.payload).u64.1 with
  | none =>
    rw [hclaimed] at hfields
    dsimp only
    exact reacts_abortUpload (by decide) _ state (.inr (.inl ⟨type, fun _ ↦ by simp [hfields]⟩))
  | some claimed =>
    rw [hclaimed] at hfields
    dsimp only
    split_ifs with hmismatch
    · refine reacts_abortUpload (by decide) _ state (.inr (.inl ⟨type, fun heq ↦ ?_⟩))
      rw [hfields]
      exact fun h ↦ hmismatch.elim (absurd heq) (absurd (Option.some.inj h))
    · rw [not_or, not_not, not_not] at hmismatch
      exact reacts_finishUpload state type (by rw [hfields, ← hmismatch.2]; rfl) hmismatch.1

theorem reacts_dispatchFrame (s : TcpSession D) :
    Reacts s.conversation.receive s.dispatchFrame.1.conversation s.dispatchFrame.2 := by
  rw [dispatchFrame]
  let r := s.note (.received s.decoder.header s.decoder.payload)
  change Reacts r.conversation _ _
  split <;> rename_i hstate
  · split_ifs with htype
    · exact .refused (.inl ⟨hstate, fun h ↦ absurd h htype⟩) (sends_send _ _ r)
    · exact reacts_handleHello hstate (not_not.mp htype)
  · split_ifs with hbye hbegin hcancel
    · exact .goodbye hstate hbye (closes_close r)
    · exact reacts_handleUploadBegin hstate hbegin
    · exact .nothing hstate hcancel
    · exact .scolded hstate ⟨hbye, hcancel, fun h ↦ absurd h hbegin⟩ (sends_send _ _ r)
  · split_ifs with hchunk hstreamed hend hcancel
    · rw [Bool.not_eq_true'] at hstreamed
      exact reacts_abortUpload (by decide) _ hstate (.inl ⟨hchunk, hstreamed⟩)
    · rw [Bool.not_eq_true', Bool.not_eq_false] at hstreamed
      exact .chunk hstate hchunk hstreamed
    · exact reacts_handleUploadEnd hstate hend
    · obtain ⟨detail, s', hsends, habort⟩ :=
        sends_abortUpload .cancelled (ascii "cancelled by client") r
      rw [habort, if_pos rfl]
      exact .cancelled hstate hcancel hsends
    · exact reacts_abortUpload (by decide) _ hstate (.inr (.inr ⟨hchunk, hend, hcancel⟩))
  · exact .closing hstate

/-! ## The callbacks -/

/-- A round that completes a frame: the rest of its payload is handed over, and the frame is
dispatched. -/
theorem turn_of_item {s : TcpSession D} {p data left : Bytes} {f : Frame} (holds : At s.decoder p)
    (hnext : nextFrame (p ++ data) = .item f left) :
    ∃ s' : TcpSession D,
      let d := (advance (asks (some sink) s) data s.decoder).decoder
      let r := dispatchFrame { s' with decoder := d, rxFrames := s'.rxFrames + 1 }
      Completed d f ∧ Asked s.conversation.streams p data s.decoder.streaming d.streaming ∧
        TakesPiece (pieceOf d.streaming (f.payload.drop (p.length - kHeaderSize))) s.conversation
          s'.conversation ∧
        s.turn data = ({ r.1 with decoder := r.1.decoder.resetFrame },
          if r.2 then some left else none) := by
  obtain ⟨hmeets, hpiece, hasked⟩ := advance_spec holds (asks (some sink) s) data
  rw [turn, feed_eq]
  dsimp only
  set r := advance (asks (some sink) s) data s.decoder
  have htakes := takesPiece_handOver r.piece s
  rw [hnext] at hmeets
  obtain ⟨hstatus, hleft, hdone⟩ := hmeets
  rw [drop_take_of_item hnext hleft] at hpiece
  rw [hpiece] at htakes
  simp only [hstatus, hpiece, hleft]
  exact ⟨_, hdone, hasked, htakes, rfl⟩

/-- **One round of the loop.** -/
theorem turn_turn {s : TcpSession D} {p : Bytes} (holds : At s.decoder p) (data : Bytes) :
    ∃ p', Turn p data s.conversation (s.turn data).2 p' (s.turn data).1.conversation := by
  obtain ⟨hmeets, hpiece, hasked⟩ := advance_spec holds (asks (some sink) s) data
  rw [turn, feed_eq]
  dsimp only
  set r := advance (asks (some sink) s) data s.decoder
  have hasked : Asked s.conversation.streams p data s.conversation.decoder.streaming
    r.decoder.streaming := hasked
  have htakes := takesPiece_handOver r.piece s
  -- the turn is what the frame at the front says
  cases hnext : nextFrame (p ++ data) with
  | more =>
    rw [hnext] at hmeets
    obtain ⟨hstatus, hconsumed, hat⟩ := hmeets
    rw [hconsumed, List.take_length] at hpiece
    rw [hpiece] at htakes
    simp only [hstatus, hpiece]
    have hturn := Turn.more hnext hat hasked htakes
    exact ⟨_, hturn⟩
  | fail e =>
    rw [hnext] at hmeets
    obtain ⟨hstatus, herror, hconsumed, hat⟩ := hmeets
    rw [hconsumed, List.drop_take_self, pieceOf, if_neg (by simp)] at hpiece
    simp only [hstatus, hpiece, handOver, herror]
    have hturn := Turn.fail (c := s.conversation) hnext hat herror
      (sends_send _ _ { s with decoder := r.decoder })
    exact ⟨_, hturn⟩
  | item f left =>
    obtain ⟨s', hdone, hasked, htakes, heq⟩ := turn_of_item holds hnext
    rw [turn, feed_eq] at heq
    dsimp only at heq
    rw [heq]
    have hturn := Turn.item hnext hdone hasked htakes (reacts_dispatchFrame
      { s' with decoder := r.decoder, rxFrames := s'.rxFrames + 1 })
    exact ⟨_, hturn⟩

theorem timesOut_onIdleTimeout (s : TcpSession D) :
    TimesOut s.conversation s.onIdleTimeout.conversation := by
  rw [onIdleTimeout]
  split_ifs with hstate
  · dsimp only
    split_ifs
    · exact .waited hstate
    · exact .gaveUp hstate (sends_report .idleTimeout _
        { s with stallTicks := s.stallTicks + 1, timer := none }) (closes_close _)
  · exact .idle hstate (sends_send _ _ s)

/-! ## Runs -/

omit [DoubleOps D] in
@[simp] theorem conversation_touchIdle (s : TcpSession D) :
    s.touchIdle.conversation = s.conversation := by
  rw [touchIdle]
  split_ifs <;> rfl

theorem onWrite_cases (ok : Bool) (s : TcpSession D) :
    (s.onWrite ok).conversation = s.conversation ∨
      Closes s.conversation (s.onWrite ok).conversation := by
  rw [onWrite]
  dsimp only
  split_ifs
  · exact .inr (closes_close { s with writes := s.writes.tail })
  · exact .inr (closes_close { s with writes := s.writes.tail })
  · exact .inl rfl

theorem onWrite_of_unflagged {s : TcpSession D} (h : s.closeAfterFlush = false) :
    (s.onWrite true).conversation = s.conversation := by
  rw [onWrite]
  dsimp only
  rw [if_neg (by decide), if_neg (by simp [h])]
  rfl

omit [DoubleOps D] in
private theorem onHandleClosed_cases (s : TcpSession D) :
    s.onHandleClosed.conversation = s.conversation ∨
      s.onHandleClosed.conversation = s.conversation.note .sessionClosed := by
  rw [onHandleClosed]
  dsimp only
  split_ifs
  · exact .inl rfl
  · exact .inr rfl

/-- The rounds of the loop over one read: the session before each, and what is left of the read. -/
def rounds : ℕ → Bytes → TcpSession D → List (TcpSession D × Bytes)
  | 0, _, _ => []
  | fuel + 1, data, s =>
    if data = [] ∨ s.state = .closing then []
    else
      (s, data) :: match s.turn data with
        | (_, none) => []
        | (s, some data) => rounds fuel data s

/-- The rounds of one callback. -/
def stepRounds (s : TcpSession D) : Event → List (TcpSession D × Bytes)
  | .read data => rounds data.length data { s with rxBytes := s.rxBytes + data.length }
  | _ => []

/-- The rounds of a run. -/
def runRounds (s : TcpSession D) : List Event → List (TcpSession D × Bytes)
  | [] => []
  | event :: events => s.stepRounds event ++ (s.step event).runRounds events

/-- A session that was started comes by `s`: after a callback, or between two rounds of a read. -/
def Reached (config : SessionConfig) (env : Env) (s : TcpSession D) : Prop :=
  ∃ events, s = (start config env).run events ∨
    ∃ data, (s, data) ∈ (start config env).runRounds events

end TcpSession

namespace Conversation

variable {D : Type} [DoubleOps D]

theorem Turn.holds {p data p' : Bytes} {c c' : Conversation D} {left : Option Bytes}
    (h : Turn p data c left p' c') : At c'.decoder p' := by
  cases h with
  | more next holds asked takes => exact holds
  | @fail d e c' next holds error sends =>
    have hdecoder : c'.decoder = d := sends.kept.decoder
    exact hdecoder.symm ▸ holds
  | item next completed asked takes reacts => exact at_resetFrame _

/-- A round that goes on has consumed something. -/
theorem Turn.length_lt {p data p' left : Bytes} {c c' : Conversation D} (holds : At c.decoder p)
    (h : Turn p data c (some left) p' c') : left.length < data.length := by
  generalize hleft : some left = left' at h
  cases h with
  | more => cases hleft
  | fail => cases hleft
  | @item d f rest c₁ c₂ goesOn next =>
    split_ifs at hleft
    cases hleft
    exact length_left_lt (holds.next_more next) next

omit [DoubleOps D] in
theorem TimesOut.decoder {c c' : Conversation D} (h : TimesOut c c') : c'.decoder = c.decoder := by
  cases h with
  | waited => rfl
  | gaveUp _ sends closes => exact closes.kept.decoder.trans sends.kept.decoder
  | idle _ sends => exact sends.kept.decoder

/-- `P` is true of the conversation and what its decoder holds. -/
def Sits (P : Bytes → Conversation D → Prop) (c : Conversation D) : Prop :=
  ∃ p, At c.decoder p ∧ P p c

/-- What every callback preserves. `G` is what a round of the loop may count on, and `P p c` is
about a conversation whose decoder holds `p`. -/
structure Invariant (G : Conversation D → Bytes → Prop) (P : Bytes → Conversation D → Prop) :
    Prop where
  turn : ∀ {p data p' : Bytes} {c c' : Conversation D} {left : Option Bytes},
    At c.decoder p → c.state ≠ .closing → data ≠ [] → G c data → P p c →
      Turn p data c left p' c' → P p' c'
  closes : ∀ {p : Bytes} {c c' : Conversation D}, P p c → Closes c c' → P p c'
  handleClosed : ∀ {p : Bytes} {c : Conversation D}, P p c → P p (c.note .sessionClosed)

variable {G : Conversation D → Bytes → Prop} {P : Bytes → Conversation D → Prop}

/-- The loop over a read. -/
theorem Invariant.process (inv : Invariant G P) {fuel : ℕ} {data : Bytes} {s : TcpSession D}
    (h : Sits P s.conversation) (guard : ∀ r ∈ s.rounds fuel data, G r.1.conversation r.2) :
    Sits P (s.process fuel data).conversation := by
  induction fuel generalizing data s with
  | zero => exact h
  | succ fuel ih =>
    rw [TcpSession.process]
    rw [TcpSession.rounds] at guard
    split_ifs with hstop
    · exact h
    rw [if_neg hstop] at guard
    rw [not_or] at hstop
    obtain ⟨p, holds, hp⟩ := h
    obtain ⟨p', hturn⟩ := s.turn_turn holds data
    have hnext : Sits P (s.turn data).1.conversation :=
      ⟨p', hturn.holds,
        inv.turn holds hstop.2 hstop.1 (guard _ (List.mem_cons_self ..)) hp hturn⟩
    generalize s.turn data = r at hnext guard ⊢
    obtain ⟨s', _ | left⟩ := r
    · exact hnext
    · exact ih hnext fun r hr ↦ guard r (List.mem_cons_of_mem _ hr)

/-- One callback. What the timer does is left to `timer`. -/
theorem Invariant.step (inv : Invariant G P) {event : TcpSession.Event}
    (timer : event = .idleTimeout →
      ∀ {p : Bytes} {c c' : Conversation D}, P p c → TimesOut c c' → P p c')
    {s : TcpSession D} (h : Sits P s.conversation)
    (guard : ∀ r ∈ s.stepRounds event, G r.1.conversation r.2) :
    Sits P (s.step event).conversation := by
  have hcloses : ∀ {c : Conversation D}, Closes s.conversation c → Sits P c := fun hc ↦ by
    obtain ⟨p, holds, hp⟩ := h
    exact ⟨p, hc.kept.decoder.symm ▸ holds, inv.closes hp hc⟩
  cases event with
  | read data =>
    have hread := inv.process (s := { s with rxBytes := s.rxBytes + data.length }) h guard
    rwa [← TcpSession.conversation_touchIdle] at hread
  | readEof => exact hcloses s.closes_close
  | readError => exact hcloses s.closes_close
  | written ok => exact (s.onWrite_cases ok).elim (fun hsame ↦ hsame.symm ▸ h) hcloses
  | idleTimeout =>
    obtain ⟨p, holds, hp⟩ := h
    have htimes := s.timesOut_onIdleTimeout
    exact ⟨p, htimes.decoder.symm ▸ holds, timer rfl hp htimes⟩
  | handleClosed =>
    obtain ⟨p, holds, hp⟩ := h
    rcases s.onHandleClosed_cases with hsame | hclosed
    · exact hsame.symm ▸ ⟨p, holds, hp⟩
    · exact hclosed.symm ▸ ⟨p, holds, inv.handleClosed hp⟩

/-- **What every callback preserves holds after every run.** -/
theorem Invariant.run (inv : Invariant G P) {events : List TcpSession.Event}
    (timer : .idleTimeout ∈ events →
      ∀ {p : Bytes} {c c' : Conversation D}, P p c → TimesOut c c' → P p c')
    {s : TcpSession D} (h : Sits P s.conversation)
    (guard : ∀ r ∈ s.runRounds events, G r.1.conversation r.2) :
    Sits P (s.run events).conversation := by
  induction events generalizing s with
  | nil => exact h
  | cons event events ih =>
    have hstep := inv.step (fun heq ↦ timer (heq ▸ List.mem_cons_self ..)) h
      fun r hr ↦ guard r (List.mem_append_left _ hr)
    exact ih (fun hmem ↦ timer (List.mem_cons_of_mem _ hmem)) hstep
      fun r hr ↦ guard r (List.mem_append_right _ hr)

/-- The rounds of a read. -/
theorem Invariant.rounds (inv : Invariant G P) {fuel : ℕ} {data : Bytes} {s : TcpSession D}
    (h : Sits P s.conversation) (guard : ∀ r ∈ s.rounds fuel data, G r.1.conversation r.2) :
    ∀ r ∈ s.rounds fuel data, Sits P r.1.conversation := by
  induction fuel generalizing data s with
  | zero => exact fun r hr ↦ absurd hr List.not_mem_nil
  | succ fuel ih =>
    rw [TcpSession.rounds] at guard ⊢
    split_ifs at guard ⊢ with hstop
    · exact fun r hr ↦ absurd hr List.not_mem_nil
    rw [not_or] at hstop
    rw [List.forall_mem_cons] at guard ⊢
    refine ⟨h, ?_⟩
    obtain ⟨p, holds, hp⟩ := h
    obtain ⟨p', hturn⟩ := s.turn_turn holds data
    have hnext : Sits P (s.turn data).1.conversation :=
      ⟨p', hturn.holds, inv.turn holds hstop.2 hstop.1 guard.1 hp hturn⟩
    generalize s.turn data = r at hnext guard ⊢
    obtain ⟨s', _ | left⟩ := r
    · exact fun r hr ↦ absurd hr List.not_mem_nil
    · exact ih hnext guard.2

theorem Invariant.runRounds (inv : Invariant G P)
    (timer : ∀ {p : Bytes} {c c' : Conversation D}, P p c → TimesOut c c' → P p c')
    {events : List TcpSession.Event} {s : TcpSession D} (h : Sits P s.conversation)
    (guard : ∀ r ∈ s.runRounds events, G r.1.conversation r.2) :
    ∀ r ∈ s.runRounds events, Sits P r.1.conversation := by
  induction events generalizing s with
  | nil => exact fun r hr ↦ absurd hr List.not_mem_nil
  | cons event events ih =>
    rw [TcpSession.runRounds, List.forall_mem_append] at guard
    have hstep : Sits P (s.step event).conversation :=
      inv.step (fun _ _ _ _ ↦ timer) h guard.1
    rw [TcpSession.runRounds, List.forall_mem_append]
    refine ⟨?_, ih hstep guard.2⟩
    cases event with
    | read data => exact inv.rounds (s := { s with rxBytes := s.rxBytes + data.length }) h guard.1
    | _ => exact fun r hr ↦ absurd hr List.not_mem_nil

/-- **What every callback and every round preserves holds of every session reached.** -/
theorem Invariant.reached (inv : Invariant (fun _ _ ↦ True) P)
    (timer : ∀ {p : Bytes} {c c' : Conversation D}, P p c → TimesOut c c' → P p c')
    {config : SessionConfig} {env : Env}
    (h : Sits P (TcpSession.start config env).conversation) {s : TcpSession D}
    (hs : TcpSession.Reached config env s) : Sits P s.conversation := by
  obtain ⟨events, rfl | ⟨data, hr⟩⟩ := hs
  · exact inv.run (fun _ _ _ _ ↦ timer) h fun _ _ ↦ trivial
  · exact inv.runRounds timer h (fun _ _ ↦ trivial) _ hr

/-! ## What is streamed -/

/-- A payload that is streamed is that of a chunk of an admissible size. -/
def Streamed (p : Bytes) (c : Conversation D) : Prop :=
  c.decoder.streaming = true →
    (decodeHeader (p.take kHeaderSize)).type = .uploadChunk ∧
      (decodeHeader (p.take kHeaderSize)).payloadLen.toNat ≤ kDefaultMaxChunk

namespace Streamed

omit [DoubleOps D] in
theorem asked {p data : Bytes} {c : Conversation D} {after : Bool} (h : Streamed p c)
    (hasked : Asked c.streams p data c.decoder.streaming after) (hafter : after = true) :
    (decodeHeader ((p ++ data).take kHeaderSize)).type = .uploadChunk ∧
      (decodeHeader ((p ++ data).take kHeaderSize)).payloadLen.toNat ≤ kDefaultMaxChunk := by
  by_cases hlong : kHeaderSize ≤ p.length
  · rw [List.take_append_of_le_length hlong]
    exact h (hasked.inside hlong ▸ hafter)
  · have hyes := hasked.yes (Nat.lt_of_not_le hlong) hafter
    rw [streams, Bool.and_eq_true, Bool.and_eq_true] at hyes
    exact ⟨of_decide_eq_true hyes.1.1, of_decide_eq_true hyes.2⟩

theorem turn {p data p' : Bytes} {c c' : Conversation D} {left : Option Bytes} (h : Streamed p c)
    (ht : Turn p data c left p' c') : Streamed p' c' := by
  cases ht with
  | more next holds asked takes => exact h.asked asked
  | @fail d e c' next holds error sends =>
    have hdecoder : c'.decoder = d := sends.kept.decoder
    intro hstreaming
    have hnot := holds.streaming_of_fail (nextFrame_fail next).2
    rw [← hdecoder, show c'.decoder.streaming = true from hstreaming] at hnot
    exact absurd hnot (by decide)
  | item next completed asked takes reacts => exact fun h ↦ absurd h (by simp [resetFrame])

end Streamed

end Conversation

end LoggerAnalyzer
