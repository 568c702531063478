import LoggerAnalyzer.Client.Course
import LoggerAnalyzer.Client.Framing
import LoggerAnalyzer.Client.Layouts
import LoggerAnalyzer.Client.Readers

/-!
# Uploads on a net

What the two clients do up to the end of the chunks, on a net at whose other end a session waits for
an upload. They come to the end of the loop with chunks that may be sent, or they see the flag on
the way.
-/

namespace LoggerAnalyzer

open Program TcpSession Conversation

variable {D : Type} [DoubleOps D]

/-- What has arrived is there to be read. -/
theorem Net.toClient_of_readable {s : Net D} (h : s.readable.1 = true) :
    s.readable.2.toClient ≠ [] := by
  have hboth : (s.pass.arrived.head && decide (s.pass.toClient ≠ [])) = true := h
  exact of_decide_eq_true (Bool.and_eq_true_iff.mp hboth).2

/-- Frames that a session at `phase` takes. -/
structure Proper (D : Type) [DoubleOps D] (phase : Phase) (frames : List (MsgType × Bytes)) :
    Prop where
  small : ∀ f ∈ frames, f.2.length ≤ kMaxPayload
  run : ((service D).run phase frames).isSome

/-- An upload may be cancelled. -/
theorem Underway.proper_cancel {announcement : Bytes} {total : ℕ} {chunks : List Bytes}
    (h : Underway announcement total chunks) (last : Option (List Bytes)) :
    Proper D (.idle last) (uploadStart announcement chunks ++ [(.cancel, [])]) where
  small := List.forall_mem_append.mpr ⟨h.length_le, by simp⟩
  run := by
    have hnext : (service D).next (.uploading total chunks) (.cancel, []) = some (.idle none) := rfl
    rw [Machine.run_append _ (h.run last), Machine.run_cons _ hnext, Machine.run_nil]
    rfl

/-- A CANCEL was sent. -/
def CancelSent {κ : Type} (e₀ e : Endpoint (Net D) κ) : Prop :=
  ∃ frames, e.sent = e₀.sent ++ frames ∧ (MsgType.cancel, []) ∈ frames

/-! ## The C++ client -/

/-- A file brings all of the `left` bytes that are still to be read. -/
structure InputFile.Intact (chunkSize left : ℕ) (f : InputFile) : Prop where
  sound : left = 0 → f.bad = false
  going : 0 < left → f.failed = false
  full : ∀ i, i * chunkSize < left → (f.reads.get i).error = none ∧
    min chunkSize (left - i * chunkSize) ≤ (f.reads.get i).bytes.length

namespace InputFile

/-- After a read that ran short nothing more is read. -/
theorem failed_read {want : ℕ} {f : InputFile} (h : (f.read want).1.length < want) :
    (f.read want).2.failed = true := by
  rw [read] at h ⊢
  split_ifs at h ⊢ with hfailed
  · exact hfailed
  · dsimp only at h ⊢
    rw [decide_eq_true h, Bool.true_or]

theorem not_intact_of_failed {chunkSize left : ℕ} (hpos : 0 < left) {f : InputFile}
    (hfailed : f.failed = true) : ¬ f.Intact chunkSize left := fun h ↦
  absurd (hfailed.symm.trans (h.going hpos)) (by decide)

/-- A file that brings all, brings all that a read leaves. -/
theorem intact_read_of_full {chunkSize left : ℕ} (hpos : 0 < left) (hchunk : 0 < chunkSize)
    {f : InputFile} (hgoing : f.failed = false)
    (hfull : min chunkSize left ≤ f.reads.head.bytes.length) :
    (f.read (min chunkSize left)).2.Intact chunkSize (left - min chunkSize left)
      ↔ f.Intact chunkSize left := by
  have hlen : (f.reads.head.bytes.take (min chunkSize left)).length = min chunkSize left := by
    rw [List.length_take]
    exact Nat.min_eq_left hfull
  rw [read, if_neg (by simp [hgoing])]
  dsimp only
  rw [hlen]
  constructor
  · rintro ⟨hsound, hgoing', hmore⟩
    have herror : f.reads.head.error = none := by
      have hnone : f.reads.head.error.isSome = false := by
        rcases Nat.eq_zero_or_pos (left - min chunkSize left) with hzero | hleft
        · exact hsound hzero
        · exact (Bool.or_eq_false_iff.mp (hgoing' hleft)).2
      exact Option.not_isSome_iff_eq_none.mp (by simp [hnone])
    refine ⟨fun hzero ↦ absurd hzero (Nat.ne_of_gt hpos), fun _ ↦ hgoing, fun i hi ↦ ?_⟩
    -- the read that is done is the first of them
    cases i with
    | zero =>
      rw [Nat.zero_mul, Nat.sub_zero]
      exact ⟨herror, hfull⟩
    | succ i =>
      rw [Nat.succ_mul] at hi ⊢
      obtain ⟨herror', hlen'⟩ := hmore i (by omega)
      exact ⟨herror', Nat.le_trans (by omega) hlen'⟩
  · rintro ⟨-, -, hall⟩
    have herror : f.reads.head.error = none := (hall 0 (by omega)).1
    refine ⟨fun _ ↦ by simp [herror], fun _ ↦ by simp [herror], fun i hi ↦ ?_⟩
    obtain ⟨herror', hlen'⟩ := hall (i + 1) (by rw [Nat.succ_mul]; omega)
    rw [Nat.succ_mul] at hlen'
    exact ⟨herror', Nat.le_trans (by omega) hlen'⟩

/-- A file that brings some bytes brings all of them. -/
theorem intact_of_brings {chunkSize : ℕ} {f : InputFile} {bytes : Bytes} (hgoing : f.failed = false)
    (hsound : f.bad = false) (h : Brings chunkSize f.reads bytes) :
    f.Intact chunkSize bytes.length where
  sound := fun _ ↦ hsound
  going := fun _ ↦ hgoing
  full := fun i hi ↦ by
    obtain ⟨herror, hprefix⟩ := h i hi
    have hlen := hprefix.length_le
    rw [List.length_take, List.length_drop] at hlen
    exact ⟨herror, hlen⟩

/-- A read takes the first of the bytes that the file brings. -/
theorem read_of_brings {chunkSize : ℕ} {f : InputFile} {bytes : Bytes} (hgoing : f.failed = false)
    (h : Brings chunkSize f.reads bytes) (hne : bytes ≠ []) :
    (f.read (min chunkSize bytes.length)).1 = bytes.take chunkSize ∧
      (f.read (min chunkSize bytes.length)).2.failed = false ∧
      Brings chunkSize (f.read (min chunkSize bytes.length)).2.reads (bytes.drop chunkSize) := by
  obtain ⟨herror, hbytes⟩ := h.head hne
  rw [read, if_neg (by simp [hgoing])]
  dsimp only
  rw [hbytes, herror, List.length_take]
  exact ⟨rfl, by simp, h.tail⟩

/-- Whether a file brings all does not change when it is read. -/
theorem intact_read {chunkSize left : ℕ} (hpos : 0 < left) (hchunk : 0 < chunkSize)
    (f : InputFile) :
    (f.read (min chunkSize left)).2.Intact chunkSize
        (left - (f.read (min chunkSize left)).1.length) ↔ f.Intact chunkSize left := by
  cases hfailed : f.failed with
  | true =>
    rw [read, if_pos hfailed]
    rfl
  | false =>
    have hbytes :
      (f.read (min chunkSize left)).1 = f.reads.head.bytes.take (min chunkSize left) := by
      rw [read, if_neg (by simp [hfailed])]
    rw [hbytes, List.length_take]
    rcases Nat.lt_or_ge f.reads.head.bytes.length (min chunkSize left) with hshort | hfull
    · constructor
      · intro h
        refine absurd h (not_intact_of_failed (by omega) (failed_read ?_))
        rw [hbytes, List.length_take]
        omega
      · intro h
        exact absurd (h.full 0 (by omega)).2 (by
          rw [Nat.zero_mul, Nat.sub_zero]
          exact Nat.not_le.mpr hshort)
    · rw [Nat.min_eq_left hfull]
      exact intact_read_of_full hpos hchunk hfailed hfull

end InputFile

namespace TransferClient

theorem yields_sendFrame (type : MsgType) (payload : Bytes) (e : Endpoint (Net D) TransferClient) :
    Yields (sendFrame (Net.link D) type payload) e
      (fun _ e' ↦ SentFrame type payload e e' ∧ e'.own = e.own)
      (SendStopped true (serializeFrame type payload) e) := by
  rw [sendFrame]
  refine Yields.bind ((yields_sendAll true _ _ e).mono (fun _ _ h ↦ h) fun _ _ h ↦
    h.append payload) ?_
  rintro _ _ ⟨s, hmoves, rfl⟩
  dsimp only
  refine Yields.ite (fun _ ↦ ?_) fun hnil ↦ ?_
  · refine Yields.bind ((yields_sendAll true _ payload _).mono (fun _ _ h ↦ h) fun _ _ h ↦
      h.after hmoves) ?_
    rintro _ _ ⟨s', hmoves', rfl⟩
    refine ⟨⟨s', ?_, ?_⟩, rfl⟩
    · have hall := hmoves.trans hmoves'
      rwa [List.append_nil] at hall
    · rw [Endpoint.wrote_onto, Endpoint.wrote_wrote, Endpoint.onto_onto]
      rfl
  · have hempty : payload = [] := not_not.mp hnil
    subst hempty
    have hframe : encodeHeader (frameHeader type []) = serializeFrame type [] :=
      (List.append_nil _).symm
    exact ⟨⟨s, hframe ▸ hmoves, by rw [hframe]⟩, rfl⟩

/-! ### Cancelling -/

theorem yields_sendEmptyFrameNeverCancel (type : MsgType) (e : Endpoint (Net D) TransferClient)
    {E : Failure → Endpoint (Net D) TransferClient → Prop} :
    Yields (sendEmptyFrameNeverCancel (Net.link D) type) e
      (fun _ e' ↦ SentFrame type [] e e' ∧ e'.own = e.own ∧ e'.noticed = e.noticed) E := by
  refine Yields.bind ((yields_sendAll false _ _ e).mono (fun _ _ h ↦ h) fun _ _ h ↦ ?_) ?_
  · exact absurd h.2.1 (by decide)
  · rintro _ _ ⟨s, hmoves, rfl⟩
    have hframe : encodeHeader (frameHeader type []) = serializeFrame type [] :=
      (List.append_nil _).symm
    exact ⟨⟨s, hframe ▸ hmoves, by rw [hframe]⟩, rfl, rfl⟩

theorem refuse_ne_spent (h : FrameHeader) : refuse h ≠ some .spent := by
  rw [refuse]
  split_ifs <;> simp

private theorem refuseWhileCancelling_ne_spent (h : FrameHeader) :
    refuseWhileCancelling h ≠ some .spent := by
  rw [refuseWhileCancelling]
  split_ifs <;> simp

/-- Waiting for the answer to a CANCEL comes to an end, whatever the server does. -/
theorem settles_awaitCancelAck (deadline : ℕ) (e : Endpoint (Net D) TransferClient) :
    Settles (fun fuel ↦ awaitCancelAck (Net.link D) deadline fuel) e (fun _ e' ↦ Waits e e')
      fun failure e' ↦ failure ≠ .spent ∧ Waits e e' := by
  obtain ⟨s, hs⟩ : ∃ s, e.outside = s := ⟨_, rfl⟩
  induction s using Net.wellFounded_shorter.induction generalizing e with
  | _ s ih =>
    subst hs
    refine Settles.succ (fun _ ↦ rfl) ?_
    refine Settles.bind (.of_yields ((Waits.refl e).ask (Net.laws.now _))) ?_
    intro now e₁ h₁
    refine Settles.ite (fun _ ↦ ?_) fun _ ↦ .of_yields (.pure h₁)
    refine Settles.bind (.of_yields (h₁.ask (Net.laws.now _))) ?_
    intro left e₂ h₂
    refine Settles.bind (.of_yields ((yields_readsFrame refuseWhileCancelling_ne_spent false _ _
      e₂).mono (fun _ _ h ↦ h) ?_)) ?_
    · rintro failure e₃ ⟨hne, hreads, hown, hnoticed⟩
      exact ⟨hne, h₂.trans ⟨hreads, hown, hnoticed rfl⟩⟩
    · rintro f e₃ ⟨h₃, hshort⟩
      refine Settles.ite (fun _ ↦ .of_yields (.pure (h₂.trans h₃))) ?_
      intro _
      obtain ⟨bytes, hmoves⟩ := h₂.moves
      refine (ih e₃.outside (hshort.after hmoves) e₃ rfl).mono ?_ ?_
      · exact fun _ _ h ↦ (h₂.trans h₃).trans h
      · exact fun _ _ h ↦ ⟨h.1, (h₂.trans h₃).trans h.2⟩

/-- **A CANCEL is sent**, and the client waits for the answer. -/
theorem settles_sendCancelAndWait (e : Endpoint (Net D) TransferClient)
    {E : Failure → Endpoint (Net D) TransferClient → Prop} :
    Settles (fun fuel ↦ sendCancelAndWait (Net.link D) fuel) e
      (fun _ e' ↦ ∃ e₁, SentFrame .cancel [] e e₁ ∧ e₁.noticed = e.noticed ∧ Waits e₁ e') E := by
  refine Settles.tryCatch (?_ : Settles _ _ _ fun failure e' ↦ failure ≠ .spent ∧
    ∃ e₁, SentFrame .cancel [] e e₁ ∧ e₁.noticed = e.noticed ∧ Waits e₁ e') ?_
  · refine Settles.bind (.of_yields (yields_sendEmptyFrameNeverCancel .cancel e)) ?_
    rintro _ e₁ ⟨hsent, -, hnoticed⟩
    refine Settles.bind (.of_yields ((Waits.refl e₁).ask (Net.laws.now _))) ?_
    intro now e₂ h₂
    refine (settles_awaitCancelAck _ e₂).mono ?_ ?_
    · exact fun _ _ h ↦ ⟨e₁, hsent, hnoticed, h₂.trans h⟩
    · exact fun _ _ h ↦ ⟨h.1, e₁, hsent, hnoticed, h₂.trans h.2⟩
  · rintro failure e' ⟨hne, h⟩
    exact Settles.of_yields (Yields.ite (fun hspent ↦ absurd hspent hne) fun _ ↦ .pure h)

/-- **The user cancels.** -/
theorem settles_cancelUpload (e : Endpoint (Net D) TransferClient)
    {E : Failure → Endpoint (Net D) TransferClient → Prop} :
    Settles (fun fuel ↦ cancelUpload (Net.link D) fuel) e
      (fun _ e' ↦ e'.own.state.phase = .cancelled ∧ e'.noticed = e.noticed ∧
        e'.sent = e.sent ++ [(.cancel, [])]) E := by
  refine Settles.bind (settles_sendCancelAndWait e) ?_
  rintro _ e₂ ⟨e₁, ⟨s, -, rfl⟩, hnoticed, h⟩
  exact Settles.of_yields (Yields.modify ⟨rfl, h.noticed.trans hnoticed, h.complete⟩)

/-! ### The beginning -/

theorem beginPayload_fields (total : UInt64) (name : Bytes) :
    uploadBeginFields (beginPayload total name) = some (total.toNat, name.take 0xFFFF) := by
  have hfields := uploadBeginFields_of total.toNat_lt name
  rw [UInt64.ofNat_toNat] at hfields
  rw [beginPayload, Client.PayloadWriter.str16_eq]
  exact hfields

theorem length_beginPayload_le (total : UInt64) (name : Bytes) :
    (beginPayload total name).length ≤ kMaxPayload := by
  have hstr := PayloadWriter.length_str16_le name
  rw [beginPayload, List.length_append, Client.PayloadWriter.str16_eq]
  exact (Nat.add_le_add_left hstr 8).trans (by decide)

theorem underway_beginPayload {total : UInt64} (hpos : total.toNat ≠ 0) (name : Bytes) :
    Underway (beginPayload total name) total.toNat [] where
  fields := ⟨_, beginPayload_fields total name⟩
  small := length_beginPayload_le total name
  pos := hpos
  sendable := fun _ h ↦ absurd h List.not_mem_nil
  fits := Nat.zero_le _

theorem lenient_refuse : Lenient refuse := by
  intro h hnone
  rw [← Option.isNone_iff_eq_none, ← Option.not_isSome, refuse_isSome, hnone]
  rfl

variable {e₀ e : Endpoint (Net D) TransferClient} {last : Option (List Bytes)} {total : UInt64}
  {name : Bytes} {chunks : List Bytes} {read : List (MsgType × Bytes)}

/-- The upload has begun, or the flag was seen. -/
theorem yields_beginUpload (hrests : Rests (.idle last) e₀.outside) (hpos : total.toNat ≠ 0)
    (name : Bytes) (h : Along e₀ [] [] [] e) :
    Yields (beginUpload (Net.link D) total name) e
      (fun a e' ↦ a.1 = kDefaultMaxChunk ∧ ∃ read, read ≠ [] ∧
        Along e₀ (uploadStart (beginPayload total name) []) read [] e')
      fun failure e' ↦ failure = .cancelled ∧
        ∃ n, Seen e₀ ⟨.beginSend, n⟩ e' ∨ Seen e₀ ⟨.ackRead, n⟩ e' := by
  have hunder := underway_beginPayload hpos name
  refine Yields.bind (h.mark .beginSend) ?_
  rintro _ e₁ ⟨h₁, -, hsite₁, -⟩
  refine Yields.bind ((yields_sendFrame _ _ _).mono (fun _ _ h ↦ h) fun failure e' hstop ↦ ?_) ?_
  · obtain ⟨hfailure, -, n, hseen⟩ := h₁.seen_of_sendStopped hstop
    exact ⟨hfailure, n, .inl (hsite₁ ▸ hseen)⟩
  rintro _ e₂ ⟨hsent, -⟩
  refine Yields.bind ((h₁.sentFrame hsent).mark .ackRead) ?_
  rintro _ e₃ ⟨h₃, -, hsite₃, -⟩
  refine Yields.bind ((hunder.yields_readAck hrests lenient_refuse true _ _ h₃.talk).mono
    (fun _ _ h ↦ h) fun failure e' hint ↦ ?_) ?_
  · obtain ⟨hfailure, -, n, hseen⟩ := h₃.seen_of_interrupted hint.interrupted
    exact ⟨hfailure, n, .inr (hsite₃ ▸ hseen)⟩
  rintro ack _ ⟨t, s, hack, rfl, htalk⟩
  have htype : ack.header.type = .uploadBeginAck := congrArg (·.header.type) hack
  refine Yields.failIf (fun h ↦ absurd (htype.symm.trans h) (by decide)) fun _ ↦
    Yields.failIf (fun h ↦ absurd htype h) fun _ ↦ ?_
  obtain ⟨⟨uploadId, announced, names⟩, r, hfields, -, hmessage⟩ := beginAckFields_eq t
  rw [hack, hfields]
  exact ⟨congrArg BeginAckMessage.chunkSize hmessage, _, List.cons_ne_nil _ _, h₃.onto htalk⟩

/-! ### The chunks -/

/-- What has arrived is read. -/
theorem settles_drain {announcement : Bytes} {total : ℕ}
    (hunder : Underway announcement total chunks)
    (hrests : Rests (.idle last) e₀.outside) (hread : read ≠ [])
    (h : Along e₀ (uploadStart announcement chunks) read [] e) :
    Settles (fun fuel ↦ drain (Net.link D) fuel) e
      (fun _ e' ↦ ∃ read, read ≠ [] ∧ Along e₀ (uploadStart announcement chunks) read [] e')
      fun failure e' ↦ failure = .cancelled ∧ ∃ n, Seen e₀ ⟨.drainRead, n⟩ e' := by
  obtain ⟨s, hs⟩ : ∃ s, e.outside = s := ⟨_, rfl⟩
  -- each acknowledgement that is read makes the net shorter
  induction s using Net.wellFounded_shorter.induction generalizing e read with
  | _ s ih =>
    subst hs
    refine Settles.succ (fun _ ↦ rfl) ?_
    refine Settles.bind (.of_yields (h.ask (Net.laws.readable _))) ?_
    rintro readable _ ⟨rfl, rfl, h₁⟩
    refine Settles.ite (fun hreadable ↦ ?_) fun _ ↦ .of_yields (.pure ⟨read, hread, h₁⟩)
    have harrived := Net.toClient_of_readable hreadable
    have hmoves := Net.laws.readable e.outside
    refine Settles.bind (.of_yields (h₁.mark .drainRead)) ?_
    rintro _ e₂ ⟨h₂, -, hsite, hsame⟩
    have hsame : e₂.outside = ((Net.link D).readable e.outside).2 := hsame
    rw [← hsame] at hmoves
    have hack := hunder.yields_readUploadAck hrests lenient_refuse true 5000 5000 h₂.talk hread
      (hsame ▸ harrived)
    refine Settles.bind (.of_yields (hack.mono (fun _ _ h ↦ h) fun failure e' hint ↦ ?_)) ?_
    · obtain ⟨hfailure, -, n, hseen⟩ := h₂.seen_of_interrupted hint
      exact ⟨hfailure, n, hsite ▸ hseen⟩
    rintro f _ ⟨payload, s, rfl, rfl, htalk, hshort⟩
    refine Settles.ite (fun _ ↦ ?_) fun hother ↦ absurd rfl hother
    refine Settles.bind (.of_yields (Yields.modify rfl : Yields _ _ (fun _ e' ↦ e' = _) _)) ?_
    rintro _ _ rfl
    exact ih s (hshort.after hmoves) (by simp) ((h₂.onto htalk).congr rfl rfl rfl rfl) rfl

/-- How an upload ends that the user cancels: the flag was seen, and a CANCEL was sent. -/
structure Cancelled (e₀ : Endpoint (Net D) TransferClient) (site : Site)
    (e : Endpoint (Net D) TransferClient) : Prop where
  seen : ∃ n, Seen e₀ ⟨site, n⟩ e
  cancel : CancelSent e₀ e
  phase : e.own.state.phase = .cancelled

/-- The user cancels between two frames. -/
theorem settles_cancelUpload_of_seen {sent : List (MsgType × Bytes)} {site : Site} {n : ℕ}
    (h : Along e₀ sent read [⟨site, n⟩] e) {E : Failure → Endpoint (Net D) TransferClient → Prop} :
    Settles (fun fuel ↦ cancelUpload (Net.link D) fuel) e (fun _ e' ↦ Cancelled e₀ site e') E := by
  refine (settles_cancelUpload e).mono ?_ fun _ _ h ↦ h
  rintro _ e' ⟨hphase, hnoticed, hsent⟩
  refine ⟨⟨n, h.set (List.cons_ne_nil _ _), [], hnoticed.trans h.noticed⟩, ?_, hphase⟩
  exact ⟨sent ++ [(.cancel, [])], by rw [hsent, h.complete, List.append_assoc], by simp⟩

/-- A chunk is sent, or the user cancels. -/
theorem settles_sendChunk {sent : List (MsgType × Bytes)} (h : Along e₀ sent read [] e)
    (hhere : e.here = .chunkSend) (bytes : Bytes)
    {E : Failure → Endpoint (Net D) TransferClient → Prop} :
    Settles (fun fuel ↦ sendChunk (Net.link D) fuel bytes) e
      (fun done e' ↦ done = true ∧ Along e₀ (sent ++ [(.uploadChunk, bytes)]) read [] e' ∨
        done = false ∧ Cancelled e₀ .chunkSend e') E := by
  refine Settles.tryCatch (.of_yields (Yields.bind (yields_sendAll true _ _ e) ?_)) ?_
  · rintro _ _ ⟨s, hmoves, rfl⟩
    exact .inl ⟨rfl, h.sentFrame ⟨s, hmoves, rfl⟩⟩
  · intro failure e' hstop
    obtain ⟨-, -, n, hseen⟩ := h.seen_of_sendStopped hstop
    obtain ⟨-, -, m, s, -, -, hset, rfl⟩ := hstop
    refine Settles.bind (.of_yields (yields_load_set hset)) ?_
    rintro _ _ ⟨rfl, rfl⟩
    refine Settles.ite (fun _ ↦ ?_) fun hno ↦ absurd rfl hno
    refine Settles.bind (settles_cancelUpload _) ?_
    rintro _ e₂ ⟨hphase, hnoticed, hsent⟩
    refine .of_yields (.pure (.inr ⟨rfl, ⟨n, ?_⟩, ⟨sent ++ [(.cancel, [])], ?_, by simp⟩, hphase⟩))
    · rw [← hhere]
      obtain ⟨hcalm, more, hfirst⟩ := hseen
      exact ⟨hcalm, more ++ _, by
        rw [hnoticed, Endpoint.notice, hfirst, List.append_assoc, List.cons_append]⟩
    · rw [hsent, ← List.append_assoc, ← h.complete]
      rfl

/-- How the loop over the chunks ends: the client has sent chunks that may be sent, and all that was
declared if the file was intact; or the user cancelled. -/
inductive ChunksOver (e₀ : Endpoint (Net D) TransferClient) (announcement : Bytes) (total : ℕ)
    (intact : Prop) (content : Bytes → Prop) :
    ChunksEnd → Endpoint (Net D) TransferClient → Prop where
  | ended {chunks read bad e} (underway : Underway announcement total chunks)
    (hread : read ≠ []) (along : Along e₀ (uploadStart announcement chunks) read [] e)
    (all : intact ↔ chunks.flatten.length = total ∧ bad = false)
      (gathered : content chunks.flatten) :
    ChunksOver e₀ announcement total intact content (.ended chunks.flatten.length bad) e
  | cancelled {site e} (hsite : site = .chunkTop ∨ site = .chunkSend)
    (cancelled : Cancelled e₀ site e) : ChunksOver e₀ announcement total intact content .cancelled e

theorem ChunksOver.imp {announcement : Bytes} {total : ℕ} {intact : Prop}
    {content content' : Bytes → Prop} {ended : ChunksEnd}
    (h : ChunksOver e₀ announcement total intact content ended e)
    (himp : ∀ bytes, content bytes → content' bytes) :
    ChunksOver e₀ announcement total intact content' ended e := by
  cases h with
  | ended underway hread along all gathered =>
    exact .ended underway hread along all (himp _ gathered)
  | cancelled hsite cancelled => exact .cancelled hsite cancelled

theorem settles_chunkLoop {announcement : Bytes} {total : ℕ}
    (hunder : Underway announcement total chunks) (hrests : Rests (.idle last) e₀.outside)
    (hread : read ≠ []) (file : InputFile)
    (h : Along e₀ (uploadStart announcement chunks) read [] e) :
    Settles (fun fuel ↦ chunkLoop (Net.link D) total kDefaultMaxChunk fuel file
        chunks.flatten.length) e
      (ChunksOver e₀ announcement total
        (file.Intact kDefaultMaxChunk (total - chunks.flatten.length)) fun all ↦
          ∀ bytes, file.failed = false → Brings kDefaultMaxChunk file.reads bytes →
            chunks.flatten.length + bytes.length = total → all = chunks.flatten ++ bytes)
      fun failure e' ↦ failure = .cancelled ∧ ∃ n, Seen e₀ ⟨.drainRead, n⟩ e' := by
  obtain ⟨left, hleft⟩ : ∃ left, total - chunks.flatten.length = left := ⟨_, rfl⟩
  induction left using Nat.strong_induction_on generalizing chunks read file e with
  | _ left ih =>
    subst hleft
    have hchunk : 0 < kDefaultMaxChunk := by decide
    refine Settles.succ (fun _ ↦ rfl) ?_
    refine Settles.bind (.of_yields (h.mark .chunkTop)) ?_
    rintro _ e₁ ⟨h₁, -, hsite, -⟩
    refine Settles.bind (.of_yields h₁.load) ?_
    rintro cancel e₂ ⟨-, -, seen, h₂, ⟨rfl, rfl⟩ | ⟨rfl, rfl, -⟩⟩
    · refine Settles.ite (fun hno ↦ absurd hno (by decide)) ?_
      intro _
      refine Settles.ite (fun hzero ↦ .of_yields (.pure (.ended hunder hread h₂ ?_ ?_)))
        fun hmore ↦ ?_
      · rw [hzero]
        constructor
        · exact fun hintact ↦ ⟨Nat.le_antisymm hunder.fits (Nat.sub_eq_zero_iff_le.mp hzero),
            hintact.sound rfl⟩
        · exact fun hall ↦ ⟨fun _ ↦ hall.2, fun hpos ↦ absurd hpos (Nat.lt_irrefl _),
            fun i hi ↦ absurd hi (Nat.not_lt_zero _)⟩
      · intro bytes _ _ htotal
        rw [List.length_eq_zero_iff.mp (show bytes.length = 0 by omega), List.append_nil]
      have hpos : 0 < total - chunks.flatten.length := Nat.pos_of_ne_zero hmore
      have hintact := InputFile.intact_read hpos hchunk file
      have hlen := length_read_le (min kDefaultMaxChunk (total - chunks.flatten.length)) file
      have hfailed := @InputFile.failed_read
        (min kDefaultMaxChunk (total - chunks.flatten.length)) file
      -- what is read is what the file brings
      have hbrings : ∀ content, file.failed = false →
          Brings kDefaultMaxChunk file.reads content →
          chunks.flatten.length + content.length = total →
          (file.read (min kDefaultMaxChunk (total - chunks.flatten.length))).1
            = content.take kDefaultMaxChunk ∧
          (file.read (min kDefaultMaxChunk (total - chunks.flatten.length))).2.failed = false ∧
          Brings kDefaultMaxChunk
            (file.read (min kDefaultMaxChunk (total - chunks.flatten.length))).2.reads
            (content.drop kDefaultMaxChunk) := by
        intro content hgoing hcontent htotal
        rw [show total - chunks.flatten.length = content.length by omega]
        exact InputFile.read_of_brings hgoing hcontent (List.length_pos_iff.mp (by omega))
      generalize file.read (min kDefaultMaxChunk (total - chunks.flatten.length)) = r
        at hlen hintact hfailed hbrings ⊢
      obtain ⟨bytes, file'⟩ := r
      dsimp only at hlen hintact hfailed hbrings ⊢
      refine Settles.ite (fun hnil ↦ .of_yields (.pure (.ended hunder hread h₂ ?_ ?_))) fun hne ↦ ?_
      · subst hnil
        rw [← hintact]
        constructor
        · intro h
          exact absurd h (InputFile.not_intact_of_failed hpos (hfailed (by
            rw [List.length_nil]
            omega)))
        · intro h
          omega
      · intro content hgoing hcontent htotal
        have hfirst := (hbrings content hgoing hcontent htotal).1
        rw [hnil, eq_comm, List.take_eq_nil_iff] at hfirst
        rcases hfirst with hzero | hempty
        · exact absurd hzero (Nat.ne_of_gt hchunk)
        · rw [hempty, List.append_nil]
      have hbytes := List.length_pos_iff.mpr hne
      refine Settles.bind (.of_yields (h₂.mark .chunkSend)) ?_
      rintro _ e₃ ⟨h₃, -, hsend, -⟩
      refine Settles.bind (settles_sendChunk h₃ hsend bytes) ?_
      rintro done e₄ (⟨rfl, h₄⟩ | ⟨rfl, hcancelled⟩)
      · refine Settles.ite (fun _ ↦ ?_) fun hno ↦ absurd rfl hno
        rw [← uploadStart_snoc] at h₄
        have hflat : (chunks ++ [bytes]).flatten.length = chunks.flatten.length + bytes.length := by
          rw [List.flatten_append, List.flatten_singleton, List.length_append]
        have hunder' : Underway announcement total (chunks ++ [bytes]) :=
          hunder.snoc hne (by omega) (by omega)
        refine Settles.bind (settles_drain hunder' hrests hread h₄) ?_
        rintro _ e₅ ⟨read', hread', h₅⟩
        refine Settles.bind (.of_yields (h₅.keep _)) ?_
        rintro _ e₆ ⟨h₆, -, -⟩
        rw [← hflat]
        rw [← hintact, Nat.sub_sub, ← hflat]
        refine (ih _ (by omega) hunder' hread' file' h₆ rfl).mono (fun ended e' hover ↦ ?_)
          fun _ _ h ↦ h
        refine hover.imp ?_
        intro all hall content hgoing hcontent htotal
        obtain ⟨hfirst, hgoing', hmore⟩ := hbrings content hgoing hcontent htotal
        rw [hall _ hgoing' hmore ?_, List.flatten_append, List.flatten_singleton, hfirst,
          List.append_assoc, List.take_append_drop]
        rw [hflat, hfirst, List.length_take, List.length_drop]
        omega
      · exact Settles.ite (fun hno ↦ absurd hno (by decide)) fun _ ↦ .of_yields
          (.pure (.cancelled (.inr rfl) hcancelled))
    · refine Settles.ite (fun _ ↦ ?_) fun hno ↦ absurd rfl hno
      refine Settles.bind (settles_cancelUpload_of_seen h₂) ?_
      intro _ e₃ h₃
      exact .of_yields (.pure (.cancelled (.inl hsite) h₃))

end TransferClient

/-! ## The C# client -/

namespace ServerConnection

variable {e₀ e : Endpoint (Net D) ServerConnection} {last : Option (List Bytes)} {total : UInt64}
  {name : Bytes} {chunks : List Bytes} {sent read : List (MsgType × Bytes)} {seen : List Notice}

theorem lenient_refuse : Lenient refuse := by
  intro h hnone
  rw [← Option.isNone_iff_eq_none, ← Option.not_isSome, refuse_isSome, hnone]
  rfl

private theorem lenient_refuseBlocking : Lenient refuseBlocking := by
  intro h hnone
  rw [← Option.isNone_iff_eq_none, ← Option.not_isSome, refuseBlocking_isSome, hnone]
  rfl

/-- Everything was written when the flag was seen. -/
def FlushStopped (heeds : Bool) (data : Bytes) (e : Endpoint (Net D) ServerConnection)
    (failure : Failure) (e' : Endpoint (Net D) ServerConnection) : Prop :=
  failure = .cancelled ∧ heeds = true ∧ ∃ s, Net.Moves data [] e.outside s ∧
    s.cancelAfter = some 0 ∧ e' = ((e.onto s).wrote data).notice

theorem yields_sendFrameAsync (husable : e.own.disposed = false) (heeds : Bool) (type : MsgType)
    (payload : Bytes) :
    Yields (sendFrameAsync (Net.link D) heeds type payload) e
      (fun _ e' ↦ SentFrame type payload e e' ∧ e'.own = e.own)
      fun failure e' ↦ SendStopped heeds (serializeFrame type payload) e failure e' ∨
        FlushStopped heeds (serializeFrame type payload) e failure e' := by
  -- once all bytes are written the token is looked at again, in the flush
  have hflush : ∀ s, Net.Moves (serializeFrame type payload) [] e.outside s →
      Yields (do
          Act.check (Net.link D) heeds
          modify (.complete type payload)) ((e.onto s).wrote (serializeFrame type payload))
        (fun _ e' ↦ SentFrame type payload e e' ∧ e'.own = e.own)
        fun failure e' ↦ SendStopped heeds (serializeFrame type payload) e failure e' ∨
          FlushStopped heeds (serializeFrame type payload) e failure e' := by
    intro s hmoves
    refine Yields.bind ((Act.yields_check Net.laws heeds _).mono (fun _ _ h ↦ h) ?_) ?_
    · rintro failure _ ⟨rfl, hheeds, s', hmoves', hset, rfl⟩
      have hall := hmoves.trans hmoves'
      rw [List.append_nil] at hall
      exact .inr ⟨rfl, hheeds, s', hall, hset, rfl⟩
    · rintro _ _ ⟨s', hmoves', rfl⟩
      have hall := hmoves.trans hmoves'
      rw [List.append_nil] at hall
      exact ⟨⟨s', hall, rfl⟩, rfl⟩
  rw [sendFrameAsync]
  refine Yields.bind_of_ok (ensureUsable_eq husable) ?_
  refine Yields.bind ((yields_sendAll heeds _ _ e).mono (fun _ _ h ↦ h) fun _ _ hstop ↦
    .inl (hstop.append payload)) ?_
  rintro _ _ ⟨s, hmoves, rfl⟩
  dsimp only
  -- the payload is written by a call of its own, if there is any
  refine Yields.ite (fun _ ↦ ?_) fun hnil ↦ ?_
  · refine Yields.bind ((yields_sendAll heeds _ payload _).mono (fun _ _ h ↦ h) fun _ _ hstop ↦
      .inl (hstop.after hmoves)) ?_
    rintro _ _ ⟨s', hmoves', rfl⟩
    have hall := hmoves.trans hmoves'
    rw [List.append_nil] at hall
    rw [Endpoint.wrote_onto, Endpoint.wrote_wrote, Endpoint.onto_onto]
    exact hflush s' hall
  · have hempty : payload = [] := not_not.mp hnil
    subst hempty
    have hframe : encodeHeader (frameHeader type []) = serializeFrame type [] :=
      (List.append_nil _).symm
    rw [hframe] at hmoves ⊢
    exact hflush s hmoves

/-- A frame is sent whether the flag is set or not. -/
theorem yields_sendFrameAsync_false (husable : e.own.disposed = false)
    (h : Along e₀ sent read seen e) (type : MsgType) (payload : Bytes)
    {E : Failure → Endpoint (Net D) ServerConnection → Prop} :
    Yields (sendFrameAsync (Net.link D) false type payload) e
      (fun _ e' ↦ Along e₀ (sent ++ [(type, payload)]) read seen e' ∧ e'.own = e.own) E := by
  refine (yields_sendFrameAsync husable false type payload).mono ?_ ?_
  · exact fun _ _ hsent ↦ ⟨h.sentFrame hsent.1, hsent.2⟩
  · rintro failure e' (hstop | hstop) <;> exact absurd hstop.2.1 (by decide)

/-- A frame is sent, or the flag is seen. -/
theorem yields_sendFrameAsync_true (husable : e.own.disposed = false) (h : Along e₀ sent read [] e)
    (type : MsgType) (payload : Bytes) :
    Yields (sendFrameAsync (Net.link D) true type payload) e
      (fun _ e' ↦ Along e₀ (sent ++ [(type, payload)]) read [] e' ∧ e'.own = e.own)
      fun failure e' ↦ failure = .cancelled ∧ e'.own = e.own ∧
        ∃ part, Severed e₀ sent read (serializeFrame type payload) part e.here e' := by
  refine (yields_sendFrameAsync husable true type payload).mono ?_ ?_
  · exact fun _ _ hsent ↦ ⟨h.sentFrame hsent.1, hsent.2⟩
  · rintro failure e' (hstop | ⟨hfailure, -, s, hmoves, hset, rfl⟩)
    · obtain ⟨hfailure, -, hsevered⟩ := h.stopped hstop
      exact ⟨hfailure, hsevered⟩
    · exact ⟨hfailure, rfl, _, h.severed (List.prefix_refl _) hmoves hset rfl rfl⟩

/-- The next frame is read, or there is none. -/
theorem yields_readFrameAsync {phase : Phase} (hrests : Rests phase e₀.outside)
    (hproper : Proper D phase sent) (husable : e.own.disposed = false)
    (h : Along e₀ sent read seen e) :
    Yields (readFrameAsync (Net.link D) false) e (ReadNext e₀.outside sent read e)
      fun failure e' ↦ (∃ ms, failure = .idle ms) ∧ Along e₀ sent read seen e' := by
  rw [Yields, readFrameAsync_eq (Net.link D) false husable]
  refine (yields_readFrame lenient_refuse false syncReadTimeoutMs syncReadTimeoutMs hrests
    hproper.small hproper.run h.talk).mono (fun _ _ h ↦ h) ?_
  rintro failure e' (hint | ⟨ms, s, rfl, rfl, hmoves, -, -⟩)
  · exact absurd hint.2.1 (by decide)
  · exact ⟨⟨ms, rfl⟩, h.passes hmoves⟩

/-! ### Cancelling -/

/-- After a CANCEL the client has read on to an ERROR or a RESULT_END, or it has disposed of the
connection. -/
def Drained (e₀ : Endpoint (Net D) ServerConnection) (sent : List (MsgType × Bytes))
    (seen : List Notice) (e : Endpoint (Net D) ServerConnection) : Prop :=
  ∃ read, Along e₀ sent read seen e ∧ (e.own.disposed = true ∨
    ∃ before type payload, read = before ++ [(type, payload)] ∧
      (type = .error ∨ type = .resultEnd))

theorem settles_drainLoop {phase : Phase} (hrests : Rests phase e₀.outside)
    (hproper : Proper D phase sent) (deadline : ℕ) (husable : e.own.disposed = false)
    (h : Along e₀ sent read seen e) :
    Settles (fun fuel ↦ drainLoop (Net.link D) deadline fuel) e (fun _ e' ↦ Drained e₀ sent seen e')
      fun failure e' ↦ (∃ ms, failure = .idle ms) ∧ ∃ read, Along e₀ sent read seen e' := by
  obtain ⟨s, hs⟩ : ∃ s, e.outside = s := ⟨_, rfl⟩
  induction s using Net.wellFounded_shorter.induction generalizing e read with
  | _ s ih =>
    subst hs
    refine Settles.succ (fun _ ↦ rfl) ?_
    refine Settles.bind (.of_yields (h.ask (Net.laws.now _))) ?_
    rintro now _ ⟨rfl, rfl, h₁⟩
    refine Settles.ite (fun _ ↦ .of_yields (Yields.modify ?_)) fun _ ↦ ?_
    · exact ⟨read, h₁.congr rfl rfl rfl rfl, .inl rfl⟩
    have husable₁ : (e.onto ((Net.link D).now e.outside).2).own.disposed = false := husable
    have hread := yields_readFrameAsync hrests hproper husable₁ h₁
    refine Settles.bind (.of_yields (hread.mono (fun _ _ h ↦ h) fun _ _ h ↦ ⟨h.1, read, h.2⟩)) ?_
    rintro f _ ⟨type, payload, s, rfl, rfl, htalk, hshort⟩
    have h₂ := h₁.onto htalk
    refine Settles.ite (fun herror ↦ ?_) fun _ ↦ Settles.ite (fun hend ↦ ?_) fun _ ↦ ?_
    · exact .of_yields (.pure ⟨_, h₂, .inr ⟨read, type, payload, rfl, .inl herror⟩⟩)
    · exact .of_yields (.pure ⟨_, h₂, .inr ⟨read, type, payload, rfl, .inr hend⟩⟩)
    · exact ih s (hshort.after (Net.laws.now _)) (by exact husable) h₂ rfl

/-- **A CANCEL is sent**, and what is on its way is read. -/
theorem settles_cancelAndDrain {phase : Phase} (hrests : Rests phase e₀.outside)
    (hproper : Proper D phase (sent ++ [(.cancel, [])])) (husable : e.own.disposed = false)
    (h : Along e₀ sent read seen e) {E : Failure → Endpoint (Net D) ServerConnection → Prop} :
    Settles (fun fuel ↦ cancelAndDrain (Net.link D) fuel) e
      (fun _ e' ↦ Drained e₀ (sent ++ [(.cancel, [])]) seen e') E := by
  refine Settles.bind (Q := fun sentCancel e' ↦ sentCancel = true ∧
    Along e₀ (sent ++ [(.cancel, [])]) read seen e' ∧ e'.own = e.own) (.of_yields ?_) ?_
  · refine Yields.tryCatch (?_ : Yields _ _ _ fun _ _ ↦ False) fun _ _ hnever ↦ hnever.elim
    exact Yields.bind (yields_sendFrameAsync_false husable h _ _) fun _ _ h ↦ ⟨rfl, h⟩
  rintro _ e₁ ⟨rfl, h₁, hown⟩
  refine Settles.ite (fun _ ↦ ?_) fun hno ↦ absurd rfl hno
  refine Settles.tryCatch (?_ : Settles _ _ _ fun failure e' ↦ (∃ ms, failure = .idle ms) ∧
    ∃ read, Along e₀ (sent ++ [(.cancel, [])]) read seen e') ?_
  · refine Settles.bind (.of_yields (h₁.ask (Net.laws.now _))) ?_
    rintro now _ ⟨-, rfl, h₂⟩
    exact settles_drainLoop hrests hproper _ (hown ▸ husable) h₂
  · rintro _ e' ⟨⟨ms, rfl⟩, read', h'⟩
    exact .of_yields (Yields.modify ⟨read', h'.congr rfl rfl rfl rfl, .inl rfl⟩)

/-! ### The beginning -/

theorem beginPayload_fields (total : UInt64) (name : Bytes) :
    uploadBeginFields (beginPayload total name) = some (total.toNat, name.take 0xFFFF) := by
  have hfields := uploadBeginFields_of total.toNat_lt name
  rw [UInt64.ofNat_toNat] at hfields
  exact hfields

theorem length_beginPayload_le (total : UInt64) (name : Bytes) :
    (beginPayload total name).length ≤ kMaxPayload := by
  have hstr := PayloadWriter.length_str16_le name
  rw [beginPayload, List.length_append, PayloadWriter.length_u64]
  exact (Nat.add_le_add_left hstr 8).trans (by decide)

theorem underway_beginPayload {total : UInt64} (hpos : total.toNat ≠ 0) (name : Bytes) :
    Underway (beginPayload total name) total.toNat [] where
  fields := ⟨_, beginPayload_fields total name⟩
  small := length_beginPayload_le total name
  pos := hpos
  sendable := fun _ h ↦ absurd h List.not_mem_nil
  fits := Nat.zero_le _

/-- The flag was seen before the upload had begun. -/
inductive BeginStopped (e₀ : Endpoint (Net D) ServerConnection) (announcement : Bytes) :
    Endpoint (Net D) ServerConnection → Prop where
  | sending {part e'}
    (severed : Severed e₀ [] [] (serializeFrame .uploadBegin announcement) part .beginSend e') :
    BeginStopped e₀ announcement e'
  | waiting {bytes n e'} (seen : Seen e₀ ⟨.ackRead, n⟩ e') (begun : Act.Begun refuse bytes)
    (moves : Net.Moves (wire [(.uploadBegin, announcement)]) bytes e₀.outside e'.outside) :
    BeginStopped e₀ announcement e'

theorem BeginStopped.set {announcement : Bytes} {e' : Endpoint (Net D) ServerConnection}
    (h : BeginStopped e₀ announcement e') : e₀.outside.cancelAfter ≠ none := by
  cases h with
  | sending hsevered => exact hsevered.set
  | waiting hseen => exact hseen.set

theorem BeginStopped.of_midway {announcement : Bytes} {e' : Endpoint (Net D) ServerConnection}
    (h : Along e₀ [(.uploadBegin, announcement)] [] [] e) (hsite : e.here = .ackRead)
    {heeds : Bool} {failure : Failure} (hmidway : Midway refuse heeds e failure e') :
    failure = .cancelled ∧ e'.own = e.own ∧ BeginStopped e₀ announcement e' := by
  obtain ⟨hfailure, -, bytes, s, hbegun, rfl, hmoves, hset⟩ := hmidway
  have hseen : Seen e₀ ⟨e.here, _⟩ (e.onto s).notice := h.gaveUp hmoves hset rfl
  rw [hsite] at hseen
  have hall := h.talk.moves.trans hmoves
  rw [List.append_nil] at hall
  exact ⟨hfailure, rfl, .waiting hseen hbegun hall⟩

/-- The upload has begun, or the flag was seen. -/
theorem yields_beginUpload (hrests : Rests (.idle last) e₀.outside) (hpos : total.toNat ≠ 0)
    (name : Bytes) (husable : e.own.disposed = false) (h : Along e₀ [] [] [] e) :
    Yields (beginUpload (Net.link D) total name) e
      (fun a e' ↦ a.1 = kDefaultMaxChunk ∧ e'.own.disposed = false ∧ ∃ read, read ≠ [] ∧
        Along e₀ (uploadStart (beginPayload total name) []) read [] e')
      fun failure e' ↦ failure = .cancelled ∧ e'.own.disposed = false ∧
        BeginStopped e₀ (beginPayload total name) e' := by
  have hunder := underway_beginPayload hpos name
  refine Yields.bind (h.mark .beginSend) ?_
  rintro _ e₁ ⟨h₁, hown₁, hsite₁, -⟩
  have husable₁ : e₁.own.disposed = false := hown₁ ▸ husable
  -- the announcement
  refine Yields.bind ((yields_sendFrameAsync_true husable₁ h₁ _ _).mono (fun _ _ h ↦ h) ?_) ?_
  · rintro failure e' ⟨hfailure, hown, part, hsevered⟩
    exact ⟨hfailure, hown ▸ husable₁, .sending (hsite₁ ▸ hsevered)⟩
  rintro _ e₂ ⟨h₂, hown₂⟩
  refine Yields.bind (h₂.mark .ackRead) ?_
  rintro _ e₃ ⟨h₃, hown₃, hsite₃, -⟩
  have husable₃ : e₃.own.disposed = false := by
    rw [hown₃, hown₂]
    exact husable₁
  -- its answer, which may be interrupted but not refused
  refine Yields.bind (Q := fun f e' ↦ ∃ (t : TcpSession D) (s : Net D),
    f = ⟨frameHeader .uploadBeginAck t.uploadBeginAckPayload, t.uploadBeginAckPayload⟩ ∧
    e' = e₃.onto s ∧ Talk e₀.outside (uploadStart (beginPayload total name) [])
      [(.uploadBeginAck, t.uploadBeginAckPayload)] s) ?_ ?_
  · rw [Yields, readFrameAsync_eq (Net.link D) true husable₃]
    refine (hunder.yields_readAck hrests lenient_refuse true _ _ h₃.talk).mono (fun _ _ h ↦ h)
      fun failure e' hmidway ↦ ?_
    obtain ⟨hfailure, hown, hstopped⟩ := BeginStopped.of_midway h₃ hsite₃ hmidway
    exact ⟨hfailure, hown ▸ husable₃, hstopped⟩
  rintro ack _ ⟨t, s, hack, rfl, htalk⟩
  have htype : ack.header.type = .uploadBeginAck := congrArg (·.header.type) hack
  refine Yields.failIf (fun h ↦ absurd (htype.symm.trans h) (by decide)) fun _ ↦
    Yields.failIf (fun h ↦ absurd htype h) fun _ ↦ ?_
  obtain ⟨⟨uploadId, announced, names⟩, r, hfields, -, hmessage⟩ := beginAckFields_eq t
  rw [hack, hfields]
  exact ⟨congrArg BeginAckMessage.chunkSize hmessage, husable₃, _, List.cons_ne_nil _ _,
    h₃.onto htalk⟩

/-! ### The chunks -/

theorem disposed_applyUploadAck (payload : Bytes) (c : ServerConnection) :
    (applyUploadAck payload c).disposed = c.disposed := by
  rw [applyUploadAck]
  split <;> rfl

/-- What has arrived is read. -/
theorem settles_drainServerMessages {announcement : Bytes} {total : ℕ}
    (hunder : Underway announcement total chunks) (hrests : Rests (.idle last) e₀.outside)
    (hread : read ≠ []) (husable : e.own.disposed = false)
    (h : Along e₀ (uploadStart announcement chunks) read [] e)
    {E : Failure → Endpoint (Net D) ServerConnection → Prop} :
    Settles (fun fuel ↦ drainServerMessages (Net.link D) fuel) e
      (fun _ e' ↦ e'.own.disposed = false ∧
        ∃ read, read ≠ [] ∧ Along e₀ (uploadStart announcement chunks) read [] e') E := by
  obtain ⟨s, hs⟩ : ∃ s, e.outside = s := ⟨_, rfl⟩
  -- each acknowledgement that is read makes the net shorter
  induction s using Net.wellFounded_shorter.induction generalizing e read with
  | _ s ih =>
    subst hs
    refine Settles.succ (fun _ ↦ rfl) ?_
    refine Settles.bind (.of_yields (h.ask (Net.laws.readable _))) ?_
    rintro readable _ ⟨rfl, rfl, h₁⟩
    refine Settles.ite (fun hreadable ↦ ?_) fun _ ↦ .of_yields (.pure ⟨husable, read, hread, h₁⟩)
    have harrived := Net.toClient_of_readable hreadable
    have hmoves := Net.laws.readable e.outside
    refine Settles.bind (.of_yields (h₁.mark .drainRead)) ?_
    rintro _ e₂ ⟨h₂, hown₂, -, hsame⟩
    have hsame : e₂.outside = ((Net.link D).readable e.outside).2 := hsame
    rw [← hsame] at hmoves
    -- something has arrived, and it can be nothing but an UPLOAD_ACK
    have hack := hunder.yields_readUploadAck hrests lenient_refuseBlocking false syncReadTimeoutMs
      syncReadTimeoutMs h₂.talk hread (hsame ▸ harrived)
    refine Settles.bind (.of_yields (hack.mono (fun _ _ h ↦ h)
      fun failure e' hint ↦ absurd hint.2.1 (by decide))) ?_
    rintro f _ ⟨payload, s, rfl, rfl, htalk, hshort⟩
    refine Settles.ite (fun _ ↦ ?_) fun hother ↦ absurd rfl hother
    refine Settles.bind (.of_yields ((h₂.onto htalk).keep _)) ?_
    rintro _ e₃ ⟨h₃, hown₃, hsame₃⟩
    refine ih e₃.outside (hsame₃ ▸ hshort.after hmoves) (by simp) ?_ h₃ rfl
    rw [hown₃, disposed_applyUploadAck]
    exact hown₂ ▸ husable

/-- A chunk is sent whether the flag is set or not. -/
theorem yields_sendChunk (h : Along e₀ sent read [] e) (bytes : Bytes)
    {E : Failure → Endpoint (Net D) ServerConnection → Prop} :
    Yields (sendChunk (Net.link D) bytes) e
      (fun _ e' ↦ Along e₀ (sent ++ [(.uploadChunk, bytes)]) read [] e' ∧ e'.own = e.own) E := by
  refine Yields.bind ((yields_sendAll false _ _ e).mono (fun _ _ h ↦ h) fun _ _ hstop ↦
    absurd hstop.2.1 (by decide)) ?_
  rintro _ _ ⟨s, hmoves, rfl⟩
  refine Yields.bind ((yields_sendAll false _ bytes _).mono (fun _ _ h ↦ h) fun _ _ hstop ↦
    absurd hstop.2.1 (by decide)) ?_
  rintro _ _ ⟨s', hmoves', rfl⟩
  have hall := hmoves.trans hmoves'
  rw [List.append_nil] at hall
  refine ⟨h.sentFrame ⟨s', hall, ?_⟩, rfl⟩
  rw [Endpoint.wrote_onto, Endpoint.wrote_wrote, Endpoint.onto_onto]
  rfl

/-- How the loop over the chunks fails: a CANCEL was sent because the flag was seen between two
chunks, or because the file could not be read. -/
def ChunksFail (e₀ : Endpoint (Net D) ServerConnection) (announcement : Bytes) (total : ℕ)
    (failure : Failure) (e : Endpoint (Net D) ServerConnection) : Prop :=
  ∃ chunks seen, Underway announcement total chunks ∧
    Drained e₀ (uploadStart announcement chunks ++ [(.cancel, [])]) seen e ∧
    ((∃ n, seen = [⟨.chunkTop, n⟩]) ∧ failure = .cancelled ∨
      seen = [] ∧ ∃ message, failure = .localFile message)

theorem settles_abandon {α : Type} {announcement : Bytes} {total : ℕ}
    (hunder : Underway announcement total chunks) (hrests : Rests (.idle last) e₀.outside)
    (husable : e.own.disposed = false) (h : Along e₀ (uploadStart announcement chunks) read [] e)
    (message : Bytes) {Q : α → Endpoint (Net D) ServerConnection → Prop} :
    Settles (fun fuel ↦ abandon (Net.link D) fuel message) e Q
      (ChunksFail e₀ announcement total) := by
  refine Settles.bind (settles_cancelAndDrain hrests (hunder.proper_cancel last) husable h) ?_
  exact fun _ e' hdrained ↦ .of_yields
    (.throw ⟨chunks, [], hunder, hdrained, .inr ⟨rfl, message, rfl⟩⟩)

theorem settles_chunkLoop {announcement : Bytes} {total : ℕ}
    (hunder : Underway announcement total chunks) (hrests : Rests (.idle last) e₀.outside)
    (hread : read ≠ []) (husable : e.own.disposed = false) (reads : Stream' FileRead)
    (h : Along e₀ (uploadStart announcement chunks) read [] e) :
    Settles (fun fuel ↦ chunkLoop (Net.link D) total kDefaultMaxChunk fuel reads
        chunks.flatten.length) e
      (fun all e' ↦ e'.own.disposed = false ∧ ∃ chunks read, all = chunks.flatten.length ∧
        Underway announcement total chunks ∧ read ≠ [] ∧
        Along e₀ (uploadStart announcement chunks) read [] e')
      (ChunksFail e₀ announcement total) := by
  -- by induction on how much of what was declared is not sent
  obtain ⟨left, hleft⟩ : ∃ left, total - chunks.flatten.length = left := ⟨_, rfl⟩
  induction left using Nat.strong_induction_on generalizing chunks read reads e with
  | _ left ih =>
    subst hleft
    refine Settles.succ (fun _ ↦ rfl) ?_
    refine Settles.bind (.of_yields (h.mark .chunkTop)) ?_
    rintro _ e₁ ⟨h₁, hown₁, hsite, -⟩
    refine Settles.bind (.of_yields h₁.load) ?_
    rintro cancel e₂ ⟨hown₂, -, seen, h₂, hcancel⟩
    have husable₂ : e₂.own.disposed = false := by
      rw [hown₂, hown₁]
      exact husable
    rcases hcancel with ⟨rfl, rfl⟩ | ⟨rfl, rfl, -⟩
    · refine Settles.ite (fun hno ↦ absurd hno (by decide)) ?_
      intro _
      refine Settles.ite
        (fun _ ↦ .of_yields (.pure ⟨husable₂, chunks, read, rfl, hunder, hread, h₂⟩))
        fun hmore ↦ ?_
      -- the file cannot be read further, brings nothing more, or brings a chunk
      cases reads.head.error with
      | some why => exact settles_abandon hunder hrests husable₂ h₂ _
      | none =>
        have hlen := List.length_take_le (min kDefaultMaxChunk (total - chunks.flatten.length))
          reads.head.bytes
        dsimp only
        generalize reads.head.bytes.take
          (min kDefaultMaxChunk (total - chunks.flatten.length)) = bytes
          at hlen ⊢
        refine Settles.ite (fun _ ↦ .of_yields
          (.pure ⟨husable₂, chunks, read, rfl, hunder, hread, h₂⟩)) fun hne ↦ ?_
        have hbytes := List.length_pos_iff.mpr hne
        refine Settles.bind (.of_yields (h₂.mark .chunkSend)) ?_
        rintro _ e₃ ⟨h₃, hown₃, -, -⟩
        refine Settles.bind (.of_yields (yields_sendChunk h₃ bytes)) ?_
        rintro _ e₄ ⟨h₄, hown₄⟩
        rw [← uploadStart_snoc] at h₄
        have hflat : (chunks ++ [bytes]).flatten.length = chunks.flatten.length + bytes.length := by
          rw [List.flatten_append, List.flatten_singleton, List.length_append]
        have hunder' : Underway announcement total (chunks ++ [bytes]) :=
          hunder.snoc hne (by omega) (by omega)
        refine Settles.bind (.of_yields (h₄.keep _)) ?_
        rintro _ e₅ ⟨h₅, hown₅, -⟩
        have husable₅ : e₅.own.disposed = false := by
          rw [hown₅, hown₄, hown₃]
          exact husable₂
        refine Settles.bind (settles_drainServerMessages hunder' hrests hread husable₅ h₅) ?_
        rintro _ e₆ ⟨husable₆, read', hread', h₆⟩
        rw [← hflat]
        exact ih _ (by omega) hunder' hread' husable₆ reads.tail h₆ rfl
    · -- the token is noticed between two chunks
      refine Settles.ite (fun _ ↦ ?_) fun hno ↦ absurd rfl hno
      refine Settles.bind (settles_cancelAndDrain hrests (hunder.proper_cancel last) husable₂ h₂) ?_
      exact fun _ e' hdrained ↦ .of_yields
        (.throw ⟨chunks, _, hunder, hdrained, .inl ⟨⟨_, by rw [hsite]⟩, rfl⟩⟩)

end ServerConnection

end LoggerAnalyzer
