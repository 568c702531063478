import LoggerAnalyzer.Client.Changing
import LoggerAnalyzer.Client.Timetable
import LoggerAnalyzer.Session.Latest

/-!
# What becomes of a cancel

The flag of the C++ client is looked at in many places. Where the upload does it itself, between two
frames and after a chunk that was not sent to its end, a cancel is what it should be: a CANCEL is
sent, and the connection is kept. Everywhere else it is a helper that gives up, and then the upload
fails. So all depends on the moment at which the user cancels: `cancelHandled_iff` looks up in the
timetable of the upload where the client is then.
-/

namespace LoggerAnalyzer

open Program TcpSession Conversation

variable {D : Type} [DoubleOps D]

/-! ## The result is not too large -/

/-- A session that was started, with reads that fit into the buffer and writes that are accepted. -/
def Started (s : TcpSession D) : Prop :=
  ∃ config env events, env.Fits ∧ (∀ n, env.uvWrite.get n = true) ∧ Buffered events ∧
    s = (start config env).run events

theorem Started.run {s : TcpSession D} (h : Started s) {events : List Event}
    (hbuffered : Buffered events) : Started (s.run events) := by
  obtain ⟨config, env, before, hfits, hwrites, hbefore, rfl⟩ := h
  refine ⟨config, env, before ++ events, hfits, hwrites, fun data hmem ↦ ?_, ?_⟩
  · exact (List.mem_append.mp hmem).elim (hbefore data) (hbuffered data)
  · exact (List.foldl_append ..).symm

theorem Net.Moves.started {sent received : Bytes} {s s' : Net D} (h : Net.Moves sent received s s')
    (hstarted : Started s.session) : Started s'.session := by
  obtain ⟨events, -, hbuffered, hrun, -⟩ := h.served
  exact hrun ▸ hstarted.run hbuffered

omit [DoubleOps D] in
/-- What stands after the last entry of a kind. -/
theorem after_last {α : Type} {p : α → Prop} {a a' : α} {before before' after after' : List α}
    (ha : p a) (ha' : p a') (hafter : ∀ x ∈ after, ¬ p x) (hafter' : ∀ x ∈ after', ¬ p x)
    (h : before ++ a :: after = before' ++ a' :: after') : after = after' := by
  rcases List.append_eq_append_iff.mp h with ⟨more, -, hmore⟩ | ⟨more, -, hmore⟩
  · cases more with
    | nil => exact (List.cons.inj hmore).2
    | cons x more =>
      refine absurd ha' (hafter a' ?_)
      rw [(List.cons.inj hmore).2]
      simp
  · cases more with
    | nil => exact (List.cons.inj hmore).2.symm
    | cons x more =>
      refine absurd ha (hafter' a ?_)
      rw [(List.cons.inj hmore).2]
      simp

omit [DoubleOps D] in
/-- The result can be read off the front of its frames. -/
theorem gather_resultFrames {csv : Bytes} {bound : ℕ} (hle : csv.length ≤ bound)
    (after : List (MsgType × Bytes)) :
    gather bound [] (resultFrames csv ++ after).tail = some csv := by
  have hall := flatten_resultChunks (Nat.le_refl csv.length)
  have hroom : ([] ++ (resultChunks csv.length csv).flatten).length ≤ bound := by
    rw [hall]
    exact hle
  have hgather := gather_chunks [] hroom [] after
  rw [hall] at hgather
  rw [resultFrames, List.append_assoc]
  exact hgather

/-- The result that is on its way is the one that the session holds. -/
theorem Arriving.csv_eq {chunks : List Bytes} {csv : Bytes} {s : Net D} (h : Arriving chunks csv s)
    (hstarted : Started s.session) : csv = s.session.upload.resultCsv := by
  obtain ⟨config, env, events, -, hwrites, -, hrun⟩ := hstarted
  obtain ⟨-, before, payload, hserving⟩ := h
  obtain _ | ⟨-, result⟩ := hserving.stands
  obtain ⟨-, hne, -⟩ := result chunks rfl
  have hreached : Reached config env s.session := ⟨events, .inl hrun⟩
  obtain ⟨before', payload', after, hsent, hafter⟩ := (hreached.latest hwrites).result hne
  have hcsv : resultFrames csv = resultFrames s.session.upload.resultCsv ++ after := by
    refine after_last (p := fun f ↦ f.1 = MsgType.analyzeDone) rfl rfl ?_ ?_
      (hserving.sent.symm.trans hsent)
    · exact fun f hf ↦ (types_resultFrames csv f hf).2
    · exact List.forall_mem_append.mpr ⟨fun f hf ↦ (types_resultFrames _ f hf).2, hafter⟩
  have hgather := gather_resultFrames (Nat.le_max_left csv.length s.session.upload.resultCsv.length)
    []
  rw [List.append_nil, hcsv, gather_resultFrames (Nat.le_max_right ..)] at hgather
  exact (Option.some.inj hgather).symm

/-- The result that is on its way was made of the chunks. -/
theorem Arriving.atHand {chunks : List Bytes} {csv : Bytes} {s : Net D}
    (h : Arriving chunks csv s) :
    AtHand chunks s.session.conversation := by
  obtain ⟨-, before, payload, hserving⟩ := h
  obtain _ | ⟨-, result⟩ := hserving.stands
  exact result chunks rfl

theorem Arriving.length_lt {chunks : List Bytes} {csv : Bytes} {s : Net D}
    (h : Arriving chunks csv s) (hstarted : Started s.session)
    (hsize : chunks.flatten.length < 2 ^ 64) : csv.length < 64 * 1024 * 1024 := by
  have hpieces : (uploadPieces s.session.timeline).flatten = chunks.flatten := h.atHand.cut.flatten
  rw [h.csv_eq hstarted]
  obtain ⟨config, env, events, hfits, -, hbuffered, hrun⟩ := hstarted
  refine length_resultCsv_lt hfits hbuffered (.inl hrun) ?_
  rw [hpieces]
  exact hsize

theorem Due.length_le {κ : Type} {e₀ e e' : Endpoint (Net D) κ} {total : ℕ} {chunks : List Bytes}
    {ending : List (MsgType × Bytes)} {csv : Bytes} (h : Due e₀.outside chunks csv e'.outside)
    (hcarried : Carried e₀ total chunks ending e) (hstarted : Started e₀.outside.session)
    (hlt : total < 2 ^ 64) : csv.length ≤ TransferClient.kMaxCsvBytes := by
  obtain ⟨sent, bytes, s, hmoves, harriving, -⟩ := h
  obtain ⟨-, announcement, read, hunder, -⟩ := hcarried
  have hsize : chunks.flatten.length < 2 ^ 64 := Nat.lt_of_le_of_lt hunder.fits hlt
  exact Nat.le_of_lt (harriving.length_lt (hmoves.started hstarted) hsize)

/-- What was sent on the way, once the client has had everything. -/
theorem Due.sent {s₀ s' : Net D} {chunks : List Bytes} {csv : Bytes} (h : Due s₀ chunks csv s')
    (hclient : s₀.toClient = []) : ∃ before after, s'.session.output
      = s₀.session.output ++ before ++ wire (resultFrames csv) ++ after := by
  obtain ⟨sent, bytes, s, hmoves, harriving, bytes', hmoves'⟩ := h
  obtain ⟨new, houtput, hnew⟩ := hmoves.answered
  obtain ⟨after, houtput', -⟩ := hmoves'.answered
  rw [hclient, List.nil_append, harriving.toClient] at hnew
  refine ⟨bytes, after, ?_⟩
  rw [houtput', houtput, hnew, ← List.append_assoc s₀.session.output]

/-! ## An empty file -/

/-- The announcement of an empty file is answered by an ERROR. -/
theorem type_of_empty {announcement name : Bytes}
    (hfields : uploadBeginFields announcement = some (0, name))
    (hsmall : announcement.length ≤ kMaxPayload) {last : Option (List Bytes)} {s₀ s : Net D}
    (hrests : Rests (.idle last) s₀) {type : MsgType} {payload : Bytes}
    (htalk : Talk s₀ [(.uploadBegin, announcement)] [(type, payload)] s) : type = .error := by
  have hnext : (service D).next (.idle last) (.uploadBegin, announcement) = some (.idle last) :=
    Phase.next_of_empty last hfields
  have hrun : ((service D).run (.idle last) [(.uploadBegin, announcement)]).isSome := by
    rw [Machine.run_cons _ hnext, Machine.run_nil]
    rfl
  obtain ⟨hframes, hans, -, -, -, hfront, hgiven, hsayable⟩ :=
    served hrests (by simpa using hsmall) hrun htalk.moves
  obtain ⟨pending, hall, -⟩ := append_of_wire htalk.small (fun f hf ↦ (hsayable f hf).length) hgiven
  rename_i done rest phase replies part q p
  obtain _ | ⟨f, done⟩ := done
  · obtain ⟨-, rfl⟩ := Machine.Answered.nil_iff.mp hans
    obtain rfl : _ = rest := hframes
    cases hfront with
    | frame _ acks =>
      have hnone : part = [] := acks
      rw [hnone] at hall
      cases hall
  · obtain ⟨rfl, hrest⟩ := List.cons.inj hframes
    obtain ⟨rfl, rfl⟩ := List.append_eq_nil_iff.mp hrest.symm
    cases hfront
    cases hans.singleton.2 with
    | begun fields pos =>
      obtain ⟨rfl, -⟩ := Prod.mk.inj (Option.some.inj (hfields.symm.trans fields))
      exact absurd rfl pos
    | turnedAway => exact (congrArg Prod.fst (List.cons.inj hall).1).symm

namespace TransferClient

variable {e₀ e e' : Endpoint (Net D) TransferClient} {last : Option (List Bytes)}

/-- The server turns the file away, or the flag was seen. -/
theorem yields_beginUpload_empty (hrests : Rests (.idle last) e₀.outside) {total : UInt64}
    (hzero : total.toNat = 0) (name : Bytes) (h : Along e₀ [] [] [] e) :
    Yields (beginUpload (Net.link D) total name) e (fun _ _ ↦ False)
      fun failure e' ↦ failure ≠ .spent ∧
        (e'.noticed = e₀.noticed ∨ ∃ site n, ¬ Gentle site ∧ Seen e₀ ⟨site, n⟩ e') := by
  have hfields : uploadBeginFields (beginPayload total name) = some (0, name.take 0xFFFF) :=
    hzero ▸ beginPayload_fields total name
  have hsmall := length_beginPayload_le total name
  have hnext : (service D).next (.idle last) (.uploadBegin, beginPayload total name)
      = some (.idle last) := Phase.next_of_empty last hfields
  have hrun : ((service D).run (.idle last) [(.uploadBegin, beginPayload total name)]).isSome := by
    rw [Machine.run_cons _ hnext, Machine.run_nil]
    rfl
  refine Yields.bind (h.mark .beginSend) ?_
  rintro _ e₁ ⟨h₁, -, hsite₁, -⟩
  refine Yields.bind ((yields_sendFrame _ _ _).mono (fun _ _ h ↦ h) fun failure e' hstop ↦ ?_) ?_
  · obtain ⟨rfl, -, n, hseen⟩ := h₁.seen_of_sendStopped hstop
    rw [hsite₁] at hseen
    exact ⟨by simp, .inr ⟨_, n, by simp [Gentle], hseen⟩⟩
  rintro _ e₂ ⟨hsent, -⟩
  refine Yields.bind ((h₁.sentFrame hsent).mark .ackRead) ?_
  rintro _ e₃ ⟨h₃, -, hsite₃, -⟩
  refine Yields.bind ((yields_readFrame lenient_refuse true _ _ hrests (by simpa using hsmall) hrun
    h₃.talk).mono (fun _ _ h ↦ h) ?_) ?_
  · rintro failure e' (hint | ⟨ms, s, rfl, rfl, -⟩)
    · obtain ⟨rfl, -, n, hseen⟩ := h₃.seen_of_interrupted hint.interrupted
      rw [hsite₃] at hseen
      exact ⟨by simp, .inr ⟨_, n, by simp [Gentle], hseen⟩⟩
    · exact ⟨by simp, .inl (h₃.noticed.trans (List.append_nil _))⟩
  rintro f _ ⟨type, payload, s, rfl, rfl, htalk, -⟩
  -- a server answers an empty upload with an ERROR
  obtain rfl := type_of_empty hfields hsmall hrests htalk
  refine Yields.failIf (fun _ ↦ ?_) fun hother ↦ absurd rfl hother
  exact ⟨by simp, .inl (h₃.noticed.trans (List.append_nil _))⟩

/-- A file of two bytes, which can be read. -/
def plainFile : LocalFile := { shortFile with size := some 2 }

/-- A client that has been greeted, and whose user cancels when the flag was looked at `n` times. -/
def cancelledAfter (n : ℕ) : Endpoint (Net ℚ) TransferClient :=
  { outside := { greeted with cancelAfter := some n }, own := ⟨{}, []⟩ }

theorem rests_cancelledAfter (n : ℕ) : Rests (.idle none) (cancelledAfter n).outside :=
  ⟨rfl, rfl, rests_greeted.holds, rests_greeted.serving⟩

end TransferClient

end LoggerAnalyzer
