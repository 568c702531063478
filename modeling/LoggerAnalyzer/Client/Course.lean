import LoggerAnalyzer.Client.Hearing

/-!
# How far a client has come

`Along` is where a client stands between two calls that went through: which frames it has sent and
which it has read, and where it has seen the flag. A call goes on from there, or it gives up because
the flag was seen, and there is no other way on a net; `Seen` is what is known then.

`Reads` is all that is needed once the last frame is sent: the client only reads.
-/

namespace LoggerAnalyzer

open Program TcpSession Conversation

variable {D : Type} {κ : Type}

/-- The flag was seen, for the first time as `notice` says. -/
structure Seen (e₀ : Endpoint (Net D) κ) (notice : Notice) (e : Endpoint (Net D) κ) : Prop where
  set : e₀.outside.cancelAfter ≠ none
  first : ∃ more, e.noticed = e₀.noticed ++ notice :: more

theorem Seen.onward {e₀ e e' : Endpoint (Net D) κ} {notice : Notice} (h : Seen e₀ notice e)
    (hnoticed : e'.noticed = e.noticed) : Seen e₀ notice e' := ⟨h.set, hnoticed ▸ h.first⟩

theorem Seen.noticed_ne {e₀ e : Endpoint (Net D) κ} {notice : Notice} (h : Seen e₀ notice e) :
    e.noticed ≠ e₀.noticed := by
  obtain ⟨more, hfirst⟩ := h.first
  intro hsame
  have hlen := congrArg List.length (hsame.symm.trans hfirst)
  rw [List.length_append, List.length_cons] at hlen
  omega

theorem Seen.eq {e₀ e : Endpoint (Net D) κ} {notice notice' : Notice} {more : List Notice}
    (h : Seen e₀ notice e) (hnoticed : e.noticed = e₀.noticed ++ notice' :: more) :
    notice' = notice := by
  obtain ⟨more', hfirst⟩ := h.first
  exact (List.cons.inj (List.append_cancel_left (hnoticed.symm.trans hfirst))).1

section Along

variable [DoubleOps D]

/-- Since `e₀` the client has sent the frames `sent`, read the frames `read` and noticed the flag as
`seen` says. -/
structure Along (e₀ : Endpoint (Net D) κ) (sent read : List (MsgType × Bytes)) (seen : List Notice)
    (e : Endpoint (Net D) κ) : Prop where
  talk : Talk e₀.outside sent read e.outside
  written : e.written = e₀.written ++ wire sent
  complete : e.sent = e₀.sent ++ sent
  noticed : e.noticed = e₀.noticed ++ seen
  set : seen ≠ [] → e₀.outside.cancelAfter ≠ none

/-- The flag was seen while a frame was sent, of which `part` was written. -/
structure Severed (e₀ : Endpoint (Net D) κ) (sent read : List (MsgType × Bytes))
    (frame part : Bytes) (site : Site) (e : Endpoint (Net D) κ) : Prop where
  moves : Net.Moves (wire sent ++ part) (wire read) e₀.outside e.outside
  small : ∀ f ∈ read, f.2.length ≤ kMaxPayload
  begins : part <+: frame
  seen : ∃ n, Seen e₀ ⟨site, n⟩ e ∧
    (e₀.written.length = (wire e₀.sent).length → n = part.length)

theorem Severed.set {e₀ e : Endpoint (Net D) κ} {sent read : List (MsgType × Bytes)}
    {frame part : Bytes} {site : Site} (h : Severed e₀ sent read frame part site e) :
    e₀.outside.cancelAfter ≠ none := by
  obtain ⟨n, hseen, -⟩ := h.seen
  exact hseen.set

namespace Along

variable {e₀ e e' : Endpoint (Net D) κ} {sent read : List (MsgType × Bytes)} {seen : List Notice}

theorem refl (e₀ : Endpoint (Net D) κ) : Along e₀ [] [] [] e₀ where
  talk := .refl e₀.outside
  written := (List.append_nil _).symm
  complete := (List.append_nil _).symm
  noticed := (List.append_nil _).symm
  set h := absurd rfl h

/-- The client does something of its own. -/
theorem congr (h : Along e₀ sent read seen e) (outside : e'.outside = e.outside)
    (written : e'.written = e.written) (complete : e'.sent = e.sent)
    (noticed : e'.noticed = e.noticed) : Along e₀ sent read seen e' where
  talk := outside ▸ h.talk
  written := written.trans h.written
  complete := complete.trans h.complete
  noticed := noticed.trans h.noticed
  set := h.set

/-- The net moves, and some more was read. -/
theorem onto (h : Along e₀ sent read seen e) {read' : List (MsgType × Bytes)} {s : Net D}
    (htalk : Talk e₀.outside sent read' s) : Along e₀ sent read' seen (e.onto s) :=
  ⟨htalk, h.written, h.complete, h.noticed, h.set⟩

theorem passes (h : Along e₀ sent read seen e) {s : Net D} (hmoves : Net.Moves [] [] e.outside s) :
    Along e₀ sent read seen (e.onto s) := by
  have hall := h.talk.moves.trans hmoves
  rw [List.append_nil, List.append_nil] at hall
  exact h.onto ⟨hall, h.talk.small⟩

/-- The flag can be seen only if it is set some time. -/
theorem cancelAfter_ne_none (h : Along e₀ sent read seen e) {sent' bytes : Bytes} {s : Net D}
    (hmoves : Net.Moves sent' bytes e.outside s) (hset : s.cancelAfter = some 0) :
    e₀.outside.cancelAfter ≠ none := fun hnone ↦
  absurd ((hmoves.calm (h.talk.moves.calm hnone)).symm.trans hset) (by simp)

/-- A call that gave up because the flag was seen. -/
theorem gaveUp (h : Along e₀ sent read [] e) {sent' bytes : Bytes} {s : Net D}
    (hmoves : Net.Moves sent' bytes e.outside s) (hset : s.cancelAfter = some 0) {n : ℕ}
    (hnoticed : e'.noticed = e.noticed ++ [⟨e.here, n⟩]) : Seen e₀ ⟨e.here, n⟩ e' where
  set := h.cancelAfter_ne_none hmoves hset
  first := ⟨[], by rw [hnoticed, h.noticed, List.append_nil]⟩

theorem seen_of_interrupted (h : Along e₀ sent read [] e) {heeds : Bool} {failure : Failure}
    (hint : Interrupted heeds e failure e') :
    failure = .cancelled ∧ heeds = true ∧ ∃ n, Seen e₀ ⟨e.here, n⟩ e' := by
  obtain ⟨hfailure, hheeds, bytes, s, rfl, hmoves, hset⟩ := hint
  exact ⟨hfailure, hheeds, _, h.gaveUp hmoves hset rfl⟩

theorem seen_of_sendStopped (h : Along e₀ sent read [] e) {heeds : Bool} {data : Bytes}
    {failure : Failure} (hstop : SendStopped heeds data e failure e') :
    failure = .cancelled ∧ heeds = true ∧ ∃ n, Seen e₀ ⟨e.here, n⟩ e' := by
  obtain ⟨hfailure, hheeds, n, s, -, hmoves, hset, rfl⟩ := hstop
  exact ⟨hfailure, hheeds, _, h.gaveUp hmoves hset rfl⟩

/-- What was written of a frame is what is unfinished. -/
theorem unfinished_wrote (hstep : e₀.written.length = (wire e₀.sent).length)
    (h : Along e₀ sent read seen e) (s : Net D) (data : Bytes) :
    ((e.onto s).wrote data).unfinished = data.length := by
  have hall : ((e.onto s).wrote data).unfinished
      = (e₀.written ++ wire sent ++ data).length - (wire (e₀.sent ++ sent)).length := by
    rw [← h.written, ← h.complete]
    rfl
  rw [hall, wire_append]
  simp only [List.length_append]
  omega

theorem severed (h : Along e₀ sent read [] e) {frame part : Bytes} (hpart : part <+: frame)
    {s : Net D} (hmoves : Net.Moves part [] e.outside s) (hset : s.cancelAfter = some 0)
    (houtside : e'.outside = s)
    (hnoticed : e'.noticed = ((e.onto s).wrote part).notice.noticed) :
    Severed e₀ sent read frame part e.here e' where
  moves := by
    have hall := h.talk.moves.trans hmoves
    rw [List.append_nil, ← houtside] at hall
    exact hall
  small := h.talk.small
  begins := hpart
  seen := ⟨_, h.gaveUp hmoves hset hnoticed, fun hstep ↦ h.unfinished_wrote hstep s part⟩

/-- A frame was not sent to its end. -/
theorem stopped (h : Along e₀ sent read [] e) {heeds : Bool} {data : Bytes} {failure : Failure}
    (hstop : SendStopped heeds data e failure e') :
    failure = .cancelled ∧ heeds = true ∧ e'.own = e.own ∧
      ∃ part, Severed e₀ sent read data part e.here e' := by
  obtain ⟨hfailure, hheeds, n, s, -, hmoves, hset, rfl⟩ := hstop
  exact ⟨hfailure, hheeds, rfl, _, h.severed (List.take_prefix n data) hmoves hset rfl rfl⟩

/-- A frame was sent to its end. -/
theorem sentFrame (h : Along e₀ sent read seen e) {type : MsgType} {payload : Bytes}
    (hsent : SentFrame type payload e e') : Along e₀ (sent ++ [(type, payload)]) read seen e' := by
  obtain ⟨s, hmoves, rfl⟩ := hsent
  refine ⟨h.talk.send hmoves, ?_, ?_, h.noticed, h.set⟩
  · rw [wire_append, wire_singleton, ← List.append_assoc, ← h.written]
    rfl
  · rw [← List.append_assoc, ← h.complete]
    rfl

/-! ## Looking at the flag -/

/-- The flag is seen between two frames. -/
theorem notices (h : Along e₀ sent read [] e) {s : Net D} (hmoves : Net.Moves [] [] e.outside s)
    (hset : s.cancelAfter = some 0) :
    Along e₀ sent read [⟨e.here, e.unfinished⟩] (e.onto s).notice := by
  refine ⟨(h.passes hmoves).talk, h.written, h.complete, ?_, fun _ ↦ ?_⟩
  · have hnoticed := h.noticed
    rw [List.append_nil] at hnoticed
    rw [← hnoticed]
    rfl
  · exact h.cancelAfter_ne_none hmoves hset

/-- The flag is looked at, and seen or not. -/
theorem load (h : Along e₀ sent read [] e) {E : Failure → Endpoint (Net D) κ → Prop} :
    Yields (Act.load (Net.link D)) e
      (fun cancel e' ↦ e'.own = e.own ∧ Net.Moves [] [] e.outside e'.outside ∧
        ∃ seen, Along e₀ sent read seen e' ∧
          (cancel = false ∧ seen = [] ∨ cancel = true ∧ seen = [⟨e.here, e.unfinished⟩] ∧
            e'.outside.cancelAfter = some 0)) E := by
  refine (Act.yields_load Net.laws e).mono ?_ fun _ _ hnever ↦ hnever.elim
  rintro cancel _ ⟨s, hmoves, ⟨rfl, rfl⟩ | ⟨rfl, hdown, rfl⟩⟩
  · exact ⟨rfl, hmoves, [], h.passes hmoves, .inl ⟨rfl, rfl⟩⟩
  · exact ⟨rfl, hmoves, _, h.notices hmoves hdown, .inr ⟨rfl, rfl, hdown⟩⟩

theorem ask (h : Along e₀ sent read seen e) {α : Type} {f : Net D → α × Net D}
    (hmoves : Net.Moves [] [] e.outside (f e.outside).2) {E : Failure → Endpoint (Net D) κ → Prop} :
    Yields (Act.ask f) e (fun a e' ↦ a = (f e.outside).1 ∧ e' = e.onto (f e.outside).2 ∧
      Along e₀ sent read seen e') E := ⟨rfl, rfl, h.passes hmoves⟩

theorem keep (h : Along e₀ sent read seen e) (f : κ → κ)
    {E : Failure → Endpoint (Net D) κ → Prop} :
    Yields (Act.keep f) e (fun _ e' ↦ Along e₀ sent read seen e' ∧ e'.own = f e.own ∧
      e'.outside = e.outside) E := ⟨h.congr rfl rfl rfl rfl, rfl, rfl⟩

theorem mark (h : Along e₀ sent read seen e) (site : Site)
    {E : Failure → Endpoint (Net D) κ → Prop} :
    Yields (Act.mark site) e (fun _ e' ↦ Along e₀ sent read seen e' ∧ e'.own = e.own ∧
      e'.here = site ∧ e'.outside = e.outside) E := ⟨h.congr rfl rfl rfl rfl, rfl, rfl, rfl⟩

end Along

/-- A flag that is set is seen. -/
theorem yields_load_set {e : Endpoint (Net D) κ} (hset : e.outside.cancelAfter = some 0)
    {E : Failure → Endpoint (Net D) κ → Prop} :
    Yields (Act.load (Net.link D)) e (fun cancel e' ↦ cancel = true ∧ e' = e.notice) E := by
  have hflag : e.outside.flag e.here = (true, e.outside) := by
    rw [Net.flag, hset]
  refine Yields.bind (Q := fun seen e' ↦ seen = true ∧ e' = e) ?_ ?_
  · change (Net.flag e.here e.outside).1 = true ∧ e.onto (Net.flag e.here e.outside).2 = e
    rw [hflag]
    exact ⟨rfl, rfl⟩
  · rintro _ _ ⟨rfl, rfl⟩
    exact ⟨rfl, rfl⟩

/-! ## Only reading -/

theorem Net.Shorter.after {bytes : Bytes} {s s' s'' : Net D} (h : s''.Shorter s')
    (hmoves : Net.Moves [] bytes s s') : s''.Shorter s := by
  rcases hmoves.shorter rfl with hlt | ⟨heq, hle⟩ <;> rcases h with hlt' | ⟨heq', hlt'⟩
  · exact .inl (hlt'.trans hlt)
  · exact .inl (heq' ▸ hlt)
  · exact .inl (heq ▸ hlt')
  · exact .inr ⟨heq'.trans heq, by omega⟩

/-- From `e` on the client only reads. -/
structure Reads (e e' : Endpoint (Net D) κ) : Prop where
  moves : ∃ bytes, Net.Moves [] bytes e.outside e'.outside
  written : e'.written = e.written
  complete : e'.sent = e.sent

/-- What the client has of its own is not touched, and the flag is not seen. -/
structure Waits (e e' : Endpoint (Net D) κ) : Prop extends Reads e e' where
  own : e'.own = e.own
  noticed : e'.noticed = e.noticed

namespace Reads

variable {e e' e'' : Endpoint (Net D) κ}

theorem refl (e : Endpoint (Net D) κ) : Reads e e := ⟨⟨[], .refl e.outside⟩, rfl, rfl⟩

theorem trans (h : Reads e e') (h' : Reads e' e'') : Reads e e'' := by
  obtain ⟨⟨bytes, hmoves⟩, hwritten, hcomplete⟩ := h
  obtain ⟨⟨bytes', hmoves'⟩, hwritten', hcomplete'⟩ := h'
  exact ⟨⟨_, hmoves.trans hmoves'⟩, hwritten'.trans hwritten, hcomplete'.trans hcomplete⟩

/-- The client does something of its own. -/
theorem congr (h : Reads e e') (outside : e''.outside = e'.outside)
    (written : e''.written = e'.written) (complete : e''.sent = e'.sent) : Reads e e'' where
  moves := outside ▸ h.moves
  written := written.trans h.written
  complete := complete.trans h.complete

theorem onto (h : Reads e e') {bytes : Bytes} {s : Net D}
    (hmoves : Net.Moves [] bytes e'.outside s) :
    Reads e (e'.onto s) := h.trans ⟨⟨bytes, hmoves⟩, rfl, rfl⟩

end Reads

namespace Waits

variable {e e' e'' : Endpoint (Net D) κ}

theorem refl (e : Endpoint (Net D) κ) : Waits e e := ⟨.refl e, rfl, rfl⟩

theorem trans (h : Waits e e') (h' : Waits e' e'') : Waits e e'' :=
  ⟨h.toReads.trans h'.toReads, h'.own.trans h.own, h'.noticed.trans h.noticed⟩

theorem onto (h : Waits e e') {bytes : Bytes} {s : Net D}
    (hmoves : Net.Moves [] bytes e'.outside s) :
    Waits e (e'.onto s) := ⟨h.toReads.onto hmoves, h.own, h.noticed⟩

theorem ask {α : Type} {f : Net D → α × Net D} (h : Waits e e')
    (hmoves : Net.Moves [] [] e'.outside (f e'.outside).2)
    {E : Failure → Endpoint (Net D) κ → Prop} :
    Yields (Act.ask f) e' (fun _ e'' ↦ Waits e e'') E := h.onto hmoves

end Waits

/-- A read gives a frame, and less is on its way then, or it fails. -/
theorem yields_readsFrame {refuse : FrameHeader → Option Failure}
    (hrefuse : ∀ h, refuse h ≠ some .spent) (heeds : Bool) (idleMs idleMs' : ℕ)
    (e : Endpoint (Net D) κ) :
    Yields (Act.readFrameWith refuse (Act.recvExactly (Net.link D) heeds idleMs)
        (Act.recvExactly (Net.link D) heeds idleMs')) e
      (fun _ e' ↦ Waits e e' ∧ e'.outside.Shorter e.outside)
      fun failure e' ↦ failure ≠ .spent ∧ Reads e e' ∧ e'.own = e.own ∧
        (heeds = false → e'.noticed = e.noticed) := by
  refine (Act.yields_readFrameWith Net.laws refuse heeds idleMs idleMs' e).mono ?_ ?_
  · rintro f _ ⟨head, hhead, -, -, -, s, hmoves, rfl⟩
    refine ⟨(Waits.refl e).onto hmoves, ?_⟩
    have hpos : 0 < (head ++ f.payload).length := by
      rw [List.length_append, hhead]
      exact Nat.add_pos_left (by decide) _
    exact (hmoves.shorter rfl).imp_right fun ⟨heq, hle⟩ ↦ ⟨heq, by
      rw [Endpoint.onto_outside]
      omega⟩
  · rintro failure _ (⟨head, -, hsome, s, hmoves, rfl⟩ | ⟨bytes, -, hheeds, s, hmoves, hdown, rfl⟩)
    · refine ⟨?_, (Reads.refl e).onto hmoves, rfl, fun _ ↦ rfl⟩
      rintro rfl
      exact hrefuse _ hsome
    · constructor
      · rintro rfl
        exact hdown
      · rw [Endpoint.fallen]
        split_ifs with hcancelled
        · refine ⟨((Reads.refl e).onto hmoves).congr rfl rfl rfl, rfl, fun hno ↦ ?_⟩
          exact absurd (hheeds hcancelled) (by simp [hno])
        · exact ⟨(Reads.refl e).onto hmoves, rfl, fun _ ↦ rfl⟩

/-- Everything is sent, and at least the frames `read` were read. -/
structure Over (e₀ : Endpoint (Net D) κ) (sent read : List (MsgType × Bytes))
    (e : Endpoint (Net D) κ) : Prop where
  moves : ∃ bytes, Net.Moves (wire sent) (wire read ++ bytes) e₀.outside e.outside
  small : ∀ f ∈ read, f.2.length ≤ kMaxPayload
  written : e.written = e₀.written ++ wire sent

variable {e₀ e e' : Endpoint (Net D) κ} {sent read : List (MsgType × Bytes)} {seen : List Notice}

theorem Along.over (h : Along e₀ sent read seen e) : Over e₀ sent read e where
  moves := ⟨[], by rw [List.append_nil]; exact h.talk.moves⟩
  small := h.talk.small
  written := h.written

theorem Over.reads (h : Over e₀ sent read e) (hreads : Reads e e') : Over e₀ sent read e' := by
  obtain ⟨⟨bytes, hmoves⟩, hsmall, hwritten⟩ := h
  obtain ⟨⟨bytes', hmoves'⟩, hwritten', -⟩ := hreads
  have hall := hmoves.trans hmoves'
  rw [List.append_nil, List.append_assoc] at hall
  exact ⟨⟨_, hall⟩, hsmall, hwritten'.trans hwritten⟩

end Along

end LoggerAnalyzer
