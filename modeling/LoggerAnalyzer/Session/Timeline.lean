import LoggerAnalyzer.Session.Runs

/-!
# What is added to the timeline

A session only ever adds to its timeline. `Appends P c c'` says so of two conversations, with a
property `P` of everything that was added: with one `P` it says that nothing was sent, with another
that the flag was not set. Each relation of `Conversation` has a lemma here that reduces it to what
it can add at all.
-/

namespace LoggerAnalyzer

namespace Conversation

variable {D : Type}

/-- The timeline of `c'` is that of `c` with happenings of the kind `P` added to it, and writes were
asked for. -/
structure Appends (P : Happening → Prop) (c c' : Conversation D) : Prop where
  timeline : ∃ hs, c'.timeline = c.timeline ++ hs ∧ ∀ h ∈ hs, P h
  uvWrite : ∃ n, c'.uvWrite = c.uvWrite.drop n

namespace Appends

variable {P : Happening → Prop} {c c' c'' : Conversation D}

theorem of_eq (timeline : c'.timeline = c.timeline) (uvWrite : c'.uvWrite = c.uvWrite) :
    Appends P c c' :=
  ⟨⟨[], by rw [timeline, List.append_nil], by simp⟩, 0, uvWrite⟩

theorem refl (c : Conversation D) : Appends P c c := of_eq rfl rfl

theorem trans (h : Appends P c c') (h' : Appends P c' c'') : Appends P c c'' := by
  obtain ⟨⟨hs, hhs, hall⟩, n, hn⟩ := h
  obtain ⟨⟨hs', hhs', hall'⟩, n', hn'⟩ := h'
  refine ⟨⟨hs ++ hs', by rw [hhs', hhs, List.append_assoc], fun h hmem ↦ ?_⟩, n + n', ?_⟩
  · exact (List.mem_append.mp hmem).elim (hall h) (hall' h)
  · rw [hn', hn, Stream'.drop_drop]

theorem mono {Q : Happening → Prop} (h : Appends P c c') (hPQ : ∀ h, P h → Q h) :
    Appends Q c c' := by
  obtain ⟨⟨hs, hhs, hall⟩, huvWrite⟩ := h
  exact ⟨⟨hs, hhs, fun h hmem ↦ hPQ h (hall h hmem)⟩, huvWrite⟩

theorem note (c : Conversation D) {h : Happening} (hP : P h) : Appends P c (c.note h) :=
  ⟨⟨[h], rfl, by simpa using hP⟩, 0, rfl⟩

theorem enter (c : Conversation D) {state : SessionState} (hP : P (.entered state)) :
    Appends P c (c.enter state) := ⟨⟨[.entered state], rfl, by simpa using hP⟩, 0, rfl⟩

theorem flag (c : Conversation D) (hP : P .flagged) : Appends P c c.flag :=
  ⟨⟨[.flagged], rfl, by simpa using hP⟩, 0, rfl⟩

end Appends

theorem Closes.appends {P : Happening → Prop} {c c' : Conversation D} (h : Closes c c')
    (hclosing : P (.entered .closing)) (hclosed : P .sessionClosed) : Appends P c c' := by
  cases h with
  | again => exact .refl c
  | handles => exact .enter c hclosing
  | nothing => exact (Appends.enter c hclosing).trans (.note _ hclosed)

theorem Sends.appends {P : Happening → Prop} {type : MsgType} {payload : Bytes}
    {c c' : Conversation D} (h : Sends type payload c c')
    (hsent : c.uvWrite.head = true → P (.sent type payload)) (hclosing : P (.entered .closing))
    (hclosed : P .sessionClosed) : Appends P c c' := by
  have htail : Appends P c { c with uvWrite := c.uvWrite.tail } := ⟨⟨[], by simp⟩, 1, rfl⟩
  cases h with
  | dropped => exact .refl c
  | accepted _ ok => exact htail.trans (.note _ (hsent ok))
  | refused _ _ closes => exact htail.trans (closes.appends hclosing hclosed)

theorem SendsAll.appends {P : Happening → Prop} {ms : List (MsgType × Bytes)}
    {c c' : Conversation D} (h : SendsAll ms c c') (hsent : ∀ m ∈ ms, P (.sent m.1 m.2))
    (hclosing : P (.entered .closing)) (hclosed : P .sessionClosed) : Appends P c c' := by
  induction h with
  | nil => exact .refl _
  | cons first _ ih =>
    rw [List.forall_mem_cons] at hsent
    exact (first.appends (fun _ ↦ hsent.1) hclosing hclosed).trans (ih hsent.2)

end Conversation

end LoggerAnalyzer
