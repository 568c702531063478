import Mathlib.Data.List.Basic

/-!
# Machines that answer

A machine takes inputs one by one, if they are in order, and gives back a list of outputs for each.
Its phases follow from the inputs alone; its outputs may not, so they are given by a relation.

`Answered` is a run of a machine with all that it gave back. Runs are put together at the end, which
is where a simulation extends them, and taken apart anywhere (`Answered.split`).
-/

namespace LoggerAnalyzer

/-- A machine with inputs in `α` and outputs in `β`. -/
structure Machine (σ α β : Type*) where
  next : σ → α → Option σ
  answers : σ → α → List β → Prop

namespace Machine

variable {σ α β : Type*} (M : Machine σ α β)

/-- The phase after a sequence of inputs, if all are in order. -/
def run (phase : σ) (inputs : List α) : Option σ := inputs.foldlM M.next phase

@[simp] theorem run_nil (phase : σ) : M.run phase [] = some phase := rfl

theorem run_cons {phase phase' : σ} {a : α} (h : M.next phase a = some phase')
    (inputs : List α) : M.run phase (a :: inputs) = M.run phase' inputs := by
  rw [run, List.foldlM_cons, h]
  rfl

theorem run_append {phase phase' : σ} {inputs : List α} (h : M.run phase inputs = some phase')
    (inputs' : List α) : M.run phase (inputs ++ inputs') = M.run phase' inputs' := by
  rw [run, List.foldlM_append, ← run, h]
  rfl

/-- From `phase` on, the inputs lead to another phase, and the outputs are all that is given
back. -/
inductive Answered (phase : σ) : List α → σ → List β → Prop where
  | nil : Answered phase [] phase []
  | snoc {inputs phase₁ outputs a phase₂ output} (before : Answered phase inputs phase₁ outputs)
    (next : M.next phase₁ a = some phase₂) (answers : M.answers phase₁ a output) :
    Answered phase (inputs ++ [a]) phase₂ (outputs ++ output)

variable {M} {phase phase' : σ}

namespace Answered

theorem run {inputs : List α} {outputs : List β} (h : M.Answered phase inputs phase' outputs) :
    M.run phase inputs = some phase' := by
  induction h with
  | nil => rfl
  | snoc _ next _ ih => rw [run_append M ih, run_cons M next, run_nil]

/-- The input after those of a run is in order if a longer sequence is. -/
theorem next_isSome {inputs rest : List α} {outputs : List β} {a : α}
    (h : M.Answered phase inputs phase' outputs)
    (hrun : (M.run phase (inputs ++ a :: rest)).isSome) : ∃ phase'', M.next phase' a = some phase''
    := by
  rw [run_append M h.run, Machine.run, List.foldlM_cons] at hrun
  cases hnext : M.next phase' a with
  | none => simp [hnext] at hrun
  | some phase'' => exact ⟨phase'', rfl⟩

theorem split {inputs₁ inputs₂ : List α} {outputs : List β}
    (h : M.Answered phase (inputs₁ ++ inputs₂) phase' outputs) :
    ∃ phase₁ outputs₁ outputs₂, M.Answered phase inputs₁ phase₁ outputs₁ ∧
      M.Answered phase₁ inputs₂ phase' outputs₂ ∧ outputs = outputs₁ ++ outputs₂ := by
  generalize hinputs : inputs₁ ++ inputs₂ = inputs at h
  induction h generalizing inputs₂ with
  | nil =>
    obtain ⟨rfl, rfl⟩ := List.append_eq_nil_iff.mp hinputs
    exact ⟨phase, [], [], .nil, .nil, rfl⟩
  | @snoc inputs phase₁ outputs a phase₂ output before next answers ih =>
    rcases List.eq_nil_or_concat inputs₂ with rfl | ⟨inputs₂, a', rfl⟩
    · rw [List.append_nil] at hinputs
      exact ⟨phase₂, _, [], hinputs ▸ .snoc before next answers, .nil, (List.append_nil _).symm⟩
    · rw [List.concat_eq_append, ← List.append_assoc] at hinputs
      obtain ⟨hinit, hlast⟩ := List.append_inj' hinputs rfl
      obtain ⟨rfl⟩ := List.cons.inj hlast
      obtain ⟨mid, outputs₁, outputs₂, h₁, h₂, rfl⟩ := ih hinit
      refine ⟨mid, outputs₁, outputs₂ ++ output, h₁, ?_, List.append_assoc ..⟩
      rw [List.concat_eq_append]
      exact .snoc h₂ next answers

theorem nil_iff {outputs : List β} :
    M.Answered phase [] phase' outputs ↔ phase' = phase ∧ outputs = [] := by
  constructor
  · intro h
    generalize hnil : ([] : List α) = inputs at h
    cases h with
    | nil => exact ⟨rfl, rfl⟩
    | snoc => simp at hnil
  · rintro ⟨rfl, rfl⟩
    exact .nil

theorem singleton {a : α} {outputs : List β} (h : M.Answered phase [a] phase' outputs) :
    M.next phase a = some phase' ∧ M.answers phase a outputs := by
  generalize hinputs : [a] = inputs at h
  cases h with
  | nil => cases hinputs
  | @snoc inputs phase₁ outputs a' _ output before next answers =>
    have hconcat : [] ++ [a] = inputs ++ [a'] := hinputs
    obtain ⟨hinit, hlast⟩ := List.append_inj' hconcat rfl
    obtain ⟨rfl⟩ := List.cons.inj hlast
    subst hinit
    obtain ⟨rfl, rfl⟩ := nil_iff.mp before
    exact ⟨next, answers⟩

theorem cons {a : α} {inputs : List α} {outputs : List β}
    (h : M.Answered phase (a :: inputs) phase' outputs) :
    ∃ phase₁ output outputs₁, M.next phase a = some phase₁ ∧ M.answers phase a output ∧
      M.Answered phase₁ inputs phase' outputs₁ ∧ outputs = output ++ outputs₁ := by
  rw [← List.singleton_append] at h
  obtain ⟨phase₁, output, outputs₁, h₁, h₂, rfl⟩ := h.split
  exact ⟨phase₁, output, outputs₁, h₁.singleton.1, h₁.singleton.2, h₂, rfl⟩

end Answered

end Machine

end LoggerAnalyzer
