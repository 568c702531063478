import Mathlib.Data.List.Induction
import Mathlib.Data.Nat.Notation
import Mathlib.Data.Set.Defs

/-!
# Systems and what always holds of them

A system takes steps, and its surroundings decide which of them come next. What they may choose
depends on where the system is, and is given by a relation, `offers`. `Reaches` are the places that
a system comes by, in whatever order its steps are taken, and `Reaches.invariant` is how something
is shown of all of them.

What a system did may be kept in a log, which only grows at its end. `Justified R log` says that
every entry is right by what stood in the log before it; it is shown entry by entry,
`Justified.concat`. What may be said of the entries *after* an entry changes with every new one, and
`concat_eq_append_cons_iff` is how it is followed.
-/

namespace LoggerAnalyzer

/-- A system with states in `σ` and steps that are named by `ε`. -/
structure System (σ ε : Type*) where
  start : σ
  step : σ → ε → σ
  offers : σ → ε → Prop

namespace System

variable {σ ε : Type*}

/-- The system comes by a state. -/
inductive Reaches (S : System σ ε) : σ → Prop where
  | start : Reaches S S.start
  | step {s e} (before : Reaches S s) (offered : S.offers s e) : Reaches S (S.step s e)

/-- The system with surroundings that keep to a condition on every step. -/
def under (S : System σ ε) (condition : σ → ε → Prop) : System σ ε :=
  { S with offers := fun s e ↦ S.offers s e ∧ condition s e }

/-- The state after a sequence of steps. -/
def run (S : System σ ε) (s : σ) (steps : List ε) : σ := steps.foldl S.step s

/-- Every step of a sequence is on offer when it is taken. -/
def Offers (S : System σ ε) : σ → List ε → Prop
  | _, [] => True
  | s, e :: steps => S.offers s e ∧ S.Offers (S.step s e) steps

instance decidableOffers (S : System σ ε) [∀ s e, Decidable (S.offers s e)] :
    (s : σ) → (steps : List ε) → Decidable (S.Offers s steps)
  | _, [] => .isTrue trivial
  | s, e :: steps => @instDecidableAnd _ _ _ (decidableOffers S (S.step s e) steps)

variable {S : System σ ε}

theorem run_append (s : σ) (steps others : List ε) :
    S.run s (steps ++ others) = S.run (S.run s steps) others := List.foldl_append

@[simp] theorem run_under (condition : σ → ε → Prop) (s : σ) (steps : List ε) :
    (S.under condition).run s steps = S.run s steps := rfl

theorem offers_append {s : σ} {steps others : List ε} :
    S.Offers s (steps ++ others) ↔ S.Offers s steps ∧ S.Offers (S.run s steps) others := by
  induction steps generalizing s with
  | nil => exact (true_and _).symm.to_iff
  | cons e steps ih =>
    rw [List.cons_append]
    exact (and_congr_right fun _ ↦ ih).trans and_assoc.symm

namespace Reaches

/-- **What the start has and every step on offer preserves always holds.** -/
theorem invariant {P : σ → Prop} (start : P S.start)
    (step : ∀ {s e}, S.Reaches s → P s → S.offers s e → P (S.step s e)) {s : σ}
    (h : S.Reaches s) : P s := by
  induction h with
  | start => exact start
  | step before offered ih => exact step before ih offered

theorem run {s : σ} (h : S.Reaches s) {steps : List ε} (offers : S.Offers s steps) :
    S.Reaches (S.run s steps) := by
  induction steps generalizing s with
  | nil => exact h
  | cons e steps ih => exact ih (.step h offers.1) offers.2

end Reaches

/-- **What every step leaves, but for some that take one away**: a run takes away as many as it has
of these. -/
theorem run_countP {P : σ → Prop} {left : σ → ℕ} {takes : ε → Bool}
    (step : ∀ {s e}, P s → S.offers s e →
      P (S.step s e) ∧ left (S.step s e) + (if takes e then 1 else 0) = left s)
    {s : σ} (h : P s) {steps : List ε} (offers : S.Offers s steps) :
    P (S.run s steps) ∧ left (S.run s steps) + steps.countP takes = left s := by
  induction steps generalizing s with
  | nil => exact ⟨h, rfl⟩
  | cons e steps ih =>
    obtain ⟨hstep, hleft⟩ := step h offers.1
    obtain ⟨hrun, hrest⟩ := ih hstep offers.2
    refine ⟨hrun, ?_⟩
    rw [List.countP_cons, ← Nat.add_assoc, ← hleft]
    exact congrArg (· + _) hrest

end System

/-! ## Logs -/

section Log

variable {α : Type*} {log before after : List α} {x y : α}

/-- Where an entry may stand in a log with a new entry at its end. -/
theorem concat_eq_append_cons_iff : log ++ [y] = before ++ x :: after ↔
    (log = before ∧ y = x ∧ after = []) ∨
      ∃ rest, after = rest ++ [y] ∧ log = before ++ x :: rest := by
  constructor
  · intro heq
    rcases List.eq_nil_or_concat after with rfl | ⟨rest, z, rfl⟩
    · obtain ⟨hlog, hy⟩ := List.append_inj' heq rfl
      exact .inl ⟨hlog, List.singleton_inj.mp hy, rfl⟩
    · rw [List.concat_eq_append] at heq ⊢
      rw [← List.cons_append, ← List.append_assoc] at heq
      obtain ⟨hlog, hz⟩ := List.append_inj' heq rfl
      rw [List.singleton_inj.mp hz]
      exact .inr ⟨rest, rfl, hlog⟩
  · rintro (⟨rfl, rfl, rfl⟩ | ⟨rest, rfl, rfl⟩)
    · rfl
    · rw [List.append_assoc, List.cons_append]

/-- Every entry is right by what stands before it. -/
def Justified (R : List α → α → Prop) (log : List α) : Prop :=
  ∀ before x after, log = before ++ x :: after → R before x

namespace Justified

variable {R : List α → α → Prop}

theorem nil : Justified R [] := fun _ _ _ h ↦ absurd h (by simp)

theorem concat (h : Justified R log) (hy : R log y) : Justified R (log ++ [y]) := by
  intro before x after heq
  rcases concat_eq_append_cons_iff.mp heq with ⟨rfl, rfl, -⟩ | ⟨rest, -, hlog⟩
  · exact hy
  · exact h before x rest hlog

end Justified

end Log

end LoggerAnalyzer
