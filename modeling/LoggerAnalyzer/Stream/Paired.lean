import LoggerAnalyzer.Stream.Program

/-!
# Two programs side by side

Two programs that do the same in different worlds are run next to each other. As long as their
states are related by `R` they give the same values and fail in the same ways. At some point they
may part: from then on each goes on by itself, and all that is known is what `S` says of the two
states, which neither of them can undo.

`Follows R S` has one rule for each way of putting programs together, like `Yields`. If nothing is
in `S`, the two programs never part.
-/

namespace LoggerAnalyzer

namespace Program

universe u

variable {ε σ σ' α β : Type u} {R S : σ → σ' → Prop}

/-- The two results are the same in related states, or they have parted. -/
def Agree (R S : σ → σ' → Prop) : EStateM.Result ε σ α → EStateM.Result ε σ' α → Prop
  | .ok a s, .ok a' s' => a = a' ∧ R s s' ∨ S s s'
  | .error e s, .error e' s' => e = e' ∧ R s s' ∨ S s s'
  | .ok _ s, .error _ s' => S s s'
  | .error _ s, .ok _ s' => S s s'

/-- Started in related states the two programs agree, and what has parted stays so whatever either
of them does. -/
structure Follows (R S : σ → σ' → Prop) (m : EStateM ε σ α) (m' : EStateM ε σ' α) : Prop where
  agree : ∀ s s', R s s' → Agree R S (m s) (m' s')
  left : ∀ s', Preserves (fun s ↦ S s s') m
  right : ∀ s, Preserves (fun s' ↦ S s s') m'

/-- The state in which a program ends. -/
def finalState : EStateM.Result ε σ α → σ
  | .ok _ s => s
  | .error _ s => s

theorem Agree.of_parted {r : EStateM.Result ε σ α} {r' : EStateM.Result ε σ' α}
    (h : S (finalState r) (finalState r')) : Agree R S r r' := by
  cases r <;> cases r' <;> first | exact h | exact .inr h

theorem Preserves.finalState {I : σ → Prop} {m : EStateM ε σ α} (hm : Preserves I m) {s : σ}
    (h : I s) : I (finalState (m s)) := by
  have hyields := hm s h
  rw [Yields] at hyields
  cases hrun : m s with
  | ok a s' => rwa [hrun] at hyields
  | error e s' => rwa [hrun] at hyields

namespace Follows

theorem pure (a : α) : Follows R S (pure a : EStateM ε σ α) (pure a) :=
  ⟨fun _ _ h ↦ .inl ⟨rfl, h⟩, fun _ ↦ .pure a, fun _ ↦ .pure a⟩

theorem throw (e : ε) : Follows R S (throw e : EStateM ε σ α) (throw e) :=
  ⟨fun _ _ h ↦ .inl ⟨rfl, h⟩, fun _ ↦ .throw e, fun _ ↦ .throw e⟩

theorem modifyGet {f : σ → α × σ} {f' : σ' → α × σ'}
    (agree : ∀ s s', R s s' → (f s).1 = (f' s').1 ∧ R (f s).2 (f' s').2)
    (left : ∀ s s', S s s' → S (f s).2 s') (right : ∀ s s', S s s' → S s (f' s').2) :
    Follows R S (modifyGet f : EStateM ε σ α) (modifyGet f') :=
  ⟨fun s s' h ↦ .inl (agree s s' h), fun s' ↦ .modifyGet fun s h ↦ left s s' h,
    fun s ↦ .modifyGet fun s' h ↦ right s s' h⟩

theorem modify {f : σ → σ} {f' : σ' → σ'} (agree : ∀ s s', R s s' → R (f s) (f' s'))
    (left : ∀ s s', S s s' → S (f s) s') (right : ∀ s s', S s s' → S s (f' s')) :
    Follows R S (modify f : EStateM ε σ PUnit) (modify f') :=
  modifyGet (fun s s' h ↦ ⟨rfl, agree s s' h⟩) left right

/-- What goes on after two programs that agree. -/
theorem bind {m : EStateM ε σ α} {m' : EStateM ε σ' α} {k : α → EStateM ε σ β}
    {k' : α → EStateM ε σ' β} (h : Follows R S m m') (hk : ∀ a, Follows R S (k a) (k' a)) :
    Follows R S (m >>= k) (m' >>= k') where
  agree s s' hs := by
    have hagree := h.agree s s' hs
    cases hm : m s with
    | ok a t =>
      rw [bind_ok hm]
      cases hm' : m' s' with
      | ok a' t' =>
        rw [bind_ok hm']
        rw [hm, hm'] at hagree
        rcases hagree with ⟨rfl, ht⟩ | ht
        · exact (hk a).agree t t' ht
        · exact .of_parted (((hk a').right _).finalState (((hk a).left t').finalState ht))
      | error e' t' =>
        rw [bind_error hm']
        rw [hm, hm'] at hagree
        exact .of_parted (((hk a).left t').finalState hagree)
    | error e t =>
      rw [bind_error hm]
      cases hm' : m' s' with
      | ok a' t' =>
        rw [bind_ok hm']
        rw [hm, hm'] at hagree
        exact .of_parted (((hk a').right t).finalState hagree)
      | error e' t' =>
        rw [bind_error hm']
        rw [hm, hm'] at hagree
        exact hagree
  left s' := .bind (h.left s') fun a ↦ (hk a).left s'
  right s := .bind (h.right s) fun a ↦ (hk a).right s

/-- What handles the failures of two programs that agree. -/
theorem tryCatch {m : EStateM ε σ α} {m' : EStateM ε σ' α} {handle : ε → EStateM ε σ α}
    {handle' : ε → EStateM ε σ' α} (h : Follows R S m m')
    (hh : ∀ e, Follows R S (handle e) (handle' e)) :
    Follows R S (tryCatch m handle) (tryCatch m' handle') where
  agree s s' hs := by
    have hagree := h.agree s s' hs
    cases hm : m s with
    | ok a t =>
      rw [tryCatch_ok hm]
      cases hm' : m' s' with
      | ok a' t' =>
        rw [tryCatch_ok hm']
        rw [hm, hm'] at hagree
        exact hagree
      | error e' t' =>
        rw [tryCatch_error hm']
        rw [hm, hm'] at hagree
        exact .of_parted (((hh e').right t).finalState hagree)
    | error e t =>
      rw [tryCatch_error hm]
      cases hm' : m' s' with
      | ok a' t' =>
        rw [tryCatch_ok hm']
        rw [hm, hm'] at hagree
        exact .of_parted (((hh e).left t').finalState hagree)
      | error e' t' =>
        rw [tryCatch_error hm']
        rw [hm, hm'] at hagree
        rcases hagree with ⟨rfl, ht⟩ | ht
        · exact (hh e).agree t t' ht
        · -- they parted before, and the handlers cannot undo it
          exact .of_parted (((hh e').right _).finalState (((hh e).left t').finalState ht))
  left s' := .tryCatch (h.left s') fun e ↦ (hh e).left s'
  right s := .tryCatch (h.right s) fun e ↦ (hh e).right s

theorem ite {c : Prop} [Decidable c] {m n : EStateM ε σ α} {m' n' : EStateM ε σ' α}
    (h : c → Follows R S m m') (h' : ¬ c → Follows R S n n') :
    Follows R S (if c then m else n) (if c then m' else n') := by
  split_ifs with hc
  · exact h hc
  · exact h' hc

/-- The programs fail, or go on if they do not. -/
theorem failIf {c : Prop} [Decidable c] {e : ε} {k : PUnit → EStateM ε σ β}
    {k' : PUnit → EStateM ε σ' β} (hk : Follows R S (k .unit) (k' .unit)) :
    Follows R S (if c then MonadExcept.throw e >>= k else k .unit)
      (if c then MonadExcept.throw e >>= k' else k' .unit) := by
  split_ifs
  · exact ⟨fun _ _ h ↦ .inl ⟨rfl, h⟩, fun _ _ h ↦ h, fun _ _ h ↦ h⟩
  · exact hk

end Follows

end Program

end LoggerAnalyzer
