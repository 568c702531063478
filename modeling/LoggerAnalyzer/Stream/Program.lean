import Mathlib.Data.Nat.Notation
import Mathlib.Order.Basic

/-!
# Programs that act on a state and may fail

`EStateM ε σ α` is the type of these programs. `Yields` says how one of them ends when it is started
in some state: with a value, or by failing. There is one rule for each way of putting programs
together, so that a specification of a program is proved along its text. `Preserves` is the same for
something that holds of the state and goes on to hold.

A loop that may go on for ever is written with fuel, and a program that contains one is a family of
programs. `Settles` says that, given enough fuel, all members of the family do the same; its rules
are those of `Yields`, and `Settles.succ`, which goes round a loop once.
-/

namespace LoggerAnalyzer

namespace Program

universe u

variable {ε σ α β : Type u} {Q Q' : α → σ → Prop} {E E' : ε → σ → Prop} {s : σ}

/-- The result is a value in `Q` or a failure in `E`. -/
def Meets (r : EStateM.Result ε σ α) (Q : α → σ → Prop) (E : ε → σ → Prop) : Prop :=
  match r with
  | .ok a s => Q a s
  | .error e s => E e s

/-- Started in `s`, the program gives a value in `Q` or fails in `E`. -/
def Yields (m : EStateM ε σ α) (s : σ) (Q : α → σ → Prop) (E : ε → σ → Prop) : Prop :=
  Meets (m s) Q E

theorem Meets.mono {r : EStateM.Result ε σ α} (h : Meets r Q E) (hQ : ∀ a s, Q a s → Q' a s)
    (hE : ∀ e s, E e s → E' e s) : Meets r Q' E' := by
  cases r with
  | ok a s => exact hQ a s h
  | error e s => exact hE e s h

instance (r : EStateM.Result ε σ α) [∀ a s, Decidable (Q a s)] [∀ e s, Decidable (E e s)] :
    Decidable (Meets r Q E) :=
  match r with
  | .ok a s => inferInstanceAs (Decidable (Q a s))
  | .error e s => inferInstanceAs (Decidable (E e s))

instance (m : EStateM ε σ α) [∀ a s, Decidable (Q a s)] [∀ e s, Decidable (E e s)] :
    Decidable (Yields m s Q E) := inferInstanceAs (Decidable (Meets (m s) Q E))

/-! ## Running a program -/

section Run

variable {m : EStateM ε σ α} {a : α} {e : ε} {s' : σ}

theorem bind_ok {k : α → EStateM ε σ β} (h : m s = .ok a s') : (m >>= k) s = k a s' := by
  change EStateM.bind m k s = _
  rw [EStateM.bind, h]

theorem bind_error {k : α → EStateM ε σ β} (h : m s = .error e s') :
    (m >>= k) s = .error e s' := by
  change EStateM.bind m k s = _
  rw [EStateM.bind, h]

theorem tryCatch_ok {handle : ε → EStateM ε σ α} (h : m s = .ok a s') :
    (tryCatch m handle : EStateM ε σ α) s = .ok a s' := by
  change EStateM.tryCatch m handle s = _
  simp only [EStateM.tryCatch, h]

theorem tryCatch_error {handle : ε → EStateM ε σ α} (h : m s = .error e s') :
    (tryCatch m handle : EStateM ε σ α) s = handle e s' := by
  change EStateM.tryCatch m handle s = _
  simp only [EStateM.tryCatch, h]
  rfl

end Run

/-! ## One program -/

namespace Yields

theorem mono {m : EStateM ε σ α} (h : Yields m s Q E) (hQ : ∀ a s, Q a s → Q' a s)
    (hE : ∀ e s, E e s → E' e s) : Yields m s Q' E' := Meets.mono h hQ hE

theorem and {m : EStateM ε σ α} (h : Yields m s Q E) (h' : Yields m s Q' E') :
    Yields m s (fun a s ↦ Q a s ∧ Q' a s) fun e s ↦ E e s ∧ E' e s := by
  unfold Yields at *
  cases hm : m s with
  | ok a s' =>
    rw [hm] at h h'
    exact ⟨h, h'⟩
  | error e s' =>
    rw [hm] at h h'
    exact ⟨h, h'⟩

theorem exists_ok {m : EStateM ε σ α} (h : Yields m s Q fun _ _ ↦ False) :
    ∃ a s', m s = .ok a s' ∧ Q a s' := by
  rw [Yields] at h
  cases hm : m s with
  | ok a s' => exact ⟨a, s', rfl, by rwa [hm] at h⟩
  | error e s' => exact (by rwa [hm] at h : False).elim

theorem of_ok {m : EStateM ε σ α} (h : Yields m s Q E) {a : α} {s' : σ} (hrun : m s = .ok a s') :
    Q a s' := by
  rw [Yields, hrun] at h
  exact h

theorem pure {a : α} (h : Q a s) : Yields (pure a : EStateM ε σ α) s Q E := h

theorem throw {e : ε} (h : E e s) : Yields (throw e : EStateM ε σ α) s Q E := h

theorem modify {Q : PUnit → σ → Prop} {f : σ → σ} (h : Q .unit (f s)) :
    Yields (modify f : EStateM ε σ PUnit) s Q E := h

theorem modifyGet {f : σ → α × σ} (h : Q (f s).1 (f s).2) :
    Yields (modifyGet f : EStateM ε σ α) s Q E := h

theorem get {Q : σ → σ → Prop} (h : Q s s) : Yields (get : EStateM ε σ σ) s Q E := h

theorem bind {m : EStateM ε σ α} {k : α → EStateM ε σ β} {R : β → σ → Prop} (h : Yields m s Q E)
    (hk : ∀ a s', Q a s' → Yields (k a) s' R E) : Yields (m >>= k) s R E := by
  unfold Yields at *
  cases hm : m s with
  | ok a s' =>
    rw [hm] at h
    rw [bind_ok hm]
    exact hk a s' h
  | error e s' =>
    rw [hm] at h
    rw [bind_error hm]
    exact h

/-- The first part was run already. -/
theorem bind_of_ok {m : EStateM ε σ α} {k : α → EStateM ε σ β} {R : β → σ → Prop} {a : α} {s' : σ}
    (h : m s = .ok a s') (hk : Yields (k a) s' R E) : Yields (m >>= k) s R E := by
  rw [Yields, bind_ok h]
  exact hk

theorem bind_of_error {m : EStateM ε σ α} {k : α → EStateM ε σ β} {R : β → σ → Prop} {e : ε}
    {s' : σ} (h : m s = .error e s') (he : E e s') : Yields (m >>= k) s R E := by
  rw [Yields, bind_error h]
  exact he

theorem tryCatch {m : EStateM ε σ α} {handle : ε → EStateM ε σ α} (h : Yields m s Q E')
    (hh : ∀ e s', E' e s' → Yields (handle e) s' Q E) : Yields (tryCatch m handle) s Q E := by
  unfold Yields at *
  cases hm : m s with
  | ok a s' =>
    rw [hm] at h
    rw [tryCatch_ok hm]
    exact h
  | error e s' =>
    rw [hm] at h
    rw [tryCatch_error hm]
    exact hh e s' h

/-- What handles the failures of a program that does not fail is not run. -/
theorem unfailing {m : EStateM ε σ α} {handle : ε → EStateM ε σ α}
    (h : Yields m s Q fun _ _ ↦ False) : Yields (MonadExcept.tryCatch m handle) s Q E :=
  h.tryCatch fun _ _ hnever ↦ hnever.elim

theorem ite {c : Prop} [Decidable c] {m m' : EStateM ε σ α} (h : c → Yields m s Q E)
    (h' : ¬ c → Yields m' s Q E) : Yields (if c then m else m') s Q E := by
  split_ifs with hc
  · exact h hc
  · exact h' hc

/-- A program fails, or goes on if it does not. -/
theorem failIf {c : Prop} [Decidable c] {e : ε} {k : PUnit → EStateM ε σ β} {R : β → σ → Prop}
    (h : c → E e s) (hk : ¬ c → Yields (k .unit) s R E) :
    Yields (if c then MonadExcept.throw e >>= k else k .unit) s R E :=
  ite (fun hc ↦ bind (throw (h hc) : Yields _ s (fun _ _ ↦ False) E)
    fun _ _ hnever ↦ hnever.elim) hk

end Yields

/-! ## What a program keeps -/

/-- A program that is started where `I` holds ends where it holds, however it ends. -/
def Preserves (I : σ → Prop) (m : EStateM ε σ α) : Prop :=
  ∀ s, I s → Yields m s (fun _ ↦ I) fun _ ↦ I

namespace Preserves

variable {I : σ → Prop}

theorem pure (a : α) : Preserves I (pure a : EStateM ε σ α) := fun _ h ↦ h

theorem throw (e : ε) : Preserves I (throw e : EStateM ε σ α) := fun _ h ↦ h

theorem modify {f : σ → σ} (h : ∀ s, I s → I (f s)) :
    Preserves I (modify f : EStateM ε σ PUnit) := h

theorem modifyGet {f : σ → α × σ} (h : ∀ s, I s → I (f s).2) :
    Preserves I (modifyGet f : EStateM ε σ α) := h

theorem bind {m : EStateM ε σ α} {k : α → EStateM ε σ β} (hm : Preserves I m)
    (hk : ∀ a, Preserves I (k a)) : Preserves I (m >>= k) :=
  fun s h ↦ (hm s h).bind fun a s' h' ↦ hk a s' h'

theorem tryCatch {m : EStateM ε σ α} {handle : ε → EStateM ε σ α} (hm : Preserves I m)
    (hh : ∀ e, Preserves I (handle e)) : Preserves I (tryCatch m handle) :=
  fun s h ↦ (hm s h).tryCatch fun e s' h' ↦ hh e s' h'

theorem ite {c : Prop} [Decidable c] {m m' : EStateM ε σ α} (h : c → Preserves I m)
    (h' : ¬ c → Preserves I m') : Preserves I (if c then m else m') := by
  split_ifs with hc
  · exact h hc
  · exact h' hc

theorem failIf {c : Prop} [Decidable c] {e : ε} {k : PUnit → EStateM ε σ β}
    (hk : Preserves I (k .unit)) : Preserves I (if c then MonadExcept.throw e >>= k else k .unit) :=
  fun s h ↦ Yields.failIf (fun _ ↦ h) fun _ ↦ hk s h

/-- A program that keeps something, and of which it does not matter what it leaves when it fails. -/
theorem yields {m : EStateM ε σ α} (hm : Preserves I m) {s : σ} (h : I s) :
    Yields m s (fun _ ↦ I) fun _ _ ↦ True := (hm s h).mono (fun _ _ h ↦ h) fun _ _ _ ↦ trivial

end Preserves

/-! ## Enough fuel -/

/-- Given enough fuel, the program gives one and the same value in `Q` or fails in one and the same
way in `E`. -/
def Settles (m : ℕ → EStateM ε σ α) (s : σ) (Q : α → σ → Prop) (E : ε → σ → Prop) : Prop :=
  ∃ r, (∃ n, ∀ fuel, n ≤ fuel → m fuel s = r) ∧ Meets r Q E

namespace Settles

theorem mono {m : ℕ → EStateM ε σ α} (h : Settles m s Q E) (hQ : ∀ a s, Q a s → Q' a s)
    (hE : ∀ e s, E e s → E' e s) : Settles m s Q' E' := by
  obtain ⟨r, hr, hmeets⟩ := h
  exact ⟨r, hr, hmeets.mono hQ hE⟩

/-- Programs that do the same when they are started in `s`. -/
theorem of_eq {m m' : ℕ → EStateM ε σ α} (heq : ∀ fuel, m' fuel s = m fuel s)
    (h : Settles m s Q E) : Settles m' s Q E := by
  obtain ⟨r, ⟨n, hn⟩, hmeets⟩ := h
  exact ⟨r, ⟨n, fun fuel hle ↦ (heq fuel).trans (hn fuel hle)⟩, hmeets⟩

theorem of_yields {m : EStateM ε σ α} (h : Yields m s Q E) : Settles (fun _ ↦ m) s Q E :=
  ⟨m s, ⟨0, fun _ _ ↦ rfl⟩, h⟩

theorem bind {m : ℕ → EStateM ε σ α} {k : ℕ → α → EStateM ε σ β} {R : β → σ → Prop}
    (h : Settles m s Q E) (hk : ∀ a s', Q a s' → Settles (fun fuel ↦ k fuel a) s' R E) :
    Settles (fun fuel ↦ m fuel >>= k fuel) s R E := by
  obtain ⟨r, ⟨n, hn⟩, hmeets⟩ := h
  cases r with
  | ok a s' =>
    obtain ⟨r', ⟨n', hn'⟩, hmeets'⟩ := hk a s' hmeets
    refine ⟨r', ⟨max n n', fun fuel hle ↦ ?_⟩, hmeets'⟩
    exact (bind_ok (hn fuel (Nat.le_trans (Nat.le_max_left _ _) hle))).trans
      (hn' fuel (Nat.le_trans (Nat.le_max_right _ _) hle))
  | error e s' => exact ⟨.error e s', ⟨n, fun fuel hle ↦ bind_error (hn fuel hle)⟩, hmeets⟩

theorem tryCatch {m : ℕ → EStateM ε σ α} {handle : ℕ → ε → EStateM ε σ α} (h : Settles m s Q E')
    (hh : ∀ e s', E' e s' → Settles (fun fuel ↦ handle fuel e) s' Q E) :
    Settles (fun fuel ↦ tryCatch (m fuel) (handle fuel)) s Q E := by
  obtain ⟨r, ⟨n, hn⟩, hmeets⟩ := h
  cases r with
  | ok a s' => exact ⟨.ok a s', ⟨n, fun fuel hle ↦ tryCatch_ok (hn fuel hle)⟩, hmeets⟩
  | error e s' =>
    obtain ⟨r', ⟨n', hn'⟩, hmeets'⟩ := hh e s' hmeets
    refine ⟨r', ⟨max n n', fun fuel hle ↦ ?_⟩, hmeets'⟩
    exact (tryCatch_error (hn fuel (Nat.le_trans (Nat.le_max_left _ _) hle))).trans
      (hn' fuel (Nat.le_trans (Nat.le_max_right _ _) hle))

theorem unfailing {m : ℕ → EStateM ε σ α} {handle : ℕ → ε → EStateM ε σ α}
    (h : Settles m s Q fun _ _ ↦ False) :
    Settles (fun fuel ↦ MonadExcept.tryCatch (m fuel) (handle fuel)) s Q E :=
  h.tryCatch fun _ _ hnever ↦ hnever.elim

theorem ite {c : Prop} [Decidable c] {m m' : ℕ → EStateM ε σ α} (h : c → Settles m s Q E)
    (h' : ¬ c → Settles m' s Q E) : Settles (fun fuel ↦ if c then m fuel else m' fuel) s Q E := by
  split_ifs with hc
  · exact h hc
  · exact h' hc

/-- A program fails, or goes on if it does not. -/
theorem failIf {c : Prop} [Decidable c] {e : ε} {k : ℕ → PUnit → EStateM ε σ β} {R : β → σ → Prop}
    (h : c → E e s) (hk : ¬ c → Settles (fun fuel ↦ k fuel .unit) s R E) :
    Settles (fun fuel ↦ if c then MonadExcept.throw e >>= k fuel else k fuel .unit) s R E :=
  ite (fun hc ↦ bind (of_yields (Yields.throw (h hc) : Yields _ s (fun _ _ ↦ False) E))
    fun _ _ hnever ↦ hnever.elim) hk

/-- A loop goes round once. -/
theorem succ {m body : ℕ → EStateM ε σ α} (hm : ∀ fuel, m (fuel + 1) = body fuel)
    (h : Settles body s Q E) : Settles m s Q E := by
  obtain ⟨r, ⟨n, hn⟩, hmeets⟩ := h
  refine ⟨r, ⟨n + 1, fun fuel hle ↦ ?_⟩, hmeets⟩
  obtain ⟨fuel, rfl⟩ := Nat.exists_eq_add_of_le' (Nat.le_trans (Nat.le_add_left 1 n) hle)
  rw [hm]
  exact hn fuel (Nat.le_of_succ_le_succ hle)

end Settles

end Program

end LoggerAnalyzer
