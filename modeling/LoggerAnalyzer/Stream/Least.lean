import Mathlib.Tactic.SplitIfs

/-!
# Running minima

A running minimum keeps one value and compares every new one with it. The comparison is a function
into `Bool`, and it need not order all values: numbers in floating point are in order only if none
of them is a NaN, and two of them can be different with neither below the other. So `Least` says of
a value that it is not above any of a list and not below all of them.

With the comparison turned around the same results are about running maxima.
-/

namespace LoggerAnalyzer

variable {α : Type} {s : α → Prop} {lt : α → α → Bool}

/-- `lt` orders the values that satisfy `s`. -/
structure OrdersOn (s : α → Prop) (lt : α → α → Bool) : Prop where
  asymm : ∀ {a b}, s a → s b → lt a b = true → lt b a = false
  trans : ∀ {a b c}, s a → s b → s c → lt b a = false → lt c b = false → lt c a = false

namespace OrdersOn

theorem irrefl (h : OrdersOn s lt) {a : α} (ha : s a) : lt a a = false := by
  cases hlt : lt a a with
  | false => rfl
  | true => exact hlt.symm.trans (h.asymm ha ha hlt)

theorem swap (h : OrdersOn s lt) : OrdersOn s fun a b ↦ lt b a where
  asymm ha hb := h.asymm hb ha
  trans ha hb hc hab hbc := h.trans hc hb ha hbc hab

end OrdersOn

/-- `m` is the least value of the list. -/
structure Least (lt : α → α → Bool) (m : α) (xs : List α) : Prop where
  le : ∀ x ∈ xs, lt x m = false
  attained : ∃ x ∈ xs, lt m x = false

namespace Least

theorem singleton (h : OrdersOn s lt) {v : α} (hv : s v) : Least lt v [v] where
  le x hx := by
    rw [List.mem_singleton.mp hx]
    exact h.irrefl hv
  attained := ⟨v, List.mem_singleton_self v, h.irrefl hv⟩

/-- **One more value.** -/
theorem concat (h : OrdersOn s lt) {m v : α} {xs : List α} (hm : s m) (hv : s v)
    (hxs : ∀ x ∈ xs, s x) (hleast : Least lt m xs) :
    Least lt (if lt v m then v else m) (xs ++ [v]) := by
  obtain ⟨hle, y, hy, hmy⟩ := hleast
  split_ifs with hlt
  · refine ⟨fun x hx ↦ ?_, v, by simp, h.irrefl hv⟩
    rcases List.mem_append.mp hx with hx | hx
    · exact h.trans hv hm (hxs x hx) (h.asymm hv hm hlt) (hle x hx)
    · rw [List.mem_singleton.mp hx]
      exact h.irrefl hv
  · refine ⟨fun x hx ↦ ?_, y, List.mem_append_left _ hy, hmy⟩
    rcases List.mem_append.mp hx with hx | hx
    · exact hle x hx
    · rw [List.mem_singleton.mp hx]
      exact Bool.eq_false_iff.mpr hlt

/-- When the least value of one list is that of another. -/
theorem least_iff (h : OrdersOn s lt) {m : α} {xs ys : List α} (hm : s m) (hxs : ∀ x ∈ xs, s x)
    (hys : ∀ y ∈ ys, s y) (hleast : Least lt m xs) :
    Least lt m ys ↔
      (∀ y ∈ ys, ∃ x ∈ xs, lt y x = false) ∧ ∃ y ∈ ys, ∀ x ∈ xs, lt x y = false := by
  obtain ⟨hle, x₀, hx₀, hattained⟩ := hleast
  constructor
  · rintro ⟨hle', y₀, hy₀, hattained'⟩
    refine ⟨fun y hy ↦ ⟨x₀, hx₀, ?_⟩, y₀, hy₀, fun x hx ↦ ?_⟩
    · exact h.trans (hxs x₀ hx₀) hm (hys y hy) hattained (hle' y hy)
    · exact h.trans (hys y₀ hy₀) hm (hxs x hx) hattained' (hle x hx)
  · rintro ⟨habove, y₀, hy₀, hbelow⟩
    refine ⟨fun y hy ↦ ?_, y₀, hy₀, ?_⟩
    · obtain ⟨x, hx, hxy⟩ := habove y hy
      exact h.trans hm (hxs x hx) (hys y hy) (hle x hx) hxy
    · exact h.trans (hys y₀ hy₀) (hxs x₀ hx₀) hm (hbelow x₀ hx₀) hattained

end Least

end LoggerAnalyzer
