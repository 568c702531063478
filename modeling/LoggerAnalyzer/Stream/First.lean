import Mathlib.Algebra.BigOperators.Group.List.Basic
import Mathlib.Algebra.GroupWithZero.Nat
import Mathlib.Data.Fintype.Pigeonhole
import Mathlib.Data.List.Induction
import Mathlib.Data.List.Nodup

/-!
# The first distinct elements, and the first that is free

A table that counts keys and has room for `n` of them ends up with the first `n` distinct keys it is
given. `firstDistinct n xs` are these keys, in the order of their first occurrence, and
`firstDistinct_concat` is what one more key does to them: it is there already, or there is room for
it, or it is left out. A key that finds room has not occurred before, so its count starts at the
right number.

A search goes through candidates until one is free, and has to be shown to end. `exists_free` is the
pigeonhole: candidates of which no two get in the way of the same thing cannot all be in the way of
fewer things than they are. Getting in the way need not be equality.
-/

namespace LoggerAnalyzer

/-! ## The first distinct elements -/

section Distinct

variable {α : Type} [BEq α] [LawfulBEq α]

/-- The first `n` distinct elements of a list, in the order of their first occurrence. -/
def firstDistinct (n : ℕ) (xs : List α) : List α := xs.eraseDups.take n

omit [LawfulBEq α] in
@[simp] theorem firstDistinct_nil (n : ℕ) : firstDistinct n ([] : List α) = [] := List.take_nil

theorem eraseDups_concat (xs : List α) (x : α) :
    (xs ++ [x]).eraseDups = if x ∈ xs then xs.eraseDups else xs.eraseDups ++ [x] := by
  rw [List.eraseDups_append, List.cons_removeAll, List.nil_removeAll]
  by_cases hmem : x ∈ xs
  · rw [if_pos hmem, if_neg (by simpa using hmem), List.eraseDups_nil, List.append_nil]
  · rw [if_neg hmem, if_pos (by simpa using hmem)]
    rfl

theorem nodup_eraseDups (xs : List α) : xs.eraseDups.Nodup := by
  induction xs using List.reverseRecOn with
  | nil => exact List.nodup_nil
  | append_singleton xs x ih =>
    rw [eraseDups_concat]
    split_ifs with hmem
    · exact ih
    · rw [List.nodup_append]
      refine ⟨ih, List.nodup_singleton x, fun y hy z hz heq ↦ hmem ?_⟩
      rw [← List.mem_singleton.mp hz, ← heq]
      exact List.mem_eraseDups.mp hy

private theorem eraseDups_of_nodup {xs : List α} (h : xs.Nodup) : xs.eraseDups = xs := by
  induction xs using List.reverseRecOn with
  | nil => rfl
  | append_singleton xs x ih =>
    rw [List.nodup_append] at h
    have hnew : x ∉ xs := fun hmem ↦ h.2.2 x hmem x (List.mem_singleton_self x) rfl
    rw [eraseDups_concat, if_neg hnew, ih h.1]

/-- A full table takes nothing more. -/
theorem firstDistinct_of_full {n : ℕ} {xs : List α} (h : xs.Nodup) (hlen : xs.length = n) (x : α) :
    (xs ++ [x]).eraseDups.take n = xs := by
  rw [eraseDups_concat, eraseDups_of_nodup h]
  split_ifs
  · rw [← hlen, List.take_length]
  · rw [List.take_left' hlen]

theorem nodup_firstDistinct (n : ℕ) (xs : List α) : (firstDistinct n xs).Nodup :=
  (nodup_eraseDups xs).sublist (List.take_sublist ..)

theorem mem_of_mem_firstDistinct {n : ℕ} {xs : List α} {x : α} (h : x ∈ firstDistinct n xs) :
    x ∈ xs := List.mem_eraseDups.mp (List.mem_of_mem_take h)

/-- While there is room, every element is there. -/
theorem mem_firstDistinct_of_room {n : ℕ} {xs : List α} (hroom : (firstDistinct n xs).length < n)
    {x : α} (h : x ∈ xs) : x ∈ firstDistinct n xs := by
  rw [firstDistinct, List.length_take] at hroom
  rw [firstDistinct, List.take_of_length_le (by omega)]
  exact List.mem_eraseDups.mpr h

/-- **One more element** is there, or is added while there is room, or is left out. -/
theorem firstDistinct_concat (n : ℕ) (xs : List α) (x : α) :
    firstDistinct n (xs ++ [x]) =
      if x ∈ firstDistinct n xs then firstDistinct n xs
      else if (firstDistinct n xs).length < n then firstDistinct n xs ++ [x]
      else firstDistinct n xs := by
  by_cases hroom : (firstDistinct n xs).length < n
  · have hall : firstDistinct n xs = xs.eraseDups := by
      rw [firstDistinct, List.length_take] at hroom
      exact List.take_of_length_le (by omega)
    rw [if_pos hroom, hall, firstDistinct, eraseDups_concat]
    rw [hall] at hroom
    by_cases hmem : x ∈ xs
    · rw [if_pos hmem, if_pos (List.mem_eraseDups.mpr hmem), List.take_of_length_le (by omega)]
    · rw [if_neg hmem, if_neg (mt List.mem_eraseDups.mp hmem), List.take_of_length_le]
      rw [List.length_append, List.length_singleton]
      exact hroom
  · rw [if_neg hroom, ite_self, firstDistinct, eraseDups_concat]
    rw [firstDistinct, List.length_take] at hroom
    split_ifs
    · rfl
    · exact List.take_append_of_le_length (by omega)

/-- What has occurred before is there if it was there before. -/
theorem mem_firstDistinct_concat {n : ℕ} {xs : List α} {y : α} (h : y ∈ xs) (x : α) :
    y ∈ firstDistinct n (xs ++ [x]) ↔ y ∈ firstDistinct n xs := by
  rw [firstDistinct_concat]
  split_ifs with hmem hroom
  · rfl
  · exact iff_of_true (List.mem_append_left _ (mem_firstDistinct_of_room hroom h))
      (mem_firstDistinct_of_room hroom h)
  · rfl

private theorem sum_count_concat (ys xs : List α) (x : α) :
    (ys.map ((xs ++ [x]).count ·)).sum = (ys.map (xs.count ·)).sum + ys.count x := by
  induction ys with
  | nil => rfl
  | cons y ys ih =>
    rw [List.map_cons, List.sum_cons, ih, List.map_cons, List.sum_cons, List.count_append,
      List.count_singleton, List.count_cons, BEq.comm]
    omega

/-- The counts of all elements add up to the length. -/
theorem sum_count_eraseDups (xs : List α) : (xs.eraseDups.map (xs.count ·)).sum = xs.length := by
  induction xs using List.reverseRecOn with
  | nil => rfl
  | append_singleton xs x ih =>
    rw [sum_count_concat, eraseDups_concat, List.length_append, List.length_singleton]
    split_ifs with hmem
    · rw [ih, List.count_eq_one_of_mem (nodup_eraseDups xs) (List.mem_eraseDups.mpr hmem)]
    · rw [List.map_append, List.sum_append, ih, List.count_append,
        List.count_eq_zero.mpr (mt List.mem_eraseDups.mp hmem), List.map_singleton,
        List.sum_singleton, List.count_eq_zero.mpr hmem, List.count_singleton_self]

theorem sum_count_firstDistinct_le (n : ℕ) (xs : List α) :
    ((firstDistinct n xs).map (xs.count ·)).sum ≤ xs.length := by
  have hall := sum_count_eraseDups xs
  rw [← List.take_append_drop n xs.eraseDups, List.map_append, List.sum_append] at hall
  rw [firstDistinct]
  omega

theorem sum_count_firstDistinct {n : ℕ} {xs : List α} (h : xs.eraseDups.length ≤ n) :
    ((firstDistinct n xs).map (xs.count ·)).sum = xs.length := by
  rw [firstDistinct, List.take_of_length_le h, sum_count_eraseDups]

end Distinct

/-! ## The first that is free -/

section Free

variable {α : Type*} {taken : α → Bool} {candidate : ℕ → α}

/-- The first candidate from the `k`-th on that is not taken, if one of the first `fuel` is not. -/
def firstFree (taken : α → Bool) (candidate : ℕ → α) : ℕ → ℕ → Option α
  | 0, _ => none
  | fuel + 1, k =>
    if taken (candidate k) then firstFree taken candidate fuel (k + 1) else some (candidate k)

/-- **A search finds what is there.** -/
theorem firstFree_of_free {fuel k j : ℕ} (hk : k ≤ j) (hj : j < k + fuel)
    (hfree : taken (candidate j) = false) :
    ∃ i ≤ j, firstFree taken candidate fuel k = some (candidate i) ∧
      taken (candidate i) = false := by
  induction fuel generalizing k with
  | zero => exact absurd (Nat.lt_of_le_of_lt hk hj) (Nat.lt_irrefl _)
  | succ fuel ih =>
    rw [firstFree]
    by_cases htaken : taken (candidate k) = true
    · rw [if_pos htaken]
      have hne : k ≠ j := fun heq ↦ absurd (htaken.symm.trans (heq ▸ hfree)) (by simp)
      exact ih (Nat.lt_of_le_of_ne hk hne) (by omega)
    · rw [if_neg htaken]
      exact ⟨k, hk, rfl, Bool.not_eq_true _ ▸ htaken⟩

theorem firstFree_of_not_taken {fuel k : ℕ} (hfree : taken (candidate k) = false) :
    firstFree taken candidate (fuel + 1) k = some (candidate k) := by
  rw [firstFree, if_neg (by simp [hfree])]

/-- One of `xs.length + 1` candidates is free if no two of them are in the way of the same `x`. -/
theorem exists_free {β : Type*} {xs : List β} {blocks : β → α → Bool}
    (distinct : ∀ x ∈ xs, ∀ i j, blocks x (candidate i) = true → blocks x (candidate j) = true →
      i = j) (k : ℕ) :
    ∃ j, k ≤ j ∧ j ≤ k + xs.length ∧ ∀ x ∈ xs, blocks x (candidate j) = false := by
  by_contra hnone
  have hblocked : ∀ i : Fin (xs.length + 1), ∃ n : Fin xs.length,
      blocks (xs.get n) (candidate (k + i)) = true := by
    intro i
    by_contra hfree
    refine hnone ⟨k + i, Nat.le_add_right _ _, by omega, fun x hx ↦ ?_⟩
    obtain ⟨n, rfl⟩ := List.get_of_mem hx
    exact Bool.not_eq_true _ ▸ fun h ↦ hfree ⟨n, h⟩
  choose blocker hblocker using hblocked
  obtain ⟨i, j, hne, heq⟩ := Fintype.exists_ne_map_eq_of_card_lt blocker (by simp)
  have hsame := distinct _ (List.get_mem xs (blocker i)) _ _ (hblocker i) (heq ▸ hblocker j)
  exact hne (Fin.ext (Nat.add_left_cancel hsame))

end Free

end LoggerAnalyzer
