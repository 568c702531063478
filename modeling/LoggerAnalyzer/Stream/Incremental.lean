import Mathlib.Data.List.Basic

/-!
# Incremental parsing

A reader of a stream that arrives in parts tries, again and again, to take one item off the front of
what it has. An attempt has three outcomes: the front is not complete yet, it can never become an
item, or it is an item and something is left. What makes such a reader insensitive to the cuts is
that the last two outcomes do not change when more of the stream arrives; this is the content of
`Parser`.

`parse` is the whole-stream reader that an incremental one is compared with. `parse_append` reads
on: the items of a longer stream are those already read and those of what was left over with the new
part.
-/

namespace LoggerAnalyzer

namespace Incremental

variable {α ι ε : Type*}

/-- The outcome of one attempt to take an item off the front. -/
inductive Outcome (α ι ε : Type*) where
  | more
  | fail (e : ε)
  | item (i : ι) (left : List α)
deriving DecidableEq

/-- A way of taking items off the front of a stream that later parts of the stream cannot upset. -/
structure Parser (α ι ε : Type*) where
  next : List α → Outcome α ι ε
  shrinks : ∀ {xs i left}, next xs = .item i left → left.length < xs.length
  fail_append : ∀ {xs e}, next xs = .fail e → ∀ ys, next (xs ++ ys) = .fail e
  item_append : ∀ {xs i left}, next xs = .item i left →
    ∀ ys, next (xs ++ ys) = .item i (left ++ ys)

/-- What there is in a stream: the items at its front, why there are no more of them if the rest is
not merely incomplete, and the rest. -/
structure Parsed (α ι ε : Type*) where
  items : List ι
  failure : Option ε
  left : List α

namespace Parser

variable (p : Parser α ι ε)

/-- At most `fuel` items. -/
def parseFuel : ℕ → List α → Parsed α ι ε
  | 0, xs => ⟨[], none, xs⟩
  | fuel + 1, xs =>
    match p.next xs with
    | .more => ⟨[], none, xs⟩
    | .fail e => ⟨[], some e, xs⟩
    | .item i left =>
      let r := parseFuel fuel left
      ⟨i :: r.items, r.failure, r.left⟩

/-- All items of a stream. -/
def parse (xs : List α) : Parsed α ι ε := p.parseFuel (xs.length + 1) xs

variable {p}

private theorem parseFuel_eq {fuel fuel' : ℕ} {xs : List α} (h : xs.length < fuel)
    (h' : xs.length < fuel') : p.parseFuel fuel xs = p.parseFuel fuel' xs := by
  induction fuel generalizing fuel' xs with
  | zero => omega
  | succ fuel ih =>
    obtain _ | fuel' := fuel'
    · omega
    rw [parseFuel, parseFuel]
    cases hnext : p.next xs with
    | more => rfl
    | fail e => rfl
    | item i left =>
      have hlt := p.shrinks hnext
      simp only
      rw [ih (by omega) (show left.length < fuel' by omega)]

theorem parse_more {xs : List α} (h : p.next xs = .more) : p.parse xs = ⟨[], none, xs⟩ := by
  rw [parse, parseFuel, h]

theorem parse_fail {xs : List α} {e : ε} (h : p.next xs = .fail e) :
    p.parse xs = ⟨[], some e, xs⟩ := by
  rw [parse, parseFuel, h]

theorem parse_item {xs : List α} {i : ι} {left : List α} (h : p.next xs = .item i left) :
    p.parse xs
      = ⟨i :: (p.parse left).items, (p.parse left).failure, (p.parse left).left⟩ := by
  have hlt := p.shrinks h
  rw [parse, parseFuel, h, parse]
  simp only
  rw [parseFuel_eq hlt (Nat.lt_succ_self left.length)]

/-- The induction that follows the items of a stream. -/
@[elab_as_elim]
theorem parse_induction {motive : List α → Prop} (p : Parser α ι ε)
    (more : ∀ xs, p.next xs = .more → motive xs)
    (fail : ∀ xs e, p.next xs = .fail e → motive xs)
    (item : ∀ xs i left, p.next xs = .item i left → motive left → motive xs)
    (xs : List α) : motive xs := by
  induction hn : xs.length using Nat.strongRecOn generalizing xs with
  | _ n ih =>
    cases hnext : p.next xs with
    | more => exact more xs hnext
    | fail e => exact fail xs e hnext
    | item i left => exact item xs i left hnext (ih left.length (hn ▸ p.shrinks hnext) left rfl)

/-- What is left when nothing failed is not complete yet. -/
theorem next_left_of_none {xs : List α} (h : (p.parse xs).failure = none) :
    p.next (p.parse xs).left = .more := by
  induction xs using parse_induction p with
  | more xs hx => rw [parse_more hx, hx]
  | fail xs e hx => simp [parse_fail hx] at h
  | item xs i left hx ih =>
    rw [parse_item hx] at h ⊢
    exact ih h

/-- What is left after a failure is what failed. -/
theorem next_left_of_some {xs : List α} {e : ε} (h : (p.parse xs).failure = some e) :
    p.next (p.parse xs).left = .fail e := by
  induction xs using parse_induction p with
  | more xs hx => simp [parse_more hx] at h
  | fail xs e' hx =>
    rw [parse_fail hx] at h ⊢
    rw [hx, Option.some.inj h]
  | item xs i left hx ih =>
    rw [parse_item hx] at h ⊢
    exact ih h

/-- **Reading on after an incomplete front.** -/
theorem parse_append {xs : List α} (h : (p.parse xs).failure = none) (ys : List α) :
    p.parse (xs ++ ys)
      = ⟨(p.parse xs).items ++ (p.parse ((p.parse xs).left ++ ys)).items,
          (p.parse ((p.parse xs).left ++ ys)).failure,
          (p.parse ((p.parse xs).left ++ ys)).left⟩ := by
  induction xs using parse_induction p with
  | more xs hx => rw [parse_more hx, List.nil_append]
  | fail xs e hx => simp [parse_fail hx] at h
  | item xs i left hx ih =>
    rw [parse_item hx] at h ⊢
    rw [parse_item (p.item_append hx ys), ih h, List.cons_append]

/-- **Reading on after a failure** changes nothing but what is left. -/
theorem parse_append_of_some {xs : List α} {e : ε} (h : (p.parse xs).failure = some e)
    (ys : List α) :
    p.parse (xs ++ ys) = ⟨(p.parse xs).items, some e, (p.parse xs).left ++ ys⟩ := by
  induction xs using parse_induction p with
  | more xs hx => simp [parse_more hx] at h
  | fail xs e' hx =>
    rw [parse_fail hx] at h ⊢
    rw [parse_fail (p.fail_append hx ys), Option.some.inj h]
  | item xs i left hx ih =>
    rw [parse_item hx] at h ⊢
    rw [parse_item (p.item_append hx ys), ih h]

end Parser

end Incremental

end LoggerAnalyzer
