import Mathlib.Data.List.Basic

/-!
# Delimited streams

A stream over `α` in which one symbol `d` ends each piece, as a newline ends a line. `List.splitOn`
gives the pieces together with whatever follows the last delimiter; here the two are separated,
because a reader that receives the stream in fragments may act on the first and must keep the
second.

## Fragments

A reader that is handed the fragments one after another holds, between two of them, the part `t` of
the stream after its last delimiter. `marks d t f` lists the pieces that the next fragment `f`
completes, and says of each whether all of it, the delimiter included, came in `f`. At most the
first piece of a fragment has an earlier part, so the mark is decided by `t` alone; the lemma
`fragMarks_fst` says that forgetting the marks forgets the fragmentation.
-/

namespace LoggerAnalyzer

namespace Delimited

variable {α : Type*} [DecidableEq α] (d : α)

/-- The pieces of `xs` that a delimiter ends, in order and without it. -/
def pieces (xs : List α) : List (List α) := (xs.splitOn d).dropLast

/-- What follows the last delimiter of `xs`; all of `xs` if there is none. -/
def rest (xs : List α) : List α := (xs.splitOn d).getLast (List.splitOn_ne_nil d xs)

variable {d}

/-! ## Pieces and the rest -/

theorem pieces_append_rest (xs : List α) : pieces d xs ++ [rest d xs] = xs.splitOn d :=
  List.dropLast_append_getLast _

@[simp] theorem pieces_of_notMem {xs : List α} (h : d ∉ xs) : pieces d xs = [] := by
  rw [pieces, List.splitOn_eq_singleton h]
  rfl

@[simp] theorem rest_of_notMem {xs : List α} (h : d ∉ xs) : rest d xs = xs := by
  have hsplit := pieces_append_rest (d := d) xs
  rw [pieces_of_notMem h, List.splitOn_eq_singleton h, List.nil_append] at hsplit
  exact List.singleton_inj.mp hsplit

/-- A delimiter ends the piece before it; nothing after it can reach back across. -/
theorem pieces_rest_append_cons (xs ys : List α) :
    pieces d (xs ++ d :: ys) = pieces d xs ++ rest d xs :: pieces d ys
      ∧ rest d (xs ++ d :: ys) = rest d ys := by
  have hsplit : pieces d (xs ++ d :: ys) ++ [rest d (xs ++ d :: ys)]
      = (pieces d xs ++ rest d xs :: pieces d ys) ++ [rest d ys] := by
    rw [pieces_append_rest, List.splitOn_append_cons_self, ← pieces_append_rest xs,
      ← pieces_append_rest ys]
    simp
  exact ⟨List.append_inj_left' hsplit rfl,
    List.singleton_inj.mp (List.append_inj_right' hsplit rfl)⟩

theorem pieces_append_cons {t : List α} (ht : d ∉ t) (ys : List α) :
    pieces d (t ++ d :: ys) = t :: pieces d ys := by
  rw [(pieces_rest_append_cons t ys).1, pieces_of_notMem ht, rest_of_notMem ht, List.nil_append]

@[simp] theorem rest_append_cons (xs ys : List α) : rest d (xs ++ d :: ys) = rest d ys :=
  (pieces_rest_append_cons xs ys).2

/-- A stream is free of delimiters, or a first piece ends with one. -/
theorem eq_tail_or_piece (d : α) (xs : List α) :
    d ∉ xs ∨ ∃ t ys, d ∉ t ∧ xs = t ++ d :: ys := by
  by_cases hd : d ∈ xs
  · obtain ⟨t, ys, rfl, ht⟩ := List.eq_append_cons_of_mem hd
    exact Or.inr ⟨t, ys, ht, rfl⟩
  · exact Or.inl hd

/-- The induction that follows the pieces of a stream. -/
@[elab_as_elim]
theorem delimited_induction {motive : List α → Prop} (d : α)
    (tail : ∀ t, d ∉ t → motive t)
    (piece : ∀ t ys, d ∉ t → motive ys → motive (t ++ d :: ys)) (xs : List α) : motive xs := by
  induction h : xs.length using Nat.strongRecOn generalizing xs with
  | _ n ih =>
    rcases eq_tail_or_piece d xs with hd | ⟨t, ys, ht, rfl⟩
    · exact tail xs hd
    · refine piece t ys ht (ih ys.length ?_ ys rfl)
      rw [← h, List.length_append, List.length_cons]
      omega

theorem rest_append_append_cons (t xs ys : List α) :
    rest d (t ++ (xs ++ d :: ys)) = rest d ys := by
  rw [← List.append_assoc, rest_append_cons]

theorem notMem_rest (xs : List α) : d ∉ rest d xs := by
  induction xs using delimited_induction d with
  | tail t ht => rwa [rest_of_notMem ht]
  | piece t ys _ ih => rwa [rest_append_cons]

/-- Reading on: the pieces of a longer stream are the ones already there and those of what was
left over with the new part. -/
theorem pieces_append (xs ys : List α) :
    pieces d (xs ++ ys) = pieces d xs ++ pieces d (rest d xs ++ ys) := by
  induction xs using delimited_induction d with
  | tail t ht => rw [pieces_of_notMem ht, rest_of_notMem ht, List.nil_append]
  | piece t xs ht ih =>
    rw [List.append_assoc, List.cons_append, pieces_append_cons ht, pieces_append_cons ht,
      rest_append_cons, ih, List.cons_append]

theorem rest_append (xs ys : List α) : rest d (xs ++ ys) = rest d (rest d xs ++ ys) := by
  induction xs using delimited_induction d with
  | tail t ht => rw [rest_of_notMem ht]
  | piece t xs ht ih => rw [List.append_assoc, List.cons_append, rest_append_cons, ih,
      rest_append_cons]

/-- The pieces, each with its delimiter, and the rest are the stream. -/
theorem flatMap_pieces_append_rest (xs : List α) :
    (pieces d xs).flatMap (· ++ [d]) ++ rest d xs = xs := by
  induction xs using delimited_induction d with
  | tail t ht => rw [pieces_of_notMem ht, rest_of_notMem ht, List.flatMap_nil, List.nil_append]
  | piece t ys ht ih =>
    rw [pieces_append_cons ht, rest_append_cons, List.flatMap_cons, List.append_assoc, ih,
      List.append_assoc, List.singleton_append]

private theorem length_lt_of_mem_pieces {xs p : List α} (hp : p ∈ pieces d xs) :
    p.length < xs.length := by
  obtain ⟨before, after, hsplit⟩ := List.append_of_mem hp
  have hlen := congrArg List.length (flatMap_pieces_append_rest (d := d) xs)
  simp only [hsplit, List.flatMap_append, List.flatMap_cons, List.length_append,
    List.length_singleton] at hlen
  omega

/-! ## Pieces of a fragmented stream -/

variable (d)

/-- The pieces that fragment `f` completes when `t` is the unfinished part before it, each marked
`true` when it lies wholly in `f`. -/
def marks (t f : List α) : List (List α × Bool) :=
  match pieces d (t ++ f) with
  | [] => []
  | p :: ps => (p, t.isEmpty) :: ps.map fun q ↦ (q, true)

/-- The marked pieces of a whole sequence of fragments. -/
def fragMarks (t : List α) : List (List α) → List (List α × Bool)
  | [] => []
  | f :: fs => marks d t f ++ fragMarks (rest d (t ++ f)) fs

variable {d}

theorem marks_of_notMem {t f : List α} (ht : d ∉ t) (hf : d ∉ f) : marks d t f = [] := by
  rw [marks, pieces_of_notMem (by simp [ht, hf])]

theorem marks_append_cons {t a : List α} (ht : d ∉ t) (ha : d ∉ a) (ys : List α) :
    marks d t (a ++ d :: ys)
      = (t ++ a, t.isEmpty) :: (pieces d ys).map fun q ↦ (q, true) := by
  rw [marks, ← List.append_assoc, pieces_append_cons (by simp [ht, ha])]

private theorem marks_fst (t f : List α) : (marks d t f).map Prod.fst = pieces d (t ++ f) := by
  rw [marks]
  cases pieces d (t ++ f) <;> simp [Function.comp_def]

/-- **Forgetting the marks forgets the fragmentation.** -/
theorem fragMarks_fst {t : List α} (ht : d ∉ t) (fs : List (List α)) :
    (fragMarks d t fs).map Prod.fst = pieces d (t ++ fs.flatten) := by
  induction fs generalizing t with
  | nil => simp [fragMarks, ht]
  | cons f fs ih =>
    rw [fragMarks, List.map_append, marks_fst, ih (notMem_rest _), List.flatten_cons,
      ← List.append_assoc, pieces_append (t ++ f)]

/-- A piece that lies wholly in a fragment is shorter. -/
theorem length_lt_of_mem_fragMarks {t : List α} (ht : d ∉ t) {fs : List (List α)}
    {m : List α × Bool} (hm : m ∈ fragMarks d t fs) (hmark : m.2 = true) :
    ∃ f ∈ fs, m.1.length < f.length := by
  induction fs generalizing t with
  | nil => cases hm
  | cons f fs ih =>
    rw [fragMarks] at hm
    rcases List.mem_append.mp hm with hm | hm
    · refine ⟨f, List.mem_cons_self, ?_⟩
      rcases eq_tail_or_piece d f with hf | ⟨a, ys, ha, rfl⟩
      · rw [marks_of_notMem ht hf] at hm
        cases hm
      · rw [marks_append_cons ht ha, List.mem_cons, List.mem_map] at hm
        rw [List.length_append, List.length_cons]
        rcases hm with rfl | ⟨q, hq, rfl⟩
        · rw [List.isEmpty_iff.mp hmark]
          dsimp only [List.nil_append]
          omega
        · have hlen := length_lt_of_mem_pieces hq
          dsimp only
          omega
    · obtain ⟨f', hf', hlen⟩ := ih (notMem_rest _) hm
      exact ⟨f', List.mem_cons_of_mem _ hf', hlen⟩

/-- A piece that was begun before the first fragment has no fragment to itself. -/
theorem fragMarks_head {t : List α} (hne : t ≠ []) {fs : List (List α)} {m : List α × Bool}
    {ms : List (List α × Bool)} (h : fragMarks d t fs = m :: ms) : m.2 = false := by
  induction fs generalizing t with
  | nil => cases h
  | cons f fs ih =>
    rw [fragMarks, marks] at h
    cases hp : pieces d (t ++ f) with
    | nil =>
      have hrest : rest d (t ++ f) = t ++ f := by
        have := flatMap_pieces_append_rest (d := d) (t ++ f)
        rwa [hp, List.flatMap_nil, List.nil_append] at this
      rw [hp, List.nil_append, hrest] at h
      exact ih (by simp [hne]) h
    | cons p ps =>
      rw [hp, List.cons_append, List.cons.injEq] at h
      rw [← h.1]
      exact List.isEmpty_eq_false_iff.mpr hne

/-- Fragments without a delimiter only begin a piece. -/
theorem fragMarks_append_of_notMem {t : List α} (ht : d ∉ t) {fs : List (List α)}
    (hfs : d ∉ fs.flatten) (gs : List (List α)) :
    fragMarks d t (fs ++ gs) = fragMarks d (t ++ fs.flatten) gs := by
  induction fs generalizing t with
  | nil => simp
  | cons f fs ih =>
    rw [List.flatten_cons, List.mem_append, not_or] at hfs
    have htf : d ∉ t ++ f := by simp [ht, hfs.1]
    rw [List.cons_append, fragMarks, marks_of_notMem ht hfs.1, rest_of_notMem htf, ih htf hfs.2,
      List.nil_append, List.flatten_cons, List.append_assoc]

theorem rest_flatten_cons (t f : List α) (fs : List (List α)) :
    rest d (rest d (t ++ f) ++ fs.flatten) = rest d (t ++ (f :: fs).flatten) := by
  rw [List.flatten_cons, ← List.append_assoc, ← rest_append]

end Delimited

end LoggerAnalyzer
