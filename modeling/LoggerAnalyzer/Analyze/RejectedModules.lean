import LoggerAnalyzer.Analyze.ResultSize
import LoggerAnalyzer.Parse.Grammar
import LoggerAnalyzer.Stream.First

/-!
# The table of rejected modules

The map of rejected modules has room for `kMaxRejectedModules` names. `CountsNames` says what is in
it: the first distinct names, each with the number of its occurrences. A name that comes too late is
not counted, and it will not be counted later either, so the numbers of the names that are there
stay right.

Only a line with an unknown module puts a name into the map. Other rejected lines may have a name in
their fields as well.
-/

namespace LoggerAnalyzer

namespace Aggregator

variable {D : Type}

/-! ## One name -/

/-- The map holds the first distinct names and how often each of them occurs. -/
structure CountsNames (names : List Bytes) (m : List (Bytes × ℕ)) : Prop where
  sorted : SortedKeys m
  mem_iff : ∀ name, name ∈ m.map Prod.fst ↔ name ∈ firstDistinct kMaxRejectedModules names
  counted : ∀ e ∈ m, e.2 = names.count e.1

private theorem countsNames_nil : CountsNames [] [] :=
  ⟨.nil, fun name ↦ by simp, fun e he ↦ absurd he List.not_mem_nil⟩

theorem CountsNames.nodup {names : List Bytes} {m : List (Bytes × ℕ)} (h : CountsNames names m) :
    (m.map Prod.fst).Nodup :=
  List.pairwise_map.mpr (h.sorted.imp Std.ne_of_lt)

theorem CountsNames.perm {names : List Bytes} {m : List (Bytes × ℕ)} (h : CountsNames names m) :
    (m.map Prod.fst).Perm (firstDistinct kMaxRejectedModules names) :=
  (List.perm_ext_iff_of_nodup h.nodup (nodup_firstDistinct _ _)).mpr h.mem_iff

theorem CountsNames.length_eq {names : List Bytes} {m : List (Bytes × ℕ)}
    (h : CountsNames names m) :
    m.length = (firstDistinct kMaxRejectedModules names).length := by
  rw [← h.perm.length_eq, List.length_map]

private theorem keys_countModule (name : Bytes) (m : List (Bytes × ℕ)) (key : Bytes) :
    key ∈ (countModule name m).map Prod.fst ↔ key = name ∨ key ∈ m.map Prod.fst := by
  induction m with
  | nil => simp [countModule]
  | cons entry m ih =>
    obtain ⟨key', n⟩ := entry
    rw [countModule]
    split_ifs with heq hlt
    · simp [heq]
    · simp
    · rw [List.map_cons, List.mem_cons, ih, List.map_cons, List.mem_cons]
      exact or_left_comm

/-- An entry after a name is counted: another one, the one of the name, or a new one. -/
theorem countModule_cases {name : Bytes} {m : List (Bytes × ℕ)} (h : SortedKeys m)
    {e : Bytes × ℕ} (he : e ∈ countModule name m) :
    (e ∈ m ∧ e.1 ≠ name) ∨ (∃ n, (name, n) ∈ m ∧ e = (name, n + 1)) ∨
      (name ∉ m.map Prod.fst ∧ e = (name, 1)) := by
  induction m with
  | nil => exact .inr (.inr ⟨List.not_mem_nil, List.mem_singleton.mp he⟩)
  | cons entry m ih =>
    obtain ⟨key, n⟩ := entry
    rw [SortedKeys, List.pairwise_cons] at h
    have hrest : ∀ e ∈ m, e.1 ≠ key := fun e he heq ↦ List.lt_irrefl key (heq ▸ h.1 e he)
    rw [countModule] at he
    -- the name is here, or would stand before this entry, or comes later
    split_ifs at he with heq hlt
    · subst heq
      rcases List.mem_cons.mp he with rfl | he
      · exact .inr (.inl ⟨n, List.mem_cons_self, rfl⟩)
      · exact .inl ⟨List.mem_cons_of_mem _ he, hrest e he⟩
    · have hnew : ∀ e ∈ (key, n) :: m, e.1 ≠ name := fun e he hname ↦ by
        rcases List.mem_cons.mp he with rfl | he
        · exact heq hname
        · exact List.lt_irrefl name (List.lt_trans hlt (hname ▸ h.1 e he))
      rcases List.mem_cons.mp he with rfl | he
      · refine .inr (.inr ⟨fun hmem ↦ ?_, rfl⟩)
        obtain ⟨e, he, hname⟩ := List.mem_map.mp hmem
        exact hnew e he hname
      · exact .inl ⟨he, hnew e he⟩
    · rcases List.mem_cons.mp he with rfl | he
      · exact .inl ⟨List.mem_cons_self, heq⟩
      · rcases ih h.2 he with ⟨hmem, hne⟩ | ⟨k, hmem, rfl⟩ | ⟨hnew, rfl⟩
        · exact .inl ⟨List.mem_cons_of_mem _ hmem, hne⟩
        · exact .inr (.inl ⟨k, List.mem_cons_of_mem _ hmem, rfl⟩)
        · refine .inr (.inr ⟨?_, rfl⟩)
          rw [List.map_cons, List.mem_cons, not_or]
          exact ⟨Ne.symm heq, hnew⟩

/-- The map after a name that it has, or has room for. -/
theorem CountsNames.countModule {names : List Bytes} {m : List (Bytes × ℕ)}
    (h : CountsNames names m)
    {name : Bytes}
    (hin : name ∈ m.map Prod.fst ∨
    (firstDistinct kMaxRejectedModules names).length < kMaxRejectedModules) :
    CountsNames (names ++ [name]) (countModule name m) := by
  refine ⟨sortedKeys_countModule name h.sorted, fun key ↦ ?_, fun e he ↦ ?_⟩
  · rw [keys_countModule, h.mem_iff, firstDistinct_concat]
    split_ifs with hmem hroom
    · constructor
      · rintro (rfl | hkey)
        · exact hmem
        · exact hkey
      · exact .inr
    · rw [List.mem_append, List.mem_singleton]
      exact or_comm
    · rw [h.mem_iff] at hin
      exact absurd hin (not_or.mpr ⟨hmem, hroom⟩)
  · rw [List.count_append, List.count_singleton]
    rcases countModule_cases h.sorted he with ⟨hmem, hne⟩ | ⟨n, hmem, rfl⟩ | ⟨hnew, rfl⟩
    · rw [if_neg (by simpa using Ne.symm hne), Nat.add_zero]
      exact h.counted e hmem
    · rw [if_pos (by simp), ← h.counted _ hmem]
    · have hroom := hin.resolve_left hnew
      rw [h.mem_iff] at hnew
      rw [if_pos (by simp), List.count_eq_zero.mpr (mt (mem_firstDistinct_of_room hroom) hnew)]

/-- **One more name.** -/
theorem CountsNames.rejectModule {names : List Bytes} {m : List (Bytes × ℕ)}
    (h : CountsNames names m) (name : Bytes) :
    CountsNames (names ++ [name]) (rejectModule name m) := by
  have hknown : m.any (fun e ↦ e.1 == name) = true ↔ name ∈ m.map Prod.fst := by
    rw [List.any_eq_true, List.mem_map]
    exact exists_congr fun e ↦ and_congr_right fun _ ↦ beq_iff_eq
  rw [Aggregator.rejectModule, h.length_eq]
  split_ifs with hroom hany
  · exact h.countModule (.inr hroom)
  · exact h.countModule (.inl (hknown.mp hany))
  · -- The name is left out, now and later.
    have hmem := mt hknown.mpr hany
    refine ⟨h.sorted, fun key ↦ ?_, fun e he ↦ ?_⟩
    · rw [h.mem_iff] at hmem
      rw [h.mem_iff, firstDistinct_concat, if_neg hmem, if_neg hroom]
    · have hne : e.1 ≠ name := fun heq ↦ hmem (heq ▸ List.mem_map_of_mem he)
      rw [List.count_append, List.count_singleton, if_neg (by simpa using Ne.symm hne),
        Nat.add_zero]
      exact h.counted e he

/-! ## All lines -/

section Lines

variable [DoubleOps D]

/-- The name of a line that is rejected because of it. -/
def unknownName (D : Type) [DoubleOps D] (line : Bytes) : Option Bytes :=
  match parseLogLine (D := D) line with
  | (.unknownModule, p) => some p.moduleToken
  | _ => none

/-- The names of the lines with an unknown module, in order. -/
def unknownNames (D : Type) [DoubleOps D] (calls : List (Bytes × ℕ)) : List Bytes :=
  calls.filterMap fun c ↦ unknownName D c.1

private theorem unknownNames_cons_some {c : Bytes × ℕ} {name : Bytes}
    (h : unknownName D c.1 = some name)
    (calls : List (Bytes × ℕ)) : unknownNames D (c :: calls) = name :: unknownNames D calls :=
  List.filterMap_cons_some h

private theorem unknownNames_cons_none {c : Bytes × ℕ} (h : unknownName D c.1 = none)
    (calls : List (Bytes × ℕ)) : unknownNames D (c :: calls) = unknownNames D calls :=
  List.filterMap_cons_none h

private theorem unknownName_isSome (line : Bytes) :
    (unknownName D line).isSome = decide (reasonOf D line = .unknownModule) := by
  rw [unknownName, reasonOf]
  generalize parseLogLine (D := D) line = parsed
  obtain ⟨r, p⟩ := parsed
  cases r <;> rfl

private theorem length_unknownNames (calls : List (Bytes × ℕ)) :
    (unknownNames D calls).length = calls.countP fun c ↦ reasonOf D c.1 = .unknownModule := by
  rw [unknownNames, List.length_filterMap_eq_countP]
  exact List.countP_congr fun c _ ↦ by rw [unknownName_isSome]

/-- What a line does to the map. -/
theorem rejectedModules_addLine (line : Bytes) (offset : ℕ) (a : Aggregator D) :
    (a.addLine line offset).rejectedModules =
      match unknownName D line with
      | some name => rejectModule name a.rejectedModules
      | none => a.rejectedModules := by
  rw [addLine, unknownName]
  cases hparse : parseLogLine (D := D) line with
  | mk r p =>
    cases r with
    | ok => exact (sameTexts_tally p _).rejectedModules
    | unknownModule =>
      have htoken : p.moduleToken.isEmpty = false :=
        List.isEmpty_eq_false_iff.mpr (token_ne_nil_of_unknownModule hparse)
      simp only [recordReject, htoken]
      rfl
    | _ => rfl

theorem CountsNames.addLines {names : List Bytes} {a : Aggregator D}
    (h : CountsNames names a.rejectedModules) (calls : List (Bytes × ℕ)) :
    CountsNames (names ++ unknownNames D calls) (a.addLines calls).rejectedModules := by
  induction calls generalizing names a with
  | nil => rwa [unknownNames, List.filterMap_nil, List.append_nil]
  | cons c calls ih =>
    have hline := rejectedModules_addLine c.1 c.2 a
    rw [Aggregator.addLines, List.foldl_cons, ← Aggregator.addLines]
    cases hname : unknownName D c.1 with
    | none =>
      rw [hname] at hline
      rw [unknownNames_cons_none hname]
      exact ih (hline ▸ h)
    | some name =>
      rw [hname] at hline
      rw [unknownNames_cons_some hname, ← List.singleton_append, ← List.append_assoc]
      exact ih (hline ▸ h.rejectModule name)

/-- The counts in the map add up to those of its names. -/
theorem CountsNames.sum_eq {names : List Bytes} {m : List (Bytes × ℕ)} (h : CountsNames names m) :
    (m.map Prod.snd).sum = ((firstDistinct kMaxRejectedModules names).map (names.count ·)).sum := by
  rw [← (h.perm.map _).sum_eq, List.map_map]
  exact congrArg List.sum (List.map_congr_left h.counted)

/-- **The table of rejected modules is exact up to its cap.** -/
theorem rejectedModules_addLines (a : Aggregator D) (calls : List (Bytes × ℕ)) :
    ((a.reset.addLines calls).rejectedModules.map Prod.fst).Perm
      ((unknownNames D calls).eraseDups.take kMaxRejectedModules) ∧
    (∀ e ∈ (a.reset.addLines calls).rejectedModules, e.2 = (unknownNames D calls).count e.1) ∧
    ((a.reset.addLines calls).rejectedModules.map Prod.snd).sum
      ≤ ((a.reset.addLines calls).corrupt .unknownModule).count ∧
    ((unknownNames D calls).eraseDups.length ≤ kMaxRejectedModules →
      ((a.reset.addLines calls).rejectedModules.map Prod.snd).sum
        = ((a.reset.addLines calls).corrupt .unknownModule).count) := by
  have hnames : CountsNames (unknownNames D calls) (a.reset.addLines calls).rejectedModules :=
    CountsNames.addLines (a := a.reset) countsNames_nil calls
  have hcount : ((a.reset.addLines calls).corrupt .unknownModule).count
      = (unknownNames D calls).length := by
    rw [addLines_count calls a.reset (by decide), length_unknownNames]
    exact Nat.zero_add _
  refine ⟨hnames.perm, hnames.counted, ?_, fun hroom ↦ ?_⟩
  · rw [hnames.sum_eq, hcount]
    exact sum_count_firstDistinct_le _ _
  · rw [hnames.sum_eq, hcount]
    exact sum_count_firstDistinct hroom

end Lines

end Aggregator

end LoggerAnalyzer
