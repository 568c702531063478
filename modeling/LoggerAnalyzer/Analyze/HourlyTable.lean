import LoggerAnalyzer.Analyze.Tally
import LoggerAnalyzer.Stream.First

/-!
# The hourly table

What the buckets are for is a plain map: each of the first `kMaxBuckets` distinct hours has the
numbers of its lines. `tableHours` are these hours and `hourStat` are the numbers, both in terms of
the accepted lines alone. The buckets are a sorted vector with a cache of the last index instead;
`IsHourTable` says that they hold the same, and it is what every line preserves.

A line that is turned away spoils nothing, as its hour has no bucket and will not get one. A bucket
that is made begins at zero, and rightly so: while there is room, an hour without a bucket has not
occurred.
-/

namespace LoggerAnalyzer

/-- One more line of `module`. -/
def BucketStat.add (module : Module) (s : BucketStat) : BucketStat :=
  { moduleCount := Function.update s.moduleCount module (s.moduleCount module + 1)
    total := s.total + 1 }

namespace Aggregator

variable {D : Type}

/-! ## The map -/

/-- The hours that have a row. -/
def tableHours (accepted : List (ParsedLine D)) : List ℕ :=
  firstDistinct kMaxBuckets (accepted.map ParsedLine.bucket)

/-- The row of an hour. -/
def hourStat (accepted : List (ParsedLine D)) (hour : ℕ) : BucketStat :=
  { moduleCount := fun m ↦ accepted.countP fun p ↦ p.bucket = hour ∧ p.module = m
    total := accepted.countP fun p ↦ p.bucket = hour }

private theorem hourStat_of_new {accepted : List (ParsedLine D)} {hour : ℕ}
    (h : hour ∉ accepted.map ParsedLine.bucket) : hourStat accepted hour = BucketStat.empty := by
  have hne : ∀ p ∈ accepted, p.bucket ≠ hour := fun p hp heq ↦ h (heq ▸ List.mem_map_of_mem hp)
  rw [hourStat, BucketStat.empty, BucketStat.mk.injEq]
  refine ⟨funext fun m ↦ List.countP_eq_zero.mpr fun p hp ↦ ?_,
    List.countP_eq_zero.mpr fun p hp ↦ ?_⟩
  · simp [hne p hp]
  · simp [hne p hp]

private theorem hourStat_concat (accepted : List (ParsedLine D)) (p : ParsedLine D) (hour : ℕ) :
    hourStat (accepted ++ [p]) hour =
      if hour = p.bucket then (hourStat accepted hour).add p.module
      else hourStat accepted hour := by
  split_ifs with h
  · subst h
    rw [hourStat, BucketStat.add, BucketStat.mk.injEq]
    refine ⟨funext fun m ↦ ?_, ?_⟩
    · rw [List.countP_append, List.countP_singleton, Function.update_apply]
      by_cases hm : m = p.module
      · subst hm
        simp [hourStat]
      · rw [if_neg (by simp [Ne.symm hm]), if_neg hm]
        rfl
    · rw [List.countP_append, List.countP_singleton, if_pos (by simp)]
      rfl
  · have hne : ¬ p.bucket = hour := Ne.symm h
    rw [hourStat, hourStat, BucketStat.mk.injEq]
    refine ⟨funext fun m ↦ ?_, ?_⟩
    · rw [List.countP_append, List.countP_singleton, if_neg (by simp [hne]), Nat.add_zero]
    · rw [List.countP_append, List.countP_singleton, if_neg (by simp [hne]), Nat.add_zero]

/-- Every line of an hour has one module. -/
theorem total_hourStat (accepted : List (ParsedLine D)) (hour : ℕ) :
    (hourStat accepted hour).total
      = (Module.all.map (hourStat accepted hour).moduleCount).sum := by
  have hall := sum_countP_module (accepted.filter fun p ↦ p.bucket = hour)
  rw [← List.countP_eq_length_filter] at hall
  have hcount : ∀ m ∈ Module.all,
      (accepted.filter fun p ↦ p.bucket = hour).countP (fun p ↦ p.module = m)
        = (hourStat accepted hour).moduleCount m := by
    intro m _
    rw [List.countP_filter, hourStat]
    exact List.countP_congr fun p _ ↦ by simp [and_comm]
  rw [← List.map_congr_left hcount]
  exact hall.symm

/-! ## The buckets -/

/-- The buckets hold the map. -/
structure IsHourTable (accepted : List (ParsedLine D)) (a : Aggregator D) : Prop where
  fit : BucketsFit (tableHours accepted) a
  counted : ∀ e ∈ a.buckets, e.2 = hourStat accepted e.1

theorem BucketsFit.congr_hours {hours hours' : List ℕ} {a : Aggregator D} (h : BucketsFit hours a)
    (hmem : ∀ hour, hour ∈ hours ↔ hour ∈ hours') (hlen : hours.length = hours'.length) :
    BucketsFit hours' a :=
  ⟨h.sorted, h.cached, fun hour ↦ (h.mem_iff hour).trans (hmem hour), h.length_eq.trans hlen⟩

/-- Admission in the order of first occurrence. -/
theorem admitHour_tableHours (accepted : List (ParsedLine D)) (p : ParsedLine D) :
    (∀ hour, hour ∈ admitHour (tableHours accepted) p.bucket
      ↔ hour ∈ tableHours (accepted ++ [p])) ∧
    (admitHour (tableHours accepted) p.bucket).length = (tableHours (accepted ++ [p])).length := by
  have hconcat := firstDistinct_concat kMaxBuckets (accepted.map ParsedLine.bucket) p.bucket
  rw [tableHours, tableHours, List.map_append, List.map_singleton, hconcat, admitHour]
  split_ifs
  · exact ⟨fun _ ↦ Iff.rfl, rfl⟩
  · exact ⟨fun hour ↦ by simp [or_comm], by simp⟩
  · exact ⟨fun _ ↦ Iff.rfl, rfl⟩

/-- The bucket that is found has the key, and it is an old one unless the hour is new. -/
theorem BucketsFit.bucketFor_spec {hours : List ℕ} {a : Aggregator D} (h : BucketsFit hours a)
    (key : ℕ) :
    (hoursOf (a.bucketFor key).2.buckets)[(a.bucketFor key).1]? = some key ∧
      ∀ e ∈ (a.bucketFor key).2.buckets,
        e ∈ a.buckets ∨ e = (key, BucketStat.empty) ∧ key ∉ hours := by
  have hcached := (h.bucketFor key).1.cached
  rw [Aggregator.bucketFor] at hcached ⊢
  by_cases hlast : (a.hasLast && a.lastKey == key) = true
  · rw [if_pos hlast] at hcached ⊢
    rw [Bool.and_eq_true, beq_iff_eq] at hlast
    have hat := hcached hlast.1
    rw [hlast.2] at hat
    exact ⟨hat, fun e he ↦ .inl he⟩
  rw [if_neg hlast] at hcached ⊢
  refine ⟨hcached rfl, fun e he ↦ ?_⟩
  dsimp only at he
  by_cases hat : isAt key (lowerBound key a.buckets) a.buckets = true
  · rw [if_pos hat] at he
    exact .inl he
  · rw [if_neg hat, List.mem_append, List.mem_cons] at he
    rcases he with htake | heq | hdrop
    · exact .inl (List.mem_of_mem_take htake)
    · rw [isAt_lowerBound key h.sorted, h.mem_iff] at hat
      exact .inr ⟨heq, hat⟩
    · exact .inl (List.mem_of_mem_drop hdrop)

/-- Counting a line changes the bucket with the key and no other. -/
theorem mem_countBucket {a : Aggregator D} {i key : ℕ}
    (sorted : (hoursOf a.buckets).Pairwise (· < ·))
    (hat : (hoursOf a.buckets)[i]? = some key) {module : Module} {e : ℕ × BucketStat}
    (he : e ∈ (a.countBucket i module).buckets) :
    ∃ e₀ ∈ a.buckets, e = (e₀.1, if e₀.1 = key then e₀.2.add module else e₀.2) := by
  obtain ⟨j, hj⟩ := List.mem_iff_getElem?.mp he
  rw [countBucket, List.getElem?_modify] at hj
  obtain ⟨e₀, hget, rfl⟩ := Option.map_eq_some_iff.mp hj
  refine ⟨e₀, List.mem_of_getElem? hget, ?_⟩
  have hkey : (hoursOf a.buckets)[j]? = some e₀.1 := by
    rw [hoursOf, List.getElem?_map, hget, Option.map_some]
  have hindex : i = j ↔ e₀.1 = key := by
    constructor
    · rintro rfl
      exact Option.some.inj (hkey.symm.trans hat)
    · rintro rfl
      exact (List.getElem?_inj (List.getElem?_eq_some_iff.mp hat).1 (sorted.imp Nat.ne_of_lt)).mp
        (hat.trans hkey.symm)
  by_cases h : i = j
  · rw [if_pos h, if_pos (hindex.mp h)]
    rfl
  · rw [if_neg h, if_neg (mt hindex.mpr h)]

section Lines

variable [DoubleOps D]

theorem isHourTable_empty : IsHourTable [] (empty : Aggregator D) :=
  ⟨bucketsFit_empty, fun e he ↦ by cases he⟩

omit [DoubleOps D] in
theorem IsHourTable.congr {accepted : List (ParsedLine D)} {a b : Aggregator D}
    (h : IsHourTable accepted a) (hbuckets : b.buckets = a.buckets)
    (lastKey : b.lastKey = a.lastKey)
    (lastIndex : b.lastIndex = a.lastIndex) (hasLast : b.hasLast = a.hasLast) :
    IsHourTable accepted b :=
  ⟨h.fit.congr (congrArg hoursOf hbuckets) lastKey lastIndex hasLast, hbuckets ▸ h.counted⟩

/-- The buckets after an accepted line. -/
theorem BucketsFit.tally_buckets {hours : List ℕ} {a : Aggregator D} (h : BucketsFit hours a)
    (p : ParsedLine D) :
    (a.tally p).buckets =
      if p.bucket ∈ admitHour hours p.bucket
      then ((a.bucketFor p.bucket).2.countBucket (a.bucketFor p.bucket).1 p.module).buckets
      else a.buckets := by
  rw [Aggregator.tally]
  by_cases hin : p.bucket ∈ admitHour hours p.bucket
  · rw [if_neg (mt (h.refused_iff p.bucket).mp (not_not.mpr hin)), if_pos hin]
    split_ifs
    · rw [widenSpd_buckets]
      rfl
    · rfl
  · rw [if_pos ((h.refused_iff p.bucket).mpr hin), if_neg hin]
    split_ifs <;> rfl

/-- **One accepted line.** -/
theorem IsHourTable.tally {accepted : List (ParsedLine D)} {a : Aggregator D}
    (h : IsHourTable accepted a) (p : ParsedLine D) :
    IsHourTable (accepted ++ [p]) (a.tally p) := by
  obtain ⟨hmem, hlen⟩ := admitHour_tableHours accepted p
  refine ⟨(h.fit.tally p).1.congr_hours hmem hlen, fun e he ↦ ?_⟩
  rw [h.fit.tally_buckets] at he
  rw [hourStat_concat]
  by_cases hin : p.bucket ∈ admitHour (tableHours accepted) p.bucket
  · rw [if_pos hin] at he
    obtain ⟨hat, hold⟩ := h.fit.bucketFor_spec p.bucket
    obtain ⟨e₀, he₀, rfl⟩ := mem_countBucket (h.fit.bucketFor p.bucket).1.sorted hat he
    have hstat : e₀.2 = hourStat accepted e₀.1 := by
      rcases hold e₀ he₀ with hmem₀ | ⟨rfl, hnew⟩
      · exact h.counted e₀ hmem₀
      · refine (hourStat_of_new fun hoccurs ↦ hnew ?_).symm
        rcases mem_admitHour_iff.mp hin with hthere | hroom
        · exact hthere
        · exact mem_firstDistinct_of_room hroom hoccurs
    rw [hstat]
  · rw [if_neg hin] at he
    have hother : e.1 ≠ p.bucket := by
      intro heq
      rw [mem_admitHour_iff, not_or] at hin
      exact hin.1 ((h.fit.mem_iff p.bucket).mp (heq ▸ List.mem_map_of_mem he))
    rw [if_neg hother]
    exact h.counted e he

theorem IsHourTable.addLines {accepted : List (ParsedLine D)} {a : Aggregator D}
    (h : IsHourTable accepted a) (calls : List (Bytes × ℕ)) :
    IsHourTable (accepted ++ acceptedOf calls) (a.addLines calls) := by
  induction calls generalizing accepted a with
  | nil => rwa [acceptedOf, List.filterMap_nil, List.append_nil]
  | cons c calls ih =>
    rw [Aggregator.addLines, List.foldl_cons, ← Aggregator.addLines]
    cases hc : parsedOf (D := D) c.1 with
    | none =>
      obtain ⟨r, token, heq⟩ := addLine_none hc c.2 a
      rw [acceptedOf_cons_none hc, heq]
      exact ih (h.congr rfl rfl rfl rfl)
    | some p =>
      rw [acceptedOf_cons_some hc, addLine_some hc, ← List.singleton_append, ← List.append_assoc]
      have hcounted : IsHourTable accepted
          (countAccepted c.1 p { a with totalLines := a.totalLines + 1 }) :=
        h.congr rfl rfl rfl rfl
      exact ih (hcounted.tally p)

/-- **The hourly table is exact.** The hours are in order and are the first distinct ones, and each
row has the numbers of the accepted lines of its hour. -/
theorem hourlyTable_addLines (a : Aggregator D) (calls : List (Bytes × ℕ)) :
    (hoursOf (a.reset.addLines calls).buckets).Pairwise (· < ·) ∧
    (hoursOf (a.reset.addLines calls).buckets).Perm
      (((acceptedOf (D := D) calls).map ParsedLine.bucket).eraseDups.take kMaxBuckets) ∧
    ∀ e ∈ (a.reset.addLines calls).buckets,
      (∀ m, e.2.moduleCount m
        = (acceptedOf (D := D) calls).countP fun p ↦ p.bucket = e.1 ∧ p.module = m) ∧
      e.2.total = (Module.all.map e.2.moduleCount).sum := by
  have htable : IsHourTable (acceptedOf calls) (a.reset.addLines calls) :=
    isHourTable_empty.addLines calls
  refine ⟨htable.fit.sorted, ?_, fun e he ↦ ?_⟩
  · exact (List.perm_ext_iff_of_nodup (htable.fit.sorted.imp Nat.ne_of_lt)
      (nodup_firstDistinct _ _)).mpr htable.fit.mem_iff
  · rw [htable.counted e he]
    exact ⟨fun _ ↦ rfl, total_hourStat _ _⟩

end Lines

end Aggregator

end LoggerAnalyzer
