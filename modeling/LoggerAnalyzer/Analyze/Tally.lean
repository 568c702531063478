import LoggerAnalyzer.Analyze.Aggregator

/-!
# Nothing is miscounted

A line that `add_line` accepts is counted in several places: with all lines, with the lines of its
module, in the bucket of its hour and, if it has a speed, in the sum. It leaves the function on one
of two ways, because no new bucket is made once there are `kMaxBuckets`. `Tallied` says what the
counters are after any lines, each in terms of the lines alone.

Which lines are in no bucket is a question about hours: `admitHour` is the set of the first
`kMaxBuckets` hours that occur, and `turnedAway` are the lines that come too late. That the buckets
are those hours, in order and with a cache that points at the right one, is the invariant
`BucketsFit`.
-/

namespace LoggerAnalyzer

namespace Aggregator

variable {D : Type}

/-! ## Hours -/

/-- The hours that have a bucket after a line of `hour`: a new hour is admitted while there is
room. -/
def admitHour (hours : List ℕ) (hour : ℕ) : List ℕ :=
  if hour ∈ hours then hours
  else if hours.length < kMaxBuckets then hour :: hours
  else hours

/-- The lines whose hour is not admitted. -/
def turnedAway : List ℕ → List (ParsedLine D) → List (ParsedLine D)
  | _, [] => []
  | hours, p :: ps =>
    if p.bucket ∈ admitHour hours p.bucket then turnedAway (admitHour hours p.bucket) ps
    else p :: turnedAway hours ps

theorem mem_admitHour_iff {hours : List ℕ} {hour : ℕ} :
    hour ∈ admitHour hours hour ↔ hour ∈ hours ∨ hours.length < kMaxBuckets := by
  rw [admitHour]
  split_ifs with hmem hroom
  · simp [hmem]
  · simp [hroom]
  · simp [hmem, hroom]

/-! ## Sorted buckets -/

/-- The hours that have a bucket. -/
def hoursOf (buckets : List (ℕ × BucketStat)) : List ℕ := buckets.map Prod.fst

/-- The lines of a module that are in a bucket. -/
def inBuckets (m : Module) (buckets : List (ℕ × BucketStat)) : ℕ :=
  (buckets.map fun e ↦ e.2.moduleCount m).sum

/-- Where the lower bound of a key cuts sorted buckets. -/
theorem cut_lowerBound {buckets : List (ℕ × BucketStat)} (key : ℕ)
    (sorted : (hoursOf buckets).Pairwise (· < ·)) :
    ∃ before after, buckets = before ++ after ∧ before.length = lowerBound key buckets ∧
      (∀ e ∈ before, e.1 < key) ∧ ∀ e ∈ after, key ≤ e.1 := by
  induction buckets with
  | nil => exact ⟨[], [], rfl, rfl, by simp, by simp⟩
  | cons e buckets ih =>
    rw [hoursOf, List.map_cons, List.pairwise_cons] at sorted
    by_cases hlt : e.1 < key
    · obtain ⟨before, after, rfl, hlen, hbefore, hafter⟩ := ih sorted.2
      refine ⟨e :: before, after, rfl, ?_, ?_, hafter⟩
      · rw [List.length_cons, hlen, lowerBound, lowerBound, List.takeWhile_cons, decide_eq_true hlt,
          if_pos rfl, List.length_cons]
      · exact List.forall_mem_cons.mpr ⟨hlt, hbefore⟩
    · refine ⟨[], e :: buckets, rfl, ?_, by simp, ?_⟩
      · rw [lowerBound, List.takeWhile_cons, decide_eq_false hlt]
        rfl
      · refine List.forall_mem_cons.mpr ⟨Nat.not_lt.mp hlt, fun e' he' ↦ ?_⟩
        have hle := sorted.1 e'.1 (List.mem_map_of_mem he')
        omega

/-- A lower bound is a bucket for its key if there is one. -/
theorem isAt_lowerBound {buckets : List (ℕ × BucketStat)} (key : ℕ)
    (sorted : (hoursOf buckets).Pairwise (· < ·)) :
    isAt key (lowerBound key buckets) buckets = true ↔ key ∈ hoursOf buckets := by
  obtain ⟨before, after, rfl, hlen, hbefore, hafter⟩ := cut_lowerBound key sorted
  rw [isAt, ← hlen, List.getElem?_append_right le_rfl, Nat.sub_self, beq_iff_eq, hoursOf,
    List.map_append, List.mem_append]
  constructor
  · intro h
    obtain ⟨e, he, hkey⟩ := Option.map_eq_some_iff.mp h
    exact .inr (List.mem_map.mpr ⟨e, List.mem_of_getElem? he, hkey⟩)
  · rintro (hmem | hmem)
    · obtain ⟨e, he, rfl⟩ := List.mem_map.mp hmem
      exact absurd (hbefore e he) (Nat.lt_irrefl _)
    · obtain _ | ⟨e, after⟩ := after
      · simp at hmem
      · rw [hoursOf, List.map_append, List.pairwise_append, List.map_cons, List.pairwise_cons]
          at sorted
        obtain ⟨e', he', hkey⟩ := List.mem_map.mp hmem
        rcases List.mem_cons.mp he' with rfl | htail
        · rw [List.getElem?_cons_zero, Option.map_some, hkey]
        · have hlt := sorted.2.1.1 e'.1 (List.mem_map_of_mem htail)
          have hle := hafter e (List.mem_cons_self ..)
          omega

/-- The buckets are those of `hours`, in order, and the cache points at the bucket it names. -/
structure BucketsFit (hours : List ℕ) (a : Aggregator D) : Prop where
  sorted : (hoursOf a.buckets).Pairwise (· < ·)
  cached : a.hasLast = true → (hoursOf a.buckets)[a.lastIndex]? = some a.lastKey
  mem_iff : ∀ hour, hour ∈ hoursOf a.buckets ↔ hour ∈ hours
  length_eq : (hoursOf a.buckets).length = hours.length

theorem bucketsFit_empty [DoubleOps D] : BucketsFit [] (empty : Aggregator D) :=
  ⟨.nil, nofun, fun _ ↦ Iff.rfl, rfl⟩

theorem BucketsFit.congr {hours : List ℕ} {a b : Aggregator D} (h : BucketsFit hours a)
    (hoursOf_eq : hoursOf b.buckets = hoursOf a.buckets) (lastKey : b.lastKey = a.lastKey)
    (lastIndex : b.lastIndex = a.lastIndex) (hasLast : b.hasLast = a.hasLast) :
    BucketsFit hours b := by
  obtain ⟨sorted, cached, mem_iff, length_eq⟩ := h
  constructor <;> simpa only [hoursOf_eq, lastKey, lastIndex, hasLast]

/-- The bucket of an hour is found, or made. -/
theorem BucketsFit.bucketFor {hours : List ℕ} {a : Aggregator D} (h : BucketsFit hours a)
    (key : ℕ) :
    BucketsFit (if key ∈ hours then hours else key :: hours) (a.bucketFor key).2 ∧
      (a.bucketFor key).1 < (a.bucketFor key).2.buckets.length ∧
      ∀ m, inBuckets m (a.bucketFor key).2.buckets = inBuckets m a.buckets := by
  obtain ⟨sorted, cached, mem_iff, length_eq⟩ := h
  have hlt : ∀ {i}, (hoursOf a.buckets)[i]? = some key → i < a.buckets.length := fun hi ↦ by
    have hlt := (List.getElem?_eq_some_iff.mp hi).1
    rwa [hoursOf, List.length_map] at hlt
  rw [Aggregator.bucketFor]
  by_cases hcache : (a.hasLast && a.lastKey == key) = true
  -- The cache has it.
  · rw [if_pos hcache]
    rw [Bool.and_eq_true, beq_iff_eq] at hcache
    have hat := cached hcache.1
    rw [hcache.2] at hat
    rw [if_pos ((mem_iff key).mp (List.mem_of_getElem? hat))]
    exact ⟨⟨sorted, cached, mem_iff, length_eq⟩, hlt hat, fun _ ↦ rfl⟩
  rw [if_neg hcache]
  dsimp only
  by_cases hat : isAt key (lowerBound key a.buckets) a.buckets = true
  -- The lower bound is it.
  · rw [if_pos hat, if_pos ((mem_iff key).mp ((isAt_lowerBound _ sorted).mp hat))]
    rw [isAt, beq_iff_eq, ← List.getElem?_map] at hat
    exact ⟨⟨sorted, fun _ ↦ hat, mem_iff, length_eq⟩, hlt hat, fun _ ↦ rfl⟩
  -- It is made at the lower bound.
  · have hnew : key ∉ hoursOf a.buckets := fun hmem ↦ hat ((isAt_lowerBound _ sorted).mpr hmem)
    rw [if_neg hat, if_neg (fun hmem ↦ hnew ((mem_iff key).mpr hmem))]
    obtain ⟨before, after, heq, hlen, hbefore, hafter⟩ := cut_lowerBound key sorted
    rw [← hlen]
    simp only [heq, List.take_left, List.drop_left]
    simp only [heq, hoursOf, List.map_append] at sorted hnew mem_iff length_eq
    rw [List.mem_append, not_or] at hnew
    have hstrict : ∀ e ∈ after, key < e.1 := fun e he ↦
      Nat.lt_of_le_of_ne (hafter e he) fun hkey ↦ hnew.2 (hkey ▸ List.mem_map_of_mem he)
    refine ⟨⟨?_, fun _ ↦ ?_, fun hour ↦ ?_, ?_⟩, ?_, fun m ↦ ?_⟩
    · rw [hoursOf, List.map_append, List.map_cons, List.pairwise_append, List.pairwise_cons]
      rw [List.pairwise_append] at sorted
      refine ⟨sorted.1, ⟨?_, sorted.2.1⟩, ?_⟩
      · simpa using hstrict
      · intro x hx y hy
        rcases List.mem_cons.mp hy with rfl | hy
        · obtain ⟨e, he, rfl⟩ := List.mem_map.mp hx
          exact hbefore e he
        · exact sorted.2.2 x hx y hy
    · rw [hoursOf, List.map_append, List.getElem?_append_right (by rw [List.length_map]),
        List.length_map, Nat.sub_self, List.map_cons, List.getElem?_cons_zero]
    · rw [hoursOf, List.map_append, List.map_cons, List.mem_append, List.mem_cons, List.mem_cons,
        ← mem_iff hour, List.mem_append]
      exact or_left_comm
    · rw [List.length_append] at length_eq
      rw [hoursOf, List.map_append, List.length_append, List.map_cons, List.length_cons,
        List.length_cons, ← length_eq, Nat.add_assoc]
    · rw [List.length_append, List.length_cons]
      omega
    · simp [inBuckets, BucketStat.empty]

private theorem hoursOf_countBucket (i : ℕ) (module : Module) (a : Aggregator D) :
    hoursOf (a.countBucket i module).buckets = hoursOf a.buckets := by
  rw [countBucket]
  dsimp only
  generalize a.buckets = buckets
  induction buckets generalizing i with
  | nil => cases i <;> rfl
  | cons e buckets ih =>
    cases i with
    | zero => rfl
    | succ i => exact congrArg (e.1 :: ·) (ih i)

/-- One more line in a bucket that is there. -/
theorem inBuckets_countBucket {i : ℕ} {a : Aggregator D} (hi : i < a.buckets.length)
    (module m : Module) :
    inBuckets m (a.countBucket i module).buckets
      = inBuckets m a.buckets + if module = m then 1 else 0 := by
  rw [countBucket]
  dsimp only
  generalize a.buckets = buckets at hi ⊢
  induction buckets generalizing i with
  | nil => exact absurd hi (Nat.not_lt_zero _)
  | cons e buckets ih =>
    cases i with
    | zero =>
      by_cases hm : module = m
      · subst hm
        simp only [inBuckets, List.modify_zero_cons, List.map_cons, List.sum_cons,
          Function.update_self, if_true]
        omega
      · simp only [inBuckets, List.modify_zero_cons, List.map_cons, List.sum_cons,
          Function.update_of_ne (Ne.symm hm), if_neg hm, Nat.add_zero]
    | succ i =>
      have htail := ih (Nat.lt_of_succ_lt_succ hi)
      simp only [inBuckets, List.modify_succ_cons, List.map_cons, List.sum_cons] at htail ⊢
      omega

/-- When `add_line` makes no bucket for a line. -/
theorem BucketsFit.refused_iff {hours : List ℕ} {a : Aggregator D} (h : BucketsFit hours a)
    (key : ℕ) :
    (decide (kMaxBuckets ≤ a.buckets.length) && !isAt key (lowerBound key a.buckets) a.buckets)
      = true
      ↔ key ∉ admitHour hours key := by
  have hlen : a.buckets.length = hours.length := by
    have hlen := h.length_eq
    rwa [hoursOf, List.length_map] at hlen
  rw [mem_admitHour_iff, not_or, Nat.not_lt, Bool.and_eq_true, decide_eq_true_iff,
    Bool.not_eq_true', ← Bool.not_eq_true, isAt_lowerBound key h.sorted, h.mem_iff, hlen]
  exact and_comm

/-! ## One accepted line -/

section Lines

variable [DoubleOps D]

theorem BucketsFit.addSpd {hours : List ℕ} {a : Aggregator D} (h : BucketsFit hours a) (v : D) :
    BucketsFit hours (a.addSpd v) := h.congr rfl rfl rfl rfl

theorem widenSpd_buckets (v : D) (a : Aggregator D) :
    (a.widenSpd v).buckets = a.buckets := by
  rw [widenSpd]
  split_ifs <;> rfl

theorem BucketsFit.widenSpd {hours : List ℕ} {a : Aggregator D} (h : BucketsFit hours a) (v : D) :
    BucketsFit hours (a.widenSpd v) := by
  rw [Aggregator.widenSpd]
  split_ifs <;> exact h.congr rfl rfl rfl rfl

/-- An accepted line is in a bucket after it is tallied, or it was not admitted. -/
theorem BucketsFit.tally {hours : List ℕ} {a : Aggregator D} (h : BucketsFit hours a)
    (p : ParsedLine D) :
    BucketsFit (admitHour hours p.bucket) (a.tally p) ∧
      ∀ m, inBuckets m (a.tally p).buckets = inBuckets m a.buckets
        + if p.bucket ∈ admitHour hours p.bucket ∧ p.module = m then 1 else 0 := by
  rw [Aggregator.tally]
  -- the table has the hour or room for it, or it is full
  by_cases hin : p.bucket ∈ admitHour hours p.bucket
  · have hroom := mt (h.refused_iff p.bucket).mp (not_not.mpr hin)
    have hhours : admitHour hours p.bucket
        = if p.bucket ∈ hours then hours else p.bucket :: hours := by
      rw [admitHour]
      split_ifs with hmem hlt
      · rfl
      · rfl
      · exact absurd (mem_admitHour_iff.mp hin) (by simp [hmem, hlt])
    obtain ⟨hfit, hindex, hsum⟩ := h.bucketFor p.bucket
    have hfit : BucketsFit (admitHour hours p.bucket)
        ((a.bucketFor p.bucket).2.countBucket (a.bucketFor p.bucket).1 p.module) := by
      rw [hhours]
      exact hfit.congr (hoursOf_countBucket ..) rfl rfl rfl
    have hsum : ∀ m, inBuckets m
        ((a.bucketFor p.bucket).2.countBucket (a.bucketFor p.bucket).1 p.module).buckets
          = inBuckets m a.buckets + if p.module = m then 1 else 0 := fun m ↦ by
      rw [inBuckets_countBucket hindex, hsum]
    simp only [hin, true_and]
    rw [if_neg hroom]
    split_ifs
    · exact ⟨(hfit.addSpd p.spd).widenSpd p.spd, fun m ↦ by rw [widenSpd_buckets]; exact hsum m⟩
    · exact ⟨hfit, hsum⟩
  · have hfull := (h.refused_iff p.bucket).mpr hin
    have hhours : admitHour hours p.bucket = hours := by
      rw [mem_admitHour_iff, not_or] at hin
      rw [admitHour, if_neg hin.1, if_neg hin.2]
    simp only [hin, false_and, if_false, Nat.add_zero]
    rw [if_pos hfull, hhours]
    split_ifs
    · exact ⟨h.addSpd p.spd, fun _ ↦ rfl⟩
    · exact ⟨h, fun _ ↦ rfl⟩

/-- The two aggregators agree on the modules of all lines and on the speeds. -/
structure SameCounts (a b : Aggregator D) : Prop where
  moduleTotals : b.moduleTotals = a.moduleTotals
  spdN : b.spdN = a.spdN
  sum : b.sum = a.sum
  comp : b.comp = a.comp

omit [DoubleOps D] in
theorem SameCounts.trans {a b c : Aggregator D} (h : SameCounts a b) (h' : SameCounts b c) :
    SameCounts a c :=
  ⟨h'.1.trans h.1, h'.2.trans h.2, h'.3.trans h.3, h'.4.trans h.4⟩

theorem SameCounts.addSpd {a b : Aggregator D} (h : SameCounts a b) (v : D) :
    SameCounts (a.addSpd v) (b.addSpd v) := by
  obtain ⟨hm, hn, hsum, hcomp⟩ := h
  constructor
  · exact hm
  · exact congrArg (· + 1) hn
  · rw [Aggregator.addSpd, Aggregator.addSpd, hsum, hcomp]
  · rw [Aggregator.addSpd, Aggregator.addSpd, hsum, hcomp]

private theorem sameCounts_widenSpd (v : D) (a : Aggregator D) : SameCounts a (a.widenSpd v) := by
  rw [widenSpd]
  split_ifs <;> exact ⟨rfl, rfl, rfl, rfl⟩

theorem sameCounts_tally (p : ParsedLine D) (a : Aggregator D) :
    SameCounts (if p.hasSpd then a.addSpd p.spd else a) (a.tally p) := by
  have hbucket : SameCounts a
      ((a.bucketFor p.bucket).2.countBucket (a.bucketFor p.bucket).1 p.module) := by
    rw [bucketFor]
    split_ifs <;> exact ⟨rfl, rfl, rfl, rfl⟩
  rw [tally]
  split_ifs
  · exact ⟨rfl, rfl, rfl, rfl⟩
  · exact (hbucket.addSpd p.spd).trans (sameCounts_widenSpd ..)
  · exact ⟨rfl, rfl, rfl, rfl⟩
  · exact hbucket

/-- What the compensated sum needs of an exact arithmetic. -/
structure ExactSums (D : Type) [DoubleOps D] : Prop where
  add_assoc : ∀ a b c : D, a + b + c = a + (b + c)
  add_comm : ∀ a b : D, a + b = b + a
  add_zero : ∀ a : D, a + DoubleOps.ofNat 0 = a
  sub_add : ∀ a b : D, a - (a + b) + b = DoubleOps.ofNat 0

private theorem exactSums_rat : ExactSums ℚ where
  add_assoc a b c := by ring
  add_comm a b := by ring
  add_zero a := by simp [DoubleOps.ofNat]
  sub_add a b := by simp [DoubleOps.ofNat]

theorem ExactSums.addSpd (h : ExactSums D) (v : D) (a : Aggregator D) :
    (a.addSpd v).spdSum = a.spdSum + v := by
  have hcancel : v - (a.sum + v) + a.sum = DoubleOps.ofNat 0 := by
    rw [h.add_comm a.sum, h.sub_add]
  rw [Aggregator.addSpd, neumaierAdd, spdSum, spdSum]
  dsimp only
  split_ifs
  · rw [h.sub_add, h.add_zero, h.add_assoc, h.add_comm v, ← h.add_assoc]
  · rw [hcancel, h.add_zero, h.add_assoc, h.add_comm v, ← h.add_assoc]

/-! ## All lines -/

/-- The fields of a line, if it is accepted. -/
def parsedOf (line : Bytes) : Option (ParsedLine D) :=
  match parseLogLine (D := D) line with
  | (.ok, p) => some p
  | _ => none

/-- The accepted lines. -/
def acceptedOf (calls : List (Bytes × ℕ)) : List (ParsedLine D) :=
  calls.filterMap fun c ↦ parsedOf c.1

theorem parsedOf_eq_some_iff {line : Bytes} {p : ParsedLine D} :
    parsedOf line = some p ↔ parseLogLine line = (.ok, p) := by
  rw [parsedOf]
  generalize parseLogLine (D := D) line = parsed
  obtain ⟨r, p'⟩ := parsed
  cases r <;> simp

theorem parsedOf_eq_none_iff {line : Bytes} :
    parsedOf (D := D) line = none ↔ reasonOf D line ≠ .ok := by
  rw [parsedOf, reasonOf]
  generalize parseLogLine (D := D) line = parsed
  obtain ⟨r, p'⟩ := parsed
  cases r <;> simp

theorem addLine_some {line : Bytes} {p : ParsedLine D} (h : parsedOf line = some p) (offset : ℕ)
    (a : Aggregator D) :
    a.addLine line offset
      = (countAccepted line p { a with totalLines := a.totalLines + 1 }).tally p := by
  rw [addLine, parsedOf_eq_some_iff.mp h]

theorem addLine_none {line : Bytes} (h : parsedOf (D := D) line = none) (offset : ℕ)
    (a : Aggregator D) :
    ∃ r token, a.addLine line offset
      = recordReject r line offset token { a with totalLines := a.totalLines + 1 } := by
  rw [parsedOf_eq_none_iff, reasonOf] at h
  rw [addLine]
  generalize parseLogLine (D := D) line = parsed at h ⊢
  obtain ⟨r, p⟩ := parsed
  cases r with
  | ok => exact absurd rfl h
  | _ => exact ⟨_, p.moduleToken, rfl⟩

theorem acceptedOf_cons_some {c : Bytes × ℕ} {p : ParsedLine D} (h : parsedOf c.1 = some p)
    (calls : List (Bytes × ℕ)) : acceptedOf (c :: calls) = p :: acceptedOf calls :=
  List.filterMap_cons_some h

theorem acceptedOf_cons_none {c : Bytes × ℕ} (h : parsedOf (D := D) c.1 = none)
    (calls : List (Bytes × ℕ)) : acceptedOf (D := D) (c :: calls) = acceptedOf calls :=
  List.filterMap_cons_none h

/-- The accepted lines are counted, as lines and by module. -/
theorem addLines_moduleTotals (calls : List (Bytes × ℕ)) (a : Aggregator D) :
    (a.addLines calls).acceptedLines = a.acceptedLines + (acceptedOf (D := D) calls).length ∧
      ∀ m, (a.addLines calls).moduleTotals m
        = a.moduleTotals m + (acceptedOf (D := D) calls).countP fun p ↦ p.module = m := by
  induction calls generalizing a with
  | nil => exact ⟨rfl, fun _ ↦ rfl⟩
  | cons c calls ih =>
    obtain ⟨hlen, hmodule⟩ := ih (a.addLine c.1 c.2)
    rw [addLines, List.foldl_cons, ← addLines]
    cases h : parsedOf (D := D) c.1 with
    | none =>
      obtain ⟨r, token, heq⟩ := addLine_none h c.2 a
      rw [acceptedOf_cons_none h]
      rw [heq] at hlen hmodule ⊢
      exact ⟨hlen, hmodule⟩
    | some p =>
      have hsame := sameDisposition_tally p
        (countAccepted c.1 p { a with totalLines := a.totalLines + 1 })
      have hcounts := (sameCounts_tally p
        (countAccepted c.1 p { a with totalLines := a.totalLines + 1 })).moduleTotals
      rw [acceptedOf_cons_some h, List.length_cons]
      rw [← addLine_some h c.2] at hsame hcounts
      have hadd : (a.addLine c.1 c.2).moduleTotals
          = Function.update a.moduleTotals p.module (a.moduleTotals p.module + 1) := by
        rw [hcounts]
        split_ifs <;> rfl
      refine ⟨?_, fun m ↦ ?_⟩
      · rw [hlen, hsame.acceptedLines]
        exact Nat.add_right_comm ..
      · rw [hmodule, hadd, List.countP_cons, Function.update_apply]
        by_cases hm : p.module = m
        · subst hm
          simp only [if_true, decide_true]
          omega
        · simp only [if_neg (Ne.symm hm), hm, decide_false, Bool.false_eq_true, if_false,
            Nat.add_zero]

/-- Every accepted line is in a bucket or turned away. -/
theorem addLines_inBuckets (calls : List (Bytes × ℕ)) {hours : List ℕ} {a : Aggregator D}
    (h : BucketsFit hours a) (m : Module) :
    inBuckets m (a.addLines calls).buckets
        + (turnedAway hours (acceptedOf (D := D) calls)).countP (fun p ↦ p.module = m)
      = inBuckets m a.buckets + (acceptedOf (D := D) calls).countP fun p ↦ p.module = m := by
  induction calls generalizing hours a with
  | nil => rfl
  | cons c calls ih =>
    rw [addLines, List.foldl_cons, ← addLines]
    cases hc : parsedOf (D := D) c.1 with
    | none =>
      obtain ⟨r, token, heq⟩ := addLine_none hc c.2 a
      rw [acceptedOf_cons_none hc, heq]
      exact ih (h.congr rfl rfl rfl rfl)
    | some p =>
      obtain ⟨hfit, hsum⟩ := (h.congr rfl rfl rfl rfl : BucketsFit hours
        (countAccepted c.1 p { a with totalLines := a.totalLines + 1 })).tally p
      rw [← addLine_some hc c.2] at hfit hsum
      have hsum : inBuckets m (a.addLine c.1 c.2).buckets = inBuckets m a.buckets
          + if p.bucket ∈ admitHour hours p.bucket ∧ p.module = m then 1 else 0 := hsum m
      have hrest := ih hfit
      rw [hsum] at hrest
      rw [acceptedOf_cons_some hc, turnedAway, List.countP_cons]
      -- a line whose hour is not admitted is in `turnedAway` instead, and the hours stay
      by_cases hin : p.bucket ∈ admitHour hours p.bucket
      · rw [if_pos hin]
        simp only [hin, true_and] at hrest
        simp only [decide_eq_true_eq]
        omega
      · have hhours : admitHour hours p.bucket = hours := by
          rw [mem_admitHour_iff, not_or] at hin
          rw [admitHour, if_neg hin.1, if_neg hin.2]
        rw [if_neg hin, List.countP_cons]
        rw [hhours] at hrest hin
        simp only [hin, false_and, if_false] at hrest
        simp only [decide_eq_true_eq]
        omega

/-- The speeds that go into the sum, in order. -/
def speedsOf (accepted : List (ParsedLine D)) : List D :=
  (accepted.filter fun p ↦ p.hasSpd).map ParsedLine.spd

theorem addLines_speeds (calls : List (Bytes × ℕ)) (a : Aggregator D) :
    (a.addLines calls).spdN = a.spdN + (acceptedOf (D := D) calls).countP (fun p ↦ p.hasSpd) ∧
      (ExactSums D → (a.addLines calls).spdSum
        = (speedsOf (acceptedOf calls)).foldl (· + ·) a.spdSum) := by
  induction calls generalizing a with
  | nil => exact ⟨rfl, fun _ ↦ rfl⟩
  | cons c calls ih =>
    obtain ⟨hn, hsum⟩ := ih (a.addLine c.1 c.2)
    rw [addLines, List.foldl_cons, ← addLines]
    -- a line that is rejected has no speed
    cases hc : parsedOf (D := D) c.1 with
    | none =>
      obtain ⟨r, token, heq⟩ := addLine_none hc c.2 a
      rw [acceptedOf_cons_none hc]
      rw [heq] at hn hsum ⊢
      exact ⟨hn, hsum⟩
    | some p =>
      obtain ⟨-, hn', hs, hcomp⟩ := sameCounts_tally p
        (countAccepted c.1 p { a with totalLines := a.totalLines + 1 })
      rw [← addLine_some hc c.2] at hn' hs hcomp
      have hspd : (a.addLine c.1 c.2).spdSum = spdSum (if p.hasSpd
          then (countAccepted c.1 p { a with totalLines := a.totalLines + 1 }).addSpd p.spd
          else countAccepted c.1 p { a with totalLines := a.totalLines + 1 }) := by
        rw [spdSum, hs, hcomp, spdSum]
      rw [acceptedOf_cons_some hc, speedsOf, List.filter_cons, List.countP_cons]
      by_cases hhas : p.hasSpd = true
      · rw [if_pos hhas] at hn' hspd ⊢
        rw [if_pos hhas, List.map_cons, List.foldl_cons, ← speedsOf]
        refine ⟨?_, fun hexact ↦ ?_⟩
        · rw [hn, hn']
          simp only [addSpd, countAccepted]
          omega
        · rw [hsum hexact, hspd, hexact.addSpd]
          rfl
      · rw [if_neg hhas] at hn' hspd ⊢
        rw [if_neg hhas, ← speedsOf]
        refine ⟨?_, fun hexact ↦ ?_⟩
        · rw [hn, hn']
          rfl
        · rw [hsum hexact, hspd]
          rfl

private theorem addLine_corrupt_ok (line : Bytes) (offset : ℕ) (a : Aggregator D) :
    (a.addLine line offset).corrupt .ok = a.corrupt .ok := by
  by_cases h : reasonOf D line = .ok
  · rw [(addLine_ok h offset a).2.2.2]
  · rw [(addLine_reject rfl h offset a).2.2.2, Function.update_of_ne (Ne.symm h)]

private theorem addLines_corrupt_ok (calls : List (Bytes × ℕ)) (a : Aggregator D) :
    (a.addLines calls).corrupt .ok = a.corrupt .ok := by
  induction calls generalizing a with
  | nil => rfl
  | cons c calls ih =>
    rw [addLines, List.foldl_cons, ← addLines, ih, addLine_corrupt_ok]

omit [DoubleOps D] in
/-- Every line has one module. -/
theorem sum_countP_module (accepted : List (ParsedLine D)) :
    (Module.all.map fun m ↦ accepted.countP fun p ↦ p.module = m).sum = accepted.length := by
  induction accepted with
  | nil => rfl
  | cons p accepted ih =>
    rw [List.length_cons, ← ih]
    simp only [Module.all, List.countP_cons, List.map_cons, List.map_nil, List.sum_cons,
      List.sum_nil, decide_eq_true_eq]
    cases p.module <;> simp <;> omega

/-- What the counters are after the lines of `calls`. -/
structure Tallied (calls : List (Bytes × ℕ)) (a : Aggregator D) : Prop where
  totalLines : a.totalLines = calls.length
  acceptedLines : a.acceptedLines = (acceptedOf (D := D) calls).length
  disposed : a.totalLines
    = a.acceptedLines + (Reason.rejections.map fun r ↦ (a.corrupt r).count).sum
  corrupt_ok : (a.corrupt .ok).count = 0
  moduleTotals_sum : (Module.all.map a.moduleTotals).sum = a.acceptedLines
  moduleTotals : ∀ m, a.moduleTotals m = inBuckets m a.buckets
    + (turnedAway [] (acceptedOf (D := D) calls)).countP fun p ↦ p.module = m
  spdN : a.spdN = (acceptedOf (D := D) calls).countP fun p ↦ p.hasSpd
  spdSum : ExactSums D →
    a.spdSum = (speedsOf (acceptedOf calls)).foldl (· + ·) (DoubleOps.ofNat 0)

/-- **No line is miscounted**, whatever lines an aggregator is given after it was made or reset. -/
theorem tallied_addLines (a : Aggregator D) (calls : List (Bytes × ℕ)) :
    Tallied calls (a.reset.addLines calls) := by
  obtain ⟨htotal, hdisposed, -⟩ := addLines_disposed calls a.reset
  obtain ⟨haccepted, hmodule⟩ := addLines_moduleTotals calls a.reset
  obtain ⟨hspdN, hspdSum⟩ := addLines_speeds calls a.reset
  rw [show a.reset.totalLines = 0 from rfl, Nat.zero_add] at htotal
  rw [show a.reset.disposed = 0 from disposed_empty, Nat.zero_add] at hdisposed
  rw [show a.reset.acceptedLines = 0 from rfl, Nat.zero_add] at haccepted
  rw [show a.reset.spdN = 0 from rfl, Nat.zero_add] at hspdN
  have hmodule : ∀ m, (a.reset.addLines calls).moduleTotals m
      = (acceptedOf (D := D) calls).countP fun p ↦ p.module = m := fun m ↦
    (hmodule m).trans (Nat.zero_add _)
  refine ⟨htotal, haccepted, ?_, ?_, ?_, fun m ↦ ?_, hspdN, fun hexact ↦ ?_⟩
  · rw [htotal, ← hdisposed, disposed]
  · rw [addLines_corrupt_ok]
    rfl
  · rw [haccepted, ← sum_countP_module, funext hmodule]
  · have hbuckets := addLines_inBuckets calls (bucketsFit_empty (D := D)) m
    calc (a.reset.addLines calls).moduleTotals m
      _ = (acceptedOf (D := D) calls).countP fun p ↦ p.module = m := hmodule m
      _ = 0 + (acceptedOf (D := D) calls).countP fun p ↦ p.module = m := (Nat.zero_add _).symm
      _ = _ := hbuckets.symm
  · rw [hspdSum hexact, show a.reset.spdSum = DoubleOps.ofNat 0 from hexact.add_zero _]

end Lines

/-- Over the rational numbers the compensated sum is the sum. -/
theorem spdSum_rat (a : Aggregator ℚ) (calls : List (Bytes × ℕ)) :
    (a.reset.addLines calls).spdSum = (speedsOf (acceptedOf calls)).sum := by
  have hzero : a.reset.spdSum = 0 := (exactSums_rat.add_zero _).trans Nat.cast_zero
  rw [(addLines_speeds calls a.reset).2 exactSums_rat, hzero, List.sum_eq_foldl]

end Aggregator

end LoggerAnalyzer
