import LoggerAnalyzer.Analyze.BucketKey
import LoggerAnalyzer.Parse.Speed
import LoggerAnalyzer.Stream.Least

/-!
# The lowest and the highest speed

The speeds of all accepted lines are counted and summed up, but the speed of a line that is turned
away is not compared with the extremes. When it is the first speed of all, the extremes are not set
either: they keep the zero they have from the beginning, and the speeds that follow are compared
with that. `comparedSpeeds` are the values that the extremes come from, and `spdRange_iff` says when
these are the extremes of all speeds.
-/

namespace LoggerAnalyzer

/-- `<` orders the numbers that are finite. -/
class OrdersFinite (D : Type) [DoubleOps D] : Prop where
  orders : OrdersOn (fun x : D ↦ DoubleOps.isfinite x = true) DoubleOps.lt
  isfinite_zero : DoubleOps.isfinite (DoubleOps.ofNat 0 : D) = true

instance : OrdersFinite ℚ where
  orders :=
    { asymm := fun _ _ hlt ↦ by
        rw [DoubleOps.lt, instDoubleOpsRat, decide_eq_true_eq] at hlt
        exact decide_eq_false (not_lt_of_gt hlt)
      trans := fun _ _ _ hab hbc ↦ by
        rw [DoubleOps.lt, instDoubleOpsRat, decide_eq_false_iff_not, not_lt] at hab hbc
        exact decide_eq_false (not_lt_of_ge (le_trans hab hbc)) }
  isfinite_zero := rfl

namespace Aggregator

variable {D : Type} [DoubleOps D]

/-- `m` is the minimum of the speeds. -/
abbrev Lowest (m : D) (speeds : List D) : Prop := Least DoubleOps.lt m speeds

/-- `m` is the maximum of the speeds. -/
abbrev Highest (m : D) (speeds : List D) : Prop := Least (fun x y ↦ DoubleOps.lt y x) m speeds

/-! ## What is compared -/

omit [DoubleOps D] in
theorem mem_speedsOf {accepted : List (ParsedLine D)} {v : D} :
    v ∈ speedsOf accepted ↔ ∃ p ∈ accepted, p.hasSpd = true ∧ p.spd = v := by
  simp only [speedsOf, List.mem_map, List.mem_filter, and_assoc]

/-- Whether the first speed is that of a line which is turned away. -/
def firstTurnedAway (accepted : List (ParsedLine D)) : Bool :=
  (accepted.find? fun p ↦ p.hasSpd).any fun p ↦ p.bucket ∉ tableHours accepted

/-- The values that the extremes come from. -/
def comparedSpeeds (accepted : List (ParsedLine D)) : List D :=
  (if firstTurnedAway accepted then [DoubleOps.ofNat 0] else []) ++
    speedsOf (accepted.filter fun p ↦ p.bucket ∈ tableHours accepted)

theorem comparedSpeeds_of_nil {accepted : List (ParsedLine D)} (h : speedsOf accepted = []) :
    comparedSpeeds accepted = [] := by
  have hnone : ∀ p ∈ accepted, ¬ p.hasSpd = true := fun p hp hspd ↦ by
    have hmem := mem_speedsOf.mpr ⟨p, hp, hspd, rfl⟩
    rw [h] at hmem
    exact absurd hmem List.not_mem_nil
  rw [comparedSpeeds, firstTurnedAway, List.find?_eq_none.mpr hnone, speedsOf,
    List.filter_eq_nil_iff.mpr fun p hp ↦ hnone p (List.mem_of_mem_filter hp)]
  rfl

private theorem comparedSpeeds_concat (accepted : List (ParsedLine D)) (p : ParsedLine D) :
    comparedSpeeds (accepted ++ [p]) = comparedSpeeds accepted ++
      if p.hasSpd then
        if p.bucket ∈ tableHours (accepted ++ [p]) then [p.spd]
        else if speedsOf accepted = [] then [DoubleOps.ofNat 0] else []
      else [] := by
  -- one more line takes no hour out of the table
  have hstable : ∀ q ∈ accepted,
      (q.bucket ∈ tableHours (accepted ++ [p]) ↔ q.bucket ∈ tableHours accepted) := fun q hq ↦ by
    rw [tableHours, List.map_append]
    exact mem_firstDistinct_concat (List.mem_map_of_mem hq) p.bucket
  have hkept : (accepted.filter fun q ↦ q.bucket ∈ tableHours (accepted ++ [p]))
      = accepted.filter fun q ↦ q.bucket ∈ tableHours accepted :=
    List.filter_congr fun q hq ↦ decide_eq_decide.mpr (hstable q hq)
  have hspeeds : ∀ qs : List (ParsedLine D), speedsOf (accepted.filter (fun q ↦
      q.bucket ∈ tableHours accepted) ++ qs) = speedsOf (accepted.filter fun q ↦
      q.bucket ∈ tableHours accepted) ++ speedsOf qs := fun qs ↦ by
    rw [speedsOf, List.filter_append, List.map_append]
    rfl
  have hlast : speedsOf ([p].filter fun q ↦ q.bucket ∈ tableHours (accepted ++ [p]))
      = if p.hasSpd then
          if p.bucket ∈ tableHours (accepted ++ [p]) then [p.spd] else []
        else [] := by
    by_cases hin : p.bucket ∈ tableHours (accepted ++ [p])
    · cases hspd : p.hasSpd <;> simp [speedsOf, hin, hspd]
    · simp [speedsOf, hin]
  -- whether this is the first speed decides if the zero of the beginning is compared
  cases hfirst : accepted.find? fun p ↦ p.hasSpd with
  | some q =>
    have hq := List.mem_of_find?_eq_some hfirst
    have hsome : speedsOf accepted ≠ [] :=
      List.ne_nil_of_mem (mem_speedsOf.mpr ⟨q, hq, List.find?_some hfirst, rfl⟩)
    rw [comparedSpeeds, comparedSpeeds, List.filter_append, hkept, hspeeds, hlast, firstTurnedAway,
      firstTurnedAway, List.find?_append, hfirst, Option.some_or, Option.any_some, Option.any_some,
      decide_eq_decide.mpr (not_congr (hstable q hq)), List.append_assoc, if_neg hsome]
  | none =>
    have hnil : speedsOf accepted = [] := by
      rw [speedsOf, List.filter_eq_nil_iff.mpr (List.find?_eq_none.mp hfirst), List.map_nil]
    rw [comparedSpeeds_of_nil hnil, if_pos hnil, List.nil_append, comparedSpeeds,
      List.filter_append, hkept, hspeeds, hlast, firstTurnedAway, List.find?_append, hfirst,
      Option.none_or]
    have hkeptNil : speedsOf (accepted.filter fun q ↦ q.bucket ∈ tableHours accepted) = [] := by
      have hcompared := comparedSpeeds_of_nil hnil
      rw [comparedSpeeds, List.append_eq_nil_iff] at hcompared
      exact hcompared.2
    rw [hkeptNil]
    by_cases hspd : p.hasSpd = true
    · by_cases hin : p.bucket ∈ tableHours (accepted ++ [p])
      · simp [hspd, hin]
      · simp [hspd, hin]
    · simp [hspd]

/-! ## One accepted line -/

/-- What happens to the extremes when a speed is compared. -/
theorem widenSpd_addSpd (v : D) (a : Aggregator D) :
    ((a.addSpd v).widenSpd v).spdMin
        = (if a.spdN = 0 then v else if DoubleOps.lt v a.spdMin then v else a.spdMin) ∧
      ((a.addSpd v).widenSpd v).spdMax
        = (if a.spdN = 0 then v else if DoubleOps.lt a.spdMax v then v else a.spdMax) := by
  have hn : (a.addSpd v).spdN = 1 ↔ a.spdN = 0 := Nat.succ_inj
  rw [widenSpd]
  by_cases hzero : a.spdN = 0
  · rw [if_pos (hn.mpr hzero), if_pos hzero, if_pos hzero]
    exact ⟨rfl, rfl⟩
  · rw [if_neg (mt hn.mp hzero), if_neg hzero, if_neg hzero]
    exact ⟨rfl, rfl⟩

/-- What an accepted line does to the extremes. -/
theorem BucketsFit.tally_extremes {hours : List ℕ} {a : Aggregator D} (h : BucketsFit hours a)
    (p : ParsedLine D) :
    ((a.tally p).spdMin, (a.tally p).spdMax) =
      if p.hasSpd ∧ p.bucket ∈ admitHour hours p.bucket then
        (if a.spdN = 0 then p.spd else if DoubleOps.lt p.spd a.spdMin then p.spd else a.spdMin,
          if a.spdN = 0 then p.spd else if DoubleOps.lt a.spdMax p.spd then p.spd else a.spdMax)
      else (a.spdMin, a.spdMax) := by
  have hbucket : ((a.bucketFor p.bucket).2.countBucket (a.bucketFor p.bucket).1 p.module).spdN
        = a.spdN ∧
      ((a.bucketFor p.bucket).2.countBucket (a.bucketFor p.bucket).1 p.module).spdMin = a.spdMin ∧
      ((a.bucketFor p.bucket).2.countBucket (a.bucketFor p.bucket).1 p.module).spdMax
        = a.spdMax := by
    rw [Aggregator.bucketFor]
    split_ifs <;> exact ⟨rfl, rfl, rfl⟩
  obtain ⟨hn, hmin, hmax⟩ := hbucket
  rw [Aggregator.tally]
  by_cases hin : p.bucket ∈ admitHour hours p.bucket
  · rw [if_neg (mt (h.refused_iff p.bucket).mp (not_not.mpr hin))]
    by_cases hspd : p.hasSpd = true
    · rw [if_pos hspd, if_pos ⟨hspd, hin⟩]
      obtain ⟨hlow, hhigh⟩ := widenSpd_addSpd p.spd
        ((a.bucketFor p.bucket).2.countBucket (a.bucketFor p.bucket).1 p.module)
      rw [hlow, hhigh, hn, hmin, hmax]
    · rw [if_neg hspd, if_neg fun hboth ↦ hspd hboth.1, hmin, hmax]
  · have hnot : ¬ (p.hasSpd = true ∧ p.bucket ∈ admitHour hours p.bucket) := fun hboth ↦ hin hboth.2
    rw [if_pos ((h.refused_iff p.bucket).mpr hin), if_neg hnot]
    split_ifs <;> rfl

/-- An accepted line has a speed in range, if it has one. -/
theorem range_of_parsedOf {line : Bytes} {p : ParsedLine D} (h : parsedOf line = some p)
    (hspd : p.hasSpd = true) :
    DoubleOps.isfinite p.spd = true ∧ DoubleOps.lt p.spd (DoubleOps.ofNat 0) = false := by
  obtain ⟨header, payload, -, rfl⟩ := parseLogLine_eq_ok_iff.mp (parsedOf_eq_some_iff.mp h)
  obtain ⟨v, hv⟩ := Option.isSome_iff_exists.mp hspd
  have hvalue : (header.parsed payload : ParsedLine D).spd = v := by
    rw [LogHeader.parsed, hv]
    rfl
  obtain ⟨hfinite, hmin, -⟩ := range_of_findSpd hv
  rw [hvalue]
  exact ⟨hfinite, hmin⟩

/-! ## All lines -/

/-- The lines have speeds in range. -/
def SpeedsInRange (accepted : List (ParsedLine D)) : Prop :=
  ∀ p ∈ accepted, p.hasSpd = true →
    DoubleOps.isfinite p.spd = true ∧ DoubleOps.lt p.spd (DoubleOps.ofNat 0) = false

theorem speedsInRange_acceptedOf (calls : List (Bytes × ℕ)) :
    SpeedsInRange (acceptedOf (D := D) calls) := by
  intro p hp
  obtain ⟨c, -, hc⟩ := List.mem_filterMap.mp hp
  exact range_of_parsedOf hc

theorem isfinite_of_mem_comparedSpeeds [OrdersFinite D] {accepted : List (ParsedLine D)}
    (h : SpeedsInRange accepted) : ∀ v ∈ comparedSpeeds accepted, DoubleOps.isfinite v = true := by
  intro v hv
  rw [comparedSpeeds, List.mem_append] at hv
  rcases hv with hzero | hspeed
  · split_ifs at hzero
    · rw [List.mem_singleton.mp hzero]
      exact OrdersFinite.isfinite_zero
    · exact absurd hzero List.not_mem_nil
  · obtain ⟨p, hp, hspd, rfl⟩ := mem_speedsOf.mp hspeed
    exact (h p (List.mem_of_mem_filter hp) hspd).1

/-- The extremes are those of the values that were compared. Before the first speed they are zero.
-/
structure RangeOf (accepted : List (ParsedLine D)) (a : Aggregator D) : Prop where
  fit : BucketsFit (tableHours accepted) a
  spdN : a.spdN = 0 ↔ speedsOf accepted = []
  unset : a.spdN = 0 → a.spdMin = DoubleOps.ofNat 0 ∧ a.spdMax = DoubleOps.ofNat 0
  finite : DoubleOps.isfinite a.spdMin = true ∧ DoubleOps.isfinite a.spdMax = true
  extremes : a.spdN ≠ 0 →
    Lowest a.spdMin (comparedSpeeds accepted) ∧ Highest a.spdMax (comparedSpeeds accepted)

private theorem rangeOf_empty [OrdersFinite D] : RangeOf [] (empty : Aggregator D) where
  fit := bucketsFit_empty
  spdN := iff_of_true rfl rfl
  unset _ := ⟨rfl, rfl⟩
  finite := ⟨OrdersFinite.isfinite_zero, OrdersFinite.isfinite_zero⟩
  extremes h := absurd rfl h

theorem RangeOf.congr {accepted : List (ParsedLine D)} {a b : Aggregator D} (h : RangeOf accepted a)
    (hfit : BucketsFit (tableHours accepted) b) (spdN : b.spdN = a.spdN)
    (spdMin : b.spdMin = a.spdMin) (spdMax : b.spdMax = a.spdMax) : RangeOf accepted b := by
  obtain ⟨-, hspdN, unset, finite, extremes⟩ := h
  constructor
  · exact hfit
  · rwa [spdN]
  · rwa [spdN, spdMin, spdMax]
  · rwa [spdMin, spdMax]
  · rwa [spdN, spdMin, spdMax]

private theorem isfinite_ite {c : Prop} [Decidable c] {x y : D} (hx : DoubleOps.isfinite x = true)
    (hy : DoubleOps.isfinite y = true) : DoubleOps.isfinite (if c then x else y) = true := by
  split_ifs
  · exact hx
  · exact hy

/-- **One accepted line.** -/
theorem RangeOf.tally [OrdersFinite D] {accepted : List (ParsedLine D)} {a : Aggregator D}
    (h : RangeOf accepted a) {p : ParsedLine D} (hrange : SpeedsInRange (accepted ++ [p])) :
    RangeOf (accepted ++ [p]) (a.tally p) := by
  obtain ⟨fit, hspdN, unset, finite, extremes⟩ := h
  obtain ⟨hmem, hlen⟩ := admitHour_tableHours accepted p
  have hfit := (fit.tally p).1.congr_hours hmem hlen
  have hold := fit.tally_extremes p
  have hcompared := comparedSpeeds_concat accepted p
  have hfinite := isfinite_of_mem_comparedSpeeds fun q hq ↦ hrange q (List.mem_append_left _ hq)
  simp only [hmem] at hold
  by_cases hspd : p.hasSpd = true
  swap
  -- No speed.
  · have hsame : (a.tally p).spdN = a.spdN := by
      rw [(sameCounts_tally p a).spdN, if_neg hspd]
    have hspeeds : speedsOf (accepted ++ [p]) = speedsOf accepted := by
      rw [speedsOf, List.filter_append, List.filter_cons_of_neg hspd, List.filter_nil,
        List.append_nil]
      rfl
    rw [if_neg fun hboth ↦ hspd hboth.1] at hold
    obtain ⟨hmin, hmax⟩ := Prod.mk.inj hold
    rw [if_neg hspd, List.append_nil] at hcompared
    rw [← hcompared] at extremes
    rw [← hspeeds] at hspdN
    constructor
    · exact hfit
    · rwa [hsame]
    · rwa [hsame, hmin, hmax]
    · rwa [hmin, hmax]
    · rwa [hsame, hmin, hmax]
  have hnew := hrange p (by simp) hspd
  have hcount : (a.tally p).spdN = a.spdN + 1 := by
    rw [(sameCounts_tally p a).spdN, if_pos hspd]
    rfl
  have hspeeds : speedsOf (accepted ++ [p]) ≠ [] :=
    List.ne_nil_of_mem (mem_speedsOf.mpr ⟨p, by simp, hspd, rfl⟩)
  have hspdN' : (a.tally p).spdN = 0 ↔ speedsOf (accepted ++ [p]) = [] :=
    iff_of_false (by omega) hspeeds
  rw [if_pos hspd] at hcompared
  by_cases hin : p.bucket ∈ tableHours (accepted ++ [p])
  -- A speed that is compared.
  · rw [if_pos ⟨hspd, hin⟩] at hold
    obtain ⟨hmin, hmax⟩ := Prod.mk.inj hold
    rw [if_pos hin] at hcompared
    refine ⟨hfit, hspdN', fun hzero ↦ by omega, ?_, fun _ ↦ ?_⟩
    · rw [hmin, hmax]
      exact ⟨isfinite_ite hnew.1 (isfinite_ite hnew.1 finite.1),
        isfinite_ite hnew.1 (isfinite_ite hnew.1 finite.2)⟩
    · rw [hmin, hmax, hcompared]
      by_cases hzero : a.spdN = 0
      · rw [if_pos hzero, if_pos hzero, comparedSpeeds_of_nil (hspdN.mp hzero), List.nil_append]
        exact ⟨.singleton OrdersFinite.orders hnew.1, .singleton OrdersFinite.orders.swap hnew.1⟩
      · obtain ⟨hlow, hhigh⟩ := extremes hzero
        rw [if_neg hzero, if_neg hzero]
        exact ⟨hlow.concat OrdersFinite.orders finite.1 hnew.1 hfinite,
          hhigh.concat OrdersFinite.orders.swap finite.2 hnew.1 hfinite⟩
  -- A speed that is not compared.
  · rw [if_neg fun hboth ↦ hin hboth.2] at hold
    obtain ⟨hmin, hmax⟩ := Prod.mk.inj hold
    rw [if_neg hin] at hcompared
    refine ⟨hfit, hspdN', fun hzero ↦ by omega, by rwa [hmin, hmax], fun _ ↦ ?_⟩
    rw [hmin, hmax, hcompared]
    by_cases hzero : a.spdN = 0
    · obtain ⟨hmin₀, hmax₀⟩ := unset hzero
      rw [if_pos (hspdN.mp hzero), hmin₀, hmax₀, comparedSpeeds_of_nil (hspdN.mp hzero),
        List.nil_append]
      exact ⟨.singleton OrdersFinite.orders OrdersFinite.isfinite_zero,
        .singleton OrdersFinite.orders.swap OrdersFinite.isfinite_zero⟩
    · rw [if_neg (mt hspdN.mpr hzero), List.append_nil]
      exact extremes hzero

theorem RangeOf.addLines [OrdersFinite D] {accepted : List (ParsedLine D)} {a : Aggregator D}
    (h : RangeOf accepted a) {calls : List (Bytes × ℕ)}
    (hrange : SpeedsInRange (accepted ++ acceptedOf calls)) :
    RangeOf (accepted ++ acceptedOf calls) (a.addLines calls) := by
  induction calls generalizing accepted a with
  | nil => rwa [acceptedOf, List.filterMap_nil, List.append_nil]
  | cons c calls ih =>
    rw [Aggregator.addLines, List.foldl_cons, ← Aggregator.addLines]
    cases hc : parsedOf (D := D) c.1 with
    | none =>
      obtain ⟨r, token, heq⟩ := addLine_none hc c.2 a
      rw [acceptedOf_cons_none hc] at hrange ⊢
      rw [heq]
      exact ih (h.congr (h.fit.congr rfl rfl rfl rfl) rfl rfl rfl) hrange
    | some p =>
      rw [acceptedOf_cons_some hc, ← List.singleton_append, ← List.append_assoc] at hrange ⊢
      rw [addLine_some hc]
      have hcounted : RangeOf accepted
          (countAccepted c.1 p { a with totalLines := a.totalLines + 1 }) :=
        h.congr (h.fit.congr rfl rfl rfl rfl) rfl rfl rfl
      exact ih (hcounted.tally fun q hq ↦ hrange q (List.mem_append_left _ hq)) hrange

/-! ## When the extremes are right -/

/-- The values that are compared cover the speeds: no speed of a line that is turned away is outside
of them, and the zero, if it is one of them, is a speed. -/
structure ComparedCovers (accepted : List (ParsedLine D)) : Prop where
  turnedAway : ∀ p ∈ accepted, p.hasSpd = true → p.bucket ∉ tableHours accepted →
    (∃ x ∈ comparedSpeeds accepted, DoubleOps.lt p.spd x = false) ∧
      ∃ x ∈ comparedSpeeds accepted, DoubleOps.lt x p.spd = false
  zero : firstTurnedAway accepted = true →
    ∃ v ∈ speedsOf accepted, DoubleOps.lt (DoubleOps.ofNat 0) v = false

/-- A value that is compared is a speed, or it is the zero. -/
theorem mem_comparedSpeeds {accepted : List (ParsedLine D)} {x : D}
    (h : x ∈ comparedSpeeds accepted) :
    x ∈ speedsOf accepted ∨ firstTurnedAway accepted = true ∧ x = DoubleOps.ofNat 0 := by
  rw [comparedSpeeds, List.mem_append] at h
  rcases h with hzero | hspeed
  · split_ifs at hzero with hfirst
    · exact .inr ⟨hfirst, List.mem_singleton.mp hzero⟩
    · exact absurd hzero List.not_mem_nil
  · obtain ⟨p, hp, hspd, rfl⟩ := mem_speedsOf.mp hspeed
    exact .inl (mem_speedsOf.mpr ⟨p, List.mem_of_mem_filter hp, hspd, rfl⟩)

private theorem mem_comparedSpeeds_of_table {accepted : List (ParsedLine D)} {p : ParsedLine D}
    (hp : p ∈ accepted) (hspd : p.hasSpd = true) (hin : p.bucket ∈ tableHours accepted) :
    p.spd ∈ comparedSpeeds accepted :=
  List.mem_append_right _ (mem_speedsOf.mpr
    ⟨p, List.mem_filter.mpr ⟨hp, decide_eq_true hin⟩, hspd, rfl⟩)

private theorem zero_mem_comparedSpeeds {accepted : List (ParsedLine D)}
    (h : firstTurnedAway accepted = true) : DoubleOps.ofNat 0 ∈ comparedSpeeds accepted := by
  rw [comparedSpeeds, if_pos h]
  exact List.mem_append_left _ (List.mem_singleton_self _)

theorem RangeOf.covers_iff [OrdersFinite D] {accepted : List (ParsedLine D)} {a : Aggregator D}
    (h : RangeOf accepted a) (hn : a.spdN ≠ 0) (hrange : SpeedsInRange accepted) :
    Lowest a.spdMin (speedsOf accepted) ∧ Highest a.spdMax (speedsOf accepted) ↔
      ComparedCovers accepted := by
  obtain ⟨hlow, hhigh⟩ := h.extremes hn
  have hcompared := isfinite_of_mem_comparedSpeeds hrange
  have hspeeds : ∀ v ∈ speedsOf accepted, DoubleOps.isfinite v = true := fun v hv ↦ by
    obtain ⟨p, hp, hspd, rfl⟩ := mem_speedsOf.mp hv
    exact (hrange p hp hspd).1
  have horders := OrdersFinite.orders (D := D)
  obtain ⟨v₀, hv₀⟩ := List.exists_mem_of_ne_nil _ (mt h.spdN.mpr hn)
  have hv₀' : DoubleOps.lt v₀ (DoubleOps.ofNat 0) = false := by
    obtain ⟨p, hp, hspd, rfl⟩ := mem_speedsOf.mp hv₀
    exact (hrange p hp hspd).2
  refine (and_congr (hlow.least_iff horders h.finite.1 hcompared hspeeds)
    (hhigh.least_iff horders.swap h.finite.2 hcompared hspeeds)).trans ?_
  constructor
  · rintro ⟨⟨hbelow, v, hv, hall⟩, habove, -⟩
    refine ⟨fun p hp hspd _ ↦ ?_, fun hfirst ↦ ⟨v, hv, hall _ (zero_mem_comparedSpeeds hfirst)⟩⟩
    have hmem := mem_speedsOf.mpr ⟨p, hp, hspd, rfl⟩
    exact ⟨hbelow _ hmem, habove _ hmem⟩
  · rintro ⟨hturned, hzero⟩
    have hself : ∀ v ∈ speedsOf accepted,
        (∃ x ∈ comparedSpeeds accepted, DoubleOps.lt v x = false) ∧
        ∃ x ∈ comparedSpeeds accepted, DoubleOps.lt x v = false := fun v hv ↦ by
      obtain ⟨p, hp, hspd, rfl⟩ := mem_speedsOf.mp hv
      by_cases hin : p.bucket ∈ tableHours accepted
      · have hmem := mem_comparedSpeeds_of_table hp hspd hin
        have hirrefl := horders.irrefl (hrange p hp hspd).1
        exact ⟨⟨_, hmem, hirrefl⟩, _, hmem, hirrefl⟩
      · exact hturned p hp hspd hin
    refine ⟨⟨fun v hv ↦ (hself v hv).1, ?_⟩, fun v hv ↦ (hself v hv).2, ?_⟩
    -- The least of what was compared is a speed, or the zero that some speed is not above.
    · obtain ⟨x, hx, hattained⟩ := hlow.attained
      have hleast : ∀ y ∈ comparedSpeeds accepted, DoubleOps.lt y x = false := fun y hy ↦
        horders.trans (hcompared x hx) h.finite.1 (hcompared y hy) hattained (hlow.le y hy)
      rcases mem_comparedSpeeds hx with hspeed | ⟨hfirst, rfl⟩
      · exact ⟨x, hspeed, hleast⟩
      · obtain ⟨v, hv, hle⟩ := hzero hfirst
        exact ⟨v, hv, fun y hy ↦ horders.trans (hspeeds v hv) (hcompared _ hx) (hcompared y hy) hle
          (hleast y hy)⟩
    -- The greatest is a speed, or the zero that no speed is below.
    · obtain ⟨x, hx, hattained⟩ := hhigh.attained
      have hgreatest : ∀ y ∈ comparedSpeeds accepted, DoubleOps.lt x y = false := fun y hy ↦
        horders.swap.trans (hcompared x hx) h.finite.2 (hcompared y hy) hattained (hhigh.le y hy)
      rcases mem_comparedSpeeds hx with hspeed | ⟨-, rfl⟩
      · exact ⟨x, hspeed, hgreatest⟩
      · exact ⟨v₀, hv₀, fun y hy ↦ horders.swap.trans (hspeeds v₀ hv₀) (hcompared _ hx)
          (hcompared y hy) hv₀' (hgreatest y hy)⟩

theorem rangeOf_addLines [OrdersFinite D] (a : Aggregator D) (calls : List (Bytes × ℕ)) :
    RangeOf (acceptedOf calls) (a.reset.addLines calls) :=
  RangeOf.addLines (a := a.reset) rangeOf_empty (speedsInRange_acceptedOf calls)

/-- **When the extremes are those of all speeds**: exactly when the values that are compared cover
the speeds. -/
theorem spdRange_iff [OrdersFinite D] (a : Aggregator D) (calls : List (Bytes × ℕ))
    (hn : 0 < (a.reset.addLines calls).spdN) :
    Lowest (a.reset.addLines calls).spdMin (speedsOf (acceptedOf calls)) ∧
        Highest (a.reset.addLines calls).spdMax (speedsOf (acceptedOf calls)) ↔
      ComparedCovers (acceptedOf (D := D) calls) :=
  (rangeOf_addLines a calls).covers_iff (Nat.ne_of_gt hn) (speedsInRange_acceptedOf calls)

/-- One line. -/
theorem spdRange_iff_line :
    Lowest (Aggregator.empty.reset.addLines [(ascii
          "[2024-05-01_13:20:31.123456][1][2][3] BYDA::RadarTrackNodeState: spd[5]", 0)]).spdMin
        (speedsOf (acceptedOf (D := ℚ) [(ascii
          "[2024-05-01_13:20:31.123456][1][2][3] BYDA::RadarTrackNodeState: spd[5]", 0)])) ∧
      Highest (Aggregator.empty.reset.addLines [(ascii
          "[2024-05-01_13:20:31.123456][1][2][3] BYDA::RadarTrackNodeState: spd[5]", 0)]).spdMax
        (speedsOf (acceptedOf (D := ℚ) [(ascii
          "[2024-05-01_13:20:31.123456][1][2][3] BYDA::RadarTrackNodeState: spd[5]", 0)])) ↔
      ComparedCovers (acceptedOf (D := ℚ) [(ascii
          "[2024-05-01_13:20:31.123456][1][2][3] BYDA::RadarTrackNodeState: spd[5]", 0)]) :=
  spdRange_iff (D := ℚ) Aggregator.empty [(ascii
    "[2024-05-01_13:20:31.123456][1][2][3] BYDA::RadarTrackNodeState: spd[5]", 0)]
      (by decide +kernel)

/-! ## Too many hours -/

/-- The last digit of a number. -/
def lastDigit (n : ℕ) : UInt8 := UInt8.ofNat (48 + n % 10)

theorem digit_lastDigit (n : ℕ) :
    isDigit (lastDigit n) = true ∧ ExactDouble.digitValue (lastDigit n) = n % 10 := by
  have hall : ∀ k < 10, isDigit (UInt8.ofNat (48 + k)) = true ∧
      ExactDouble.digitValue (UInt8.ofNat (48 + k)) = k := by decide
  exact hall (n % 10) (Nat.mod_lt n (by decide))

/-- The timestamp of the first hour of a month in a year. -/
def monthStamp (year month : ℕ) : Bytes :=
  [91, lastDigit (year / 1000), lastDigit (year / 100), lastDigit (year / 10), lastDigit year, 45,
    48, lastDigit month] ++ ascii "-01_00:00:00.000000]"

private theorem hasShape_monthStamp (year month : ℕ) :
    hasShape stampShape (monthStamp year month) = true := by
  have hshape : stampShape = [91, 100, 100, 100, 100, 45, 100, 100]
      ++ ascii "-dd_dd:dd:dd.dddddd]" := by decide
  have hrest : hasShape (ascii "-dd_dd:dd:dd.dddddd]") (ascii "-01_00:00:00.000000]") = true := by
    decide
  have hdigit := fun n ↦ (digit_lastDigit n).1
  have hzero : isDigit 48 = true := rfl
  simp [hshape, monthStamp, hasShape, hdigit, hrest, hzero]

private theorem isDigit_one : ∀ b ∈ ([49] : Bytes), isDigit b = true := by decide

private theorem length_one_le : ([49] : Bytes).length ≤ 20 := by decide

private theorem inCalendar_monthStamp (year : ℕ) {month : ℕ} (h : 1 ≤ month % 10) :
    InCalendar (monthStamp year month) := by
  have hmonth : ExactDouble.natOfDigits (monthOf (monthStamp year month)) = month % 10 := by
    rw [← (digit_lastDigit month).2]
    exact Nat.zero_add _
  have hday : dayOf (monthStamp year month) = ascii "01" := rfl
  have hhour : hourOf (monthStamp year month) = ascii "00" := rfl
  rw [InCalendar, hmonth, hday, hhour]
  exact ⟨⟨h, by omega⟩, by decide, by decide⟩

/-- The header of a line from the first hour of a month. -/
def monthHeader (year month : ℕ) (h : 1 ≤ month % 10) : LogHeader where
  stamp := monthStamp year month
  pid := ⟨[49], isDigit_one, List.cons_ne_nil _ _, length_one_le⟩
  tid := ⟨[49], isDigit_one, List.cons_ne_nil _ _, length_one_le⟩
  seq := ⟨[49], isDigit_one, List.cons_ne_nil _ _, length_one_le⟩
  module := .radarTrackNodeState
  shape := hasShape_monthStamp year month
  inCalendar := inCalendar_monthStamp year h

/-- A line of every year up to 9999, and then one of a month that is new, with a higher speed. -/
def manyHours : List (Bytes × ℕ) :=
  (List.range kMaxBuckets).map
    (fun year ↦ ((monthHeader year 1 (by decide)).text ++ ascii "spd[5]", 0)) ++
    [((monthHeader 0 2 (by decide)).text ++ ascii "spd[9]", 0)]

theorem bucket_monthHeader (year month : ℕ) (h : 1 ≤ month % 10) :
    (monthHeader year month h).bucket / 1000000 = year % 10000 ∧
      (monthHeader year month h).bucket / 10000 % 100 = month % 10 := by
  obtain ⟨hyear, hmonth, -, -⟩ := (monthHeader year month h).bucket_parts
  have hvalue := fun n ↦ (digit_lastDigit n).2
  rw [hyear, hmonth]
  constructor
  · change ExactDouble.natOfDigits [lastDigit (year / 1000), lastDigit (year / 100),
      lastDigit (year / 10), lastDigit year] = year % 10000
    simp only [ExactDouble.natOfDigits, List.foldl_cons, List.foldl_nil, hvalue]
    omega
  · change ExactDouble.natOfDigits [48, lastDigit month] = month % 10
    rw [← hvalue month]
    exact Nat.zero_add _

theorem acceptedOf_manyHours : acceptedOf (D := ℚ) manyHours
    = (List.range kMaxBuckets).map
        (fun year ↦ (monthHeader year 1 (by decide)).parsed (ascii "spd[5]")) ++
      [(monthHeader 0 2 (by decide)).parsed (ascii "spd[9]")] := by
  have hparse : ∀ (h : LogHeader) (payload : Bytes),
      parsedOf (D := ℚ) (h.text ++ payload) = some (h.parsed payload) := fun h payload ↦
    parsedOf_eq_some_iff.mpr (parseLogLine_text h payload)
  have hyears : acceptedOf (D := ℚ) ((List.range kMaxBuckets).map fun year ↦
        ((monthHeader year 1 (by decide)).text ++ ascii "spd[5]", 0))
      = (List.range kMaxBuckets).map fun year ↦
        (monthHeader year 1 (by decide)).parsed (ascii "spd[5]") := by
    rw [acceptedOf, List.filterMap_map, ← List.filterMap_eq_map]
    exact List.filterMap_congr fun year _ ↦ hparse _ _
  have hlast : acceptedOf (D := ℚ) [((monthHeader 0 2 (by decide)).text ++ ascii "spd[9]", 0)]
      = [(monthHeader 0 2 (by decide)).parsed (ascii "spd[9]")] :=
    acceptedOf_cons_some (hparse _ _) []
  rw [← hyears, ← hlast]
  exact List.filterMap_append

private theorem tableHours_manyHours : tableHours (acceptedOf (D := ℚ) manyHours)
    = (List.range kMaxBuckets).map fun year ↦ (monthHeader year 1 (by decide)).bucket := by
  have hinj : ∀ year ∈ List.range kMaxBuckets, ∀ year' ∈ List.range kMaxBuckets,
      (monthHeader year 1 (by decide)).bucket = (monthHeader year' 1 (by decide)).bucket →
        year = year' := by
    intro year hyear year' hyear' heq
    have hvalue := (bucket_monthHeader year 1 (by decide)).1
    rw [heq, (bucket_monthHeader year' 1 (by decide)).1] at hvalue
    rw [List.mem_range, kMaxBuckets] at hyear hyear'
    omega
  have hbuckets : (acceptedOf (D := ℚ) manyHours).map ParsedLine.bucket
      = (List.range kMaxBuckets).map (fun year ↦ (monthHeader year 1 (by decide)).bucket) ++
        [(monthHeader 0 2 (by decide)).bucket] := by
    rw [acceptedOf_manyHours, List.map_append, List.map_map]
    rfl
  rw [tableHours, hbuckets]
  refine firstDistinct_of_full ?_ ?_ _
  · exact List.Nodup.map_on (fun x hx y hy ↦ hinj x hx y hy) List.nodup_range
  · rw [List.length_map, List.length_range]

/-- **The last speed is higher than the maximum.** -/
theorem not_spdRange_manyHours :
    0 < (Aggregator.empty.reset.addLines (D := ℚ) manyHours).spdN ∧
      ¬ (Lowest (Aggregator.empty.reset.addLines (D := ℚ) manyHours).spdMin
          (speedsOf (acceptedOf manyHours)) ∧
        Highest (Aggregator.empty.reset.addLines (D := ℚ) manyHours).spdMax
          (speedsOf (acceptedOf manyHours))) := by
  have hfive : (findSpd (D := ℚ) (ascii "spd[5]")).value = some 5 := by decide +kernel
  have hnine : (findSpd (D := ℚ) (ascii "spd[9]")).value = some 9 := by decide +kernel
  have hrange := rangeOf_addLines (D := ℚ) Aggregator.empty manyHours
  -- the last line has a speed, and an hour for which the table has no room
  have hlast : (monthHeader 0 2 (by decide)).parsed (ascii "spd[9]")
      ∈ acceptedOf (D := ℚ) manyHours := by
    rw [acceptedOf_manyHours]
    exact List.mem_append_right _ (List.mem_singleton_self _)
  have hspd :
      ((monthHeader 0 2 (by decide)).parsed (ascii "spd[9]") : ParsedLine ℚ).hasSpd = true := by
    rw [LogHeader.parsed, hnine]
    rfl
  have hspeed : ((monthHeader 0 2 (by decide)).parsed (ascii "spd[9]") : ParsedLine ℚ).spd = 9 := by
    rw [LogHeader.parsed, hnine]
    rfl
  have hnew : ((monthHeader 0 2 (by decide)).parsed (ascii "spd[9]") : ParsedLine ℚ).bucket
      ∉ tableHours (acceptedOf (D := ℚ) manyHours) := by
    rw [tableHours_manyHours]
    intro hmem
    obtain ⟨year, -, heq⟩ := List.mem_map.mp hmem
    have hmonth := (bucket_monthHeader year 1 (by decide)).2
    rw [heq] at hmonth
    have htwo := (bucket_monthHeader 0 2 (by decide)).2
    exact absurd (hmonth.symm.trans htwo) (by decide)
  -- so its speed counts, but is not compared with the greatest
  have hn : (Aggregator.empty.reset.addLines (D := ℚ) manyHours).spdN ≠ 0 := fun hzero ↦ by
    have hmem := mem_speedsOf.mpr ⟨_, hlast, hspd, rfl⟩
    rw [hrange.spdN.mp hzero] at hmem
    exact absurd hmem List.not_mem_nil
  refine ⟨Nat.pos_of_ne_zero hn, ?_⟩
  rw [hrange.covers_iff hn (speedsInRange_acceptedOf manyHours)]
  intro hcovers
  obtain ⟨-, x, hx, hge⟩ := hcovers.turnedAway _ hlast hspd hnew
  rw [hspeed] at hge
  -- what was compared is the 5 of the other lines, or the zero of the beginning
  have hsmall : x = 0 ∨ x = 5 := by
    rw [comparedSpeeds, List.mem_append] at hx
    rcases hx with hzero | hmem
    · split_ifs at hzero
      · exact .inl (List.mem_singleton.mp hzero)
      · exact absurd hzero List.not_mem_nil
    · obtain ⟨p, hp, -, rfl⟩ := mem_speedsOf.mp hmem
      rw [List.mem_filter, decide_eq_true_eq] at hp
      obtain ⟨hp, hin⟩ := hp
      rw [acceptedOf_manyHours, List.mem_append, List.mem_map, List.mem_singleton] at hp
      rcases hp with ⟨year, -, rfl⟩ | rfl
      · rw [LogHeader.parsed, hfive]
        exact .inr rfl
      · exact absurd hin hnew
  rcases hsmall with rfl | rfl
  · exact absurd hge (by decide)
  · exact absurd hge (by decide)

end Aggregator

end LoggerAnalyzer
