import LoggerAnalyzer.Analyze.CsvWriter
import LoggerAnalyzer.Analyze.HourlyTable
import LoggerAnalyzer.Parse.Grammar

/-!
# Hours and their texts

The hour of a line is packed into one number, which `format_bucket` takes apart again. What it
prints is the beginning of the timestamp, digit by digit, leading zeros included, and the numbers
are in the order of the texts: digit strings of one length are in the order of their values.
-/

namespace LoggerAnalyzer

open ExactDouble

/-! ## Strings in order -/

/-- Strings that begin with parts of one length. -/
theorem append_lt_append_iff {xs xs' : Bytes} (h : xs.length = xs'.length) (ys ys' : Bytes) :
    xs ++ ys < xs' ++ ys' ↔ xs < xs' ∨ xs = xs' ∧ ys < ys' := by
  induction xs generalizing xs' with
  | nil =>
    obtain rfl := List.length_eq_zero_iff.mp h.symm
    simp
  | cons x xs ih =>
    cases xs' with
    | nil => cases h
    | cons x' xs' =>
      rw [List.cons_append, List.cons_append, List.cons_lt_cons_iff, List.cons_lt_cons_iff,
        ih (Nat.succ.inj h), List.cons.injEq]
      tauto

private theorem append_lt_append_left_iff (sep ys ys' : Bytes) :
    sep ++ ys < sep ++ ys' ↔ ys < ys' := by
  rw [append_lt_append_iff rfl]
  simp [List.lt_irrefl]

/-! ## Digits -/

theorem digitValue_lt {d : UInt8} (h : isDigit d = true) : digitValue d < 10 := by
  rw [isDigit, Bool.and_eq_true, decide_eq_true_eq, decide_eq_true_eq, UInt8.le_iff_toNat_le,
    UInt8.le_iff_toNat_le] at h
  have hle : d.toNat ≤ 57 := h.2
  rw [digitValue]
  omega

theorem toNat_of_isDigit {d : UInt8} (h : isDigit d = true) : d.toNat = digitValue d + 48 := by
  rw [isDigit, Bool.and_eq_true, decide_eq_true_eq, decide_eq_true_eq, UInt8.le_iff_toNat_le,
    UInt8.le_iff_toNat_le] at h
  have hge : 48 ≤ d.toNat := h.1
  rw [digitValue]
  omega

theorem natOfDigits_concat (ds : Bytes) (d : UInt8) :
    natOfDigits (ds ++ [d]) = natOfDigits ds * 10 + digitValue d := by
  rw [natOfDigits, List.foldl_append]
  rfl

theorem natOfDigits_lt {ds : Bytes} (h : ∀ d ∈ ds, isDigit d = true) :
    natOfDigits ds < 10 ^ ds.length := by
  induction ds using List.reverseRecOn with
  | nil => decide
  | append_singleton ds d ih =>
    rw [List.forall_mem_append, List.forall_mem_singleton] at h
    have hlt := ih h.1
    have hd := digitValue_lt h.2
    rw [natOfDigits_concat, List.length_append, List.length_singleton, Nat.pow_succ]
    omega

private theorem natOfDigits_cons (d : UInt8) (ds : Bytes) :
    natOfDigits (d :: ds) = digitValue d * 10 ^ ds.length + natOfDigits ds := by
  rw [← List.singleton_append, natOfDigits_append,
    show natOfDigits [d] = digitValue d from Nat.zero_add _]

/-- **Digit strings of one length are in the order of their values.** -/
theorem natOfDigits_lt_iff {ds ds' : Bytes} (h : ∀ d ∈ ds, isDigit d = true)
    (h' : ∀ d ∈ ds', isDigit d = true) (hlen : ds.length = ds'.length) :
    natOfDigits ds < natOfDigits ds' ↔ ds < ds' := by
  induction ds generalizing ds' with
  | nil =>
    obtain rfl := List.length_eq_zero_iff.mp hlen.symm
    simp
  | cons d ds ih =>
    cases ds' with
    | nil => cases hlen
    | cons d' ds' =>
      rw [List.forall_mem_cons] at h h'
      replace hlen := Nat.succ.inj hlen
      have hlt := natOfDigits_lt h.2
      have hlt' := natOfDigits_lt h'.2
      have hd : d = d' ↔ digitValue d = digitValue d' := by
        rw [← UInt8.toNat_inj, toNat_of_isDigit h.1, toNat_of_isDigit h'.1]
        omega
      rw [← hlen] at hlt'
      rw [natOfDigits_cons, natOfDigits_cons, ← hlen, List.cons_lt_cons_iff, ← ih h.2 h'.2 hlen, hd,
        UInt8.lt_iff_toNat_lt, toNat_of_isDigit h.1, toNat_of_isDigit h'.1,
        Nat.add_lt_add_iff_right]
      -- the first digits decide, unless they are the same
      rcases Nat.lt_trichotomy (digitValue d) (digitValue d') with hd | hd | hd
      · have hmul := Nat.mul_le_mul_right (10 ^ ds.length) hd
        rw [Nat.succ_mul] at hmul
        simp only [hd, true_or, iff_true]
        omega
      · rw [hd]
        simp
      · have hmul := Nat.mul_le_mul_right (10 ^ ds.length) hd
        rw [Nat.succ_mul] at hmul
        simp only [Nat.lt_asymm hd, Nat.ne_of_gt hd, false_and, or_self, iff_false]
        omega

private theorem decimal_digitValue {d : UInt8} (h : isDigit d = true) :
    decimal (digitValue d) = [d] := by
  have hall : ∀ k < 10, decimal k = [UInt8.ofNat (k + 48)] := by decide
  rw [hall _ (digitValue_lt h), ← toNat_of_isDigit h, UInt8.ofNat_toNat]

/-- **A number that was read from digits is printed with the same digits.** -/
theorem zeroPadded_natOfDigits {ds : Bytes} (h : ∀ d ∈ ds, isDigit d = true) (hne : ds ≠ []) :
    zeroPadded ds.length (natOfDigits ds) = ds := by
  induction ds using List.reverseRecOn with
  | nil => exact absurd rfl hne
  | append_singleton ds d ih =>
    rw [List.forall_mem_append, List.forall_mem_singleton] at h
    have hd := digitValue_lt h.2
    rw [natOfDigits_concat, List.length_append, List.length_singleton, zeroPadded]
    by_cases hnil : ds = []
    · subst hnil
      rw [show natOfDigits [] = 0 from rfl, Nat.zero_mul, Nat.zero_add, decimal_digitValue h.2]
      rfl
    have hpos := List.length_pos_iff.mpr hnil
    have hds := ih h.1 hnil
    rw [zeroPadded] at hds
    rcases Nat.eq_zero_or_pos (natOfDigits ds) with hzero | hvalue
    · rw [hzero, show decimal 0 = [48] from rfl, List.length_singleton, ← List.replicate_succ',
        Nat.sub_add_cancel hpos] at hds
      rw [hzero, Nat.zero_mul, Nat.zero_add, decimal_digitValue h.2, List.length_singleton,
        Nat.add_sub_cancel, hds]
    · have hsplit : decimal (natOfDigits ds * 10 + digitValue d)
          = decimal (natOfDigits ds) ++ [d] := by
        rw [decimal, Nat.mul_comm, ← Nat.toDigits_append_toDigits (by decide) hvalue hd,
          List.map_append]
        exact congrArg (decimal (natOfDigits ds) ++ ·) (decimal_digitValue h.2)
      rw [hsplit, List.length_append, List.length_singleton, Nat.add_sub_add_right,
        ← List.append_assoc, hds]

/-! ## The parts of a timestamp -/

private theorem hasShape_drop {shape s : Bytes} (h : hasShape shape s = true) (i : ℕ) :
    hasShape (shape.drop i) (s.drop i) = true := by
  induction i generalizing shape s with
  | zero => exact h
  | succ i ih =>
    cases shape with
    | nil =>
      cases s with
      | nil => rfl
      | cons b s => cases h
    | cons c shape =>
      cases s with
      | nil => cases h
      | cons b s =>
        rw [hasShape, Bool.and_eq_true] at h
        exact ih h.2

private theorem hasShape_take {shape s : Bytes} (h : hasShape shape s = true) (n : ℕ) :
    hasShape (shape.take n) (s.take n) = true := by
  induction n generalizing shape s with
  | zero => rfl
  | succ n ih =>
    cases shape with
    | nil =>
      cases s with
      | nil => rfl
      | cons b s => cases h
    | cons c shape =>
      cases s with
      | nil => cases h
      | cons b s =>
        rw [hasShape, Bool.and_eq_true] at h
        rw [List.take_succ_cons, List.take_succ_cons, hasShape, h.1, ih h.2]
        rfl

theorem isDigit_of_hasShape {n : ℕ} {s : Bytes} (h : hasShape (List.replicate n 100) s = true) :
    ∀ b ∈ s, isDigit b = true := by
  induction n generalizing s with
  | zero =>
    rw [List.length_eq_zero_iff.mp (length_of_hasShape h)]
    exact fun b hb ↦ absurd hb List.not_mem_nil
  | succ n ih =>
    cases s with
    | nil => cases h
    | cons b s =>
      rw [List.replicate_succ, hasShape, if_pos rfl, Bool.and_eq_true] at h
      exact List.forall_mem_cons.mpr ⟨h.1, ih h.2⟩

namespace LogHeader

variable (h : LogHeader)

/-- The shape of a part of the timestamp. -/
theorem hasShape_part (i n : ℕ) :
    hasShape ((stampShape.drop i).take n) ((h.stamp.drop i).take n) = true :=
  hasShape_take (hasShape_drop h.shape i) n

theorem isDigit_yearOf : ∀ d ∈ yearOf h.stamp, isDigit d = true :=
  isDigit_of_hasShape (n := 4) (h.hasShape_part 1 4)

theorem isDigit_monthOf : ∀ d ∈ monthOf h.stamp, isDigit d = true :=
  isDigit_of_hasShape (n := 2) (h.hasShape_part 6 2)

theorem isDigit_dayOf : ∀ d ∈ dayOf h.stamp, isDigit d = true :=
  isDigit_of_hasShape (n := 2) (h.hasShape_part 9 2)

theorem isDigit_hourOf : ∀ d ∈ hourOf h.stamp, isDigit d = true :=
  isDigit_of_hasShape (n := 2) (h.hasShape_part 12 2)

theorem length_yearOf : (yearOf h.stamp).length = 4 := length_of_hasShape (h.hasShape_part 1 4)

theorem length_monthOf : (monthOf h.stamp).length = 2 := length_of_hasShape (h.hasShape_part 6 2)

theorem length_dayOf : (dayOf h.stamp).length = 2 := length_of_hasShape (h.hasShape_part 9 2)

theorem length_hourOf : (hourOf h.stamp).length = 2 := length_of_hasShape (h.hasShape_part 12 2)

/-- The digits of the hour, from the year on. -/
def hourDigits : Bytes := yearOf h.stamp ++ monthOf h.stamp ++ dayOf h.stamp ++ hourOf h.stamp

private theorem isDigit_hourDigits : ∀ d ∈ h.hourDigits, isDigit d = true := by
  rw [hourDigits, List.forall_mem_append, List.forall_mem_append, List.forall_mem_append]
  exact ⟨⟨⟨h.isDigit_yearOf, h.isDigit_monthOf⟩, h.isDigit_dayOf⟩, h.isDigit_hourOf⟩

private theorem length_hourDigits : h.hourDigits.length = 10 := by
  rw [hourDigits, List.length_append, List.length_append, List.length_append, h.length_yearOf,
    h.length_monthOf, h.length_dayOf, h.length_hourOf]

/-- The parts of the number. -/
theorem bucket_parts :
    h.bucket / 1000000 = natOfDigits (yearOf h.stamp) ∧
      h.bucket / 10000 % 100 = natOfDigits (monthOf h.stamp) ∧
      h.bucket / 100 % 100 = natOfDigits (dayOf h.stamp) ∧
      h.bucket % 100 = natOfDigits (hourOf h.stamp) := by
  have hmonth := natOfDigits_lt h.isDigit_monthOf
  have hday := natOfDigits_lt h.isDigit_dayOf
  have hhour := natOfDigits_lt h.isDigit_hourOf
  rw [h.length_monthOf] at hmonth
  rw [h.length_dayOf] at hday
  rw [h.length_hourOf] at hhour
  have hbucket : h.bucket = natOfDigits (yearOf h.stamp) * 1000000
      + natOfDigits (monthOf h.stamp) * 10000 + natOfDigits (dayOf h.stamp) * 100
      + natOfDigits (hourOf h.stamp) := (natOfDigits_hour h.length_stamp).symm
  rw [hbucket]
  refine ⟨?_, ?_, ?_, ?_⟩ <;> omega

end LogHeader

/-! ## The texts of hours -/

/-- The text of the hour of a line: what stands in its timestamp up to the hour. -/
def hourText (line : Bytes) : Bytes :=
  (line.drop 1).take 10 ++ ascii " " ++ (line.drop 12).take 2 ++ ascii ":00"

/-- The parts of such a text. -/
def partsText (year month day hour : Bytes) : Bytes :=
  year ++ (ascii "-" ++ (month ++ (ascii "-" ++ (day ++ (ascii " " ++ (hour ++ ascii ":00"))))))

private theorem hourText_text (h : LogHeader) (payload : Bytes) :
    hourText (h.text ++ payload)
      = partsText (yearOf h.stamp) (monthOf h.stamp) (dayOf h.stamp) (hourOf h.stamp) := by
  have hlen : h.stamp.length = 28 := h.length_stamp
  have hdash : ∀ i, (stampShape.drop i).take 1 = [45] → (h.stamp.drop i).take 1 = [45] := by
    intro i hi
    have hshape := h.hasShape_part i 1
    rw [hi] at hshape
    obtain ⟨c, hc⟩ := List.length_eq_one_iff.mp (length_of_hasShape hshape)
    rw [hc] at hshape ⊢
    rw [hasShape, if_neg (by decide), Bool.and_eq_true, beq_iff_eq] at hshape
    rw [hshape.1]
  have hdate : (h.stamp.drop 1).take 10
      = yearOf h.stamp ++ ([45] ++ (monthOf h.stamp ++ ([45] ++ dayOf h.stamp))) := by
    rw [show 10 = 4 + (1 + (2 + (1 + 2))) from rfl, List.take_add, List.take_add, List.take_add,
      List.take_add]
    simp only [List.drop_drop]
    rw [hdash 5 (by decide), hdash 8 (by decide)]
    rfl
  have htext : h.text ++ payload
      = h.stamp ++ (h.pid.text ++ h.tid.text ++ h.seq.text ++ (h.nameText ++ payload)) := by
    simp only [LogHeader.text, List.append_assoc]
  rw [hourText, htext, List.drop_append_of_le_length (by omega),
    List.drop_append_of_le_length (by omega), List.take_append_of_le_length (by simp [hlen]),
    List.take_append_of_le_length (by simp [hlen]), hdate]
  simp only [partsText, hourOf, List.append_assoc]
  rfl

/-- **`format_bucket` prints the hour of the timestamp.** -/
theorem formatBucket_bucket (h : LogHeader) :
    formatBucket h.bucket
      = partsText (yearOf h.stamp) (monthOf h.stamp) (dayOf h.stamp) (hourOf h.stamp) := by
  have hpadded : ∀ {n : ℕ} {ds : Bytes}, (∀ d ∈ ds, isDigit d = true) → ds.length = n + 1 →
      zeroPadded (n + 1) (natOfDigits ds) = ds := by
    intro n ds hds hlen
    rw [← hlen]
    exact zeroPadded_natOfDigits hds (List.ne_nil_of_length_pos (by omega))
  obtain ⟨hyear, hmonth, hday, hhour⟩ := h.bucket_parts
  rw [formatBucket, hyear, hmonth, hday, hhour, hpadded h.isDigit_yearOf h.length_yearOf,
    hpadded h.isDigit_monthOf h.length_monthOf, hpadded h.isDigit_dayOf h.length_dayOf,
    hpadded h.isDigit_hourOf h.length_hourOf, snprintf, List.take_of_length_le]
  · simp only [partsText, List.append_assoc]
  · simp only [List.length_append, h.length_yearOf, h.length_monthOf, h.length_dayOf,
      h.length_hourOf]
    decide

/-- The texts are in the order of the digits. -/
theorem partsText_lt_iff (h h' : LogHeader) :
    partsText (yearOf h.stamp) (monthOf h.stamp) (dayOf h.stamp) (hourOf h.stamp)
        < partsText (yearOf h'.stamp) (monthOf h'.stamp) (dayOf h'.stamp) (hourOf h'.stamp)
      ↔ h.hourDigits < h'.hourDigits := by
  have hyear := h.length_yearOf.trans h'.length_yearOf.symm
  have hmonth := h.length_monthOf.trans h'.length_monthOf.symm
  have hday := h.length_dayOf.trans h'.length_dayOf.symm
  have hhour := h.length_hourOf.trans h'.length_hourOf.symm
  have hend : hourOf h.stamp ++ ascii ":00" < hourOf h'.stamp ++ ascii ":00"
      ↔ hourOf h.stamp < hourOf h'.stamp := by
    rw [append_lt_append_iff hhour]
    simp [List.lt_irrefl]
  rw [partsText, partsText, append_lt_append_iff hyear, append_lt_append_left_iff,
    append_lt_append_iff hmonth, append_lt_append_left_iff, append_lt_append_iff hday,
    append_lt_append_left_iff, hend]
  rw [LogHeader.hourDigits, LogHeader.hourDigits, List.append_assoc, List.append_assoc,
    List.append_assoc, List.append_assoc, append_lt_append_iff hyear, append_lt_append_iff hmonth,
    append_lt_append_iff hday]

theorem bucket_lt_iff (h h' : LogHeader) :
    h.bucket < h'.bucket ↔ formatBucket h.bucket < formatBucket h'.bucket := by
  rw [formatBucket_bucket, formatBucket_bucket, partsText_lt_iff]
  exact natOfDigits_lt_iff h.isDigit_hourDigits h'.isDigit_hourDigits
    (h.length_hourDigits.trans h'.length_hourDigits.symm)

theorem bucket_eq_iff (h h' : LogHeader) :
    h.bucket = h'.bucket ↔ formatBucket h.bucket = formatBucket h'.bucket := by
  refine ⟨congrArg formatBucket, fun heq ↦ ?_⟩
  rcases Nat.lt_trichotomy h.bucket h'.bucket with hlt | hbucket | hgt
  · have hlt := (bucket_lt_iff h h').mp hlt
    rw [heq] at hlt
    exact absurd hlt (List.lt_irrefl _)
  · exact hbucket
  · have hgt := (bucket_lt_iff h' h).mp hgt
    rw [heq] at hgt
    exact absurd hgt (List.lt_irrefl _)

namespace Aggregator

variable {D : Type} [DoubleOps D]

/-- The hour of an accepted line, and its text. -/
theorem exists_header_of_parsedOf {line : Bytes} {p : ParsedLine D} (h : parsedOf line = some p) :
    ∃ header : LogHeader, p.bucket = header.bucket ∧
    hourText line = formatBucket header.bucket := by
  obtain ⟨header, payload, rfl, rfl⟩ := parseLogLine_eq_ok_iff.mp (parsedOf_eq_some_iff.mp h)
  exact ⟨header, rfl, (hourText_text header payload).trans (formatBucket_bucket header).symm⟩

/-- Every row is one of a line. -/
theorem IsHourTable.exists_header {calls : List (Bytes × ℕ)} {a : Aggregator D}
    (h : IsHourTable (acceptedOf calls) a) {e : ℕ × BucketStat} (he : e ∈ a.buckets) :
    ∃ header : LogHeader, e.1 = header.bucket := by
  have hmem : e.1 ∈ tableHours (acceptedOf (D := D) calls) :=
    (h.fit.mem_iff e.1).mp (List.mem_map_of_mem he)
  obtain ⟨p, hp, hbucket⟩ := List.mem_map.mp (mem_of_mem_firstDistinct hmem)
  obtain ⟨c, -, hc⟩ := List.mem_filterMap.mp hp
  obtain ⟨header, hheader, -⟩ := exists_header_of_parsedOf hc
  exact ⟨header, hbucket ▸ hheader⟩

theorem IsHourTable.rows_pairwise {calls : List (Bytes × ℕ)} {a : Aggregator D}
    (h : IsHourTable (acceptedOf calls) a) :
    (a.buckets.map fun e ↦ formatBucket e.1).Pairwise (· < ·) := by
  have hsorted := h.fit.sorted
  rw [hoursOf, List.pairwise_map] at hsorted
  rw [List.pairwise_map]
  refine hsorted.imp_of_mem fun {e e'} he he' hlt ↦ ?_
  obtain ⟨header, heq⟩ := h.exists_header he
  obtain ⟨header', heq'⟩ := h.exists_header he'
  rw [heq, heq'] at hlt ⊢
  exact (bucket_lt_iff header header').mp hlt

/-- A row counts the lines with its text. -/
theorem IsHourTable.total_eq {calls : List (Bytes × ℕ)} {a : Aggregator D}
    (h : IsHourTable (acceptedOf calls) a) {e : ℕ × BucketStat} (he : e ∈ a.buckets) :
    e.2.total = calls.countP fun c ↦ reasonOf D c.1 = .ok ∧ hourText c.1 = formatBucket e.1 := by
  obtain ⟨header, heq⟩ := h.exists_header he
  rw [h.counted e he, hourStat, acceptedOf, List.countP_filterMap]
  refine List.countP_congr ?_
  intro c _
  cases hc : parsedOf (D := D) c.1 with
  | none => simp [parsedOf_eq_none_iff.mp hc]
  | some p =>
    obtain ⟨header', hbucket, htext⟩ := exists_header_of_parsedOf hc
    have hok : reasonOf D c.1 = .ok := congrArg Prod.fst (parsedOf_eq_some_iff.mp hc)
    simp [hok, htext, heq, hbucket, bucket_eq_iff]

/-- **The keys of the buckets are faithful to the timestamps**: the key of an accepted line is
printed as the hour in its timestamp, and keys are in the order of these texts. So the rows are in
the order of their texts, no two have the same, and each counts the lines with its text. -/
theorem formatBucket_faithful {line line' : Bytes} {p p' : ParsedLine D}
    (hline : parseLogLine line = (.ok, p)) (hline' : parseLogLine line' = (.ok, p'))
    (a : Aggregator D) (calls : List (Bytes × ℕ)) :
    formatBucket p.bucket = hourText line ∧
    (p.bucket < p'.bucket ↔ hourText line < hourText line') ∧
    (p.bucket = p'.bucket ↔ hourText line = hourText line') ∧
    (p'.bucket < p.bucket ↔ hourText line' < hourText line) ∧
    ((a.reset.addLines calls).buckets.map fun e ↦ formatBucket e.1).Pairwise (· < ·) ∧
    ∀ e ∈ (a.reset.addLines calls).buckets, e.2.total
      = calls.countP fun c ↦ reasonOf D c.1 = .ok ∧ hourText c.1 = formatBucket e.1 := by
  obtain ⟨h, hbucket, htext⟩ := exists_header_of_parsedOf (parsedOf_eq_some_iff.mpr hline)
  obtain ⟨h', hbucket', htext'⟩ := exists_header_of_parsedOf (parsedOf_eq_some_iff.mpr hline')
  have htable : IsHourTable (acceptedOf calls) (a.reset.addLines calls) :=
    isHourTable_empty.addLines calls
  rw [htext, htext', hbucket, hbucket']
  exact ⟨rfl, bucket_lt_iff h h', bucket_eq_iff h h', bucket_lt_iff h' h, htable.rows_pairwise,
    fun e he ↦ htable.total_eq he⟩

/-- Two lines, one of them from the year 0. -/
theorem formatBucket_faithful_lines :
    formatBucket (parseLogLine (D := ℚ) (ascii
        "[0000-01-31_00:59:59.000000][1][2][3] BYDA::RadarTrackNodeState: ")).2.bucket
      = ascii "0000-01-31 00:00" ∧
    (parseLogLine (D := ℚ) (ascii
        "[0000-01-31_00:59:59.000000][1][2][3] BYDA::RadarTrackNodeState: ")).2.bucket
      < (parseLogLine (D := ℚ) (ascii
        "[2024-05-01_13:20:31.123456][1][2][3] BYDA::AntennaProfileSpec: up")).2.bucket := by
  have hzero : parseLogLine (D := ℚ) (ascii
      "[0000-01-31_00:59:59.000000][1][2][3] BYDA::RadarTrackNodeState: ") = (.ok, _) :=
    Prod.ext (by decide) rfl
  have hlater : parseLogLine (D := ℚ) (ascii
      "[2024-05-01_13:20:31.123456][1][2][3] BYDA::AntennaProfileSpec: up") = (.ok, _) :=
    Prod.ext (by decide) rfl
  obtain ⟨htext, horder, -⟩ := formatBucket_faithful hzero hlater Aggregator.empty []
  exact ⟨htext.trans (by decide), horder.mpr (by decide)⟩

end Aggregator

end LoggerAnalyzer
