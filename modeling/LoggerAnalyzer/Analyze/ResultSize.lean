import LoggerAnalyzer.Analyze.Presentable
import LoggerAnalyzer.Analyze.Upload
import Mathlib.Algebra.Order.BigOperators.Group.List

/-!
# The size of the result

Everything that grows with the log is capped: the buckets, the names of unknown modules, the
excerpts. `Fits` says how far, for the counters too, and every line keeps to it. What is left is the
length of a line, since a name is kept as long as it is; the splitter limits it by the length of a
fragment, as `keptLines` drops an over-long line only if a fragment ends in it.
-/

namespace LoggerAnalyzer

/-- What is kept about a reason keeps to the limits. -/
structure CorruptSample.Fits (lines offset : ℕ) (c : CorruptSample) : Prop where
  count : c.count ≤ lines
  firstLineNo : c.firstLineNo ≤ lines
  firstByteOffset : c.firstByteOffset ≤ offset
  excerpt : c.excerpt.length ≤ 166

/-- The context of a result is within what the code can put into it. -/
structure CsvContext.Fits (ctx : CsvContext) : Prop where
  sourceFile : ctx.sourceFile.length ≤ 0xFFFF
  sourceBytes : ctx.sourceBytes < 2 ^ 64
  elapsedMs : ctx.elapsedMs < 2 ^ 64
  peakRssKb : ctx.peakRssKb < 2 ^ 64

namespace Aggregator

variable {D : Type}

/-! ## The map of rejected modules -/

/-- The keys of the map are in order. -/
def SortedKeys (m : List (Bytes × ℕ)) : Prop := m.Pairwise fun e e' ↦ e.1 < e'.1

theorem sortedKeys_countModule (name : Bytes) {m : List (Bytes × ℕ)} (h : SortedKeys m) :
    SortedKeys (countModule name m) := by
  induction m with
  | nil => exact List.pairwise_singleton ..
  | cons entry m ih =>
    obtain ⟨key, n⟩ := entry
    rw [SortedKeys, List.pairwise_cons] at h
    rw [countModule]
    split_ifs with heq hlt
    · exact List.pairwise_cons.mpr h
    · refine List.pairwise_cons.mpr ⟨fun e he ↦ ?_, List.pairwise_cons.mpr h⟩
      rcases List.mem_cons.mp he with rfl | he
      · exact hlt
      · exact List.lt_trans hlt (h.1 e he)
    · have hgt : key < name := Std.lt_of_le_of_ne (List.not_lt.mp hlt) heq
      refine List.pairwise_cons.mpr ⟨fun e he ↦ ?_, ih h.2⟩
      rcases mem_countModule he with hname | ⟨e', he', hkey⟩
      · exact hname ▸ hgt
      · exact hkey ▸ h.1 e' he'

private theorem length_countModule_le (name : Bytes) (m : List (Bytes × ℕ)) :
    (countModule name m).length ≤ m.length + 1 := by
  induction m with
  | nil => exact Nat.le_refl 1
  | cons entry m ih =>
    obtain ⟨key, n⟩ := entry
    rw [countModule]
    split_ifs
    · exact Nat.le_succ _
    · exact Nat.le_refl _
    · exact Nat.succ_le_succ ih

/-- A name that is in the map takes no more room. -/
theorem length_countModule_of_mem {name : Bytes} {m : List (Bytes × ℕ)} (h : SortedKeys m)
    (hmem : ∃ e ∈ m, e.1 = name) : (countModule name m).length = m.length := by
  induction m with
  | nil =>
    obtain ⟨e, he, -⟩ := hmem
    exact absurd he List.not_mem_nil
  | cons entry m ih =>
    obtain ⟨key, n⟩ := entry
    rw [SortedKeys, List.pairwise_cons] at h
    obtain ⟨e, he, hname⟩ := hmem
    rw [countModule]
    split_ifs with heq hlt
    · rfl
    · rcases List.mem_cons.mp he with rfl | he
      · exact absurd hname heq
      · have hgt : key < name := hname ▸ h.1 e he
        exact absurd (List.lt_trans hlt hgt) (List.lt_irrefl name)
    · rcases List.mem_cons.mp he with rfl | he
      · exact absurd hname heq
      · exact congrArg Nat.succ (ih h.2 ⟨e, he, hname⟩)

/-- The map keeps to its limit. -/
theorem rejectModule_fits (name : Bytes) {m : List (Bytes × ℕ)} (h : SortedKeys m)
    (hlen : m.length ≤ kMaxRejectedModules) :
    SortedKeys (rejectModule name m) ∧ (rejectModule name m).length ≤ kMaxRejectedModules := by
  rw [rejectModule]
  split_ifs with hroom hknown
  · have hle := length_countModule_le name m
    exact ⟨sortedKeys_countModule name h, by omega⟩
  · rw [List.any_eq_true] at hknown
    obtain ⟨e, he, hkey⟩ := hknown
    exact ⟨sortedKeys_countModule name h,
      (length_countModule_of_mem h ⟨e, he, by simpa using hkey⟩).trans_le hlen⟩
  · exact ⟨h, hlen⟩

/-- The counts in the map grow by one at most. -/
theorem count_rejectModule_le {name : Bytes} {m : List (Bytes × ℕ)} {n : ℕ}
    (h : ∀ e ∈ m, e.2 ≤ n) : ∀ e ∈ rejectModule name m, e.2 ≤ n + 1 := by
  have hcount : ∀ e ∈ countModule name m, e.2 ≤ n + 1 := by
    induction m with
    | nil =>
      rw [countModule, List.forall_mem_singleton]
      exact Nat.le_add_left 1 n
    | cons entry m ih =>
      obtain ⟨key, k⟩ := entry
      rw [List.forall_mem_cons] at h
      have hm : ∀ e ∈ m, e.2 ≤ n + 1 := fun e he ↦ Nat.le_succ_of_le (h.2 e he)
      rw [countModule]
      split_ifs
      · exact List.forall_mem_cons.mpr ⟨Nat.succ_le_succ h.1, hm⟩
      · exact List.forall_mem_cons.mpr ⟨Nat.le_add_left 1 n,
          List.forall_mem_cons.mpr ⟨Nat.le_succ_of_le h.1, hm⟩⟩
      · exact List.forall_mem_cons.mpr ⟨Nat.le_succ_of_le h.1, ih h.2⟩
  rw [rejectModule]
  split_ifs
  · exact hcount
  · exact hcount
  · exact fun e he ↦ Nat.le_succ_of_le (h e he)

/-! ## What a line adds -/

/-- The aggregator keeps to its caps: counters up to `lines`, offsets up to `offset`, names up to
`longest`. -/
structure Fits (lines offset longest : ℕ) (a : Aggregator D) : Prop where
  totalLines : a.totalLines ≤ lines
  acceptedLines : a.acceptedLines ≤ lines
  outOfRange : a.outOfRange ≤ lines
  spdN : a.spdN ≤ lines
  moduleTotals : ∀ m, a.moduleTotals m ≤ lines
  buckets : a.buckets.length ≤ kMaxBuckets
  bucketCounts : ∀ e ∈ a.buckets, e.2.total ≤ lines ∧ ∀ m, e.2.moduleCount m ≤ lines
  samples : ∀ r, (a.corrupt r).Fits lines offset
  sorted : SortedKeys a.rejectedModules
  rejectedModules : a.rejectedModules.length ≤ kMaxRejectedModules
  names : ∀ e ∈ a.rejectedModules, e.1.length ≤ longest
  nameCounts : ∀ e ∈ a.rejectedModules, e.2 ≤ lines
  firstTs : a.firstTs.length ≤ 26
  lastTs : a.lastTs.length ≤ 26

section Lines

variable [DoubleOps D] {lines offset longest : ℕ} {a : Aggregator D}

theorem fits_empty (lines offset longest : ℕ) :
    (empty : Aggregator D).Fits lines offset longest where
  totalLines := Nat.zero_le _
  acceptedLines := Nat.zero_le _
  outOfRange := Nat.zero_le _
  spdN := Nat.zero_le _
  moduleTotals _ := Nat.zero_le _
  buckets := Nat.zero_le _
  bucketCounts _ he := absurd he List.not_mem_nil
  samples _ := ⟨Nat.zero_le _, Nat.zero_le _, Nat.zero_le _, Nat.zero_le _⟩
  sorted := List.Pairwise.nil
  rejectedModules := Nat.zero_le _
  names _ he := absurd he List.not_mem_nil
  nameCounts _ he := absurd he List.not_mem_nil
  firstTs := Nat.zero_le _
  lastTs := Nat.zero_le _

omit [DoubleOps D] in
theorem Fits.mono (h : a.Fits lines offset longest) {lines' : ℕ} (hle : lines ≤ lines') :
    a.Fits lines' offset longest where
  totalLines := h.totalLines.trans hle
  acceptedLines := h.acceptedLines.trans hle
  outOfRange := h.outOfRange.trans hle
  spdN := h.spdN.trans hle
  moduleTotals m := (h.moduleTotals m).trans hle
  buckets := h.buckets
  bucketCounts e he := ⟨(h.bucketCounts e he).1.trans hle,
    fun m ↦ ((h.bucketCounts e he).2 m).trans hle⟩
  samples r := ⟨(h.samples r).count.trans hle, (h.samples r).firstLineNo.trans hle,
    (h.samples r).firstByteOffset, (h.samples r).excerpt⟩
  sorted := h.sorted
  rejectedModules := h.rejectedModules
  names := h.names
  nameCounts e he := (h.nameCounts e he).trans hle
  firstTs := h.firstTs
  lastTs := h.lastTs

omit [DoubleOps D] in
theorem Fits.succ (h : a.Fits lines offset longest) : a.Fits (lines + 1) offset longest :=
  h.mono (Nat.le_succ lines)

/-! ### A line that is accepted -/

omit [DoubleOps D] in
private theorem forall_mem_modify {α : Type} {P : α → Prop} {f : α → α} {xs : List α} (i : ℕ)
    (h : ∀ x ∈ xs, P x ∧ P (f x)) : ∀ x ∈ xs.modify i f, P x := by
  induction xs generalizing i with
  | nil => simp
  | cons x xs ih =>
    rw [List.forall_mem_cons] at h
    cases i with
    | zero =>
      rw [List.modify_zero_cons, List.forall_mem_cons]
      exact ⟨h.1.2, fun y hy ↦ (h.2 y hy).1⟩
    | succ i =>
      rw [List.modify_succ_cons, List.forall_mem_cons]
      exact ⟨h.1.1, ih i h.2⟩

/-- No bucket has more than `n` lines in it. -/
def CountsUpTo (n : ℕ) (a : Aggregator D) : Prop :=
  ∀ e ∈ a.buckets, e.2.total ≤ n ∧ ∀ m, e.2.moduleCount m ≤ n

omit [DoubleOps D] in
theorem CountsUpTo.countBucket {n : ℕ} (h : a.CountsUpTo n) (i : ℕ) (module : Module) :
    (a.countBucket i module).CountsUpTo (n + 1) := by
  refine forall_mem_modify i ?_
  intro e he
  obtain ⟨htotal, hmodule⟩ := h e he
  refine ⟨⟨by omega, fun m ↦ Nat.le_succ_of_le (hmodule m)⟩, Nat.succ_le_succ htotal, fun m ↦ ?_⟩
  by_cases hm : m = module
  · rw [hm]
    dsimp only
    rw [Function.update_self]
    exact Nat.succ_le_succ (hmodule module)
  · dsimp only
    rw [Function.update_of_ne hm]
    exact Nat.le_succ_of_le (hmodule m)

omit [DoubleOps D] in
/-- A bucket is found or made, if there is room for it. -/
theorem bucketFor_fits {n : ℕ} {key : ℕ}
    (hroom : a.buckets.length < kMaxBuckets ∨ isAt key (lowerBound key a.buckets) a.buckets = true)
    (hlen : a.buckets.length ≤ kMaxBuckets) (h : a.CountsUpTo n) :
    (a.bucketFor key).2.buckets.length ≤ kMaxBuckets ∧ (a.bucketFor key).2.CountsUpTo n := by
  rw [bucketFor]
  split_ifs with hcached
  · exact ⟨hlen, h⟩
  by_cases hat : isAt key (lowerBound key a.buckets) a.buckets = true
  · simp only [hat, if_true]
    exact ⟨hlen, h⟩
  · have hlt := hroom.resolve_right hat
    simp only [hat, if_false, Bool.false_eq_true]
    refine ⟨?_, fun e he ↦ ?_⟩
    · rw [List.length_append, List.length_cons, List.length_take, List.length_drop]
      omega
    · rcases List.mem_append.mp he with he | he
      · exact h e (List.mem_of_mem_take he)
      · rcases List.mem_cons.mp he with rfl | he
        · exact ⟨Nat.zero_le n, fun _ ↦ Nat.zero_le n⟩
        · exact h e (List.mem_of_mem_drop he)

omit [DoubleOps D] in
theorem Fits.bucketFor (h : a.Fits lines offset longest) {key : ℕ}
    (hroom : a.buckets.length < kMaxBuckets ∨
      isAt key (lowerBound key a.buckets) a.buckets = true) :
    (a.bucketFor key).2.Fits lines offset longest := by
  obtain ⟨hlen, hcounts⟩ := bucketFor_fits hroom h.buckets h.bucketCounts
  rw [Aggregator.bucketFor] at hlen hcounts ⊢
  by_cases hcached : (a.hasLast && a.lastKey == key) = true
  · rw [if_pos hcached]
    exact h
  · rw [if_neg hcached] at hlen hcounts ⊢
    exact { h with buckets := hlen, bucketCounts := hcounts }

/-- The bucket and the speed of a line. -/
theorem Fits.tally (h : a.Fits (lines + 1) offset longest) (hspd : a.spdN ≤ lines)
    (hcounts : a.CountsUpTo lines) (p : ParsedLine D) :
    (a.tally p).Fits (lines + 1) offset longest := by
  have haddSpd : ∀ {b : Aggregator D}, b.Fits (lines + 1) offset longest → b.spdN ≤ lines →
      (b.addSpd p.spd).Fits (lines + 1) offset longest := fun hb hspd ↦
    { hb with spdN := Nat.succ_le_succ hspd }
  have hwiden : ∀ {b : Aggregator D}, b.Fits (lines + 1) offset longest →
      (b.widenSpd p.spd).Fits (lines + 1) offset longest := fun {b} hb ↦ by
    rw [widenSpd]
    split_ifs <;> exact { hb with }
  rw [Aggregator.tally]
  split_ifs with hfull hhas hhas
  · exact haddSpd h hspd
  · exact h
  all_goals
    rw [Bool.and_eq_true, decide_eq_true_iff, Bool.not_eq_true', not_and_or, Nat.not_le,
      Bool.not_eq_false] at hfull
    have hfound := bucketFor_fits hfull h.buckets hcounts
    have hbucket := h.bucketFor hfull
    have hspd' : (a.bucketFor p.bucket).2.spdN ≤ lines := by
      rw [Aggregator.bucketFor]
      split_ifs <;> exact hspd
    have hcount : ((a.bucketFor p.bucket).2.countBucket (a.bucketFor p.bucket).1 p.module).Fits
        (lines + 1) offset longest :=
      { hbucket with
        buckets := (List.length_modify ..).trans_le hbucket.buckets
        bucketCounts := hfound.2.countBucket _ _ }
  · exact hwiden (haddSpd hcount hspd')
  · exact hcount

omit [DoubleOps D] in
/-- What is counted of a line that is accepted, before it is tallied. -/
theorem Fits.countAccepted (h : a.Fits lines offset longest) (line : Bytes) (p : ParsedLine D) :
    (countAccepted line p { a with totalLines := a.totalLines + 1 }).Fits (lines + 1) offset
      longest := by
  have hts : ((line.drop 1).take 26).length ≤ 26 := List.length_take_le ..
  refine { h.succ with
    totalLines := Nat.succ_le_succ h.totalLines
    acceptedLines := Nat.succ_le_succ h.acceptedLines
    outOfRange := ?_, moduleTotals := fun m ↦ ?_, firstTs := ?_, lastTs := hts }
  · rw [Aggregator.countAccepted]
    dsimp only
    split_ifs
    · exact Nat.succ_le_succ h.outOfRange
    · exact Nat.le_succ_of_le h.outOfRange
  · rw [Aggregator.countAccepted]
    dsimp only
    by_cases hm : m = p.module
    · rw [hm, Function.update_self]
      exact Nat.succ_le_succ (h.moduleTotals p.module)
    · rw [Function.update_of_ne hm]
      exact Nat.le_succ_of_le (h.moduleTotals m)
  · rw [Aggregator.countAccepted]
    dsimp only
    split_ifs
    · exact hts
    · exact h.firstTs

/-! ### A line that is rejected -/

omit [DoubleOps D] in
theorem CorruptSample.Fits.add {c : CorruptSample} (h : c.Fits lines offset) (line : Bytes)
    {lineNo byteOffset : ℕ} (hno : lineNo ≤ lines + 1) (hoffset : byteOffset ≤ offset) :
    (c.add lineNo byteOffset line).Fits (lines + 1) offset := by
  rw [LoggerAnalyzer.CorruptSample.add]
  split_ifs
  · exact ⟨Nat.le_add_left 1 lines, hno, hoffset, length_escapeExcerpt_le line⟩
  · exact ⟨Nat.succ_le_succ h.count, Nat.le_succ_of_le h.firstLineNo, h.firstByteOffset, h.excerpt⟩

omit [DoubleOps D] in
theorem Fits.recordReject (h : a.Fits lines offset longest) (r : Reason) (line : Bytes)
    {byteOffset : ℕ} (hoffset : byteOffset ≤ offset) {token : Bytes}
    (htoken : token.length ≤ longest) :
    (recordReject r line byteOffset token { a with totalLines := a.totalLines + 1 }).Fits
      (lines + 1) offset longest := by
  have hsamples : ∀ r', (Function.update a.corrupt r
      ((a.corrupt r).add (a.totalLines + 1) byteOffset line) r').Fits (lines + 1) offset := by
    intro r'
    by_cases hr : r' = r
    · rw [hr, Function.update_self]
      exact CorruptSample.Fits.add (h.samples r) line (Nat.succ_le_succ h.totalLines) hoffset
    · rw [Function.update_of_ne hr]
      exact h.succ.samples r'
  have hmap := rejectModule_fits token h.sorted h.rejectedModules
  rw [Aggregator.recordReject]
  by_cases hnew : (decide (r = .unknownModule) && !token.isEmpty) = true
  · rw [if_pos hnew]
    refine { h.succ with
      totalLines := Nat.succ_le_succ h.totalLines, samples := hsamples, sorted := hmap.1
      rejectedModules := hmap.2, names := fun e he ↦ ?_
      nameCounts := count_rejectModule_le h.nameCounts }
    rcases mem_rejectModule he with hname | ⟨e', he', hname⟩
    · rw [hname]
      exact htoken
    · rw [← hname]
      exact h.names e' he'
  · rw [if_neg hnew]
    exact { h.succ with totalLines := Nat.succ_le_succ h.totalLines, samples := hsamples }

theorem Fits.addLine (h : a.Fits lines offset longest) {line : Bytes} {byteOffset : ℕ}
    (hline : line.length ≤ longest) (hoffset : byteOffset ≤ offset) :
    (a.addLine line byteOffset).Fits (lines + 1) offset longest := by
  have hshape := shaped_parseLogLine (D := D) line
  rw [Aggregator.addLine]
  generalize parseLogLine (D := D) line = parsed at hshape ⊢
  obtain ⟨r, p⟩ := parsed
  by_cases hr : r = .ok
  · subst hr
    exact (h.countAccepted line p).tally h.spdN h.bucketCounts p
  · have htoken : p.moduleToken.length ≤ longest := by
      rcases hshape.token with hnone | ⟨s, hs, htoken⟩
      · rw [hnone]
        exact Nat.zero_le _
      · rw [htoken]
        calc (s.takeWhile isIdent).length
          _ ≤ s.length := (List.takeWhile_prefix isIdent).length_le
          _ ≤ line.length := hs.length_le
          _ ≤ longest := hline
    have hreject := h.recordReject r line hoffset htoken
    cases r with
    | ok => exact absurd rfl hr
    | _ => exact hreject

/-- **Every line keeps to the caps.** -/
theorem Fits.addLines (h : a.Fits lines offset longest) {calls : List (Bytes × ℕ)}
    (hcalls : ∀ c ∈ calls, c.1.length ≤ longest ∧ c.2 ≤ offset) :
    (a.addLines calls).Fits (lines + calls.length) offset longest := by
  induction calls generalizing a lines with
  | nil => exact h
  | cons c calls ih =>
    rw [List.forall_mem_cons] at hcalls
    have hrest := ih (h.addLine hcalls.1.1 hcalls.1.2) hcalls.2
    rw [Nat.add_assoc, Nat.add_comm 1] at hrest
    exact hrest

end Lines

end Aggregator

/-! ## The lines of an upload -/

open Delimited LineSplitter

private theorem length_stripCr_le (line : Bytes) : (stripCr line).length ≤ line.length := by
  rw [stripCr]
  split_ifs
  · rw [List.length_dropLast]
    exact Nat.sub_le ..
  · exact Nat.le_refl _

/-- The lines take up the whole upload. -/
theorem sum_raw_uploadLines (frags : List Bytes) :
    ((uploadLines frags).map UploadLine.raw).sum = frags.flatten.length := by
  have hfst := fragMarks_fst (d := newline) (t := []) (by simp) frags
  rw [List.nil_append] at hfst
  have hpieces : ((fragMarks newline [] frags).map fun m ↦ m.1.length + 1)
      = (pieces newline frags.flatten).map fun line ↦ line.length + 1 := by
    rw [← hfst, List.map_map]
    rfl
  have hlen := congrArg List.length (flatMap_pieces_append_rest (d := newline) frags.flatten)
  rw [List.length_append, List.length_flatMap] at hlen
  simp only [List.length_append, List.length_singleton] at hlen
  rw [uploadLines, List.map_append, List.sum_append, List.map_map, ← hlen, ← hpieces]
  refine congrArg _ ?_
  split_ifs with hnil
  · rw [hnil]
    rfl
  · exact List.sum_singleton

private theorem raw_pos {frags : List Bytes} : ∀ l ∈ uploadLines frags, 1 ≤ l.raw := by
  intro l hl
  rcases List.mem_append.mp hl with hl | hl
  · obtain ⟨m, -, rfl⟩ := List.mem_map.mp hl
    exact Nat.le_add_left 1 _
  · split_ifs at hl with hnil
    · cases hl
    · rw [List.mem_singleton.mp hl]
      exact List.length_pos_of_ne_nil hnil

theorem length_uploadLines_le (frags : List Bytes) :
    (uploadLines frags).length ≤ frags.flatten.length := by
  rw [← sum_raw_uploadLines, ← List.length_map UploadLine.raw]
  exact List.length_le_sum_of_one_le _ (List.forall_mem_map.mpr raw_pos)

private theorem uploadOversize_le (frags : List Bytes) :
    uploadOversize frags ≤ frags.flatten.length := by
  refine Nat.le_trans ?_ (length_uploadLines_le frags)
  rw [uploadOversize, uploadLines, List.length_append, List.length_map, dropped, overNow]
  refine Nat.add_le_add List.countP_le_length ?_
  split_ifs with hover hnil
  · rw [hnil] at hover
    exact absurd hover (Nat.not_lt_zero _)
  · exact Nat.le_refl 1
  · exact Nat.zero_le _
  · exact Nat.zero_le _

/-- A line that is kept is no longer than a fragment, or within the limit. -/
theorem length_text_le {frags : List Bytes} {longest : ℕ} (hlimit : kDefaultMaxLine ≤ longest)
    (hfrags : ∀ f ∈ frags, f.length ≤ longest) :
    ∀ l ∈ uploadLines frags, l.kept = true → l.text.length ≤ longest := by
  intro l hl hkept
  rcases List.mem_append.mp hl with hl | hl
  · obtain ⟨m, hm, rfl⟩ := List.mem_map.mp hl
    refine (length_stripCr_le m.1).trans ?_
    rcases Bool.or_eq_true_iff.mp hkept with hmark | hshort
    · obtain ⟨f, hf, hlen⟩ := length_lt_of_mem_fragMarks List.not_mem_nil hm hmark
      exact (Nat.le_of_lt hlen).trans (hfrags f hf)
    · exact (of_decide_eq_true hshort).trans hlimit
  · split_ifs at hl with hnil
    · cases hl
    · rw [List.mem_singleton.mp hl] at hkept ⊢
      calc (stripCr (rest newline frags.flatten)).length
        _ ≤ (rest newline frags.flatten).length := length_stripCr_le _
        _ ≤ kDefaultMaxLine := of_decide_eq_true hkept
        _ ≤ longest := hlimit

/-- The calls start inside the upload. -/
theorem offset_le_of_mem_atOffsets {ls : List (Bytes × ℕ)} {offset : ℕ} {c : Bytes × ℕ}
    (hc : c ∈ atOffsets offset ls) :
    c.1 ∈ ls.map Prod.fst ∧ c.2 ≤ offset + (ls.map Prod.snd).sum := by
  induction ls generalizing offset with
  | nil => cases hc
  | cons l ls ih =>
    rw [atOffsets, List.mem_cons] at hc
    rw [List.map_cons, List.map_cons, List.sum_cons]
    rcases hc with rfl | hc
    · exact ⟨List.mem_cons_self, Nat.le_add_right ..⟩
    · obtain ⟨hmem, hle⟩ := ih hc
      exact ⟨List.mem_cons_of_mem _ hmem, by omega⟩

/-- **The aggregator at the end of an upload keeps to its caps.** -/
theorem fits_analyzed {D : Type} [DoubleOps D] {frags : List Bytes} {longest : ℕ}
    (hlimit : kDefaultMaxLine ≤ longest) (hfrags : ∀ f ∈ frags, f.length ≤ longest) :
    (analyzed D frags).Fits frags.flatten.length frags.flatten.length longest ∧
      (analyzed D frags).oversizeLines ≤ frags.flatten.length := by
  have hle := length_uploadLines_le frags
  have hsublist := (uploadLines frags).filter_sublist (p := UploadLine.kept)
  have hlen : (uploadCalls frags).length ≤ frags.flatten.length := by
    rw [uploadCalls_eq, List.length_map]
    exact hsublist.length_le.trans hle
  have hraw : ((uploadCalls frags).map Prod.snd).sum ≤ frags.flatten.length := by
    rw [uploadCalls_eq, List.map_map, ← sum_raw_uploadLines]
    exact (hsublist.map UploadLine.raw).sum_le_sum fun _ _ ↦ Nat.zero_le _
  have hcalls : ∀ c ∈ atOffsets 0 (uploadCalls frags),
      c.1.length ≤ longest ∧ c.2 ≤ frags.flatten.length := fun c hc ↦ by
    obtain ⟨hmem, hoffset⟩ := offset_le_of_mem_atOffsets hc
    refine ⟨?_, by omega⟩
    rw [uploadCalls_eq, List.map_map] at hmem
    obtain ⟨l, hl, htext⟩ := List.mem_map.mp hmem
    rw [← htext]
    exact length_text_le hlimit hfrags l (List.mem_of_mem_filter hl) (List.of_mem_filter hl)
  have hfits := (Aggregator.fits_empty (D := D) 0 frags.flatten.length longest).addLines hcalls
  rw [length_atOffsets, Nat.zero_add] at hfits
  rw [analyzed_eq]
  constructor
  · exact { hfits.mono hlen with }
  · have hover := (Aggregator.addLines_disposed (atOffsets 0 (uploadCalls frags))
      (Aggregator.empty : Aggregator D)).2.2
    rw [Aggregator.addOversize_oversizeLines, hover]
    exact (Nat.zero_add _).trans_le (uploadOversize_le frags)

/-! ## The size of the parts -/

theorem length_decimal_le {n : ℕ} (h : n < 10 ^ 21) : (decimal n).length ≤ 21 := by
  rw [decimal, List.length_map, Nat.length_toDigits_le_iff (by decide) (by decide)]
  exact h

theorem length_csvQuote_le (s : Bytes) : (csvQuote s).length ≤ 2 * s.length + 2 := by
  have hdoubled : ∀ s : Bytes, (s.flatMap fun c ↦ if c = 34 then [34, 34] else [c]).length
      ≤ 2 * s.length := by
    intro s
    induction s with
    | nil => exact Nat.le_refl 0
    | cons c s ih =>
      rw [List.flatMap_cons, List.length_append, List.length_cons]
      split_ifs
      · rw [List.length_cons, List.length_singleton]
        omega
      · rw [List.length_singleton]
        omega
  have hle := hdoubled s
  rw [csvQuote]
  split_ifs
  · rw [List.length_append, List.length_cons, List.length_singleton]
    omega
  · omega

/-- Rows of a bounded size. -/
theorem length_flatMap_le {α : Type} {f : α → Bytes} (xs : List α) {k : ℕ}
    (h : ∀ x ∈ xs, (f x).length ≤ k) : (xs.flatMap f).length ≤ xs.length * k := by
  rw [List.length_flatMap, ← List.length_map fun x ↦ (f x).length]
  exact List.sum_le_card_nsmul _ _ (List.forall_mem_map.mpr h)

theorem length_ascii (s : String) : (ascii s).length = s.toList.length := by
  rw [ascii, List.length_map]

section Sections

variable {D : Type} [DoubleOps D] {lines offset longest : ℕ} {a : Aggregator D}

omit [DoubleOps D] in
theorem Aggregator.Fits.count (h : a.Fits lines offset longest) : a.rejectedLines ≤ lines :=
  (Nat.sub_le ..).trans h.totalLines

theorem length_counter_le {n : ℕ} (hlines : lines < 2 ^ 64) (h : n ≤ lines) :
    (decimal n).length ≤ 21 :=
  length_decimal_le (Nat.lt_of_le_of_lt h (hlines.trans (by decide)))

theorem length_fixed6_le (x : D) : (fixed6 x).length ≤ 63 := List.length_take_le ..

theorem length_fixed4_le (x : D) : (fixed4 x).length ≤ 63 := List.length_take_le ..

/-- The head, which has the name of the file in it. -/
theorem length_csvHead_le {utcNow : Bytes} (hutc : utcNow.length ≤ 31) {ctx : CsvContext}
    (hbytes : ctx.sourceBytes < 2 ^ 64) :
    (csvHead D utcNow ctx).length ≤ 2 * ctx.sourceFile.length + 500 := by
  have hname := length_csvQuote_le ctx.sourceFile
  have hsize := length_counter_le hbytes (Nat.le_refl _)
  have hmin := length_fixed6_le (kSpdMin : D)
  have hmax := length_fixed6_le (kSpdMax : D)
  have hlist : ((ascii ";").intercalate (Module.all.map Module.name)).length ≤ 100 := by decide
  simp only [csvHead, List.length_append, length_ascii, String.reduceToList, List.length_cons,
    List.length_nil]
  omega

omit [DoubleOps D] in
private theorem length_hourlySection_le (h : a.Fits lines offset longest)
    (hlines : lines < 2 ^ 64) :
    (hourlySection a).length ≤ 10000 * 200 + 200 := by
  have hrows : ∀ e ∈ a.buckets, (formatBucket e.1
      ++ Module.all.flatMap (fun m ↦ ascii "," ++ decimal (e.2.moduleCount m))
      ++ ascii "," ++ decimal e.2.total ++ ascii "\n").length ≤ 200 := fun e he ↦ by
    obtain ⟨htotal, hmodule⟩ := h.bucketCounts e he
    have hcounts : (Module.all.flatMap fun m ↦ ascii "," ++ decimal (e.2.moduleCount m)).length
        ≤ Module.all.length * 22 := length_flatMap_le _ fun m _ ↦ by
      have hcount := length_counter_le hlines (hmodule m)
      rw [List.length_append]
      exact Nat.add_le_add (Nat.le_refl 1) hcount
    have hbucket : (formatBucket e.1).length ≤ 31 := List.length_take_le ..
    have hsum := length_counter_le hlines htotal
    rw [length_all_modules, kModuleCount] at hcounts
    simp only [List.length_append, length_ascii, String.reduceToList, List.length_cons,
      List.length_nil]
    omega
  have hall := length_flatMap_le _ hrows
  have hbuckets : a.buckets.length ≤ 10000 := h.buckets
  have hnames : (Module.all.flatMap fun m ↦ ascii "," ++ m.name).length ≤ 100 := by decide
  have hstar : star.length = 3 := rfl
  simp only [hourlySection, List.length_append, length_ascii, String.reduceToList, List.length_cons,
    List.length_nil] at hall hnames ⊢
  omega

private theorem length_summarySection_le (h : a.Fits lines offset longest) (hlines : lines < 2 ^ 64)
    {ctx : CsvContext} (helapsed : ctx.elapsedMs < 2 ^ 64) (hrss : ctx.peakRssKb < 2 ^ 64) :
    (summarySection ctx a).length ≤ 1500 := by
  have htotal := length_counter_le hlines h.totalLines
  have haccepted := length_counter_le hlines h.acceptedLines
  have hrejected := length_counter_le hlines h.count
  have hspdN := length_counter_le hlines h.spdN
  have hbuckets : (decimal a.buckets.length).length ≤ 21 :=
    length_decimal_le (Nat.lt_of_le_of_lt h.buckets (by decide))
  have hms := length_counter_le helapsed (Nat.le_refl _)
  have hkb := length_counter_le hrss (Nat.le_refl _)
  have hfirst := length_csvQuote_le a.firstTs
  have hlast := length_csvQuote_le a.lastTs
  have hfirstTs := h.firstTs
  have hlastTs := h.lastTs
  have hfixed := length_fixed6_le (D := D)
  have hspeeds : (if 0 < a.spdN then
        star ++ ascii "spd_average," ++ fixed6 a.spdAvg ++ ascii "\n"
          ++ ascii "spd_min," ++ fixed6 a.spdMin ++ ascii "\n"
          ++ ascii "spd_max," ++ fixed6 a.spdMax ++ ascii "\n"
      else star ++ ascii "spd_average,\nspd_min,\nspd_max,\n").length ≤ 250 := by
    have havg := hfixed a.spdAvg
    have hmin := hfixed a.spdMin
    have hmax := hfixed a.spdMax
    have hstar : star.length = 3 := rfl
    split_ifs
    all_goals
      simp only [List.length_append, length_ascii, String.reduceToList, List.length_cons,
        List.length_nil]
      omega
  unfold summarySection summaryRest
  dsimp only
  generalize hpct : fixed6 (if 0 < a.totalLines then (num 100 : D) * num a.rejectedLines
    / num a.totalLines else num 0) = pct
  generalize hrate : fixed4 (if DoubleOps.lt (num 0) (num ctx.elapsedMs / num 1000 : D) = true then
    num ctx.sourceBytes / (num 1024 * num 1024) / (num ctx.elapsedMs / num 1000 : D)
    else num 0) = rate
  have hpctLe : pct.length ≤ 63 := hpct ▸ hfixed _
  have hrateLe : rate.length ≤ 63 := hrate ▸ length_fixed4_le _
  have hsum := hfixed a.spdSum
  simp only [List.length_append, length_ascii, String.reduceToList, List.length_cons,
    List.length_nil] at hspeeds ⊢
  omega

private theorem length_moduleSection_le (h : a.Fits lines offset longest)
    (hlines : lines < 2 ^ 64) :
    (moduleSection a).length ≤ 1500 := by
  have hrows := length_flatMap_le Module.all (k := 200) (f := fun m ↦ m.name ++ ascii ","
      ++ decimal (a.moduleTotals m) ++ ascii ","
      ++ fixed4 ((num 100 : D) * num (a.moduleTotals m)
        / if 0 < a.acceptedLines then num a.acceptedLines else num 1) ++ ascii "\n") fun m _ ↦ by
    have hcount := length_counter_le hlines (h.moduleTotals m)
    have hpercent := length_fixed4_le ((num 100 : D) * num (a.moduleTotals m)
      / if 0 < a.acceptedLines then num a.acceptedLines else num 1)
    have hname : m.name.length ≤ 60 := by cases m <;> decide
    simp only [List.length_append, length_ascii, String.reduceToList, List.length_cons,
      List.length_nil]
    omega
  rw [length_all_modules, kModuleCount] at hrows
  unfold moduleSection
  dsimp only
  simp only [List.length_append, length_ascii, String.reduceToList, List.length_cons,
    List.length_nil] at hrows ⊢
  omega

omit [DoubleOps D] in
private theorem dispositionTotal_le (h : a.Fits lines offset longest) :
    dispositionTotal a ≤ 9 * lines + a.oversizeLines := by
  have hcounts : (Reason.rejections.map fun r ↦ (a.corrupt r).count).sum
      ≤ Reason.rejections.length * lines := by
    rw [← List.length_map fun r ↦ (a.corrupt r).count]
    exact List.sum_le_card_nsmul _ _ (List.forall_mem_map.mpr fun r _ ↦ (h.samples r).count)
  have hlen : Reason.rejections.length = 8 := rfl
  have haccepted := h.acceptedLines
  rw [dispositionTotal_eq, Aggregator.disposed]
  rw [hlen] at hcounts
  omega

omit [DoubleOps D] in
theorem length_key_text_le (r : Reason) : r.key.length ≤ 40 ∧ r.text.length ≤ 70 := by
  cases r <;> decide

omit [DoubleOps D] in
private theorem length_dispositionSection_le (h : a.Fits lines offset longest)
    (hlines : lines < 2 ^ 64)
    (hoversize : a.oversizeLines < 2 ^ 64) : (dispositionSection a).length ≤ 3000 := by
  have hrows := length_flatMap_le Reason.rejections (k := 250) (f := fun r ↦ r.key
      ++ ascii "," ++ decimal (a.corrupt r).count ++ ascii "," ++ csvQuote r.text
      ++ ascii "\n") fun r _ ↦ by
    have hcount := length_counter_le hlines (h.samples r).count
    have hquoted := length_csvQuote_le r.text
    have hkey := length_key_text_le r
    simp only [List.length_append, length_ascii, String.reduceToList, List.length_cons,
      List.length_nil]
    omega
  have haccepted := length_counter_le hlines h.acceptedLines
  have htotal := length_counter_le hlines h.totalLines
  have hover := length_counter_le hoversize (Nat.le_refl _)
  have hsum : (decimal (dispositionTotal a)).length ≤ 21 := by
    have hle := dispositionTotal_le h
    exact length_decimal_le (by omega)
  have hquoted := length_csvQuote_le Reason.ok.text
  have hok := length_key_text_le .ok
  have hlen : Reason.rejections.length = 8 := rfl
  rw [hlen] at hrows
  simp only [dispositionSection, dispositionRows, List.length_append, length_ascii,
    String.reduceToList, List.length_cons, List.length_nil] at hrows ⊢
  omega

omit [DoubleOps D] in
private theorem length_diagnosticsSection_le (h : a.Fits lines offset longest)
    (hlines : lines < 2 ^ 64)
    (hoffset : offset < 2 ^ 64) : (diagnosticsSection a).length ≤ 5000 := by
  -- at most a row for each reason, and the row of the guard
  have hrows := length_flatMap_le Reason.rejections (k := 500) (f := fun r ↦
      if (a.corrupt r).count = 0 then []
      else r.key ++ ascii "," ++ decimal (a.corrupt r).count ++ ascii ","
        ++ decimal (a.corrupt r).firstLineNo ++ ascii ","
        ++ decimal (a.corrupt r).firstByteOffset ++ ascii ","
        ++ csvQuote (a.corrupt r).excerpt ++ ascii "\n") fun r _ ↦ by
    have hcount := length_counter_le hlines (h.samples r).count
    have hlineNo := length_counter_le hlines (h.samples r).firstLineNo
    have hbyte := length_counter_le hoffset (h.samples r).firstByteOffset
    have hquoted := length_csvQuote_le (a.corrupt r).excerpt
    have hexcerpt := (h.samples r).excerpt
    have hkey := (length_key_text_le r).1
    split_ifs
    · exact Nat.zero_le _
    · simp only [List.length_append, length_ascii, String.reduceToList, List.length_cons,
        List.length_nil]
      omega
  have hguard : (if 0 < a.outOfRange then ascii "spd_out_of_range_guard," ++ decimal a.outOfRange
        ++ ascii ",,,\"Speed value outside the accepted range was excluded from the average\"\n"
      else []).length ≤ 200 := by
    have hcount := length_counter_le hlines h.outOfRange
    split_ifs
    · simp only [List.length_append, length_ascii, String.reduceToList, List.length_cons,
        List.length_nil]
      omega
    · exact Nat.zero_le _
  have hlen : Reason.rejections.length = 8 := rfl
  rw [hlen] at hrows
  rw [diagnosticsSection, List.length_append, List.length_append, List.length_append]
  simp only [length_ascii, String.reduceToList, List.length_cons, List.length_nil]
  omega

omit [DoubleOps D] in
private theorem length_rejectedModulesSection_le (h : a.Fits lines offset longest)
    (hlines : lines < 2 ^ 64) :
    (rejectedModulesSection a).length ≤ 64 * (2 * longest + 150) + 100 := by
  have hrows := length_flatMap_le a.rejectedModules (k := 2 * longest + 150) (f := fun e ↦
      csvQuote e.1 ++ ascii "," ++ decimal e.2
        ++ ascii ",\"Not in the module whitelist - excluded from all statistics\"\n") fun e he ↦ by
    have hquoted := length_csvQuote_le e.1
    have hname := h.names e he
    have hcount := length_counter_le hlines (h.nameCounts e he)
    simp only [List.length_append, length_ascii, String.reduceToList, List.length_cons,
      List.length_nil]
    omega
  have hall := Nat.mul_le_mul_right (2 * longest + 150) h.rejectedModules
  rw [Aggregator.kMaxRejectedModules] at hall
  rw [rejectedModulesSection, List.length_append, List.length_append]
  simp only [length_ascii, String.reduceToList, List.length_cons, List.length_nil]
  omega

/-- **The result of an upload of fragments that are not too long** is smaller than what a client
accepts. -/
theorem length_buildResultCsv_lt (h : a.Fits lines offset longest) (hlines : lines < 2 ^ 64)
    (hoffset : offset < 2 ^ 64) (hlongest : longest ≤ 262144) (hoversize : a.oversizeLines < 2 ^ 64)
    {utcNow : Bytes} (hutc : utcNow.length ≤ 31) {ctx : CsvContext} (hctx : ctx.Fits) :
    (buildResultCsv utcNow a ctx).length < 64 * 1024 * 1024 := by
  have hhead := length_csvHead_le (D := D) hutc hctx.sourceBytes
  have hname := hctx.sourceFile
  have hhourly := length_hourlySection_le h hlines
  have hsummary := length_summarySection_le h hlines hctx.elapsedMs hctx.peakRssKb
  have hmodule := length_moduleSection_le h hlines
  have hdisposition := length_dispositionSection_le h hlines hoversize
  have hdiagnostics := length_diagnosticsSection_le h hlines hoffset
  have hrejected := length_rejectedModulesSection_le h hlines
  simp only [buildResultCsv, List.length_append]
  omega

end Sections

end LoggerAnalyzer
