import LoggerAnalyzer.Parse.LogLine
import Mathlib.Algebra.BigOperators.Group.List.Basic
import Mathlib.Logic.Function.Basic

/-!
# The aggregator

`Aggregator` takes the lines of an upload one by one and keeps what the result needs: counts of
accepted and rejected lines, the first example of every reason for a rejection, the counts by hour
and module, and a compensated sum of the speeds.

An array indexed by a module or a reason is a function here. `buckets` is the sorted vector of the
source with its cache of the last bucket; `rejectedModules` is a sorted association list for the
`std::map`.

The last section says what a whole sequence of lines does to the counters and to the examples.
-/

namespace LoggerAnalyzer

/-- The counts of one hour. -/
structure BucketStat where
  moduleCount : Module → ℕ
  total : ℕ

def BucketStat.empty : BucketStat := ⟨fun _ ↦ 0, 0⟩

/-- What is kept about one reason: how often, and where the first example was. -/
structure CorruptSample where
  count : ℕ
  firstLineNo : ℕ
  firstByteOffset : ℕ
  excerpt : Bytes
deriving DecidableEq, Repr

def CorruptSample.empty : CorruptSample := ⟨0, 0, 0, []⟩

structure Aggregator (D : Type) where
  totalLines : ℕ
  acceptedLines : ℕ
  oversizeLines : ℕ
  outOfRange : ℕ
  moduleTotals : Module → ℕ
  spdN : ℕ
  sum : D
  comp : D
  spdMin : D
  spdMax : D
  buckets : List (ℕ × BucketStat)
  lastKey : ℕ
  lastIndex : ℕ
  hasLast : Bool
  corrupt : Reason → CorruptSample
  rejectedModules : List (Bytes × ℕ)
  firstTs : Bytes
  lastTs : Bytes

variable {D : Type}

/-- `neumaier_add`: the sum and its compensation after one more value. -/
def neumaierAdd [DoubleOps D] (sum comp v : D) : D × D :=
  let t := sum + v
  if DoubleOps.le (DoubleOps.fabs v) (DoubleOps.fabs sum) then (t, comp + ((sum - t) + v))
  else (t, comp + ((v - t) + sum))

/-! ## Excerpts -/

/-- An upper case hexadecimal digit. -/
def hexDigit (n : ℕ) : UInt8 := UInt8.ofNat (if n < 10 then 48 + n else 55 + n)

/-- `\xNN`. -/
def escapeByte (c : UInt8) : Bytes := [92, 120, hexDigit (c.toNat / 16), hexDigit (c.toNat % 16)]

/-- The loop of `escape_excerpt`: it stops once `maxLen` bytes are written. -/
def escapeLoop (maxLen : ℕ) : Bytes → Bytes → Bytes
  | [], out => out
  | c :: line, out =>
    if out.length < maxLen then
      escapeLoop maxLen line (out ++ if 0x20 ≤ c && c < 0x7F then [c] else escapeByte c)
    else out

/-- `escape_excerpt`. -/
def escapeExcerpt (line : Bytes) (maxLen : ℕ := 160) : Bytes :=
  escapeLoop maxLen line [] ++ if maxLen < line.length then ascii "..." else []

/-- One more example of a reason; only the first is kept. -/
def CorruptSample.add (lineNo byteOffset : ℕ) (line : Bytes) (c : CorruptSample) : CorruptSample :=
  if c.count = 0 then ⟨1, lineNo, byteOffset, escapeExcerpt line⟩
  else { c with count := c.count + 1 }

@[simp] theorem CorruptSample.add_count (lineNo byteOffset : ℕ) (line : Bytes) (c : CorruptSample) :
    (c.add lineNo byteOffset line).count = c.count + 1 := by
  rw [add]
  split_ifs with h
  · rw [h]
  · rfl

theorem CorruptSample.add_of_pos {c : CorruptSample} (h : 0 < c.count) (lineNo byteOffset : ℕ)
    (line : Bytes) :
    (c.add lineNo byteOffset line).firstLineNo = c.firstLineNo ∧
      (c.add lineNo byteOffset line).firstByteOffset = c.firstByteOffset := by
  rw [add, if_neg (Nat.ne_of_gt h)]
  exact ⟨rfl, rfl⟩

namespace Aggregator

/-- A new aggregator, and one that was reset. -/
def empty [DoubleOps D] : Aggregator D :=
  { totalLines := 0, acceptedLines := 0, oversizeLines := 0, outOfRange := 0
    moduleTotals := fun _ ↦ 0
    spdN := 0, sum := DoubleOps.ofNat 0, comp := DoubleOps.ofNat 0, spdMin := DoubleOps.ofNat 0
    spdMax := DoubleOps.ofNat 0
    buckets := [], lastKey := 0, lastIndex := 0, hasLast := false
    corrupt := fun _ ↦ CorruptSample.empty
    rejectedModules := [], firstTs := [], lastTs := [] }

def reset [DoubleOps D] (_ : Aggregator D) : Aggregator D := empty

def addOversize (n : ℕ) (a : Aggregator D) : Aggregator D :=
  { a with oversizeLines := a.oversizeLines + n }

def rejectedLines (a : Aggregator D) : ℕ := a.totalLines - a.acceptedLines

def spdSum [DoubleOps D] (a : Aggregator D) : D := a.sum + a.comp

def spdAvg [DoubleOps D] (a : Aggregator D) : D :=
  if 0 < a.spdN then a.spdSum / DoubleOps.ofNat a.spdN else DoubleOps.ofNat 0

/-! ## Buckets -/

/-- `kMaxBuckets`. -/
def kMaxBuckets : ℕ := 10000

/-- `lower_bound` by key: the index of the first bucket whose key is not below `key`. -/
def lowerBound (key : ℕ) (buckets : List (ℕ × BucketStat)) : ℕ :=
  (buckets.takeWhile fun e ↦ e.1 < key).length

/-- Whether the bucket at `i` is the one for `key`. -/
def isAt (key i : ℕ) (buckets : List (ℕ × BucketStat)) : Bool :=
  (buckets[i]?.map fun e ↦ e.1) == some key

/-- `bucket_for`: the index of the bucket for `key`, which is inserted if there is none. -/
def bucketFor (key : ℕ) (a : Aggregator D) : ℕ × Aggregator D :=
  if a.hasLast && a.lastKey == key then (a.lastIndex, a)
  else
    let i := lowerBound key a.buckets
    let buckets :=
      if isAt key i a.buckets then a.buckets
      else a.buckets.take i ++ (key, BucketStat.empty) :: a.buckets.drop i
    (i, { a with buckets := buckets, lastKey := key, lastIndex := i, hasLast := true })

/-! ## Rejected lines -/

/-- `kMaxRejectedModules`. -/
def kMaxRejectedModules : ℕ := 64

/-- `++m[name]` on the map. -/
def countModule (name : Bytes) : List (Bytes × ℕ) → List (Bytes × ℕ)
  | [] => [(name, 1)]
  | (key, n) :: m =>
    if key = name then (key, n + 1) :: m
    else if name < key then (name, 1) :: (key, n) :: m
    else (key, n) :: countModule name m

/-- What becomes of the map of rejected modules: a new name only while there is room. -/
def rejectModule (name : Bytes) (m : List (Bytes × ℕ)) : List (Bytes × ℕ) :=
  if m.length < kMaxRejectedModules then countModule name m
  else if m.any (fun e ↦ e.1 == name) then countModule name m
  else m

/-- `record_reject`. -/
def recordReject (r : Reason) (line : Bytes) (byteOffset : ℕ) (token : Bytes)
    (a : Aggregator D) : Aggregator D :=
  { a with
    corrupt := Function.update a.corrupt r ((a.corrupt r).add a.totalLines byteOffset line)
    rejectedModules :=
      if r = .unknownModule && !token.isEmpty then rejectModule token a.rejectedModules
      else a.rejectedModules }

/-! ## Accepted lines -/

/-- The speed of an accepted line goes into the sum. -/
def addSpd [DoubleOps D] (v : D) (a : Aggregator D) : Aggregator D :=
  let s := neumaierAdd a.sum a.comp v
  { a with spdN := a.spdN + 1, sum := s.1, comp := s.2 }

/-- The speed of an accepted line goes into the extremes; `spdN` counts it already. -/
def widenSpd [DoubleOps D] (v : D) (a : Aggregator D) : Aggregator D :=
  if a.spdN = 1 then { a with spdMin := v, spdMax := v }
  else
    { a with spdMin := if DoubleOps.lt v a.spdMin then v else a.spdMin
             spdMax := if DoubleOps.lt a.spdMax v then v else a.spdMax }

/-- One more line of `module` in the bucket at `i`. -/
def countBucket (i : ℕ) (module : Module) (a : Aggregator D) : Aggregator D :=
  { a with buckets := a.buckets.modify i fun e ↦
      (e.1, { e.2 with
        moduleCount := Function.update e.2.moduleCount module (e.2.moduleCount module + 1)
        total := e.2.total + 1 }) }

/-- The counts of an accepted line that need no bucket. -/
def countAccepted (line : Bytes) (p : ParsedLine D) (a : Aggregator D) : Aggregator D :=
  let ts := (line.drop 1).take 26
  { a with
    acceptedLines := a.acceptedLines + 1
    firstTs := if a.firstTs.isEmpty then ts else a.firstTs
    lastTs := ts
    outOfRange := if p.spdOutOfRange then a.outOfRange + 1 else a.outOfRange
    moduleTotals := Function.update a.moduleTotals p.module (a.moduleTotals p.module + 1) }

/-- The bucket and the speed of an accepted line. No new bucket is made once there are
`kMaxBuckets`. -/
def tally [DoubleOps D] (p : ParsedLine D) (a : Aggregator D) : Aggregator D :=
  if kMaxBuckets ≤ a.buckets.length && !isAt p.bucket (lowerBound p.bucket a.buckets) a.buckets then
    if p.hasSpd then a.addSpd p.spd else a
  else
    let found := a.bucketFor p.bucket
    let a := found.2.countBucket found.1 p.module
    if p.hasSpd then (a.addSpd p.spd).widenSpd p.spd else a

/-- `add_line`. -/
def addLine [DoubleOps D] (line : Bytes) (byteOffset : ℕ) (a : Aggregator D) : Aggregator D :=
  let a := { a with totalLines := a.totalLines + 1 }
  match parseLogLine (D := D) line with
  | (.ok, p) => (a.countAccepted line p).tally p
  | (r, p) => a.recordReject r line byteOffset p.moduleToken

/-! ## What the operations leave alone -/

@[simp] theorem addOversize_totalLines (n : ℕ) (a : Aggregator D) :
    (a.addOversize n).totalLines = a.totalLines := rfl

@[simp] theorem addOversize_corrupt (n : ℕ) (a : Aggregator D) :
    (a.addOversize n).corrupt = a.corrupt := rfl

@[simp] theorem addOversize_oversizeLines (n : ℕ) (a : Aggregator D) :
    (a.addOversize n).oversizeLines = a.oversizeLines + n := rfl

/-- The two aggregators agree on the disposition of the lines. -/
structure SameDisposition (a b : Aggregator D) : Prop where
  totalLines : b.totalLines = a.totalLines
  acceptedLines : b.acceptedLines = a.acceptedLines
  oversizeLines : b.oversizeLines = a.oversizeLines
  corrupt : b.corrupt = a.corrupt

theorem SameDisposition.refl (a : Aggregator D) : SameDisposition a a := ⟨rfl, rfl, rfl, rfl⟩

theorem SameDisposition.trans {a b c : Aggregator D} (h : SameDisposition a b)
    (h' : SameDisposition b c) : SameDisposition a c :=
  ⟨h'.1.trans h.1, h'.2.trans h.2, h'.3.trans h.3, h'.4.trans h.4⟩

private theorem sameDisposition_bucketFor (key : ℕ) (a : Aggregator D) :
    SameDisposition a (a.bucketFor key).2 := by
  rw [bucketFor]
  split_ifs <;> exact ⟨rfl, rfl, rfl, rfl⟩

private theorem sameDisposition_countBucket (i : ℕ) (module : Module) (a : Aggregator D) :
    SameDisposition a (a.countBucket i module) := ⟨rfl, rfl, rfl, rfl⟩

section Lines

variable [DoubleOps D]

private theorem sameDisposition_addSpd (v : D) (a : Aggregator D) :
    SameDisposition a (a.addSpd v) :=
  ⟨rfl, rfl, rfl, rfl⟩

private theorem sameDisposition_widenSpd (v : D) (a : Aggregator D) :
    SameDisposition a (a.widenSpd v) := by
  rw [widenSpd]
  split_ifs <;> exact ⟨rfl, rfl, rfl, rfl⟩

theorem sameDisposition_tally (p : ParsedLine D) (a : Aggregator D) :
    SameDisposition a (a.tally p) := by
  have hbucket := (sameDisposition_bucketFor p.bucket a).trans
    (sameDisposition_countBucket (a.bucketFor p.bucket).1 p.module (a.bucketFor p.bucket).2)
  rw [tally]
  split_ifs
  · exact sameDisposition_addSpd p.spd a
  · exact SameDisposition.refl a
  · exact (hbucket.trans (sameDisposition_addSpd p.spd _)).trans (sameDisposition_widenSpd p.spd _)
  · exact hbucket

/-! ## A sequence of lines -/

/-- The reason with which a line is counted. -/
def reasonOf (D : Type) [DoubleOps D] (line : Bytes) : Reason := (parseLogLine (D := D) line).1

/-- The calls of `add_line` for lines and their offsets, in order. -/
def addLines (calls : List (Bytes × ℕ)) (a : Aggregator D) : Aggregator D :=
  calls.foldl (fun a c ↦ a.addLine c.1 c.2) a

theorem addLine_ok {line : Bytes} (h : reasonOf D line = .ok) (offset : ℕ) (a : Aggregator D) :
    (a.addLine line offset).totalLines = a.totalLines + 1 ∧
      (a.addLine line offset).acceptedLines = a.acceptedLines + 1 ∧
      (a.addLine line offset).oversizeLines = a.oversizeLines ∧
      (a.addLine line offset).corrupt = a.corrupt := by
  rw [reasonOf] at h
  rw [addLine]
  generalize parseLogLine (D := D) line = parsed at h ⊢
  obtain ⟨r, p⟩ := parsed
  obtain rfl : r = .ok := h
  obtain ⟨ht, ha, ho, hc⟩ := sameDisposition_tally p
    (countAccepted line p { a with totalLines := a.totalLines + 1 })
  exact ⟨ht, ha, ho, hc⟩

theorem addLine_reject {line : Bytes} {r : Reason} (h : reasonOf D line = r) (hr : r ≠ .ok)
    (offset : ℕ) (a : Aggregator D) :
    (a.addLine line offset).totalLines = a.totalLines + 1 ∧
      (a.addLine line offset).acceptedLines = a.acceptedLines ∧
      (a.addLine line offset).oversizeLines = a.oversizeLines ∧
      (a.addLine line offset).corrupt = Function.update a.corrupt r
        ((a.corrupt r).add (a.totalLines + 1) offset line) := by
  rw [reasonOf] at h
  rw [addLine]
  generalize parseLogLine (D := D) line = parsed at h ⊢
  obtain ⟨r', p⟩ := parsed
  obtain rfl : r' = r := h
  cases r' with
  | ok => exact absurd rfl hr
  | _ => exact ⟨rfl, rfl, rfl, rfl⟩

/-- The lines accepted and those rejected with each reason. -/
def disposed (a : Aggregator D) : ℕ :=
  a.acceptedLines + (Reason.rejections.map fun r ↦ (a.corrupt r).count).sum

omit [DoubleOps D] in
private theorem sum_update_rejections (f : Reason → CorruptSample) {r : Reason} (hr : r ≠ .ok)
    (c : CorruptSample) (hc : c.count = (f r).count + 1) :
    (Reason.rejections.map fun r' ↦ (Function.update f r c r').count).sum
      = (Reason.rejections.map fun r' ↦ (f r').count).sum + 1 := by
  cases r <;> simp [Reason.rejections, hc] at hr ⊢ <;> omega

/-- **One line is disposed of once**, and changes neither the count of oversize lines nor, unless
it is rejected with that reason, the example of a reason. -/
theorem addLine_disposed (line : Bytes) (offset : ℕ) (a : Aggregator D) :
    (a.addLine line offset).totalLines = a.totalLines + 1 ∧
      (a.addLine line offset).disposed = a.disposed + 1 ∧
      (a.addLine line offset).oversizeLines = a.oversizeLines := by
  by_cases hr : reasonOf D line = .ok
  · obtain ⟨ht, ha, ho, hc⟩ := addLine_ok hr offset a
    refine ⟨ht, ?_, ho⟩
    rw [disposed, disposed, ha, hc]
    omega
  · obtain ⟨ht, ha, ho, hc⟩ := addLine_reject rfl hr offset a
    refine ⟨ht, ?_, ho⟩
    rw [disposed, disposed, ha, hc, sum_update_rejections a.corrupt hr _
      (CorruptSample.add_count ..)]
    omega

theorem addLines_disposed (calls : List (Bytes × ℕ)) (a : Aggregator D) :
    (a.addLines calls).totalLines = a.totalLines + calls.length ∧
      (a.addLines calls).disposed = a.disposed + calls.length ∧
      (a.addLines calls).oversizeLines = a.oversizeLines := by
  induction calls generalizing a with
  | nil => exact ⟨rfl, rfl, rfl⟩
  | cons c calls ih =>
    obtain ⟨ht, hd, ho⟩ := ih (a.addLine c.1 c.2)
    obtain ⟨ht', hd', ho'⟩ := addLine_disposed c.1 c.2 a
    rw [List.length_cons]
    exact ⟨by rw [addLines, List.foldl_cons, ← addLines, ht, ht']; omega,
      by rw [addLines, List.foldl_cons, ← addLines, hd, hd']; omega,
      by rw [addLines, List.foldl_cons, ← addLines, ho, ho']⟩

theorem disposed_empty : (empty : Aggregator D).disposed = 0 := rfl

/-- What happens to the example of `r` when a line is added. -/
theorem addLine_corrupt (line : Bytes) (offset : ℕ) (a : Aggregator D) {r : Reason} (hr : r ≠ .ok) :
    (a.addLine line offset).corrupt r =
      if reasonOf D line = r then (a.corrupt r).add (a.totalLines + 1) offset line
      else a.corrupt r := by
  by_cases hok : reasonOf D line = .ok
  · rw [(addLine_ok hok offset a).2.2.2, if_neg (by rw [hok]; exact Ne.symm hr)]
  · rw [(addLine_reject rfl hok offset a).2.2.2]
    split_ifs with h
    · rw [h, Function.update_self]
    · rw [Function.update_of_ne (Ne.symm h)]

/-- **The counts of the reasons are the numbers of their lines.** -/
theorem addLines_count (calls : List (Bytes × ℕ)) (a : Aggregator D) {r : Reason} (hr : r ≠ .ok) :
    ((a.addLines calls).corrupt r).count
      = (a.corrupt r).count + calls.countP fun c ↦ reasonOf D c.1 = r := by
  induction calls generalizing a with
  | nil => rfl
  | cons c calls ih =>
    rw [addLines, List.foldl_cons, ← addLines, ih, addLine_corrupt c.1 c.2 a hr, List.countP_cons]
    by_cases h : reasonOf D c.1 = r
    · rw [if_pos h, CorruptSample.add_count, if_pos (decide_eq_true h)]
      omega
    · rw [if_neg h, if_neg (by simpa using h)]
      omega

/-- An example that is there stays. -/
theorem addLines_first_of_pos (calls : List (Bytes × ℕ)) {a : Aggregator D} {r : Reason}
    (hr : r ≠ .ok) (h : 0 < (a.corrupt r).count) :
    ((a.addLines calls).corrupt r).firstLineNo = (a.corrupt r).firstLineNo ∧
      ((a.addLines calls).corrupt r).firstByteOffset = (a.corrupt r).firstByteOffset := by
  induction calls generalizing a with
  | nil => exact ⟨rfl, rfl⟩
  | cons c calls ih =>
    rw [addLines, List.foldl_cons, ← addLines]
    have hcorrupt := addLine_corrupt c.1 c.2 a hr
    split_ifs at hcorrupt with hc
    · obtain ⟨hline, hoffset⟩ := ih (a := a.addLine c.1 c.2) (by rw [hcorrupt]; simp)
      rw [hline, hoffset, hcorrupt]
      exact CorruptSample.add_of_pos h _ _ _
    · rw [← hcorrupt] at h ⊢
      exact ih h

/-- **The example of a reason is its first line**: `before` are the lines up to it. -/
theorem addLines_first {before after : List (Bytes × ℕ)} {c : Bytes × ℕ} {a : Aggregator D}
    {r : Reason} (hr : r ≠ .ok) (ha : (a.corrupt r).count = 0)
    (hbefore : ∀ b ∈ before, reasonOf D b.1 ≠ r) (hc : reasonOf D c.1 = r) :
    ((a.addLines (before ++ c :: after)).corrupt r).firstLineNo
        = a.totalLines + before.length + 1 ∧
      ((a.addLines (before ++ c :: after)).corrupt r).firstByteOffset = c.2 := by
  have hzero : ((a.addLines before).corrupt r).count = 0 := by
    rw [addLines_count before a hr, ha, List.countP_eq_zero.mpr fun b hb ↦
      by simpa using hbefore b hb]
  have hsample := addLine_corrupt c.1 c.2 (a.addLines before) hr
  rw [if_pos hc, CorruptSample.add, if_pos hzero] at hsample
  rw [addLines, List.foldl_append, List.foldl_cons, ← addLines, ← addLines]
  obtain ⟨hline, hoffset⟩ := addLines_first_of_pos after
    (a := (a.addLines before).addLine c.1 c.2) hr (by rw [hsample]; simp)
  rw [hline, hoffset, hsample, (addLines_disposed before a).1]
  exact ⟨rfl, rfl⟩

end Lines

end Aggregator

end LoggerAnalyzer
