import LoggerAnalyzer.Analyze.CsvWriter
import LoggerAnalyzer.Parse.LineSplitter

/-!
# Analysing an upload

Between the session and the aggregator stands the splitter, and between two calls of the aggregator
the session moves a line offset on by the bytes of the line. This module puts the three together:
`onLine` is the session's callback, and `analyzed` is the aggregator at the end of an upload whose
bytes came in the fragments `frags`.

## Positions

The aggregator numbers the lines it is given and the session adds up their bytes. A line that the
splitter drops is given to nobody, so from there on both counts are behind. `UploadLine` lists all
lines of the stream, dropped or not, which is what the positions are compared with.
-/

namespace LoggerAnalyzer

open Delimited LineSplitter

variable {D : Type} [DoubleOps D]

/-! ## The callback -/

/-- What the session does with a line: the aggregator, and the offset of the next line. -/
def onLine (line : Bytes) (rawBytes : ℕ) : Aggregator D × ℕ → Aggregator D × ℕ
  | (a, offset) => (a.addLine line offset, offset + rawBytes)

/-- Lines with the offset of each, counted from `offset` on. -/
def atOffsets : ℕ → List (Bytes × ℕ) → List (Bytes × ℕ)
  | _, [] => []
  | offset, (line, raw) :: ls => (line, offset) :: atOffsets (offset + raw) ls

@[simp] theorem length_atOffsets (offset : ℕ) (ls : List (Bytes × ℕ)) :
    (atOffsets offset ls).length = ls.length := by
  induction ls generalizing offset with
  | nil => rfl
  | cons l ls ih => rw [atOffsets, List.length_cons, ih, List.length_cons]

theorem map_fst_atOffsets (offset : ℕ) (ls : List (Bytes × ℕ)) :
    (atOffsets offset ls).map Prod.fst = ls.map Prod.fst := by
  induction ls generalizing offset with
  | nil => rfl
  | cons l ls ih => rw [atOffsets, List.map_cons, ih, List.map_cons]

private theorem atOffsets_append (offset : ℕ) (ls ls' : List (Bytes × ℕ)) :
    atOffsets offset (ls ++ ls')
      = atOffsets offset ls ++ atOffsets (offset + (ls.map Prod.snd).sum) ls' := by
  induction ls generalizing offset with
  | nil => rfl
  | cons l ls ih =>
    rw [List.cons_append, atOffsets, ih, atOffsets, List.map_cons, List.sum_cons, List.cons_append,
      Nat.add_assoc]

theorem foldl_onLine (ls : List (Bytes × ℕ)) (a : Aggregator D) (offset : ℕ) :
    ls.foldl (fun s l ↦ onLine l.1 l.2 s) (a, offset)
      = (a.addLines (atOffsets offset ls), offset + (ls.map Prod.snd).sum) := by
  induction ls generalizing a offset with
  | nil => rfl
  | cons l ls ih =>
    rw [List.foldl_cons, onLine, ih, atOffsets, List.map_cons, List.sum_cons, ← Nat.add_assoc]
    rfl

/-! ## The whole upload -/

/-- The splitter, the aggregator and the line offset once all fragments are in. -/
def fed (D : Type) [DoubleOps D] (frags : List Bytes) : LineSplitter × Aggregator D × ℕ :=
  feeds onLine frags (new kDefaultMaxLine, Aggregator.empty, 0)

/-- The aggregator of which the result is made. -/
def analyzed (D : Type) [DoubleOps D] (frags : List Bytes) : Aggregator D :=
  let st := finish onLine (fed D frags)
  st.2.1.addOversize st.1.oversize

/-- The calls that the fragments of an upload lead to. -/
def uploadCalls (frags : List Bytes) : List (Bytes × ℕ) :=
  keptLines kDefaultMaxLine (fragMarks newline [] frags)
    ++ lastLine kDefaultMaxLine (rest newline frags.flatten)

/-- The oversize lines that the splitter counts. -/
def uploadOversize (frags : List Bytes) : ℕ :=
  dropped kDefaultMaxLine (fragMarks newline [] frags)
    + overNow kDefaultMaxLine (rest newline frags.flatten)

theorem advance_fed (frags : List Bytes) :
    Advance onLine (new kDefaultMaxLine, (Aggregator.empty : Aggregator D), 0) (fed D frags) []
      (fragMarks newline [] frags) (rest newline frags.flatten) :=
  advance_feeds_new onLine kDefaultMaxLine (Aggregator.empty, 0) frags

theorem fed_maxLine (frags : List Bytes) : (fed D frags).1.maxLine = kDefaultMaxLine :=
  (advance_fed frags).maxLine

theorem fed_oversize (frags : List Bytes) : (fed D frags).1.oversize = uploadOversize frags := by
  have h := (advance_fed (D := D) frags).oversize
  rwa [overNow_nil, Nat.add_zero, new, Nat.zero_add] at h

theorem fed_calls (frags : List Bytes) :
    (fed D frags).2 = (keptLines kDefaultMaxLine (fragMarks newline [] frags)).foldl
      (fun s l ↦ onLine l.1 l.2 s) (Aggregator.empty, 0) := (advance_fed frags).calls

/-- The aggregator has counted the lines that the splitter has handed over. -/
theorem fed_totalLines (frags : List Bytes) :
    (fed D frags).2.1.totalLines = (fed D frags).1.lines := by
  rw [fed_calls, foldl_onLine, (advance_fed frags).lines]
  calc _ = 0 + (atOffsets _ _).length := (Aggregator.addLines_disposed _ _).1
    _ = _ := congrArg (0 + ·) (length_atOffsets _ _)

/-- **The aggregator at the end of an upload.** -/
theorem analyzed_eq (frags : List Bytes) :
    analyzed D frags
      = ((Aggregator.empty : Aggregator D).addLines (atOffsets 0 (uploadCalls frags))).addOversize
          (uploadOversize frags) := by
  have hadv := advance_fed (D := D) frags
  have hend := finish_eq (onLine (D := D)) hadv.tracks (fed D frags).2
  rw [fed_maxLine] at hend
  have hstate : (finish onLine (fed D frags)).2
      = (uploadCalls frags).foldl (fun s l ↦ onLine l.1 l.2 s) (Aggregator.empty, 0) := by
    refine hend.1.trans ?_
    rw [fed_calls, ← List.foldl_append, uploadCalls]
  rw [analyzed, hstate, foldl_onLine, ← fed_oversize (D := D)]
  exact congrArg (fun n ↦ Aggregator.addOversize n _) hend.2.1

/-! ## The sum of the dispositions -/

/-- No line over the limit is cut by the end of a fragment; a line without its newline counts as
cut by the end of the stream. -/
def NoOverlongCut (frags : List Bytes) : Prop :=
  (∀ m ∈ fragMarks newline [] frags, m.2 = false → m.1.length ≤ kDefaultMaxLine) ∧
    (rest newline frags.flatten).length ≤ kDefaultMaxLine

theorem uploadOversize_eq_zero_iff (frags : List Bytes) :
    uploadOversize frags = 0 ↔ NoOverlongCut frags := by
  rw [uploadOversize, Nat.add_eq_zero_iff, dropped, List.countP_eq_zero, NoOverlongCut]
  refine and_congr (forall₂_congr fun m _ ↦ ?_) ?_
  · rw [kept]
    cases m.2 <;> simp
  · rw [overNow]
    split_ifs with h
    · simp [Nat.not_le.mpr h]
    · simp [Nat.not_lt.mp h]

/-- **Where no over-long line is cut, nothing of the upload is lost**: the offset of the next line
and what is carried of that line add up to the bytes of the fragments. -/
theorem fed_offset {frags : List Bytes} (h : NoOverlongCut frags) :
    (fed D frags).2.2 + (fed D frags).1.carry.length = frags.flatten.length := by
  have hcarry : (fed D frags).1.carry = rest newline frags.flatten := by
    rw [(advance_fed frags).tracks.carry, fed_maxLine, if_pos h.2]
  have hall : ∀ m ∈ fragMarks newline [] frags, LineSplitter.kept kDefaultMaxLine m = true :=
    fun m hm ↦ by
      rw [LineSplitter.kept]
      cases hmark : m.2 with
      | true => rfl
      | false => simpa using h.1 m hm hmark
  -- all pieces are handed over, and with the rest they are the stream
  have hstream := congrArg List.length (flatMap_pieces_append_rest (d := newline) frags.flatten)
  have hfst := fragMarks_fst (d := newline) (t := []) (by simp) frags
  rw [List.nil_append] at hfst
  have hraw : ((keptLines kDefaultMaxLine (fragMarks newline [] frags)).map Prod.snd).sum
      = ((pieces newline frags.flatten).flatMap (· ++ [newline])).length := by
    rw [keptLines, List.filter_eq_self.mpr hall, ← hfst, List.length_flatMap, List.map_map,
      List.map_map]
    refine congrArg List.sum (List.map_congr_left fun m _ ↦ ?_)
    simp
  rw [hcarry, fed_calls, foldl_onLine, hraw, ← hstream, List.length_append, Nat.zero_add]

/-- **The dispositions add up to the number of lines exactly when no over-long line is cut.** -/
theorem dispositionTotal_analyzed_iff (frags : List Bytes) :
    dispositionTotal (analyzed D frags) = (analyzed D frags).totalLines ↔ NoOverlongCut frags := by
  rw [analyzed_eq, dispositionTotal_addLines, ← uploadOversize_eq_zero_iff]
  omega

/-! ## Files without over-long lines -/

/-- No line of the file is over the limit. -/
def ShortLines (file : Bytes) : Prop :=
  (∀ line ∈ pieces newline file, line.length ≤ kDefaultMaxLine) ∧
    (rest newline file).length ≤ kDefaultMaxLine

/-- The lines of a file, each with its offset in the file. -/
def fileLines (file : Bytes) : List (Bytes × ℕ) :=
  atOffsets 0 ((pieces newline file).map (fun line ↦ (stripCr line, line.length + 1))
    ++ if rest newline file = [] then []
      else [(stripCr (rest newline file), (rest newline file).length)])

theorem noOverlongCut_of_shortLines {frags : List Bytes} (h : ShortLines frags.flatten) :
    NoOverlongCut frags := by
  have hfst := fragMarks_fst (d := newline) (t := []) (by simp) frags
  rw [List.nil_append] at hfst
  refine ⟨fun m hm _ ↦ h.1 m.1 ?_, h.2⟩
  rw [← hfst]
  exact List.mem_map_of_mem hm

/-- All its complete lines are handed over. -/
theorem keptLines_of_shortLines {frags : List Bytes} (h : ShortLines frags.flatten) :
    keptLines kDefaultMaxLine (fragMarks newline [] frags)
      = (pieces newline frags.flatten).map fun line ↦ (stripCr line, line.length + 1) := by
  have hfst := fragMarks_fst (d := newline) (t := []) (by simp) frags
  rw [List.nil_append] at hfst
  have hkept : ∀ m ∈ fragMarks newline [] frags,
      LineSplitter.kept kDefaultMaxLine m = true := fun m hm ↦ by
    have hlen := h.1 m.1 (hfst ▸ List.mem_map_of_mem hm)
    rw [LineSplitter.kept, decide_eq_true hlen, Bool.or_true]
  rw [keptLines, List.filter_eq_self.mpr hkept, ← hfst, List.map_map]
  rfl

/-- **A file without over-long lines** is analysed line by line, however it is cut. -/
theorem analyzed_of_shortLines {frags : List Bytes} (h : ShortLines frags.flatten) :
    analyzed D frags = (Aggregator.empty : Aggregator D).addLines (fileLines frags.flatten) := by
  have hlast : lastLine kDefaultMaxLine (rest newline frags.flatten)
      = if rest newline frags.flatten = [] then []
        else [(stripCr (rest newline frags.flatten), (rest newline frags.flatten).length)] := by
    rw [lastLine]
    exact if_congr (or_iff_left (Nat.not_lt.mpr h.2)) rfl rfl
  rw [analyzed_eq, (uploadOversize_eq_zero_iff frags).mpr (noOverlongCut_of_shortLines h),
    uploadCalls, keptLines_of_shortLines h, hlast]
  rfl

/-! ## The positions of the examples -/

/-- A line of an upload: what the aggregator gets to see of it, its bytes with the newline, and
whether the aggregator gets to see it. -/
structure UploadLine where
  text : Bytes
  raw : ℕ
  kept : Bool
deriving DecidableEq, Repr

/-- All lines of an upload in order. -/
def uploadLines (frags : List Bytes) : List UploadLine :=
  (fragMarks newline [] frags).map (fun m ↦
      ⟨stripCr m.1, m.1.length + 1, LineSplitter.kept kDefaultMaxLine m⟩)
    ++ if rest newline frags.flatten = [] then []
      else [⟨stripCr (rest newline frags.flatten), (rest newline frags.flatten).length,
        decide ((rest newline frags.flatten).length ≤ kDefaultMaxLine)⟩]

theorem uploadCalls_eq (frags : List Bytes) :
    uploadCalls frags
      = ((uploadLines frags).filter UploadLine.kept).map fun l ↦ (l.text, l.raw) := by
  rw [uploadCalls, uploadLines, List.filter_append, List.map_append, keptLines, List.filter_map,
    List.map_map]
  congr 1
  rw [lastLine]
  by_cases hnil : rest newline frags.flatten = []
  · rw [if_pos (Or.inl hnil), if_pos hnil]
    rfl
  · rw [if_neg hnil]
    by_cases hlong : kDefaultMaxLine < (rest newline frags.flatten).length
    · rw [if_pos (Or.inr hlong), List.filter_cons_of_neg (by simpa using hlong)]
      rfl
    · rw [if_neg (not_or.mpr ⟨hnil, hlong⟩),
        List.filter_cons_of_pos (by simpa using Nat.not_lt.mp hlong)]
      rfl

/-- `l` is the first line the aggregator rejects with `r`, and `before` are the lines of the stream
up to it. -/
structure FirstRejected (D : Type) [DoubleOps D] (r : Reason) (ls before : List UploadLine)
    (l : UploadLine) : Prop where
  split : ∃ after, ls = before ++ l :: after
  kept : l.kept = true
  rejected : Aggregator.reasonOf D l.text = r
  first : ∀ b ∈ before, b.kept = true → Aggregator.reasonOf D b.text ≠ r

/-- The examples of `a` are where they are said to be in the stream with the lines `ls`: every
reason that is counted has a first line, and its example has the number of that line among the lines
of the stream and its offset in it. -/
def PointsRight (a : Aggregator D) (ls : List UploadLine) : Prop :=
  ∀ r ≠ Reason.ok, 0 < (a.corrupt r).count →
    (∃ before l, FirstRejected D r ls before l) ∧
      ∀ before l, FirstRejected D r ls before l →
        (a.corrupt r).firstLineNo = before.length + 1 ∧
          (a.corrupt r).firstByteOffset = (before.map UploadLine.raw).sum

/-- No line is dropped before the first line rejected with any one reason. -/
def NoDropBeforeFirst (D : Type) [DoubleOps D] (ls : List UploadLine) : Prop :=
  ∀ r ≠ Reason.ok, ∀ before l, FirstRejected D r ls before l → ∀ b ∈ before, b.kept = true

theorem count_analyzed {r : Reason} (hr : r ≠ .ok) (frags : List Bytes) :
    ((analyzed D frags).corrupt r).count
      = (uploadLines frags).countP fun l ↦ l.kept && decide (Aggregator.reasonOf D l.text = r) := by
  have hfst : ∀ ls : List (Bytes × ℕ), ls.countP (fun c ↦ decide (Aggregator.reasonOf D c.1 = r))
      = (ls.map Prod.fst).countP fun line ↦ decide (Aggregator.reasonOf D line = r) := fun ls ↦ by
    rw [List.countP_map]
    rfl
  rw [analyzed_eq, Aggregator.addOversize_corrupt, Aggregator.addLines_count _ _ hr, hfst,
    map_fst_atOffsets, uploadCalls_eq, List.map_map, List.countP_map, List.countP_filter]
  refine (Nat.zero_add _).trans (List.countP_congr fun l _ ↦ ?_)
  rw [Function.comp_apply, Bool.and_comm]
  rfl

/-- A reason that is counted has a first line. -/
theorem exists_firstRejected {frags : List Bytes} {r : Reason} (hr : r ≠ .ok)
    (h : 0 < ((analyzed D frags).corrupt r).count) :
    ∃ before l, FirstRejected D r (uploadLines frags) before l := by
  rw [count_analyzed hr, List.countP_pos_iff] at h
  obtain ⟨l, hl⟩ := Option.isSome_iff_exists.mp (List.find?_isSome.mpr h)
  obtain ⟨hmatch, before, after, hsplit, hbefore⟩ := List.find?_eq_some_iff_append.mp hl
  rw [Bool.and_eq_true, decide_eq_true_eq] at hmatch
  refine ⟨before, l, ⟨after, hsplit⟩, hmatch.1, hmatch.2, fun b hb hkept hreason ↦ ?_⟩
  simpa [hkept, hreason] using hbefore b hb

/-- Where the example of `r` is said to be: the dropped lines before it are not there. -/
theorem corrupt_analyzed {frags : List Bytes} {r : Reason} (hr : r ≠ .ok)
    {before : List UploadLine} {l : UploadLine}
    (h : FirstRejected D r (uploadLines frags) before l) :
    ((analyzed D frags).corrupt r).firstLineNo
        = (before.filter UploadLine.kept).length + 1 ∧
      ((analyzed D frags).corrupt r).firstByteOffset
        = ((before.filter UploadLine.kept).map UploadLine.raw).sum := by
  obtain ⟨⟨after, hsplit⟩, hkept, hrejected, hfirst⟩ := h
  -- the line is handed over behind those that were kept before it
  have hcalls : uploadCalls frags = (before.filter UploadLine.kept).map (fun l ↦ (l.text, l.raw))
      ++ (l.text, l.raw) :: (after.filter UploadLine.kept).map fun l ↦ (l.text, l.raw) := by
    rw [uploadCalls_eq, hsplit, List.filter_append, List.filter_cons_of_pos hkept, List.map_append,
      List.map_cons]
  have hbefore : ∀ b ∈ atOffsets 0 ((before.filter UploadLine.kept).map fun l ↦ (l.text, l.raw)),
      Aggregator.reasonOf D b.1 ≠ r := by
    intro b hb
    have hmem := List.mem_map_of_mem (f := Prod.fst) hb
    rw [map_fst_atOffsets, List.map_map, List.mem_map] at hmem
    obtain ⟨b', hb', htext⟩ := hmem
    rw [List.mem_filter] at hb'
    rw [← htext]
    exact hfirst b' hb'.1 hb'.2
  rw [analyzed_eq, Aggregator.addOversize_corrupt, hcalls, atOffsets_append, atOffsets]
  have hempty : ((Aggregator.empty : Aggregator D).corrupt r).count = 0 := rfl
  obtain ⟨hline, hoffset⟩ := Aggregator.addLines_first (c := (l.text, 0 +
    (((before.filter UploadLine.kept).map fun l ↦ (l.text, l.raw)).map Prod.snd).sum)) hr hempty
    hbefore hrejected
  rw [hline, hoffset]
  constructor
  · rw [length_atOffsets, List.length_map]
    exact congrArg (· + 1) (Nat.zero_add _)
  · rw [List.map_map, Nat.zero_add]
    rfl

/-- **The examples point right exactly when nothing is dropped before them.** -/
theorem pointsRight_iff (frags : List Bytes) :
    PointsRight (analyzed D frags) (uploadLines frags)
      ↔ NoDropBeforeFirst D (uploadLines frags) := by
  have hlen : ∀ before : List UploadLine,
      (before.filter UploadLine.kept).length = before.length ↔ ∀ b ∈ before, b.kept = true :=
    fun before ↦ by rw [List.length_filter_eq_length_iff]
  constructor
  · intro h r hr before l hl
    have hcount : 0 < ((analyzed D frags).corrupt r).count := by
      obtain ⟨after, hsplit⟩ := hl.split
      rw [count_analyzed hr, List.countP_pos_iff]
      refine ⟨l, ?_, ?_⟩
      · rw [hsplit]
        simp
      · rw [hl.kept, hl.rejected, decide_eq_true rfl]
        rfl
    have hline := ((h r hr hcount).2 before l hl).1
    rw [(corrupt_analyzed hr hl).1] at hline
    exact (hlen before).mp (Nat.succ.inj hline)
  · intro h r hr hcount
    refine ⟨exists_firstRejected hr hcount, fun before l hl ↦ ?_⟩
    have hall := h r hr before l hl
    obtain ⟨hline, hoffset⟩ := corrupt_analyzed hr hl
    have hsame : before.filter UploadLine.kept = before := List.filter_eq_self.mpr hall
    rw [hsame] at hline hoffset
    exact ⟨hline, hoffset⟩

end LoggerAnalyzer
