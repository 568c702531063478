import LoggerAnalyzer.Session.Transport

/-!
# What a result says

The result of an upload ends the table of dispositions with a sum, and gives for each reason an
example with its place in the upload. Both are right for some uploads and wrong for others, and it
is the oversize lines that decide.

The splitter counts an oversize line and hands it to nobody. So the line is in the sum but not among
the lines, and the lines after it are thought to be where it was.
-/

namespace LoggerAnalyzer

open Conversation TcpSession Delimited LineSplitter

variable {D : Type} [DoubleOps D]

/-! ## The sum of the dispositions -/

/-- What a result says of the lines of the upload and of their sum. -/
theorem statesSums_result {config : SessionConfig} {env : Env} {s : TcpSession D}
    (h : Reached config env s) (hcsv : s.upload.resultCsv ≠ []) :
    StatesSums s.upload.agg.totalLines (dispositionTotal s.upload.agg) s.upload.resultCsv := by
  obtain ⟨-, utcNow, ctx, hresult⟩ := h.analysed.result hcsv
  exact hresult ▸ statesSums_buildResultCsv utcNow s.upload.agg ctx

/-- **The sum in a result is the number of lines** exactly when no over-long line of the upload was
cut. -/
theorem result_addsUp_iff {config : SessionConfig} {env : Env} {s : TcpSession D}
    (h : Reached config env s) (hcsv : s.upload.resultCsv ≠ []) :
    ∃ utcNow ctx, s.upload.resultCsv = buildResultCsv utcNow s.upload.agg ctx ∧
      StatesSums s.upload.agg.totalLines (dispositionTotal s.upload.agg) s.upload.resultCsv ∧
      (decimal (dispositionTotal s.upload.agg) = decimal s.upload.agg.totalLines
        ↔ NoOverlongCut (uploadPieces s.timeline)) := by
  obtain ⟨hagg, utcNow, ctx, hresult⟩ := h.analysed.result hcsv
  have hagg : s.upload.agg = analyzed D (uploadPieces s.timeline) := hagg
  refine ⟨utcNow, ctx, hresult, statesSums_result h hcsv, ?_⟩
  rw [decimal_injective.eq_iff, hagg]
  exact dispositionTotal_analyzed_iff _

theorem csv_uploadRun {chunks : List Bytes} (hne : chunks.flatten ≠ [])
    (hsize : chunks.flatten.length < 2 ^ 64) (hchunks : Sendable chunks) :
    (uploadRun D chunks).upload.resultCsv ≠ [] :=
  csv_ne_nil (atHand_uploadRun hne hsize hchunks)

theorem result_addsUp_one_line :
    let s := uploadRun ℚ [ascii "a\n"]
    ∃ utcNow ctx, s.upload.resultCsv = buildResultCsv utcNow s.upload.agg ctx ∧
      StatesSums s.upload.agg.totalLines (dispositionTotal s.upload.agg) s.upload.resultCsv ∧
      (decimal (dispositionTotal s.upload.agg) = decimal s.upload.agg.totalLines
        ↔ NoOverlongCut (uploadPieces s.timeline)) :=
  result_addsUp_iff (reached_uploadRun _) (csv_uploadRun (by decide) (by decide) (by decide))

/-- After a file that is one over-long line the sum counts a line and the summary none. -/
theorem not_addsUp_of_overlong {config : SessionConfig} {env : Env} {s : TcpSession D}
    (h : Reached config env s) {line : Bytes} (hatHand : AtHand [line] s.conversation)
    (hline : newline ∉ line) (hlong : kDefaultMaxLine < line.length) :
    decimal (dispositionTotal s.upload.agg) ≠ decimal s.upload.agg.totalLines := by
  have hagg : s.upload.agg = analyzed D (uploadPieces s.timeline) :=
    (h.analysed.result hatHand.csv).1
  have hpieces : (uploadPieces s.timeline).flatten = line :=
    hatHand.cut.flatten.trans List.flatten_singleton
  intro hsame
  rw [decimal_injective.eq_iff, hagg] at hsame
  have hshort := ((dispositionTotal_analyzed_iff _).mp hsame).2
  rw [hpieces, rest_of_notMem hline] at hshort
  exact absurd hlong (Nat.not_lt.mpr hshort)

theorem not_result_addsUp_overlong :
    let s := uploadRun ℚ [List.replicate 8193 97]
    StatesSums s.upload.agg.totalLines (dispositionTotal s.upload.agg) s.upload.resultCsv ∧
      decimal (dispositionTotal s.upload.agg) ≠ decimal s.upload.agg.totalLines := by
  have hlen : (List.replicate 8193 (97 : UInt8)).length = 8193 := List.length_replicate
  have hline : newline ∉ List.replicate 8193 (97 : UInt8) := fun h ↦
    absurd (List.eq_of_mem_replicate h) (by decide)
  generalize List.replicate 8193 (97 : UInt8) = line at hlen hline
  have hatHand : AtHand [line] (uploadRun ℚ [line]).conversation := by
    refine atHand_uploadRun ?_ ?_ fun chunk hchunk ↦ ?_
    · rw [List.flatten_singleton, ← List.length_pos_iff, hlen]
      decide
    · rw [List.flatten_singleton, hlen]
      decide
    · rw [List.mem_singleton.mp hchunk, ← List.length_pos_iff, hlen]
      decide
  exact ⟨statesSums_result (reached_uploadRun _) (csv_ne_nil hatHand),
    not_addsUp_of_overlong (reached_uploadRun _) hatHand hline (by rw [hlen]; decide)⟩

/-! ## The places of the examples -/

/-- **The examples in a result are where they are said to be** exactly when no line is dropped
before the first line that is rejected with the same reason. -/
theorem result_pointsRight_iff {config : SessionConfig} {env : Env} {s : TcpSession D}
    (h : Reached config env s) (hcsv : s.upload.resultCsv ≠ []) :
    PointsRight s.upload.agg (uploadLines (uploadPieces s.timeline))
      ↔ NoDropBeforeFirst D (uploadLines (uploadPieces s.timeline)) := by
  have hagg : s.upload.agg = analyzed D (uploadPieces s.timeline) := (h.analysed.result hcsv).1
  rw [hagg]
  exact pointsRight_iff _

theorem result_pointsRight_one_line :
    let s := uploadRun ℚ [ascii "a\n"]
    PointsRight s.upload.agg (uploadLines (uploadPieces s.timeline))
      ↔ NoDropBeforeFirst ℚ (uploadLines (uploadPieces s.timeline)) :=
  result_pointsRight_iff (reached_uploadRun _) (csv_uploadRun (by decide) (by decide) (by decide))

/-- The lines of a file whose first line is over-long and cut by a boundary: the others are those
of the file without it. -/
theorem uploadLines_overlong {line file : Bytes} (hline : newline ∉ line)
    (hlong : kDefaultMaxLine < line.length) (hfile : ShortLines file) {pieces : List Bytes}
    (h : Cut [line, newline :: file] pieces) :
    ∃ ls, uploadLines pieces = ⟨stripCr line, line.length + 1, false⟩ :: ls ∧
      ls.map UploadLine.text = (fileLines file).map Prod.fst ∧ ∀ l ∈ ls, l.kept = true := by
  obtain ⟨parts, hparts, rfl⟩ := h
  obtain ⟨first, parts, rfl, hfirst, hparts⟩ := List.map_eq_cons_iff.mp hparts
  obtain ⟨second, parts, rfl, hsecond, hparts⟩ := List.map_eq_cons_iff.mp hparts
  obtain rfl := List.map_eq_nil_iff.mp hparts
  have hne : line ≠ [] := List.ne_nil_of_length_pos (by omega)
  -- the long line comes in one piece up to its newline, so the pieces after it are as before
  have hmarks : fragMarks newline [] (first ++ second) = fragMarks newline line second := by
    rw [fragMarks_append_of_notMem (by simp) (hfirst ▸ hline), List.nil_append, hfirst]
  have hfst : (fragMarks newline line second).map Prod.fst = line :: pieces newline file := by
    rw [fragMarks_fst hline, hsecond, pieces_append_cons hline]
  have hrest : rest newline [first, second].flatten.flatten = rest newline file := by
    rw [List.flatten_cons, List.flatten_singleton, List.flatten_append, hfirst, hsecond,
      rest_append_cons]
  obtain ⟨m, ms, hm, hfst₁, hfst⟩ := List.map_eq_cons_iff.mp hfst
  -- it is complete in a fragment that it did not begin in
  have hdropped : LineSplitter.kept kDefaultMaxLine m = false := by
    rw [LineSplitter.kept, fragMarks_head hne hm, hfst₁, Bool.false_or, decide_eq_false_iff_not]
    exact Nat.not_le.mpr hlong
  rw [uploadLines, hrest, List.flatten_cons, List.flatten_singleton, hmarks, hm, List.map_cons,
    hdropped, hfst₁, List.cons_append]
  refine ⟨_, rfl, ?_, fun l hl ↦ ?_⟩
  · rw [fileLines, map_fst_atOffsets, List.map_append, List.map_append, List.map_map, List.map_map,
      ← hfst, List.map_map]
    congr 1
    split_ifs <;> rfl
  · rw [List.mem_append, List.mem_map] at hl
    rcases hl with ⟨m', hm', rfl⟩ | hl
    · have hshort : m'.1.length ≤ kDefaultMaxLine :=
        hfile.1 _ (hfst ▸ List.mem_map_of_mem hm')
      rw [LineSplitter.kept, decide_eq_true hshort, Bool.or_true]
    · split_ifs at hl with hnil
      · exact absurd hl List.not_mem_nil
      · rw [List.mem_singleton.mp hl]
        exact decide_eq_true hfile.2

/-- After such a file, the example of a line that is rejected is said to be too near the top. -/
theorem not_pointsRight_of_overlong {config : SessionConfig} {env : Env} {s : TcpSession D}
    (h : Reached config env s) {line file : Bytes}
    (hatHand : AtHand [line, newline :: file] s.conversation) (hline : newline ∉ line)
    (hlong : kDefaultMaxLine < line.length) (hfile : ShortLines file)
    (hrejected : ∃ c ∈ fileLines file, Aggregator.reasonOf D c.1 ≠ .ok) :
    ¬ PointsRight s.upload.agg (uploadLines (uploadPieces s.timeline)) := by
  have hagg : s.upload.agg = analyzed D (uploadPieces s.timeline) :=
    (h.analysed.result hatHand.csv).1
  obtain ⟨ls, hlines, htexts, hkept⟩ := uploadLines_overlong hline hlong hfile hatHand.cut
  have hlines : uploadLines (uploadPieces s.timeline) = _ := hlines
  obtain ⟨c, hc, hr⟩ := hrejected
  have htext : c.1 ∈ ls.map UploadLine.text := htexts ▸ List.mem_map_of_mem hc
  obtain ⟨l, hl, htext⟩ := List.mem_map.mp htext
  -- the line that is rejected is kept, so its reason has an example
  have hcount : 0 < ((analyzed D (uploadPieces s.timeline)).corrupt
      (Aggregator.reasonOf D c.1)).count := by
    rw [count_analyzed hr, List.countP_pos_iff, hlines]
    refine ⟨l, List.mem_cons_of_mem _ hl, ?_⟩
    rw [hkept l hl, htext, decide_eq_true rfl]
    rfl
  obtain ⟨before, l', hfirst⟩ := exists_firstRejected hr hcount
  rw [hagg, pointsRight_iff]
  intro hall
  have hbefore := hall _ hr before l' hfirst
  obtain ⟨after, hsplit⟩ := hfirst.split
  rw [hlines] at hsplit
  -- the line that was dropped stands first, and is one of those before the example
  cases before with
  | nil =>
    rw [List.nil_append, List.cons.injEq] at hsplit
    have hkept := hfirst.kept
    rw [← hsplit.1] at hkept
    exact absurd hkept Bool.false_ne_true
  | cons b before =>
    rw [List.cons_append, List.cons.injEq] at hsplit
    have hkept := hbefore b (List.mem_cons_self ..)
    rw [← hsplit.1] at hkept
    exact absurd hkept Bool.false_ne_true

theorem not_result_pointsRight_overlong :
    let s := uploadRun ℚ [List.replicate 8193 97, newline :: ascii "x\n"]
    s.upload.resultCsv ≠ [] ∧
      ¬ PointsRight s.upload.agg (uploadLines (uploadPieces s.timeline)) := by
  have hlen : (List.replicate 8193 (97 : UInt8)).length = 8193 := List.length_replicate
  have hline : newline ∉ List.replicate 8193 (97 : UInt8) := fun h ↦
    absurd (List.eq_of_mem_replicate h) (by decide)
  generalize List.replicate 8193 (97 : UInt8) = line at hlen hline
  have hsize : [line, newline :: ascii "x\n"].flatten.length = 8196 := by
    rw [List.flatten_cons, List.flatten_singleton, List.length_append, hlen]
    rfl
  have hatHand : AtHand [line, newline :: ascii "x\n"]
      (uploadRun ℚ [line, newline :: ascii "x\n"]).conversation := by
    refine atHand_uploadRun ?_ ?_ (List.forall_mem_cons.mpr ⟨⟨?_, ?_⟩, by decide⟩)
    · rw [← List.length_pos_iff, hsize]
      decide
    · rw [hsize]
      decide
    · rw [← List.length_pos_iff, hlen]
      decide
    · rw [hlen]
      decide
  exact ⟨csv_ne_nil hatHand, not_pointsRight_of_overlong (reached_uploadRun _) hatHand hline
    (by rw [hlen]; decide) ⟨by decide, by decide⟩ ⟨(ascii "x", 0), by decide, by decide⟩⟩

end LoggerAnalyzer
