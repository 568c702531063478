import LoggerAnalyzer.Analyze.Aggregator

/-!
# The result

`buildResultCsv` writes the result of an upload as CSV text: a head of comment lines and six
sections. Each section is a definition of its own, and so are the rows that the code builds in a
loop.

The section `LINE_DISPOSITION` ends with a row that adds its counts up, `dispositionTotal`, and says
beside the sum what it has to be. `dispositionTotal_addLines` says what it is.
-/

namespace LoggerAnalyzer

/-- What the result says besides the aggregator. -/
structure CsvContext where
  sourceFile : Bytes
  sourceBytes : ℕ
  elapsedMs : ℕ
  peakRssKb : ℕ
deriving DecidableEq, Repr

/-! ## Cells -/

/-- `csv_quote`. -/
def csvQuote (s : Bytes) : Bytes :=
  if s.any fun c ↦ c == 44 || c == 34 || c == newline || c == carriageReturn then
    34 :: s.flatMap (fun c ↦ if c = 34 then [34, 34] else [c]) ++ [34]
  else s

/-- A number in decimal with zeros in front up to `width` digits, `%0*u`. -/
def zeroPadded (width n : ℕ) : Bytes :=
  let ds := decimal n
  List.replicate (width - ds.length) 48 ++ ds

/-- `format_bucket`. -/
def formatBucket (key : ℕ) : Bytes :=
  snprintf 32 (zeroPadded 4 (key / 1000000) ++ ascii "-" ++ zeroPadded 2 (key / 10000 % 100) ++
    ascii "-" ++ zeroPadded 2 (key / 100 % 100) ++ ascii " " ++ zeroPadded 2 (key % 100) ++
    ascii ":00")

/-- What `gmtime_r` makes of a time, with the year and the month as they are printed. -/
structure Tm where
  year : ℕ
  month : ℕ
  day : ℕ
  hour : ℕ
  minute : ℕ
  second : ℕ

/-- `utc_now`. -/
def utcNow (t : Tm) : Bytes :=
  snprintf 32 (decimal t.year ++ ascii "-" ++ zeroPadded 2 t.month ++ ascii "-" ++
    zeroPadded 2 t.day ++ ascii "T" ++ zeroPadded 2 t.hour ++ ascii ":" ++ zeroPadded 2 t.minute ++
    ascii ":" ++ zeroPadded 2 t.second ++ ascii "Z")

/-- The star that marks the two answers, in UTF-8. -/
def star : Bytes := [0xE2, 0x98, 0x85]

variable {D : Type} [DoubleOps D]

/-- `fixed6`. -/
def fixed6 (v : D) : Bytes := snprintf 64 (DoubleOps.fixed 6 v)

/-- `fixed4`. -/
def fixed4 (v : D) : Bytes := snprintf 64 (DoubleOps.fixed 4 v)

/-- A numeral of type `double`. -/
def num (n : ℕ) : D := DoubleOps.ofNat n

/-! ## Sections -/

/-- The comment lines at the top. -/
def csvHead (D : Type) [DoubleOps D] (utcNow : Bytes) (ctx : CsvContext) : Bytes :=
  [0xEF, 0xBB, 0xBF] ++
    (ascii "# Zhenyu_LoggerAnalyzer result\n"
    ++ ascii "# schema_version,1\n"
    ++ ascii "# generated_utc," ++ utcNow ++ ascii "\n"
    ++ ascii "# source_file," ++ csvQuote ctx.sourceFile ++ ascii "\n"
    ++ ascii "# source_bytes," ++ decimal ctx.sourceBytes ++ ascii "\n"
    ++ ascii "# bucket_unit,hour\n"
    ++ ascii "# module_whitelist,\"" ++ (ascii ";").intercalate (Module.all.map Module.name)
    ++ ascii "\"\n"
    ++ ascii "# spd_range_gate,\"[" ++ fixed6 (kSpdMin : D) ++ ascii ", " ++ fixed6 (kSpdMax : D)
    ++ ascii "]\"\n\n")

/-- `HOURLY_MODULE_COUNTS`. -/
def hourlySection (a : Aggregator D) : Bytes :=
  ascii "[SECTION] " ++ star ++ ascii "HOURLY_MODULE_COUNTS\n" ++ ascii "bucket_start"
    ++ Module.all.flatMap (fun m ↦ ascii "," ++ m.name) ++ ascii ",bucket_total\n"
    ++ a.buckets.flatMap (fun e ↦ formatBucket e.1
        ++ Module.all.flatMap (fun m ↦ ascii "," ++ decimal (e.2.moduleCount m))
        ++ ascii "," ++ decimal e.2.total ++ ascii "\n")
    ++ ascii "\n"

/-- The rows of `SUMMARY` after the number of lines. -/
def summaryRest (ctx : CsvContext) (a : Aggregator D) : Bytes :=
  ascii "accepted_lines," ++ decimal a.acceptedLines ++ ascii "\n"
    ++ ascii "rejected_lines," ++ decimal a.rejectedLines ++ ascii "\n"
    ++ ascii "rejected_ratio_pct,"
    ++ fixed6 (if 0 < a.totalLines then (num 100 : D) * num a.rejectedLines / num a.totalLines
        else num 0) ++ ascii "\n"
    ++ ascii "hour_buckets," ++ decimal a.buckets.length ++ ascii "\n"
    ++ ascii "time_range_start," ++ csvQuote a.firstTs ++ ascii "\n"
    ++ ascii "time_range_end," ++ csvQuote a.lastTs ++ ascii "\n"
    ++ ascii "spd_samples," ++ decimal a.spdN ++ ascii "\n"
    ++ ascii "spd_sum," ++ fixed6 a.spdSum ++ ascii "\n"
    ++ (if 0 < a.spdN then
        star ++ ascii "spd_average," ++ fixed6 a.spdAvg ++ ascii "\n"
          ++ ascii "spd_min," ++ fixed6 a.spdMin ++ ascii "\n"
          ++ ascii "spd_max," ++ fixed6 a.spdMax ++ ascii "\n"
      else star ++ ascii "spd_average,\nspd_min,\nspd_max,\n")
    ++ ascii "processing_ms," ++ decimal ctx.elapsedMs ++ ascii "\n"
    ++ (let secs : D := num ctx.elapsedMs / num 1000
        let mbs : D :=
          if DoubleOps.lt (num 0) secs then num ctx.sourceBytes / (num 1024 * num 1024) / secs
          else num 0
        ascii "throughput_mib_per_sec," ++ fixed4 mbs ++ ascii "\n")
    ++ ascii "peak_rss_kb," ++ decimal ctx.peakRssKb ++ ascii "\n\n"

/-- `SUMMARY`. -/
def summarySection (ctx : CsvContext) (a : Aggregator D) : Bytes :=
  ascii "[SECTION] SUMMARY\nmetric,value\n" ++ ascii "total_lines," ++ decimal a.totalLines
    ++ ascii "\n" ++ summaryRest ctx a

/-- `MODULE_TOTALS`. -/
def moduleSection (a : Aggregator D) : Bytes :=
  let acc : D := if 0 < a.acceptedLines then num a.acceptedLines else num 1
  ascii "[SECTION] MODULE_TOTALS\nmodule,count,percent_of_accepted\n"
    ++ Module.all.flatMap (fun m ↦ m.name ++ ascii "," ++ decimal (a.moduleTotals m) ++ ascii ","
        ++ fixed4 ((num 100 : D) * num (a.moduleTotals m) / acc) ++ ascii "\n")
    ++ ascii "\n"

/-- The sum at the end of `LINE_DISPOSITION`: the counts of its rows. -/
def dispositionTotal (a : Aggregator D) : ℕ :=
  Reason.rejections.foldl (fun check r ↦ check + (a.corrupt r).count) a.acceptedLines
    + a.oversizeLines

/-- The rows of `LINE_DISPOSITION` before the sum. -/
def dispositionRows (a : Aggregator D) : Bytes :=
  ascii "[SECTION] LINE_DISPOSITION\ndisposition,count,description\n"
    ++ Reason.ok.key ++ ascii "," ++ decimal a.acceptedLines ++ ascii ","
    ++ csvQuote Reason.ok.text ++ ascii "\n"
    ++ Reason.rejections.flatMap (fun r ↦ r.key ++ ascii "," ++ decimal (a.corrupt r).count
        ++ ascii "," ++ csvQuote r.text ++ ascii "\n")
    ++ ascii "rejected_oversize_line," ++ decimal a.oversizeLines
    ++ ascii ",\"Line exceeded the maximum length without a newline\"\n"

/-- `LINE_DISPOSITION`. -/
def dispositionSection (a : Aggregator D) : Bytes :=
  dispositionRows a ++ ascii "TOTAL," ++ decimal (dispositionTotal a)
    ++ ascii ",\"Must equal total_lines (" ++ decimal a.totalLines ++ ascii ")\"\n\n"

/-- `CORRUPT_DIAGNOSTICS`. -/
def diagnosticsSection (a : Aggregator D) : Bytes :=
  ascii "[SECTION] CORRUPT_DIAGNOSTICS\nreason,count,first_line_no,first_byte_offset,excerpt\n"
    ++ Reason.rejections.flatMap (fun r ↦
        if (a.corrupt r).count = 0 then []
        else r.key ++ ascii "," ++ decimal (a.corrupt r).count ++ ascii ","
          ++ decimal (a.corrupt r).firstLineNo ++ ascii ","
          ++ decimal (a.corrupt r).firstByteOffset ++ ascii ","
          ++ csvQuote (a.corrupt r).excerpt ++ ascii "\n")
    ++ (if 0 < a.outOfRange then
        ascii "spd_out_of_range_guard," ++ decimal a.outOfRange
          ++ ascii ",,,\"Speed value outside the accepted range was excluded from the average\"\n"
      else [])
    ++ ascii "\n"

/-- `REJECTED_MODULE_NAMES`. -/
def rejectedModulesSection (a : Aggregator D) : Bytes :=
  ascii "[SECTION] REJECTED_MODULE_NAMES\nmodule_name,occurrences,note\n"
    ++ a.rejectedModules.flatMap (fun e ↦ csvQuote e.1 ++ ascii "," ++ decimal e.2
        ++ ascii ",\"Not in the module whitelist - excluded from all statistics\"\n")
    ++ ascii "\n"

/-- `build_result_csv`; `utcNow` is the time it is built at. -/
def buildResultCsv (utcNow : Bytes) (a : Aggregator D) (ctx : CsvContext) : Bytes :=
  csvHead D utcNow ctx ++ (hourlySection a ++ summarySection ctx a ++ moduleSection a
    ++ dispositionSection a ++ diagnosticsSection a ++ rejectedModulesSection a)

/-! ## The sum of the dispositions -/

omit [DoubleOps D] in
theorem dispositionTotal_eq (a : Aggregator D) :
    dispositionTotal a = a.disposed + a.oversizeLines := by
  have hfold : ∀ (rs : List Reason) (check : ℕ),
      rs.foldl (fun check r ↦ check + (a.corrupt r).count) check
        = check + (rs.map fun r ↦ (a.corrupt r).count).sum := by
    intro rs
    induction rs with
    | nil => intro check; rfl
    | cons r rs ih =>
      intro check
      rw [List.foldl_cons, ih, List.map_cons, List.sum_cons, Nat.add_assoc]
  rw [dispositionTotal, hfold, Aggregator.disposed]

/-- **The sum over the lines of an upload** exceeds the number of lines by the oversize lines. -/
theorem dispositionTotal_addLines (calls : List (Bytes × ℕ)) (oversize : ℕ) :
    dispositionTotal (((Aggregator.empty : Aggregator D).addLines calls).addOversize oversize)
      = (((Aggregator.empty : Aggregator D).addLines calls).addOversize oversize).totalLines
        + oversize := by
  obtain ⟨htotal, hdisposed, hover⟩ :=
    Aggregator.addLines_disposed calls (Aggregator.empty : Aggregator D)
  have hsame : (((Aggregator.empty : Aggregator D).addLines calls).addOversize oversize).disposed
      = ((Aggregator.empty : Aggregator D).addLines calls).disposed := rfl
  rw [dispositionTotal_eq, hsame, hdisposed, Aggregator.addOversize_oversizeLines, hover,
    Aggregator.addOversize_totalLines, htotal, Aggregator.disposed_empty,
    show (Aggregator.empty : Aggregator D).oversizeLines = 0 from rfl,
    show (Aggregator.empty : Aggregator D).totalLines = 0 from rfl, Nat.zero_add oversize]

/-- A text with the row `total_lines` and the row `TOTAL`, which say `lines` and `total`. -/
def StatesSums (lines total : ℕ) (csv : Bytes) : Prop :=
  ∃ before between after, csv = before
    ++ (ascii "\ntotal_lines," ++ decimal lines ++ ascii "\n") ++ between
    ++ (ascii "\nTOTAL," ++ decimal total ++ ascii ",\"Must equal total_lines (" ++ decimal lines
      ++ ascii ")\"\n") ++ after

/-- **What a result says of the lines and of their sum.** -/
theorem statesSums_buildResultCsv (utcNow : Bytes) (a : Aggregator D) (ctx : CsvContext) :
    StatesSums a.totalLines (dispositionTotal a) (buildResultCsv utcNow a ctx) := by
  have hmetric : ascii "[SECTION] SUMMARY\nmetric,value\n"
      = ascii "[SECTION] SUMMARY\nmetric,value" ++ ascii "\n" := rfl
  have hlines : ascii "\ntotal_lines," = ascii "\n" ++ ascii "total_lines," := rfl
  have hover : ascii ",\"Line exceeded the maximum length without a newline\"\n"
      = ascii ",\"Line exceeded the maximum length without a newline\"" ++ ascii "\n" := rfl
  have htotal : ascii "\nTOTAL," = ascii "\n" ++ ascii "TOTAL," := rfl
  have hequal : ascii ")\"\n\n" = ascii ")\"\n" ++ ascii "\n" := rfl
  obtain ⟨rows, hrows⟩ : ∃ rows, dispositionRows a = rows ++ ascii "\n" := by
    rw [dispositionRows, hover, ← List.append_assoc]
    exact ⟨_, rfl⟩
  refine ⟨csvHead D utcNow ctx ++ hourlySection a ++ ascii "[SECTION] SUMMARY\nmetric,value",
    summaryRest ctx a ++ moduleSection a ++ rows,
    ascii "\n" ++ diagnosticsSection a ++ rejectedModulesSection a, ?_⟩
  rw [buildResultCsv, summarySection, dispositionSection, hrows, hmetric, hlines, htotal, hequal]
  simp only [List.append_assoc]

/-- A result is never empty. -/
theorem buildResultCsv_ne_nil (utcNow : Bytes) (a : Aggregator D) (ctx : CsvContext) :
    buildResultCsv utcNow a ctx ≠ [] := by
  rw [buildResultCsv, csvHead, List.append_assoc]
  exact List.cons_ne_nil _ _

end LoggerAnalyzer
