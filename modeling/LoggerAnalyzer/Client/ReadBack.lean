import LoggerAnalyzer.Analyze.Presentable
import LoggerAnalyzer.Client.CsvDocument

/-!
# The result is read back

The server writes the result and the C# client reads it, each with rules of its own for quotes and
lines. `readBack` is what the client should find in the result of an aggregator: six sections, each
with the counts and texts of the aggregator in its cells. `parse_buildResultCsv` says that it finds
that.
-/

namespace LoggerAnalyzer

open CsvDocument

/-! ## Cells -/

/-- A character that needs no quotes. -/
def isPlain (b : UInt8) : Bool := isPrintable b && b != 34 && b != 44

theorem isPrintable_of_isPlain {b : UInt8} (h : isPlain b = true) : isPrintable b = true := by
  rw [isPlain, Bool.and_eq_true, Bool.and_eq_true] at h
  exact h.1.1

/-- How the kinds of characters are related. -/
theorem byte_kinds : ∀ b : UInt8, (isNumberChar b = true → isPlain b = true) ∧
    (isIdent b = true → isPlain b = true ∧ b ≠ 35 ∧ b ≠ 91) ∧
    (isPrintable b = true → b < 0x80 ∧ 0x20 ≤ b) :=
  forall_byte (by decide +kernel)

theorem isPlain_of_isNumberChar {b : UInt8} (h : isNumberChar b = true) : isPlain b = true :=
  (byte_kinds b).1 h

private theorem isPlain_of_isIdent {b : UInt8} (h : isIdent b = true) : isPlain b = true :=
  ((byte_kinds b).2.1 h).1

theorem cell_of_printable {raw value : Bytes} (h : ∀ b ∈ raw, isPrintable b = true)
    (hspells : Spells raw value) : Cell raw value :=
  ⟨fun b hb ↦ ((byte_kinds b).2.2 (h b hb)).2,
    getString_of_ascii fun b hb ↦ ((byte_kinds b).2.2 (h b hb)).1, hspells⟩

theorem cell_plain {raw : Bytes} (h : ∀ b ∈ raw, isPlain b = true) : Cell raw raw := by
  refine cell_of_printable (fun b hb ↦ isPrintable_of_isPlain (h b hb)) (spells_plain fun b hb ↦ ?_)
  have hplain := h b hb
  rw [isPlain, Bool.and_eq_true, Bool.and_eq_true, bne_iff_ne, bne_iff_ne] at hplain
  exact ⟨hplain.1.2, hplain.2⟩

theorem cell_decimal (n : ℕ) : Cell (decimal n) (decimal n) :=
  cell_plain fun _ hb ↦ isPlain_of_isNumberChar
    (isNumberChar_of_isDigit (isDigit_of_mem_decimal hb))

theorem mem_csvQuote {t : Bytes} {b : UInt8} (h : b ∈ csvQuote t) : b = 34 ∨ b ∈ t := by
  rw [csvQuote] at h
  split_ifs at h
  · rw [List.cons_append, List.mem_cons, List.mem_append, List.mem_flatMap, List.mem_singleton] at h
    rcases h with h | ⟨c, hc, hb⟩ | h
    · exact .inl h
    · split_ifs at hb with hquote
      · exact .inl (by simpa using hb)
      · exact .inr (by rwa [List.mem_singleton.mp hb])
    · exact .inl h
  · exact .inr h

/-- Whatever a text contains, its quoted form is read as the text. -/
theorem spells_csvQuote (t : Bytes) : Spells (csvQuote t) t := by
  rw [csvQuote]
  split_ifs with hneed
  · exact spells_doubled t
  · refine spells_plain fun b hb ↦ ⟨fun h ↦ hneed ?_, fun h ↦ hneed ?_⟩
    · rw [List.any_eq_true]
      exact ⟨b, hb, by rw [h]; rfl⟩
    · rw [List.any_eq_true]
      exact ⟨b, hb, by rw [h]; rfl⟩

/-- **A line of quoted texts is read as these texts**, whatever they contain. -/
theorem splitLine_row_csvQuote {cells : List Bytes} (h : cells ≠ []) :
    splitLine (row (cells.map csvQuote)) = cells := by
  refine splitLine_row ?_ fun hnil ↦ h (List.map_eq_nil_iff.mp hnil)
  rw [List.forall₂_map_left_iff, List.forall₂_same]
  exact fun t _ ↦ spells_csvQuote t

/-- Cells that are empty, or end and begin with a quote, side by side. -/
theorem splitLine_row_csvQuote_mixed :
    splitLine (row ([[], ascii "\"a,", ascii ",b\"", [13, 10], []].map csvQuote))
      = [[], ascii "\"a,", ascii ",b\"", [13, 10], []] :=
  splitLine_row_csvQuote (by decide)

theorem cell_csvQuote {t : Bytes} (h : ∀ b ∈ t, isPrintable b = true) : Cell (csvQuote t) t := by
  refine cell_of_printable (fun b hb ↦ ?_) (spells_csvQuote t)
  rcases mem_csvQuote hb with rfl | hb
  · decide
  · exact h b hb

/-- A text in quotes. -/
theorem cell_quoted {t : Bytes} (h : ∀ b ∈ t, isPrintable b = true ∧ b ≠ 34) :
    Cell (34 :: t ++ [34]) t := by
  have hdoubled : doubled t = t := by
    rw [doubled, List.flatMap_congr fun b hb ↦ if_neg (h b hb).2]
    exact List.flatMap_singleton' t
  have hspells := spells_doubled t
  rw [hdoubled] at hspells
  refine cell_of_printable (fun b hb ↦ ?_) hspells
  rw [List.cons_append, List.mem_cons, List.mem_append, List.mem_singleton] at hb
  rcases hb with rfl | hb | rfl
  · decide
  · exact (h b hb).1
  · decide

section Numbers

variable {D : Type} [DoubleOps D] [PrintsNumbers D]

theorem cell_fixed (size n : ℕ) (x : D) :
    Cell (snprintf size (DoubleOps.fixed n x)) (snprintf size (DoubleOps.fixed n x)) :=
  cell_plain fun _ hb ↦
    isPlain_of_isNumberChar (PrintsNumbers.isNumberChar_of_fixed (List.mem_of_mem_take hb))

end Numbers

/-! ## What the client should find -/

section Sections

variable {D : Type} [DoubleOps D]

/-- `HOURLY_MODULE_COUNTS`. -/
def hourlyRead (a : Aggregator D) : CsvSection where
  name := star ++ ascii "HOURLY_MODULE_COUNTS"
  header := ascii "bucket_start" :: (Module.all.map Module.name ++ [ascii "bucket_total"])
  rows := a.buckets.map fun e ↦
    formatBucket e.1 ::
      (Module.all.map (fun m ↦ decimal (e.2.moduleCount m)) ++ [decimal e.2.total])

/-- `SUMMARY`. -/
def summaryRead (ctx : CsvContext) (a : Aggregator D) : CsvSection where
  name := ascii "SUMMARY"
  header := [ascii "metric", ascii "value"]
  rows :=
    let secs : D := num ctx.elapsedMs / num 1000
    [[ascii "total_lines", decimal a.totalLines],
      [ascii "accepted_lines", decimal a.acceptedLines],
      [ascii "rejected_lines", decimal a.rejectedLines],
      [ascii "rejected_ratio_pct", fixed6 (if 0 < a.totalLines then
        (num 100 : D) * num a.rejectedLines / num a.totalLines else num 0)],
      [ascii "hour_buckets", decimal a.buckets.length],
      [ascii "time_range_start", a.firstTs],
      [ascii "time_range_end", a.lastTs],
      [ascii "spd_samples", decimal a.spdN],
      [ascii "spd_sum", fixed6 a.spdSum],
      [star ++ ascii "spd_average", if 0 < a.spdN then fixed6 a.spdAvg else []],
      [ascii "spd_min", if 0 < a.spdN then fixed6 a.spdMin else []],
      [ascii "spd_max", if 0 < a.spdN then fixed6 a.spdMax else []],
      [ascii "processing_ms", decimal ctx.elapsedMs],
      [ascii "throughput_mib_per_sec", fixed4 (if DoubleOps.lt (num 0) secs then
        num ctx.sourceBytes / (num 1024 * num 1024) / secs else num 0)],
      [ascii "peak_rss_kb", decimal ctx.peakRssKb]]

/-- `MODULE_TOTALS`. -/
def moduleRead (a : Aggregator D) : CsvSection where
  name := ascii "MODULE_TOTALS"
  header := [ascii "module", ascii "count", ascii "percent_of_accepted"]
  rows := Module.all.map fun m ↦
    [m.name, decimal (a.moduleTotals m), fixed4 ((num 100 : D) * num (a.moduleTotals m)
      / if 0 < a.acceptedLines then num a.acceptedLines else num 1)]

/-- `LINE_DISPOSITION`. -/
def dispositionRead (a : Aggregator D) : CsvSection where
  name := ascii "LINE_DISPOSITION"
  header := [ascii "disposition", ascii "count", ascii "description"]
  rows := [Reason.ok.key, decimal a.acceptedLines, Reason.ok.text]
    :: Reason.rejections.map (fun r ↦ [r.key, decimal (a.corrupt r).count, r.text])
    ++ [[ascii "rejected_oversize_line", decimal a.oversizeLines,
        ascii "Line exceeded the maximum length without a newline"],
      [ascii "TOTAL", decimal (dispositionTotal a),
        ascii "Must equal total_lines (" ++ decimal a.totalLines ++ ascii ")"]]

/-- `CORRUPT_DIAGNOSTICS`: one row for every reason that was counted. -/
def diagnosticsRead (a : Aggregator D) : CsvSection where
  name := ascii "CORRUPT_DIAGNOSTICS"
  header := [ascii "reason", ascii "count", ascii "first_line_no", ascii "first_byte_offset",
    ascii "excerpt"]
  rows := (Reason.rejections.filter fun r ↦ (a.corrupt r).count ≠ 0).map (fun r ↦
      [r.key, decimal (a.corrupt r).count, decimal (a.corrupt r).firstLineNo,
        decimal (a.corrupt r).firstByteOffset, (a.corrupt r).excerpt])
    ++ if 0 < a.outOfRange then
        [[ascii "spd_out_of_range_guard", decimal a.outOfRange, [], [],
          ascii "Speed value outside the accepted range was excluded from the average"]]
      else []

/-- `REJECTED_MODULE_NAMES`. -/
def rejectedModulesRead (a : Aggregator D) : CsvSection where
  name := ascii "REJECTED_MODULE_NAMES"
  header := [ascii "module_name", ascii "occurrences", ascii "note"]
  rows := a.rejectedModules.map fun e ↦
    [e.1, decimal e.2, ascii "Not in the module whitelist - excluded from all statistics"]

/-- The sections of a result. -/
def readBack (a : Aggregator D) (ctx : CsvContext) : List CsvSection :=
  [hourlyRead a, summaryRead ctx a, moduleRead a, dispositionRead a, diagnosticsRead a,
    rejectedModulesRead a]

end Sections

/-! ## Section by section -/

section Sections

variable {D : Type}

theorem forall₂_cell {cells : List Bytes} (h : ∀ cell ∈ cells, Cell cell cell) :
    List.Forall₂ Cell cells cells :=
  List.forall₂_same.mpr h

/-- Cells of letters, checked one by one. -/
theorem forall₂_plain {cells : List Bytes} (h : ∀ cell ∈ cells, ∀ b ∈ cell, isPlain b = true) :
    List.Forall₂ Cell cells cells :=
  forall₂_cell fun cell hcell ↦ cell_plain (h cell hcell)

theorem isPlain_of_mem_zeroPadded {width n : ℕ} {b : UInt8} (h : b ∈ zeroPadded width n) :
    isPlain b = true := by
  rcases List.mem_append.mp h with hzero | hdigit
  · rw [(List.mem_replicate.mp hzero).2]
    decide
  · exact isPlain_of_isNumberChar (isNumberChar_of_isDigit (isDigit_of_mem_decimal hdigit))

private theorem isPlain_of_mem_formatBucket {key : ℕ} {b : UInt8} (h : b ∈ formatBucket key) :
    isPlain b = true := by
  have hliteral : ∀ t ∈ [ascii "-", ascii " ", ascii ":00"], ∀ b ∈ t, isPlain b = true := by
    decide
  have hmem := List.mem_of_mem_take h
  simp only [List.mem_append] at hmem
  rcases hmem with (((((((h | h) | h) | h) | h) | h) | h) | h)
  · exact isPlain_of_mem_zeroPadded h
  · exact hliteral _ (by simp) b h
  · exact isPlain_of_mem_zeroPadded h
  · exact hliteral _ (by simp) b h
  · exact isPlain_of_mem_zeroPadded h
  · exact hliteral _ (by simp) b h
  · exact isPlain_of_mem_zeroPadded h
  · exact hliteral _ (by simp) b h

theorem opens_of_isIdent {b : UInt8} (h : isIdent b = true) (t : Bytes) :
    opens (b :: t) = true := by
  have hne := ((byte_kinds b).2.1 h).2
  rw [opens, List.head?_cons, Option.any_some, Bool.and_eq_true, bne_iff_ne, bne_iff_ne]
  exact hne

/-- A bucket begins with a digit. -/
theorem opens_formatBucket (key : ℕ) : opens (formatBucket key) = true := by
  obtain ⟨b, t, hyear⟩ : ∃ b t, decimal (key / 1000000) = b :: t := List.exists_cons_of_ne_nil (by
    rw [decimal]
    simp)
  obtain ⟨c, t', hpadded, hc⟩ : ∃ c t', zeroPadded 4 (key / 1000000) = c :: t' ∧
      isDigit c = true := by
    rw [zeroPadded, hyear]
    cases 4 - (b :: t).length with
    | zero => exact ⟨b, t, rfl, isDigit_of_mem_decimal (hyear ▸ List.mem_cons_self)⟩
    | succ n => exact ⟨48, List.replicate n 48 ++ b :: t, rfl, rfl⟩
  rw [formatBucket, hpadded]
  exact opens_of_isIdent (by rw [isIdent, hc, Bool.or_true]; rfl) _

theorem ascii_comma : ascii "," = [44] := rfl

private theorem ascii_newline : ascii "\n" = [newline] := rfl

/-- Whether the title and the header of a section can be written as they are. -/
def wellHeaded (name : Bytes) (header : List Bytes) : Bool :=
  name.all (0x20 ≤ ·) && trim (getString name) == name && header.all (·.all isPlain)
    && header.head?.any opens

/-- A section, from its title to the empty line behind it. -/
theorem reads_section (start : Bytes) {body name cell : Bytes} {cells : List Bytes}
    {rows : List (List Bytes)} (hwell : wellHeaded name (cell :: cells) = true)
    (hstart : start = sectionMark ++ name ++ [newline] ++ (row (cell :: cells) ++ [newline]))
    (hrows : Reads body (rows.map .record)) :
    Reads (start ++ body ++ ascii "\n") (sectionEntries ⟨name, cell :: cells, rows⟩) := by
  simp only [wellHeaded, Bool.and_eq_true, List.all_eq_true, decide_eq_true_eq, beq_iff_eq] at hwell
  obtain ⟨⟨⟨hname, htrim⟩, hplain⟩, hopens⟩ := hwell
  rw [hstart, List.append_assoc, List.append_assoc]
  exact (Reads.title hname htrim).append
    ((Reads.record hopens (forall₂_plain hplain)).append hrows.append_blank)

private theorem reads_hourlySection (a : Aggregator D) :
    Reads (hourlySection a) (sectionEntries (hourlyRead a)) := by
  refine reads_section _ (by decide) (by rfl) (Reads.rows fun e _ ↦ ?_)
  have hrow : formatBucket e.1
      ++ Module.all.flatMap (fun m ↦ ascii "," ++ decimal (e.2.moduleCount m))
      ++ ascii "," ++ decimal e.2.total ++ ascii "\n"
      = row (formatBucket e.1
        :: (Module.all.map (fun m ↦ decimal (e.2.moduleCount m)) ++ [decimal e.2.total]))
        ++ [newline] := by
    simp [row_cons, ascii_comma, ascii_newline, List.flatMap_map]
  rw [hrow]
  refine Reads.record (opens_formatBucket e.1) (forall₂_cell ?_)
  rw [List.forall_mem_cons, List.forall_mem_append, List.forall_mem_map, List.forall_mem_singleton]
  exact ⟨cell_plain fun _ ↦ isPlain_of_mem_formatBucket, fun m _ ↦ cell_decimal _, cell_decimal _⟩

private theorem isPlain_name : ∀ m : Module, ∀ b ∈ m.name, isPlain b = true := by
  intro m
  cases m <;> decide

theorem isPlain_key : ∀ r : Reason, ∀ b ∈ r.key, isPlain b = true := by
  intro r
  cases r <;> decide

private theorem isPrintable_text : ∀ r : Reason, ∀ b ∈ r.text, isPrintable b = true := by
  intro r
  cases r <;> decide

private theorem opens_name (m : Module) : opens m.name = true := by
  cases m <;> rfl

theorem opens_key (r : Reason) : opens r.key = true := by
  cases r <;> rfl

/-- A name, in quotes or not, begins a line well. -/
theorem opens_csvQuote {name : Bytes} (hne : name ≠ []) (h : ∀ b ∈ name, isIdent b = true) :
    opens (csvQuote name) = true := by
  rw [csvQuote]
  split_ifs
  · rfl
  · obtain ⟨b, t, rfl⟩ := List.exists_cons_of_ne_nil hne
    exact opens_of_isIdent (h b List.mem_cons_self) t

private theorem reads_rejectedModulesSection {a : Aggregator D} (ha : a.Presentable) :
    Reads (rejectedModulesSection a) (sectionEntries (rejectedModulesRead a)) := by
  refine reads_section _ (by decide) (by decide) (Reads.rows fun e he ↦ ?_)
  obtain ⟨hne, hident⟩ := ha.names e he
  have hopens := opens_csvQuote hne hident
  have hplain : ∀ b ∈ e.1, isPrintable b = true := fun b hb ↦
    isPrintable_of_isPlain (isPlain_of_isIdent (hident b hb))
  have hnote : ascii ",\"Not in the module whitelist - excluded from all statistics\"\n"
      = 44 :: (34 :: ascii "Not in the module whitelist - excluded from all statistics" ++ [34])
        ++ [newline] := by
    decide
  have hrow : csvQuote e.1 ++ ascii "," ++ decimal e.2
      ++ ascii ",\"Not in the module whitelist - excluded from all statistics\"\n"
      = row [csvQuote e.1, decimal e.2,
        34 :: ascii "Not in the module whitelist - excluded from all statistics" ++ [34]]
        ++ [newline] := by
    rw [hnote]
    simp only [row_cons, ascii_comma, List.flatMap_cons, List.flatMap_nil, List.append_assoc,
      List.cons_append, List.nil_append, List.append_nil]
  rw [hrow]
  exact Reads.record hopens (.cons (cell_csvQuote hplain) (.cons (cell_decimal e.2)
    (.cons (cell_quoted (by decide)) .nil)))

/-- The row of one reason. -/
theorem reads_disposition (r : Reason) (n : ℕ) :
    Reads (r.key ++ ascii "," ++ decimal n ++ ascii "," ++ csvQuote r.text ++ ascii "\n")
      [.record [r.key, decimal n, r.text]] := by
  have hrow : r.key ++ ascii "," ++ decimal n ++ ascii "," ++ csvQuote r.text ++ ascii "\n"
      = row [r.key, decimal n, csvQuote r.text] ++ [newline] := by
    simp [row_cons, ascii_comma, ascii_newline]
  rw [hrow]
  exact Reads.record (opens_key r) (.cons (cell_plain (isPlain_key r)) (.cons (cell_decimal n)
    (.cons (cell_csvQuote (isPrintable_text r)) .nil)))

private theorem reads_oversize (n : ℕ) :
    Reads (ascii "rejected_oversize_line," ++ decimal n
        ++ ascii ",\"Line exceeded the maximum length without a newline\"\n")
      [.record [ascii "rejected_oversize_line", decimal n,
        ascii "Line exceeded the maximum length without a newline"]] := by
  have hkey : ascii "rejected_oversize_line," = ascii "rejected_oversize_line" ++ [44] := by
    decide
  have hnote : ascii ",\"Line exceeded the maximum length without a newline\"\n"
      = 44 :: (34 :: ascii "Line exceeded the maximum length without a newline" ++ [34])
        ++ [newline] := by
    decide
  have hrow : ascii "rejected_oversize_line," ++ decimal n
      ++ ascii ",\"Line exceeded the maximum length without a newline\"\n"
      = row [ascii "rejected_oversize_line", decimal n,
        34 :: ascii "Line exceeded the maximum length without a newline" ++ [34]] ++ [newline] := by
    rw [hkey, hnote]
    simp [row_cons]
  rw [hrow]
  exact Reads.record (by decide) (.cons (cell_plain (by decide))
    (.cons (cell_decimal n) (.cons (cell_quoted (by decide)) .nil)))

private theorem reads_total (check total : ℕ) :
    Reads (ascii "TOTAL," ++ decimal check ++ ascii ",\"Must equal total_lines (" ++ decimal total
        ++ ascii ")\"\n")
      [.record [ascii "TOTAL", decimal check,
        ascii "Must equal total_lines (" ++ decimal total ++ ascii ")"]] := by
  have hkey : ascii "TOTAL," = ascii "TOTAL" ++ [44] := by decide
  have hopen :
      ascii ",\"Must equal total_lines (" = 44 :: 34 :: ascii "Must equal total_lines (" := by
    decide
  have hclose : ascii ")\"\n" = ascii ")" ++ [34] ++ [newline] := by decide
  have hrow : ascii "TOTAL," ++ decimal check ++ ascii ",\"Must equal total_lines ("
      ++ decimal total ++ ascii ")\"\n"
      = row [ascii "TOTAL", decimal check,
        34 :: (ascii "Must equal total_lines (" ++ decimal total ++ ascii ")") ++ [34]]
        ++ [newline] := by
    rw [hkey, hopen, hclose]
    simp [row_cons]
  have hnote : ∀ b ∈ ascii "Must equal total_lines (" ++ decimal total ++ ascii ")",
      isPrintable b = true ∧ b ≠ 34 := by
    rw [List.forall_mem_append, List.forall_mem_append]
    refine ⟨⟨by decide, fun b hb ↦ ?_⟩, by decide⟩
    have hplain := isPlain_of_isNumberChar (isNumberChar_of_isDigit (isDigit_of_mem_decimal hb))
    refine ⟨isPrintable_of_isPlain hplain, fun hquote ↦ ?_⟩
    rw [hquote] at hplain
    exact absurd hplain (by decide)
  rw [hrow]
  exact Reads.record (by decide) (.cons (cell_plain (by decide))
    (.cons (cell_decimal check) (.cons (cell_quoted hnote) .nil)))

private theorem reads_dispositionSection (a : Aggregator D) :
    Reads (dispositionSection a) (sectionEntries (dispositionRead a)) := by
  have hlast : ascii ")\"\n\n" = ascii ")\"\n" ++ ascii "\n" := by decide
  have hok := reads_disposition Reason.ok a.acceptedLines
  have hrows := Reads.rows fun r (_ : r ∈ Reason.rejections) ↦
    reads_disposition r (a.corrupt r).count
  have hbody := ((hok.append hrows).append (reads_oversize a.oversizeLines)).append
    (reads_total (dispositionTotal a) a.totalLines)
  have hbytes : dispositionSection a
      = ascii "[SECTION] LINE_DISPOSITION\ndisposition,count,description\n"
      ++ (Reason.ok.key ++ ascii "," ++ decimal a.acceptedLines ++ ascii ","
          ++ csvQuote Reason.ok.text ++ ascii "\n"
        ++ Reason.rejections.flatMap (fun r ↦ r.key ++ ascii "," ++ decimal (a.corrupt r).count
          ++ ascii "," ++ csvQuote r.text ++ ascii "\n")
        ++ (ascii "rejected_oversize_line," ++ decimal a.oversizeLines
          ++ ascii ",\"Line exceeded the maximum length without a newline\"\n")
        ++ (ascii "TOTAL," ++ decimal (dispositionTotal a) ++ ascii ",\"Must equal total_lines ("
          ++ decimal a.totalLines ++ ascii ")\"\n")) ++ ascii "\n" := by
    rw [dispositionSection, dispositionRows, hlast]
    simp only [List.append_assoc]
  rw [hbytes]
  refine reads_section _ (by decide) (by decide) ?_
  convert hbody using 1
  simp

private theorem reads_guard (n : ℕ) :
    Reads (ascii "spd_out_of_range_guard," ++ decimal n
        ++ ascii ",,,\"Speed value outside the accepted range was excluded from the average\"\n")
      [.record [ascii "spd_out_of_range_guard", decimal n, [], [],
        ascii "Speed value outside the accepted range was excluded from the average"]] := by
  have hkey : ascii "spd_out_of_range_guard," = ascii "spd_out_of_range_guard" ++ [44] := by
    decide
  have hnote : ascii ",,,\"Speed value outside the accepted range was excluded from the average\"\n"
      = [44, 44, 44]
        ++ (34 :: ascii "Speed value outside the accepted range was excluded from the average"
          ++ [34]) ++ [newline] := by
    decide
  have hrow : ascii "spd_out_of_range_guard," ++ decimal n
      ++ ascii ",,,\"Speed value outside the accepted range was excluded from the average\"\n"
      = row [ascii "spd_out_of_range_guard", decimal n, [], [],
        34 :: ascii "Speed value outside the accepted range was excluded from the average" ++ [34]]
        ++ [newline] := by
    rw [hkey, hnote]
    simp [row_cons]
  have hempty : Cell [] [] := cell_plain fun _ hb ↦ absurd hb List.not_mem_nil
  rw [hrow]
  exact Reads.record (by decide) (.cons (cell_plain (by decide))
    (.cons (cell_decimal n) (.cons hempty (.cons hempty
      (.cons (cell_quoted (by decide)) .nil)))))

private theorem reads_diagnosticsSection {a : Aggregator D} (ha : a.Presentable) :
    Reads (diagnosticsSection a) (sectionEntries (diagnosticsRead a)) := by
  have hrow : ∀ r, r.key ++ ascii "," ++ decimal (a.corrupt r).count ++ ascii ","
      ++ decimal (a.corrupt r).firstLineNo ++ ascii "," ++ decimal (a.corrupt r).firstByteOffset
      ++ ascii "," ++ csvQuote (a.corrupt r).excerpt ++ ascii "\n"
      = row [r.key, decimal (a.corrupt r).count, decimal (a.corrupt r).firstLineNo,
        decimal (a.corrupt r).firstByteOffset, csvQuote (a.corrupt r).excerpt]
        ++ [newline] := fun r ↦ by
    simp [row_cons, ascii_comma, ascii_newline]
  -- a row for each reason that occurred, and then that of the guard, if it has any
  have hreasons := Reads.rows_filter (p := fun r ↦ (a.corrupt r).count = 0)
    Reason.rejections fun r _ _ ↦ by
      have hrecord := Reads.record (opens_key r) (.cons (cell_plain (isPlain_key r))
        (.cons (cell_decimal (a.corrupt r).count) (.cons (cell_decimal (a.corrupt r).firstLineNo)
          (.cons (cell_decimal (a.corrupt r).firstByteOffset)
            (.cons (cell_csvQuote (ha.excerpts r)) .nil)))))
      rw [← hrow] at hrecord
      exact hrecord
  have hguard : Reads (if 0 < a.outOfRange then
        ascii "spd_out_of_range_guard," ++ decimal a.outOfRange
          ++ ascii ",,,\"Speed value outside the accepted range was excluded from the average\"\n"
      else [])
      ((if 0 < a.outOfRange then
        [[ascii "spd_out_of_range_guard", decimal a.outOfRange, [], [],
          ascii "Speed value outside the accepted range was excluded from the average"]]
      else []).map .record) := by
    split_ifs
    · exact reads_guard a.outOfRange
    · exact .nil
  have hbody := hreasons.append hguard
  rw [← List.map_append] at hbody
  rw [diagnosticsSection, List.append_assoc _ (List.flatMap _ _)]
  exact reads_section _ (by decide) (by decide) hbody

variable [DoubleOps D] [PrintsNumbers D]

private theorem reads_moduleSection (a : Aggregator D) :
    Reads (moduleSection a) (sectionEntries (moduleRead a)) := by
  refine reads_section _ (by decide) (by decide) (Reads.rows fun m _ ↦ ?_)
  generalize hx : (num 100 : D) * num (a.moduleTotals m)
    / (if 0 < a.acceptedLines then num a.acceptedLines else num 1) = x
  have hrow : m.name ++ ascii "," ++ decimal (a.moduleTotals m) ++ ascii "," ++ fixed4 x
      ++ ascii "\n" = row [m.name, decimal (a.moduleTotals m), fixed4 x] ++ [newline] := by
    simp [row_cons, ascii_comma, ascii_newline]
  rw [hrow]
  exact Reads.record (opens_name m) (.cons (cell_plain (isPlain_name m)) (.cons (cell_decimal _)
    (.cons (cell_fixed 64 4 x) .nil)))

omit [DoubleOps D] [PrintsNumbers D] in
/-- A row of two cells, behind which more follows. -/
theorem reads_pair {bytes key raw value rest : Bytes} {es : List Entry}
    (hbytes : bytes = key ++ [44]) (hopens : opens key = true) (hkey : Cell key key)
    (h : Cell raw value) (hrest : Reads rest es) :
    Reads (bytes ++ (raw ++ (ascii "\n" ++ rest))) (.record [key, value] :: es) := by
  have hrow : bytes ++ (raw ++ (ascii "\n" ++ rest)) = (row [key, raw] ++ [newline]) ++ rest := by
    rw [hbytes]
    simp [row_cons, ascii_newline]
  rw [hrow]
  exact (Reads.record hopens (.cons hkey (.cons h .nil))).append hrest

omit [DoubleOps D] [PrintsNumbers D] in
/-- A row of `SUMMARY`, which begins with the name of a number. -/
theorem reads_metric (bytes : Bytes) {key raw value rest : Bytes} {es : List Entry}
    (hname : (bytes == key ++ [44] && opens key && key.all isPlain) = true) (h : Cell raw value)
    (hrest : Reads rest es) :
    Reads (bytes ++ (raw ++ (ascii "\n" ++ rest))) (.record [key, value] :: es) := by
  rw [Bool.and_eq_true, Bool.and_eq_true, beq_iff_eq, List.all_eq_true] at hname
  exact reads_pair hname.1.1 hname.1.2 (cell_plain hname.2) h hrest

omit [DoubleOps D] [PrintsNumbers D] in
private theorem cell_spd_average :
    Cell (star ++ ascii "spd_average") (star ++ ascii "spd_average") :=
  ⟨by decide, by decide, spells_plain (by decide)⟩

/-- The three rows about the speed, which are empty if there is none. -/
theorem reads_speeds (a : Aggregator D) :
    Reads (if 0 < a.spdN then
        star ++ ascii "spd_average," ++ fixed6 a.spdAvg ++ ascii "\n"
          ++ ascii "spd_min," ++ fixed6 a.spdMin ++ ascii "\n"
          ++ ascii "spd_max," ++ fixed6 a.spdMax ++ ascii "\n"
      else star ++ ascii "spd_average,\nspd_min,\nspd_max,\n")
      [.record [star ++ ascii "spd_average", if 0 < a.spdN then fixed6 a.spdAvg else []],
        .record [ascii "spd_min", if 0 < a.spdN then fixed6 a.spdMin else []],
        .record [ascii "spd_max", if 0 < a.spdN then fixed6 a.spdMax else []]] := by
  have hchain : ∀ {raw₁ raw₂ raw₃ : Bytes}, Cell raw₁ raw₁ → Cell raw₂ raw₂ → Cell raw₃ raw₃ →
      Reads ((star ++ ascii "spd_average,") ++ (raw₁ ++ (ascii "\n" ++ (ascii "spd_min,"
        ++ (raw₂ ++ (ascii "\n" ++ (ascii "spd_max," ++ (raw₃ ++ (ascii "\n" ++ [])))))))))
      [.record [star ++ ascii "spd_average", raw₁], .record [ascii "spd_min", raw₂],
        .record [ascii "spd_max", raw₃]] := fun h₁ h₂ h₃ ↦
    reads_pair (by decide) (by decide) cell_spd_average h₁
      (reads_metric _ (by decide) h₂ (reads_metric _ (by decide) h₃ .nil))
  by_cases hsome : 0 < a.spdN
  · rw [if_pos hsome, if_pos hsome, if_pos hsome, if_pos hsome]
    have hreads := hchain (cell_fixed 64 6 a.spdAvg) (cell_fixed 64 6 a.spdMin)
      (cell_fixed 64 6 a.spdMax)
    simpa only [fixed6, List.append_assoc, List.append_nil] using hreads
  · rw [if_neg hsome, if_neg hsome, if_neg hsome, if_neg hsome]
    have hempty : Cell [] [] := cell_plain fun _ hb ↦ absurd hb List.not_mem_nil
    have hbytes : star ++ ascii "spd_average,\nspd_min,\nspd_max,\n"
        = (star ++ ascii "spd_average,")
        ++ ([] ++ (ascii "\n" ++ (ascii "spd_min," ++ ([] ++ (ascii "\n" ++ (ascii "spd_max,"
          ++ ([] ++ (ascii "\n" ++ [])))))))) := by
      decide
    rw [hbytes]
    exact hchain hempty hempty hempty

private theorem reads_summarySection (ctx : CsvContext) {a : Aggregator D} (ha : a.Presentable) :
    Reads (summarySection ctx a) (sectionEntries (summaryRead ctx a)) := by
  have hlast : ascii "\n\n" = ascii "\n" ++ ascii "\n" := rfl
  have hbody : Reads _ ((summaryRead ctx a).rows.map .record) :=
    reads_metric (ascii "total_lines,") (by decide) (cell_decimal _) <|
    reads_metric (ascii "accepted_lines,") (by decide) (cell_decimal _) <|
    reads_metric (ascii "rejected_lines,") (by decide) (cell_decimal _) <|
    reads_metric (ascii "rejected_ratio_pct,") (by decide) (cell_fixed 64 6 _) <|
    reads_metric (ascii "hour_buckets,") (by decide) (cell_decimal _) <|
    reads_metric (ascii "time_range_start,") (by decide) (cell_csvQuote ha.firstTs) <|
    reads_metric (ascii "time_range_end,") (by decide) (cell_csvQuote ha.lastTs) <|
    reads_metric (ascii "spd_samples,") (by decide) (cell_decimal _) <|
    reads_metric (ascii "spd_sum,") (by decide) (cell_fixed 64 6 _) <|
    (reads_speeds a).append <|
    reads_metric (ascii "processing_ms,") (by decide) (cell_decimal _) <|
    reads_metric (ascii "throughput_mib_per_sec,") (by decide) (cell_fixed 64 4 _) <|
    reads_metric (ascii "peak_rss_kb,") (by decide) (cell_decimal _) .nil
  have hwell : wellHeaded (ascii "SUMMARY") [ascii "metric", ascii "value"] = true := by decide
  have hsection := reads_section (ascii "[SECTION] SUMMARY\nmetric,value\n") hwell (by decide) hbody
  unfold summarySection summaryRest
  rw [hlast]
  simp only [fixed6, fixed4, List.append_assoc, List.nil_append] at hsection ⊢
  exact hsection

/-! ## The whole result -/

omit [DoubleOps D] [PrintsNumbers D] in
theorem newline_notMem_of_isPrintable {t : Bytes} (h : ∀ b ∈ t, isPrintable b = true) :
    newline ∉ t :=
  fun hmem ↦ absurd (h newline hmem) (by decide)

omit [DoubleOps D] [PrintsNumbers D] in
private theorem newline_notMem_csvQuote {t : Bytes} (h : newline ∉ t) : newline ∉ csvQuote t :=
  fun hmem ↦ (mem_csvQuote hmem).elim (by decide) h

omit [DoubleOps D] [PrintsNumbers D] in
theorem isPrintable_utcNow (t : Tm) : ∀ b ∈ utcNow t, isPrintable b = true := by
  have hdecimal : ∀ b ∈ decimal t.year, isPrintable b = true := fun b hb ↦
    isPrintable_of_isDigit (isDigit_of_mem_decimal hb)
  have hpadded : ∀ n, ∀ b ∈ zeroPadded 2 n, isPrintable b = true := fun n b hb ↦
    isPrintable_of_isPlain (isPlain_of_mem_zeroPadded hb)
  have hdash : ∀ b ∈ ascii "-", isPrintable b = true := by decide
  have hcolon : ∀ b ∈ ascii ":", isPrintable b = true := by decide
  have hall : ∀ b ∈ decimal t.year ++ ascii "-" ++ zeroPadded 2 t.month ++ ascii "-" ++
      zeroPadded 2 t.day ++ ascii "T" ++ zeroPadded 2 t.hour ++ ascii ":" ++
      zeroPadded 2 t.minute ++ ascii ":" ++ zeroPadded 2 t.second ++ ascii "Z",
      isPrintable b = true := by
    simp only [List.forall_mem_append]
    exact ⟨⟨⟨⟨⟨⟨⟨⟨⟨⟨⟨hdecimal, hdash⟩, hpadded _⟩, hdash⟩, hpadded _⟩, by decide⟩, hpadded _⟩,
      hcolon⟩, hpadded _⟩, hcolon⟩, hpadded _⟩, by decide⟩
  exact fun b hb ↦ hall b (List.mem_of_mem_take hb)

/-- The lines at the top after the first one. -/
def headRest (D : Type) [DoubleOps D] (utcNow : Bytes) (ctx : CsvContext) : List Bytes :=
  [ascii "# schema_version,1", ascii "# generated_utc," ++ utcNow,
    ascii "# source_file," ++ csvQuote ctx.sourceFile,
    ascii "# source_bytes," ++ decimal ctx.sourceBytes, ascii "# bucket_unit,hour",
    ascii "# module_whitelist,\"" ++ (ascii ";").intercalate (Module.all.map Module.name)
      ++ ascii "\"",
    ascii "# spd_range_gate,\"[" ++ fixed6 (kSpdMin : D) ++ ascii ", " ++ fixed6 (kSpdMax : D)
      ++ ascii "]\"", []]

omit [PrintsNumbers D] in
theorem csvHead_eq (utcNow : Bytes) (ctx : CsvContext) :
    csvHead D utcNow ctx
      = ([0xEF, 0xBB, 0xBF] ++ ascii "# Zhenyu_LoggerAnalyzer result" ++ [newline])
      ++ (headRest D utcNow ctx).flatMap (· ++ [newline]) := by
  have hfirst : ascii "# Zhenyu_LoggerAnalyzer result\n"
      = ascii "# Zhenyu_LoggerAnalyzer result" ++ [newline] := by decide
  have hversion : ascii "# schema_version,1\n" = ascii "# schema_version,1" ++ [newline] :=
    by decide
  have hunit : ascii "# bucket_unit,hour\n" = ascii "# bucket_unit,hour" ++ [newline] := by decide
  have hquote : ascii "\"\n" = ascii "\"" ++ [newline] := by decide
  have hbracket : ascii "]\"\n\n" = ascii "]\"" ++ [newline] ++ [newline] := by decide
  rw [csvHead, headRest, hfirst, hversion, hunit, hquote, hbracket, ascii_newline]
  simp only [List.flatMap_cons, List.flatMap_nil, List.append_assoc, List.nil_append,
    List.append_nil]

/-- What the client takes the first line for: the mark of the encoding hides that it is a comment.
-/
def firstRecord : List Bytes := [[0xEF, 0xBB, 0xBF] ++ ascii "# Zhenyu_LoggerAnalyzer result"]

omit [DoubleOps D] [PrintsNumbers D] in
theorem reads_firstLine :
    Reads ([0xEF, 0xBB, 0xBF] ++ ascii "# Zhenyu_LoggerAnalyzer result" ++ [newline])
      [.record firstRecord] := by
  have hentry : entryOf (chomp (getString ([0xEF, 0xBB, 0xBF]
      ++ ascii "# Zhenyu_LoggerAnalyzer result"))) = some (.record firstRecord) := by decide
  have hreads := Reads.line ([0xEF, 0xBB, 0xBF] ++ ascii "# Zhenyu_LoggerAnalyzer result")
    (by decide)
  rwa [hentry] at hreads

omit [DoubleOps D] [PrintsNumbers D] in
theorem reads_comment {line : Bytes} (hhead : line.head? = some 35) (h : newline ∉ line) :
    Reads (line ++ [newline]) [] := by
  obtain ⟨text, rfl⟩ := List.head?_eq_some_iff.mp hhead
  exact Reads.comment fun hmem ↦ h (List.mem_cons_of_mem 35 hmem)

private theorem newline_notMem_fixed6 (x : D) : newline ∉ fixed6 x := fun hmem ↦
  absurd (PrintsNumbers.isNumberChar_of_fixed (List.mem_of_mem_take hmem)) (by decide)

private theorem reads_headRest {utcNow : Bytes} {ctx : CsvContext} (hutc : newline ∉ utcNow)
    (h : newline ∉ ctx.sourceFile) :
    Reads ((headRest D utcNow ctx).flatMap (· ++ [newline])) [] := by
  have hdecimal : newline ∉ decimal ctx.sourceBytes := fun hmem ↦
    absurd (isDigit_of_mem_decimal hmem) (by decide)
  have hall : ∀ line ∈ headRest D utcNow ctx, Reads (line ++ [newline]) [] := by
    simp only [headRest, List.forall_mem_cons]
    refine ⟨reads_comment rfl (by decide), reads_comment rfl (List.not_mem_append (by decide) hutc),
      reads_comment rfl (List.not_mem_append (by decide) (newline_notMem_csvQuote h)),
      reads_comment rfl (List.not_mem_append (by decide) hdecimal), reads_comment rfl (by decide),
      reads_comment rfl (by decide), reads_comment rfl ?_, .blank, ?_⟩
    · exact List.not_mem_append (List.not_mem_append (List.not_mem_append (List.not_mem_append
        (by decide) (newline_notMem_fixed6 _)) (by decide)) (newline_notMem_fixed6 _)) (by decide)
    · exact fun _ hmem ↦ absurd hmem List.not_mem_nil
  have hflat := Reads.flatMap hall
  rwa [List.flatMap_eq_nil_iff.mpr fun _ _ ↦ rfl] at hflat

private theorem reads_csvHead (t : Tm) {ctx : CsvContext} (h : newline ∉ ctx.sourceFile) :
    Reads (csvHead D (utcNow t) ctx) [.record firstRecord] := by
  rw [csvHead_eq]
  exact reads_firstLine.append
    (reads_headRest (newline_notMem_of_isPrintable (isPrintable_utcNow t)) h)

private theorem reads_sections {a : Aggregator D} (ha : a.Presentable) (ctx : CsvContext) :
    Reads (hourlySection a ++ summarySection ctx a ++ moduleSection a ++ dispositionSection a
      ++ diagnosticsSection a ++ rejectedModulesSection a)
      ((readBack a ctx).flatMap sectionEntries) := by
  have hsections := (((((reads_hourlySection a).append (reads_summarySection ctx ha)).append
    (reads_moduleSection a)).append (reads_dispositionSection a)).append
    (reads_diagnosticsSection ha)).append (reads_rejectedModulesSection ha)
  rw [readBack, List.flatMap_cons, List.flatMap_cons, List.flatMap_cons, List.flatMap_cons,
    List.flatMap_cons, List.flatMap_singleton]
  simp only [List.append_assoc] at hsections ⊢
  exact hsections

/-- **The client reads back what the server wrote.** -/
theorem parse_buildResultCsv {a : Aggregator D} (ha : a.Reachable) (t : Tm) {ctx : CsvContext}
    (h : newline ∉ ctx.sourceFile) :
    parse (getString (buildResultCsv (utcNow t) a ctx)) = readBack a ctx :=
  parse_of_reads [firstRecord]
    ((reads_csvHead (D := D) t h).append (reads_sections ha.presentable ctx))

omit [PrintsNumbers D] in
theorem rectangular_readBack (a : Aggregator D) (ctx : CsvContext) :
    ∀ s ∈ readBack a ctx, ∀ cells ∈ s.rows, cells.length = s.header.length := by
  simp only [readBack, List.forall_mem_cons]
  refine ⟨?_, ?_, ?_, ?_, ?_, ?_, fun _ h ↦ absurd h List.not_mem_nil⟩
  · rw [hourlyRead, List.forall_mem_map]
    intro e _
    rw [List.length_cons, List.length_append, List.length_map]
    rfl
  · simp only [summaryRead, List.forall_mem_cons, List.length_cons, List.length_nil, true_and]
    exact fun _ h ↦ absurd h List.not_mem_nil
  · rw [moduleRead, List.forall_mem_map]
    intro m _
    simp only [List.length_cons, List.length_nil]
  · rw [dispositionRead, List.cons_append, List.forall_mem_cons, List.forall_mem_append,
      List.forall_mem_map, List.forall_mem_cons, List.forall_mem_singleton]
    simp only [List.length_cons, List.length_nil, implies_true, and_self]
  · rw [diagnosticsRead, List.forall_mem_append, List.forall_mem_map]
    refine ⟨fun _ _ ↦ ?_, fun cells hcells ↦ ?_⟩
    · simp only [List.length_cons, List.length_nil]
    split_ifs at hcells
    · rw [List.mem_singleton.mp hcells]
      simp only [List.length_cons, List.length_nil]
    · exact absurd hcells List.not_mem_nil
  · rw [rejectedModulesRead, List.forall_mem_map]
    intro m _
    simp only [List.length_cons, List.length_nil]

/-- What the client should make of a result: the six sections with the values of the aggregator in
them, every row as long as the header, and as many rows as there are things to show. -/
structure IsReadBack (a : Aggregator D) (ctx : CsvContext) (ss : List CsvSection) : Prop where
  sections : ss = readBack a ctx
  names : ss.map CsvSection.name = [star ++ ascii "HOURLY_MODULE_COUNTS", ascii "SUMMARY",
    ascii "MODULE_TOTALS", ascii "LINE_DISPOSITION", ascii "CORRUPT_DIAGNOSTICS",
    ascii "REJECTED_MODULE_NAMES"]
  rectangular : ∀ s ∈ ss, ∀ cells ∈ s.rows, cells.length = s.header.length
  hourly : ss[0]?.map (·.rows.length) = some a.buckets.length
  diagnostics : ss[4]?.map (·.rows.length)
    = some ((Reason.rejections.countP fun r ↦ (a.corrupt r).count ≠ 0)
      + if 0 < a.outOfRange then 1 else 0)
  rejectedModules : ss[5]?.map (·.rows.length) = some a.rejectedModules.length

omit [PrintsNumbers D] in
private theorem isReadBack_readBack (a : Aggregator D) (ctx : CsvContext) :
    IsReadBack a ctx (readBack a ctx) := by
  refine ⟨rfl, rfl, rectangular_readBack a ctx, ?_, ?_, ?_⟩
  · exact congrArg some (List.length_map ..)
  · have hlength : (diagnosticsRead a).rows.length
        = (Reason.rejections.countP fun r ↦ (a.corrupt r).count ≠ 0)
          + if 0 < a.outOfRange then 1 else 0 := by
      rw [diagnosticsRead, List.length_append, List.length_map, List.countP_eq_length_filter]
      split_ifs <;> rfl
    exact congrArg some hlength
  · exact congrArg some (List.length_map ..)

/-- **The client reads back the CSV the server wrote**, whatever the lines of the log were and
whatever the name of the file is, as long as it has no newline. -/
theorem result_isReadBack {a : Aggregator D} (ha : a.Reachable) (t : Tm) {ctx : CsvContext}
    (h : newline ∉ ctx.sourceFile) :
    IsReadBack a ctx (parse (getString (buildResultCsv (utcNow t) a ctx))) := by
  rw [parse_buildResultCsv ha t h]
  exact isReadBack_readBack a ctx

end Sections

/-- A line that the log format does not allow, and a name of a file with a quote in it. -/
theorem result_isReadBack_example :
    IsReadBack ((Aggregator.empty : Aggregator ℚ).addLine [0, 44, 34, 0xFF] 0)
      ⟨ascii "a,\"b.log", 4, 1, 1⟩
      (parse (getString (buildResultCsv (utcNow ⟨2024, 5, 6, 7, 8, 9⟩)
        ((Aggregator.empty : Aggregator ℚ).addLine [0, 44, 34, 0xFF] 0)
        ⟨ascii "a,\"b.log", 4, 1, 1⟩))) :=
  result_isReadBack (.addLine _ _ .empty) _ (by decide)

end LoggerAnalyzer
