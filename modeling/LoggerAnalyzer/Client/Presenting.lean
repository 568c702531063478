import LoggerAnalyzer.Client.ReadBack
import LoggerAnalyzer.Stream.First

/-!
# The result in the window

`LoadResult` of the form lists the sections of a result, the two that the assignment asks for first,
and `ShowSection` makes a table of one. A table takes no two columns of one name, and `ShowSection`
looks for another name until it has one; how a table compares names is its own, and ignores case.

`showSection_eq` says what becomes of any section, whatever text it was read from. Of a result that
the server made nothing is changed: `loadResult_readBack`.
-/

namespace LoggerAnalyzer

open CsvDocument

/-! ## The code -/

/-- `BareName`: the name without the stars in front of it. -/
def bareName (s : CsvSection) : Bytes := trimFront [star] s.name.length s.name

/-- What `ReorderForTasks` does for one name. -/
def toFront (ss : List CsvSection) (name : Bytes) : List CsvSection :=
  match ss.findIdx? (bareName · = name) with
  | some (before + 1) => (ss[before + 1]?).toList ++ ss.eraseIdx (before + 1)
  | _ => ss

def reorderForTasks (ss : List CsvSection) : List CsvSection :=
  [ascii "SUMMARY", ascii "HOURLY_MODULE_COUNTS"].foldl toFront ss

/-- The word for a task, in UTF-8. -/
def task : Bytes := [0xEC, 0x9E, 0x91, 0xEC, 0x97, 0x85]

def sectionLabel (s : CsvSection) : Bytes :=
  (if bareName s = ascii "HOURLY_MODULE_COUNTS" then task ++ ascii "1 - "
    else if bareName s = ascii "SUMMARY" then task ++ ascii "2 - "
    else []) ++ s.name ++ ascii "  (" ++ decimal s.rows.length ++ ascii " rows)"

/-- A table. A cell that nothing was put into has no value. -/
structure DataTable where
  columns : List Bytes
  rows : List (List (Option Bytes))
deriving DecidableEq, Repr

/-- What `unique` is after so many rounds of the loop. -/
def unique (name : Bytes) : ℕ → Bytes
  | 0 => name
  | round + 1 => name ++ ascii "_" ++ decimal (round + 2)

/-- The name of the next column. -/
def columnName (columns : List Bytes) (cell : Bytes) : Bytes :=
  if cell = [] then ascii "col" ++ decimal columns.length else cell

/-- A column is added. The loop goes through more names than there are columns. -/
def addColumn (same : Bytes → Bytes → Bool) (columns : List Bytes) (cell : Bytes) :
    Option (List Bytes) :=
  (firstFree (fun name ↦ columns.any (same · name)) (unique (columnName columns cell))
    (columns.length + 2) 0).map fun name ↦ columns ++ [name]

/-- A row of the table. -/
def tableRow (width : ℕ) (cells : List Bytes) : List (Option Bytes) :=
  let n := min cells.length width
  (cells.take n).map some ++ List.replicate (width - n) none

def showSection (same : Bytes → Bytes → Bool) (s : CsvSection) : Option DataTable := do
  let columns ← s.header.foldlM (addColumn same) []
  pure ⟨columns, s.rows.map (tableRow columns.length)⟩

/-- The sections in the order in which they are listed. -/
def loadResult (csv : Bytes) : List CsvSection := reorderForTasks (parse csv)

/-! ## The order -/

/-! ## Names of columns -/

/-- An ASCII letter in lower case, or another character. -/
def lower (c : UInt8) : UInt8 := if 65 ≤ c ∧ c ≤ 90 then c + 32 else c

/-- How a table compares names: it takes some for the same, but never two numbers at the end of one
name, and of words of ASCII characters only those that differ in case. -/
structure ComparesNames (same : Bytes → Bytes → Bool) : Prop where
  symm : ∀ {a b}, same a b = true → same b a = true
  trans : ∀ {a b c}, same a b = true → same b c = true → same a c = true
  number : ∀ {name m n},
    same (name ++ ascii "_" ++ decimal m) (name ++ ascii "_" ++ decimal n) = true → m = n
  word : ∀ {a b}, (∀ c ∈ a ++ b, isIdent c = true) → same a b = true → a.map lower = b.map lower

/-- The comparison of ASCII names. -/
def ignoringCase (a b : Bytes) : Bool := a.map lower = b.map lower

private theorem lower_decimal (n : ℕ) : (decimal n).map lower = decimal n := by
  refine (List.map_congr_left fun c hc ↦ ?_).trans (List.map_id _)
  have hdigit := isDigit_of_mem_decimal hc
  rw [isDigit, Bool.and_eq_true, decide_eq_true_eq, decide_eq_true_eq] at hdigit
  refine if_neg ?_
  intro hletter
  exact absurd (UInt8.le_trans hletter.1 hdigit.2) (by decide)

private theorem lower_numbered (word : Bytes) (n : ℕ) :
    (word ++ decimal n).map lower = word.map lower ++ decimal n := by
  rw [List.map_append, lower_decimal]

theorem comparesNames_ignoringCase : ComparesNames ignoringCase where
  symm h := decide_eq_true (of_decide_eq_true h).symm
  trans h h' := decide_eq_true ((of_decide_eq_true h).trans (of_decide_eq_true h'))
  number h := by
    have hsame := of_decide_eq_true h
    rw [lower_numbered, lower_numbered] at hsame
    exact decimal_injective (List.append_cancel_left hsame)
  word _ h := of_decide_eq_true h

/-- The names of the columns of a table that is made for a header: no two are the same, and one is
not what the header says only if a column before it has that name. -/
structure Columns (same : Bytes → Bytes → Bool) (header columns : List Bytes) : Prop where
  length : columns.length = header.length
  distinct : columns.Pairwise fun a b ↦ same a b = false
  named : ∀ i cell, header[i]? = some cell →
    ∃ round, columns[i]? = some (unique (columnName (columns.take i) cell) round) ∧
      (round ≠ 0 → ∃ name ∈ columns.take i, same name (columnName (columns.take i) cell) = true)

variable {same : Bytes → Bytes → Bool}

/-- A name that no column has is taken as it is. -/
theorem addColumn_of_new {columns : List Bytes} {cell : Bytes}
    (hnew : ∀ name ∈ columns, same name (columnName columns cell) = false) :
    addColumn same columns cell = some (columns ++ [columnName columns cell]) := by
  have hfree : (fun name ↦ columns.any (same · name))
      (unique (columnName columns cell) 0) = false :=
    List.any_eq_false.mpr fun column hmem ↦ by simp [unique, hnew column hmem]
  rw [addColumn, firstFree_of_not_taken hfree]
  rfl

/-- **The loop ends** with a name that no column has. -/
theorem addColumn_eq (h : ComparesNames same) (columns : List Bytes) (cell : Bytes) :
    ∃ round, addColumn same columns cell
        = some (columns ++ [unique (columnName columns cell) round]) ∧
      (∀ name ∈ columns, same name (unique (columnName columns cell) round) = false) ∧
      (round ≠ 0 → ∃ name ∈ columns, same name (columnName columns cell) = true) := by
  by_cases hnew : ∀ name ∈ columns, same name (columnName columns cell) = false
  · exact ⟨0, addColumn_of_new hnew, hnew, fun hne ↦ absurd rfl hne⟩
  simp only [not_forall, Bool.not_eq_false] at hnew
  obtain ⟨old, hold, hsame⟩ := hnew
  have hdistinct : ∀ column ∈ columns, ∀ i j,
      same column (unique (columnName columns cell) (i + 1)) = true →
        same column (unique (columnName columns cell) (j + 1)) = true → i = j :=
    fun column _ i j hi hj ↦ Nat.add_right_cancel (h.number (h.trans (h.symm hi) hj))
  obtain ⟨j, -, hj, hfree⟩ := exists_free hdistinct 0
  have huntaken : columns.any (same · (unique (columnName columns cell) (j + 1))) = false :=
    List.any_eq_false.mpr fun column hmem ↦ by simp [hfree column hmem]
  have hsearch : ∃ i ≤ j + 1, firstFree (fun name ↦ columns.any (same · name))
        (unique (columnName columns cell)) (columns.length + 2) 0
      = some (unique (columnName columns cell) i) ∧
        columns.any (same · (unique (columnName columns cell) i)) = false :=
    firstFree_of_free (Nat.zero_le _) (by omega) huntaken
  obtain ⟨i, -, heq, hnone⟩ := hsearch
  refine ⟨i, ?_, fun column hmem ↦ ?_, fun _ ↦ ⟨old, hold, hsame⟩⟩
  · rw [addColumn, heq]
    rfl
  · exact Bool.not_eq_true _ ▸ List.any_eq_false.mp hnone column hmem

private theorem columns_header (h : ComparesNames same) (header : List Bytes) :
    ∃ columns, header.foldlM (addColumn same) [] = some columns ∧ Columns same header columns := by
  induction header using List.reverseRecOn with
  | nil => exact ⟨[], rfl, rfl, .nil, by simp⟩
  | append_singleton header cell ih =>
    obtain ⟨columns, heq, hcolumns⟩ := ih
    obtain ⟨round, hadd, hnew, hround⟩ := addColumn_eq h columns cell
    refine ⟨columns ++ [unique (columnName columns cell) round], ?_, ?_, ?_, fun i cell' hcell ↦ ?_⟩
    · rw [List.foldlM_append, heq]
      simp [hadd]
    · simp [hcolumns.length]
    · rw [List.pairwise_append]
      exact ⟨hcolumns.distinct, List.pairwise_singleton _ _, by simpa using hnew⟩
    · rcases Nat.lt_or_ge i header.length with hi | hi
      · have hlt : i < columns.length := hcolumns.length ▸ hi
        rw [List.getElem?_append_left hi] at hcell
        rw [List.getElem?_append_left hlt, List.take_append_of_le_length (Nat.le_of_lt hlt)]
        exact hcolumns.named i cell' hcell
      · have hlen : i = columns.length := by
          have := (List.getElem?_eq_some_iff.mp hcell).1
          rw [List.length_append, List.length_singleton] at this
          rw [hcolumns.length]
          omega
        rw [hlen, ← hcolumns.length.symm, List.getElem?_concat_length] at hcell
        rw [hlen, List.getElem?_concat_length, List.take_left, ← Option.some.inj hcell]
        exact ⟨round, rfl, hround⟩

/-! ## Tables -/

private theorem tableRow_of_length {width : ℕ} {cells : List Bytes} (h : cells.length = width) :
    tableRow width cells = cells.map some := by
  rw [tableRow, h, min_self, Nat.sub_self, ← h, List.take_length]
  exact List.append_nil _

/-- **Any section can be shown**, whatever its names and its rows are: the table has a column for
each name of the header, and a row for each of the section. -/
theorem showSection_eq (h : ComparesNames same) (s : CsvSection) :
    ∃ columns, showSection same s = some ⟨columns, s.rows.map (tableRow columns.length)⟩ ∧
      Columns same s.header columns := by
  obtain ⟨columns, heq, hcolumns⟩ := columns_header h s.header
  refine ⟨columns, ?_, hcolumns⟩
  rw [showSection, heq]
  rfl

/-- A header with a name twice and one with none, and a row that is too short. -/
theorem showSection_eq_twice : ∃ columns,
    showSection ignoringCase ⟨ascii "X", [ascii "n", ascii "N", []], [[ascii "1"]]⟩
      = some ⟨columns, [[ascii "1"]].map (tableRow columns.length)⟩ ∧
      Columns ignoringCase [ascii "n", ascii "N", []] columns :=
  showSection_eq comparesNames_ignoringCase ⟨ascii "X", [ascii "n", ascii "N", []], [[ascii "1"]]⟩

example : (showSection ignoringCase ⟨ascii "X", [ascii "n", ascii "N", []], [[ascii "1"]]⟩)
    = some ⟨[ascii "n", ascii "N_2", ascii "col2"], [[some (ascii "1"), none, none]]⟩ := by
  decide +kernel

/-- Names that are there and are not the same are taken as they are. -/
theorem foldlM_addColumn (header : List Bytes) (hcells : [] ∉ header)
    (hdistinct : header.Pairwise fun a b ↦ same a b = false) :
    header.foldlM (addColumn same) [] = some header := by
  induction header using List.reverseRecOn with
  | nil => rfl
  | append_singleton header cell ih =>
    rw [List.pairwise_append] at hdistinct
    rw [List.mem_append, not_or, List.mem_singleton] at hcells
    have hname : columnName header cell = cell := if_neg (Ne.symm hcells.2)
    have hnew : ∀ name ∈ header, same name (columnName header cell) = false := by
      rw [hname]
      exact fun name hmem ↦ hdistinct.2.2 name hmem cell List.mem_cons_self
    have hadd := addColumn_of_new hnew
    rw [hname] at hadd
    rw [List.foldlM_append, ih hcells.1 hdistinct.1]
    calc _ = ([cell].foldlM (addColumn same) header) := Option.bind_some header _
      _ = addColumn same header cell := bind_pure _
      _ = some (header ++ [cell]) := hadd

/-- A section that is as it should be is shown as it is. -/
theorem showSection_of_rectangular {s : CsvSection} (hcells : [] ∉ s.header)
    (hdistinct : s.header.Pairwise fun a b ↦ same a b = false)
    (hrows : ∀ cells ∈ s.rows, cells.length = s.header.length) :
    showSection same s = some ⟨s.header, s.rows.map (·.map some)⟩ := by
  rw [showSection, foldlM_addColumn s.header hcells hdistinct]
  refine congrArg (fun rows ↦ some (DataTable.mk s.header rows)) ?_
  exact List.map_congr_left fun cells hmem ↦ tableRow_of_length (hrows cells hmem)

/-! ## The result of the server -/

section Sections

variable {D : Type} [DoubleOps D]

/-- The headers that the server writes. -/
def resultHeaders : List (List Bytes) :=
  [ascii "bucket_start" :: (Module.all.map Module.name ++ [ascii "bucket_total"]),
    [ascii "metric", ascii "value"],
    [ascii "module", ascii "count", ascii "percent_of_accepted"],
    [ascii "disposition", ascii "count", ascii "description"],
    [ascii "reason", ascii "count", ascii "first_line_no", ascii "first_byte_offset",
      ascii "excerpt"],
    [ascii "module_name", ascii "occurrences", ascii "note"]]

/-- They are of words that differ in more than case. -/
theorem words_resultHeaders : ∀ header ∈ resultHeaders,
    (∀ cell ∈ header, cell ≠ [] ∧ ∀ c ∈ cell, isIdent c = true) ∧
      (header.map (·.map lower)).Nodup := by
  decide +kernel

private theorem header_mem_resultHeaders {a : Aggregator D} {ctx : CsvContext} {s : CsvSection}
    (h : s ∈ readBack a ctx) : s.header ∈ resultHeaders :=
  have hheaders : (readBack a ctx).map CsvSection.header = resultHeaders := rfl
  hheaders ▸ List.mem_map_of_mem h

private theorem distinct_resultHeaders (h : ComparesNames same) {header : List Bytes}
    (hmem : header ∈ resultHeaders) : header.Pairwise fun a b ↦ same a b = false := by
  obtain ⟨hwords, hnodup⟩ := words_resultHeaders header hmem
  rw [List.Nodup, List.pairwise_map] at hnodup
  refine hnodup.imp_of_mem fun {x y} hx hy hne ↦ Bool.not_eq_true _ ▸ fun hsame ↦ hne ?_
  refine h.word (fun c hc ↦ ?_) hsame
  exact (List.mem_append.mp hc).elim ((hwords x hx).2 c) ((hwords y hy).2 c)

private theorem reorderForTasks_readBack (a : Aggregator D) (ctx : CsvContext) :
    reorderForTasks (readBack a ctx) = readBack a ctx := rfl

omit [DoubleOps D] in
private theorem sectionLabel_hourlyRead (a : Aggregator D) : sectionLabel (hourlyRead a)
    = task ++ ascii "1 - " ++ (star ++ ascii "HOURLY_MODULE_COUNTS") ++ ascii "  ("
        ++ decimal a.buckets.length ++ ascii " rows)" := by
  have hbare : bareName (hourlyRead a) = ascii "HOURLY_MODULE_COUNTS" := rfl
  have hrows : (hourlyRead a).rows.length = a.buckets.length := List.length_map _
  rw [sectionLabel, if_pos hbare, hrows]
  rfl

private theorem sectionLabel_summaryRead (ctx : CsvContext) (a : Aggregator D) :
    sectionLabel (summaryRead ctx a)
      = task ++ ascii "2 - " ++ ascii "SUMMARY" ++ ascii "  (" ++ decimal 15 ++ ascii " rows)" := by
  have hbare : bareName (summaryRead ctx a) = ascii "SUMMARY" := rfl
  rw [sectionLabel, hbare, if_neg (by decide), if_pos rfl]
  rfl

/-- **The user sees what the server counted**, whatever the log was: the six sections of the result,
the two tasks first, each as a table with the names of its header and every value in its place. -/
theorem loadResult_buildResultCsv [PrintsNumbers D] (hsame : ComparesNames same) {a : Aggregator D}
    (ha : a.Reachable) (t : Tm) {ctx : CsvContext} (hname : newline ∉ ctx.sourceFile) :
    loadResult (getString (buildResultCsv (utcNow t) a ctx)) = readBack a ctx ∧
      ((readBack a ctx).take 2).map sectionLabel
        = [task ++ ascii "1 - " ++ (star ++ ascii "HOURLY_MODULE_COUNTS") ++ ascii "  ("
            ++ decimal a.buckets.length ++ ascii " rows)",
          task ++ ascii "2 - " ++ ascii "SUMMARY" ++ ascii "  (" ++ decimal 15
            ++ ascii " rows)"] ∧
      ∀ s ∈ readBack a ctx, showSection same s = some ⟨s.header, s.rows.map (·.map some)⟩ := by
  refine ⟨?_, ?_, fun s hs ↦ ?_⟩
  · rw [loadResult, parse_buildResultCsv ha t hname]
    exact reorderForTasks_readBack a ctx
  · exact congrArg₂ (fun label label' ↦ [label, label']) (sectionLabel_hourlyRead a)
      (sectionLabel_summaryRead ctx a)
  · have hheader := header_mem_resultHeaders hs
    refine showSection_of_rectangular (fun hnil ↦ ?_) (distinct_resultHeaders hsame hheader)
      (rectangular_readBack a ctx s hs)
    exact ((words_resultHeaders s.header hheader).1 [] hnil).1 rfl

end Sections

/-- A result with a line that the log format does not allow. -/
theorem loadResult_buildResultCsv_example :
    loadResult (getString (buildResultCsv (utcNow ⟨2024, 5, 6, 7, 8, 9⟩)
        ((Aggregator.empty : Aggregator ℚ).addLine [0, 44, 34, 0xFF] 0) ⟨ascii "a.log", 4, 1, 1⟩))
      = readBack ((Aggregator.empty : Aggregator ℚ).addLine [0, 44, 34, 0xFF] 0)
          ⟨ascii "a.log", 4, 1, 1⟩ :=
  (loadResult_buildResultCsv comparesNames_ignoringCase (.addLine _ _ .empty) _ (by decide)).1

end LoggerAnalyzer
