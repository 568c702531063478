import LoggerAnalyzer.Client.ReadBack
import LoggerAnalyzer.Stream.Delimited
import Mathlib.Data.List.TakeWhile

/-!
# The name in the report

The name of the uploaded file stands in a comment at the top of the result. The server quotes it if
it has a newline in it, but the client cuts lines before it looks at quotes, so that a name may
bring lines of its own into the report. `injected` are the entries that it adds, and `parse_eq_iff`
says that the reports for two names are the same exactly when these are.
-/

namespace LoggerAnalyzer

namespace CsvDocument

/-! ## What sections are made of -/

def Entry.isRecord : Entry → Bool
  | .title _ => false
  | .record _ => true

private theorem sectionsOf_dropWhile (es : List Entry) :
    sectionsOf (es.dropWhile Entry.isRecord) = sectionsOf es := by
  induction es with
  | nil => rfl
  | cons e es ih =>
    cases e with
    | title name => rfl
    | record cells => exact ih

/-- The entries from which a section was read. -/
def entriesOf (s : CsvSection) : List Entry :=
  .title s.name :: if s.header = [] then [] else .record s.header :: s.rows.map .record

private theorem map_records_append (es : List Entry) :
    (records es).map .record ++ es.dropWhile Entry.isRecord = es := by
  induction es with
  | nil => rfl
  | cons e es ih =>
    cases e with
    | title name => rfl
    | record cells => exact congrArg (Entry.record cells :: ·) ih

private theorem mem_records {cells : List Bytes} {es : List Entry} (h : cells ∈ records es) :
    .record cells ∈ es := by
  induction es with
  | nil => exact absurd h List.not_mem_nil
  | cons e es ih =>
    cases e with
    | title name => exact absurd h List.not_mem_nil
    | record cells' =>
      rcases List.mem_cons.mp h with rfl | h
      · exact List.mem_cons_self
      · exact List.mem_cons_of_mem _ (ih h)

/-- Nothing is lost in the sections but what stands before the first of them, as no record is
empty. -/
theorem flatMap_entriesOf_sectionsOf {es : List Entry} (h : .record [] ∉ es) :
    (sectionsOf es).flatMap entriesOf = es.dropWhile Entry.isRecord := by
  induction es with
  | nil => rfl
  | cons e es ih =>
    have hes : .record [] ∉ es := fun hmem ↦ h (List.mem_cons_of_mem e hmem)
    cases e with
    | record cells => exact ih hes
    | title name =>
      have hback : entriesOf ⟨name, (records es).headD [], (records es).tail⟩
          = .title name :: (records es).map .record := by
        cases hrecords : records es with
        | nil => rfl
        | cons cells rows =>
          have hcells : cells ≠ [] := by
            rintro rfl
            exact hes (mem_records (hrecords ▸ List.mem_cons_self))
          exact congrArg (Entry.title name :: ·) (if_neg hcells)
      rw [sectionsOf, List.flatMap_cons, ih hes, hback, List.cons_append, map_records_append]
      rfl

/-- **The sections tell the entries apart**, from the first title on. -/
theorem sectionsOf_inj {es es' : List Entry} (h : .record [] ∉ es) (h' : .record [] ∉ es') :
    sectionsOf es = sectionsOf es' ↔
      es.dropWhile Entry.isRecord = es'.dropWhile Entry.isRecord := by
  constructor
  · intro heq
    rw [← flatMap_entriesOf_sectionsOf h, heq, flatMap_entriesOf_sectionsOf h']
  · intro heq
    rw [← sectionsOf_dropWhile es, heq, sectionsOf_dropWhile es']

private theorem splitFields_ne_nil (inQuotes : Bool) (sb line : Bytes) :
    splitFields inQuotes sb line ≠ [] := by
  fun_induction splitFields inQuotes sb line <;> simp_all

private theorem record_nil_notMem_entries (s : Bytes) : .record [] ∉ entries s := by
  intro hmem
  obtain ⟨line, -, hline⟩ := List.mem_filterMap.mp hmem
  rw [entryOf] at hline
  split_ifs at hline
  · cases Option.some.inj hline
  · exact splitFields_ne_nil false [] line (Entry.record.inj (Option.some.inj hline))

private theorem dropWhile_ne_append {α : Type} (p : α → Bool) {us : List α} (h : us ≠ [])
    (zs : List α) :
    zs.dropWhile p ≠ us ++ zs := by
  intro heq
  have hle := (List.dropWhile_sublist p (l := zs)).length_le
  have hpos := List.length_pos_iff.mpr h
  rw [heq, List.length_append] at hle
  omega

/-- What follows two lists alike does not matter. -/
theorem dropWhile_append_inj {α : Type} (p : α → Bool) (xs ys zs : List α) :
    (xs ++ zs).dropWhile p = (ys ++ zs).dropWhile p ↔ xs.dropWhile p = ys.dropWhile p := by
  rw [List.dropWhile_append, List.dropWhile_append]
  by_cases hx : xs.dropWhile p = []
  · by_cases hy : ys.dropWhile p = []
    · rw [hx, hy]
      simp
    · rw [hx, if_pos List.isEmpty_nil, if_neg (by simpa using hy)]
      exact iff_of_false (dropWhile_ne_append p hy zs) (Ne.symm hy)
  · by_cases hy : ys.dropWhile p = []
    · rw [hy, if_neg (by simpa using hx), if_pos List.isEmpty_nil]
      exact iff_of_false (Ne.symm (dropWhile_ne_append p hx zs)) hx
    · rw [if_neg (by simpa using hx), if_neg (by simpa using hy), List.append_left_inj]

/-! ## A text of many lines -/

/-- What the lines of a text are to the client. -/
def lineEntries (text : Bytes) : List Entry :=
  (text.splitOn newline).filterMap fun line ↦ entryOf (chomp (getString line))

private theorem lineEntries_of_notMem {text : Bytes} (h : newline ∉ text) :
    lineEntries text = (entryOf (chomp (getString text))).toList := by
  rw [lineEntries, List.splitOn_eq_singleton h]
  cases hentry : entryOf (chomp (getString text)) <;> simp [hentry]

private theorem lineEntries_append_cons {line : Bytes} (h : newline ∉ line) (text : Bytes) :
    lineEntries (line ++ newline :: text)
      = (entryOf (chomp (getString line))).toList ++ lineEntries text := by
  rw [lineEntries, List.splitOn_append_cons_self_of_not_mem h, lineEntries]
  cases hentry : entryOf (chomp (getString line)) <;> simp [hentry]

/-- A text behind which a newline follows, line by line. -/
theorem reads_text (text : Bytes) : Reads (text ++ [newline]) (lineEntries text) := by
  induction text using Delimited.delimited_induction newline with
  | tail line hline =>
    rw [lineEntries_of_notMem hline]
    exact Reads.line _ hline
  | piece line text hline ih =>
    have hreads := (Reads.line _ hline).append ih
    rw [lineEntries_append_cons hline]
    simpa using hreads

/-- Whether a line of the text begins like a title. -/
theorem lineEntries_titles (text : Bytes) :
    (∀ e ∈ lineEntries text, e.isRecord = true) ↔
      ∀ line ∈ text.splitOn newline, ¬sectionMark <+: chomp (getString line) := by
  have hentry : ∀ line, (∀ e ∈ (entryOf line), e.isRecord = true) ↔ ¬sectionMark <+: line := by
    intro line
    rw [← List.isPrefixOf_iff_prefix, entryOf]
    split_ifs with hmark hnothing <;> simp [hmark, Entry.isRecord]
  rw [lineEntries]
  simp only [List.mem_filterMap, forall_exists_index, and_imp]
  constructor
  · exact fun h line hline ↦ (hentry _).mp fun e he ↦ h e line hline he
  · exact fun h e line hline he ↦ (hentry _).mpr (h line hline) e he

private theorem isPrefixOf_chomp (line : Bytes) : chomp line <+: line := by
  rw [chomp]
  split_ifs
  · exact List.dropLast_prefix line
  · exact List.prefix_refl line

/-- The mark is in a line what it was before the text was decoded. -/
theorem sectionMark_prefix_iff (line : Bytes) :
    sectionMark <+: chomp (getString line) ↔ sectionMark <+: line := by
  rw [← prefix_getString_iff sectionMark (by decide) line]
  constructor
  · exact fun h ↦ h.trans (isPrefixOf_chomp _)
  · rintro ⟨rest, hrest⟩
    rw [← hrest, chomp]
    by_cases hnil : rest = []
    · rw [hnil, List.append_nil]
      decide
    · rw [List.dropLast_append_of_ne_nil hnil]
      split_ifs
      · exact List.prefix_append ..
      · exact List.prefix_append ..

/-! ## A mark after a newline -/

section Marks

variable {mark : Bytes} (hmark : newline ∉ mark)

include hmark in
private theorem prefix_line_iff {line : Bytes} (text : Bytes) :
    mark <+: line ++ newline :: text ↔ mark <+: line := by
  constructor
  · intro h
    rcases List.prefix_or_prefix_of_prefix h (List.prefix_append line _) with hle | hle
    · exact hle
    · obtain ⟨rest, rfl⟩ := hle
      rw [List.prefix_append_right_inj] at h
      obtain _ | ⟨c, rest⟩ := rest
      · exact ⟨[], by rw [List.append_nil, List.append_nil]⟩
      · rw [List.cons_prefix_cons] at h
        exact absurd (List.mem_append_right line (h.1 ▸ List.mem_cons_self)) hmark
  · exact fun h ↦ h.trans (List.prefix_append ..)

theorem infix_after_line {line : Bytes} (hline : newline ∉ line) (text : Bytes) :
    newline :: mark <:+: line ++ newline :: text ↔
      mark <+: text ∨ newline :: mark <:+: text := by
  induction line with
  | nil => rw [List.nil_append, List.infix_cons_iff, List.cons_prefix_cons, and_iff_right rfl]
  | cons c line ih =>
    rw [List.mem_cons, not_or] at hline
    rw [List.cons_append, List.infix_cons_iff, List.cons_prefix_cons, ih hline.2,
      or_iff_right fun h ↦ hline.1 h.1]

include hmark in
/-- A line begins with the mark. -/
theorem exists_line_iff (text : Bytes) :
    (∃ line ∈ text.splitOn newline, mark <+: line) ↔
      mark <+: text ∨ newline :: mark <:+: text := by
  induction text using Delimited.delimited_induction newline with
  | tail line hline =>
    have hinfix : ¬newline :: mark <:+: line := fun h ↦
      hline (h.subset List.mem_cons_self)
    rw [List.splitOn_eq_singleton hline, or_iff_left hinfix]
    simp
  | piece line text hline ih =>
    rw [List.splitOn_append_cons_self_of_not_mem hline, infix_after_line hline,
      prefix_line_iff hmark, ← ih]
    simp

/-! ### In quotes -/

variable {text : Bytes} (hquote : 34 ∉ text)

include hquote in
private theorem prefix_doubled_iff (value : Bytes) : text <+: doubled value ↔ text <+: value := by
  induction text generalizing value with
  | nil => exact iff_of_true List.nil_prefix List.nil_prefix
  | cons a text ih =>
    rw [List.mem_cons, not_or] at hquote
    obtain _ | ⟨c, value⟩ := value
    · rfl
    rw [doubled, List.flatMap_cons, ← doubled]
    by_cases hc : c = 34
    · rw [if_pos hc, List.cons_append, List.cons_prefix_cons, List.cons_prefix_cons]
      exact iff_of_false (fun h ↦ hquote.1 h.1.symm) fun h ↦ hquote.1 (hc ▸ h.1.symm)
    · rw [if_neg hc, List.singleton_append, List.cons_prefix_cons, List.cons_prefix_cons,
        ih hquote.2]

include hquote in
private theorem infix_doubled_iff (hne : text ≠ []) (value : Bytes) :
    text <:+: doubled value ↔ text <:+: value := by
  induction value with
  | nil => rfl
  | cons c value ih =>
    have hprefix := prefix_doubled_iff hquote (c :: value)
    rw [doubled, List.flatMap_cons, ← doubled] at hprefix ⊢
    obtain ⟨a, tail, rfl⟩ := List.exists_cons_of_ne_nil hne
    have ha : a ≠ 34 := fun h ↦ hquote (h ▸ List.mem_cons_self)
    by_cases hc : c = 34
    · rw [if_pos hc, List.cons_append, List.cons_append, List.nil_append, List.infix_cons_iff,
        List.infix_cons_iff, List.infix_cons_iff, ih, List.cons_prefix_cons, List.cons_prefix_cons,
        List.cons_prefix_cons, hc, or_iff_right fun h ↦ ha h.1, or_iff_right fun h ↦ ha h.1,
        or_iff_right fun h ↦ ha h.1]
    · rw [if_neg hc, List.singleton_append] at hprefix ⊢
      rw [List.infix_cons_iff, List.infix_cons_iff, hprefix, ih]

include hquote in
/-- Quotes around a text bring no such mark into it and take none away. -/
theorem infix_csvQuote_iff (hne : text ≠ []) (value : Bytes) :
    text <:+: csvQuote value ↔ text <:+: value := by
  rw [csvQuote]
  split_ifs
  · have hend : ∀ ys : Bytes, text <:+: ys ++ [34] ↔ text <:+: ys := fun ys ↦ by
      rw [List.infix_concat_iff, List.suffix_concat_iff]
      refine or_iff_right ?_
      rintro (hnil | ⟨t, rfl, -⟩)
      · exact hne hnil
      · exact hquote (List.mem_append_right t List.mem_cons_self)
    rw [hend, List.infix_cons_iff, ← doubled, infix_doubled_iff hquote hne]
    obtain ⟨a, tail, rfl⟩ := List.exists_cons_of_ne_nil hne
    rw [List.cons_prefix_cons]
    exact or_iff_right fun h ↦ hquote (h.1 ▸ List.mem_cons_self)
  · rfl

end Marks

end CsvDocument

open CsvDocument

/-! ## The name -/

/-- What the lines of the quoted name after its first newline are to the client. -/
def nameEntries (name : Bytes) : List Entry :=
  match memchr newline (csvQuote name) with
  | none => []
  | some (_, after) => lineEntries after

/-- What the name adds to the report: the entries from its first title on. -/
def injected (name : Bytes) : List Entry := (nameEntries name).dropWhile Entry.isRecord

private theorem reads_sourceLine (name : Bytes) :
    Reads (ascii "# source_file," ++ csvQuote name ++ [newline]) (nameEntries name) := by
  rw [nameEntries]
  rcases Delimited.eq_tail_or_piece newline (csvQuote name) with hnone | ⟨line, text, hline, htext⟩
  · rw [memchr_of_notMem hnone]
    exact reads_comment rfl (List.not_mem_append (by decide) hnone)
  · rw [htext, memchr_append_cons hline]
    have hreads := (reads_comment rfl
      (List.not_mem_append (show newline ∉ ascii "# source_file," by decide) hline)).append
        (reads_text text)
    simpa using hreads

/-- **A name adds nothing unless a newline in it is followed by the mark of a section.** -/
theorem injected_eq_nil_iff (name : Bytes) :
    injected name = [] ↔ ¬newline :: sectionMark <:+: name := by
  rw [← infix_csvQuote_iff (by decide) (List.cons_ne_nil _ _), injected,
    List.dropWhile_eq_nil_iff, nameEntries]
  rcases Delimited.eq_tail_or_piece newline (csvQuote name) with hnone | ⟨line, text, hline, htext⟩
  · rw [memchr_of_notMem hnone]
    exact iff_of_true (fun e he ↦ absurd he List.not_mem_nil) fun h ↦
      hnone (h.subset List.mem_cons_self)
  · rw [htext, memchr_append_cons hline, infix_after_line hline, ← exists_line_iff (by decide)]
    dsimp only
    rw [lineEntries_titles]
    simp only [sectionMark_prefix_iff, not_exists, not_and]

/-! ## Two names -/

section Reports

variable {D : Type} [DoubleOps D]

/-- What stands in the result behind the line with the name. -/
def behindName (t : Tm) (a : Aggregator D) (ctx : CsvContext) : Bytes :=
  ((headRest D (utcNow t) ctx).drop 3).flatMap (· ++ [newline])
    ++ (hourlySection a ++ summarySection ctx a ++ moduleSection a ++ dispositionSection a
      ++ diagnosticsSection a ++ rejectedModulesSection a)

private theorem buildResultCsv_eq (t : Tm) (a : Aggregator D) (ctx : CsvContext) (name : Bytes) :
    buildResultCsv (utcNow t) a { ctx with sourceFile := name }
      = [0xEF, 0xBB, 0xBF] ++ ascii "# Zhenyu_LoggerAnalyzer result" ++ [newline]
        ++ (ascii "# schema_version,1" ++ [newline])
        ++ (ascii "# generated_utc," ++ utcNow t ++ [newline])
        ++ (ascii "# source_file," ++ csvQuote name ++ [newline]) ++ behindName t a ctx := by
  have hsummary : summarySection { ctx with sourceFile := name } a = summarySection ctx a := rfl
  rw [buildResultCsv, csvHead_eq, behindName, hsummary]
  simp only [headRest, List.flatMap_cons, List.drop_succ_cons, List.drop_zero, List.append_assoc]

/-- What the lines of the result are, with those of the name among them. -/
theorem entries_buildResultCsv (t : Tm) (a : Aggregator D) (ctx : CsvContext) (name : Bytes) :
    entries (getString (buildResultCsv (utcNow t) a { ctx with sourceFile := name }))
      = .record firstRecord :: (nameEntries name ++ entries (getString (behindName t a ctx))) := by
  have hversion : Reads (ascii "# schema_version,1" ++ [newline]) [] :=
    reads_comment rfl (by decide)
  have hutc : Reads (ascii "# generated_utc," ++ utcNow t ++ [newline]) [] :=
    reads_comment rfl (List.not_mem_append (by decide)
      (newline_notMem_of_isPrintable (isPrintable_utcNow t)))
  have hfront := ((reads_firstLine.append hversion).append hutc).append (reads_sourceLine name)
  rw [buildResultCsv_eq, hfront]
  rfl

/-- **The reports for two names are the same exactly when the names add the same to it.** -/
theorem parse_eq_iff (t : Tm) (a : Aggregator D) (ctx : CsvContext) (name name' : Bytes) :
    parse (getString (buildResultCsv (utcNow t) a { ctx with sourceFile := name }))
        = parse (getString (buildResultCsv (utcNow t) a { ctx with sourceFile := name' }))
      ↔ injected name = injected name' := by
  rw [parse_eq, parse_eq, sectionsOf_inj (record_nil_notMem_entries _)
    (record_nil_notMem_entries _), entries_buildResultCsv, entries_buildResultCsv]
  exact dropWhile_append_inj Entry.isRecord (nameEntries name) (nameEntries name') _

/-- **What the name of the file can do to the report**: two names give the same report exactly when
they add the same entries to it, and a name adds none exactly when no newline in it is followed by
the mark of a section. -/
theorem report_eq_iff (t : Tm) (a : Aggregator D) (ctx : CsvContext) (name name' : Bytes) :
    (parse (getString (buildResultCsv (utcNow t) a { ctx with sourceFile := name }))
        = parse (getString (buildResultCsv (utcNow t) a { ctx with sourceFile := name' }))
      ↔ injected name = injected name')
    ∧ (injected name = [] ↔ ¬newline :: sectionMark <:+: name) :=
  ⟨parse_eq_iff t a ctx name name', injected_eq_nil_iff name⟩

end Reports

/-- A file whose name has a section of its own in it. -/
theorem report_ne :
    parse (getString (buildResultCsv (utcNow ⟨2024, 5, 6, 7, 8, 9⟩)
        (Aggregator.empty : Aggregator ℚ)
        ⟨ascii "x\n[SECTION] SUMMARY\nmetric,value\ntotal_lines,0", 1, 1, 1⟩))
      ≠ parse (getString (buildResultCsv (utcNow ⟨2024, 5, 6, 7, 8, 9⟩)
        (Aggregator.empty : Aggregator ℚ) ⟨ascii "x", 1, 1, 1⟩)) := by
  have hiff := parse_eq_iff ⟨2024, 5, 6, 7, 8, 9⟩ (Aggregator.empty : Aggregator ℚ) ⟨[], 1, 1, 1⟩
    (ascii "x\n[SECTION] SUMMARY\nmetric,value\ntotal_lines,0") (ascii "x")
  have hne : injected (ascii "x\n[SECTION] SUMMARY\nmetric,value\ntotal_lines,0")
      ≠ injected (ascii "x") := by
    decide
  exact fun heq ↦ hne (hiff.mp heq)

end LoggerAnalyzer
