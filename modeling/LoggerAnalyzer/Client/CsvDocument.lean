import LoggerAnalyzer.Text.Utf8
import Mathlib.Data.List.Forall2

/-!
# Reading the result

`CsvDocument.parse` of the C# client cuts the text of a result into sections. It cuts lines before
it looks at quotes: a quoted cell that has a newline in it is two lines here, and what follows the
newline is read like any other line. `splitLine` then reads the cells of one line.

What the loop makes of a line depends on the line alone: it is the title of a section, a record, or
nothing. `entriesOf` lists what the lines of a text are, and `parse_eq` says that the sections are
found in that list. `Reads bytes es` says that `bytes` contribute `es` to it wherever they stand;
the rules for it follow the way a text is put together.
-/

namespace LoggerAnalyzer

/-- `CsvSection`. -/
structure CsvSection where
  name : Bytes
  header : List Bytes
  rows : List (List Bytes)
deriving DecidableEq, Repr

namespace CsvDocument

/-! ## The code -/

/-- The white space that `Trim` takes away, each in UTF-8. -/
def whiteSpace : List Bytes :=
  [[0x09], [0x0A], [0x0B], [0x0C], [0x0D], [0x20], [0xC2, 0x85], [0xC2, 0xA0], [0xE1, 0x9A, 0x80],
    [0xE2, 0x80, 0x80], [0xE2, 0x80, 0x81], [0xE2, 0x80, 0x82], [0xE2, 0x80, 0x83],
    [0xE2, 0x80, 0x84], [0xE2, 0x80, 0x85], [0xE2, 0x80, 0x86], [0xE2, 0x80, 0x87],
    [0xE2, 0x80, 0x88], [0xE2, 0x80, 0x89], [0xE2, 0x80, 0x8A], [0xE2, 0x80, 0xA8],
    [0xE2, 0x80, 0xA9], [0xE2, 0x80, 0xAF], [0xE2, 0x81, 0x9F], [0xE3, 0x80, 0x80]]

/-- The words at the front of `s` that are in `spaces` are taken away. The fuel is the length. -/
def trimFront (spaces : List Bytes) : ℕ → Bytes → Bytes
  | 0, s => s
  | fuel + 1, s =>
    match spaces.find? fun space ↦ space.isPrefixOf s with
    | none => s
    | some space => trimFront spaces fuel (s.drop space.length)

/-- `Trim`. -/
def trim (s : Bytes) : Bytes :=
  let front := trimFront whiteSpace s.length s
  (trimFront (whiteSpace.map List.reverse) front.length front.reverse).reverse

/-- `Replace("\r\n", "\n")`: a CR goes if an LF follows it. -/
def replaceCrLf : Bytes → Bytes
  | [] => []
  | c :: s =>
    if c = carriageReturn ∧ s.head? = some newline then replaceCrLf s else c :: replaceCrLf s

/-- The loop of `SplitLine`: whether it is in quotes, the cell so far, and the rest of the line. A
quote in quotes ends them unless another one follows. -/
def splitFields : Bool → Bytes → Bytes → List Bytes
  | _, sb, [] => [sb]
  | true, sb, [c] => [if c = 34 then sb else sb ++ [c]]
  | true, sb, c :: d :: s =>
    if c = 34 then
      if d = 34 then splitFields true (sb ++ [34]) s else splitFields false sb (d :: s)
    else splitFields true (sb ++ [c]) (d :: s)
  | false, sb, c :: s =>
    if c = 34 then splitFields true sb s
    else if c = 44 then sb :: splitFields false [] s
    else splitFields false (sb ++ [c]) s

/-- `SplitLine`. -/
def splitLine (line : Bytes) : List Bytes := splitFields false [] line

/-- What stands before the name of a section. -/
def sectionMark : Bytes := ascii "[SECTION] "

/-- The variables of the loop of `Parse`. `current` is the last section found, which `sections` has
here only the ones before. -/
structure Parsing where
  sections : List CsvSection
  current : Option CsvSection
  expectHeader : Bool

/-- The loop of `Parse` on one line. -/
def parseLine (st : Parsing) (line : Bytes) : Parsing :=
  if sectionMark.isPrefixOf line then
    { sections := st.sections ++ st.current.toList
      current := some ⟨trim (line.drop 10), [], []⟩
      expectHeader := true }
  else if line = [] ∨ line.head? = some 35 then st
  else
    match st.current with
    | none => st
    | some current =>
      if st.expectHeader then
        { st with current := some { current with header := splitLine line }, expectHeader := false }
      else { st with current := some { current with rows := current.rows ++ [splitLine line] } }

/-- `Parse`. -/
def parse (csv : Bytes) : List CsvSection :=
  if csv = [] then []
  else
    let st := ((replaceCrLf csv).splitOn newline).foldl parseLine ⟨[], none, false⟩
    st.sections ++ st.current.toList

example : splitLine (ascii "a,\"b,\"\"c\",,d") =
    [ascii "a", ascii "b,\"c", [], ascii "d"] := by decide

/-! ## What a line is -/

inductive Entry where
  | title (name : Bytes)
  | record (cells : List Bytes)
deriving DecidableEq, Repr

/-- A comment and an empty line are nothing. -/
def entryOf (line : Bytes) : Option Entry :=
  if sectionMark.isPrefixOf line then some (.title (trim (line.drop 10)))
  else if line = [] ∨ line.head? = some 35 then none
  else some (.record (splitLine line))

/-- The records before the next title. -/
def records : List Entry → List (List Bytes)
  | .record cells :: es => cells :: records es
  | _ => []

/-- The sections in a list of entries. -/
def sectionsOf : List Entry → List CsvSection
  | [] => []
  | .record _ :: es => sectionsOf es
  | .title name :: es => ⟨name, (records es).headD [], (records es).tail⟩ :: sectionsOf es

/-- What the lines of a text are. -/
def entries (s : Bytes) : List Entry := ((replaceCrLf s).splitOn newline).filterMap entryOf

/-- The loop of `Parse` on what a line is. -/
def Parsing.add (st : Parsing) : Entry → Parsing
  | .title name =>
    { sections := st.sections ++ st.current.toList, current := some ⟨name, [], []⟩
      expectHeader := true }
  | .record cells =>
    match st.current with
    | none => st
    | some current =>
      if st.expectHeader then
        { st with current := some { current with header := cells }, expectHeader := false }
      else { st with current := some { current with rows := current.rows ++ [cells] } }

private theorem parseLine_eq (st : Parsing) (line : Bytes) :
    parseLine st line = (entryOf line).elim st st.add := by
  rw [parseLine, entryOf]
  by_cases htitle : sectionMark.isPrefixOf line = true
  · rw [if_pos htitle, if_pos htitle]
    rfl
  · rw [if_neg htitle, if_neg htitle]
    by_cases hnothing : line = [] ∨ line.head? = some 35
    · rw [if_pos hnothing, if_pos hnothing]
      rfl
    · rw [if_neg hnothing, if_neg hnothing]
      rfl

private theorem foldl_parseLine (lines : List Bytes) (st : Parsing) :
    lines.foldl parseLine st = (lines.filterMap entryOf).foldl Parsing.add st := by
  induction lines generalizing st with
  | nil => rfl
  | cons line lines ih =>
    rw [List.foldl_cons, ih, parseLine_eq]
    cases h : entryOf line with
    | none => rw [List.filterMap_cons_none h, Option.elim_none]
    | some e => rw [List.filterMap_cons_some h, Option.elim_some, List.foldl_cons]

/-- What the loop found when it ends. -/
def Parsing.found (st : Parsing) : List CsvSection := st.sections ++ st.current.toList

/-- The current section is the one of which the loop has seen the title, and the header if it does
not expect one. -/
def Parsing.rest (st : Parsing) (es : List Entry) : List CsvSection :=
  match st.current with
  | none => sectionsOf es
  | some current =>
    (if st.expectHeader then
      { current with header := (records es).headD current.header
                     rows := current.rows ++ (records es).tail }
    else { current with rows := current.rows ++ records es }) :: sectionsOf es

private theorem found_foldl_add (es : List Entry) (st : Parsing) :
    (es.foldl Parsing.add st).found = st.sections ++ st.rest es := by
  induction es generalizing st with
  | nil =>
    obtain ⟨before, current, expectHeader⟩ := st
    cases current <;> cases expectHeader <;> simp [Parsing.found, Parsing.rest, records, sectionsOf]
  | cons e es ih =>
    obtain ⟨before, current, expectHeader⟩ := st
    rw [List.foldl_cons, ih]
    cases e with
    | title name =>
      cases current <;> cases expectHeader <;>
        simp [Parsing.add, Parsing.rest, records, sectionsOf, List.headD_eq_head?_getD]
    | record cells =>
      cases current <;> cases expectHeader <;>
        simp [Parsing.add, Parsing.rest, records, sectionsOf]

/-- **The sections of a text are those in its entries.** -/
theorem parse_eq (csv : Bytes) : parse csv = sectionsOf (entries csv) := by
  rw [parse]
  split_ifs with hnil
  · rw [hnil]
    rfl
  · refine Eq.trans ?_ (found_foldl_add (entries csv) ⟨[], none, false⟩)
    rw [entries, ← foldl_parseLine]
    rfl

/-! ## Line by line -/

/-- A line without the CR before its newline. -/
def chomp (line : Bytes) : Bytes :=
  if line.getLast? = some carriageReturn then line.dropLast else line

theorem chomp_of_notMem {line : Bytes} (h : carriageReturn ∉ line) : chomp line = line :=
  if_neg fun hlast ↦ h (List.mem_of_getLast? hlast)

private theorem notMem_chomp {line : Bytes} (h : newline ∉ line) : newline ∉ chomp line := by
  rw [chomp]
  split_ifs
  · exact fun hmem ↦ h (List.dropLast_subset line hmem)
  · exact h

theorem chomp_cons_of_ne_nil (c : UInt8) {line : Bytes} (h : line ≠ []) :
    chomp (c :: line) = c :: chomp line := by
  obtain ⟨d, line, rfl⟩ := List.exists_cons_of_ne_nil h
  rw [chomp, chomp, List.getLast?_cons_cons]
  split_ifs <;> rfl

private theorem replaceCrLf_line {line : Bytes} (h : newline ∉ line) (s : Bytes) :
    replaceCrLf (line ++ newline :: s) = chomp line ++ newline :: replaceCrLf s := by
  induction line with
  | nil =>
    rw [List.nil_append, replaceCrLf, if_neg fun hboth ↦ absurd hboth.1 (by decide)]
    rfl
  | cons c line ih =>
    rw [List.mem_cons, not_or] at h
    by_cases hnil : line = []
    · subst hnil
      have hempty : replaceCrLf ([] ++ newline :: s) = newline :: replaceCrLf s := ih h.2
      rw [List.cons_append, replaceCrLf, hempty]
      by_cases hc : c = carriageReturn
      · subst hc
        rw [if_pos ⟨rfl, rfl⟩]
        rfl
      · rw [if_neg fun hboth ↦ hc hboth.1,
          chomp_of_notMem fun hmem ↦ hc (List.mem_singleton.mp hmem).symm]
        rfl
    · obtain ⟨d, tail, rfl⟩ := List.exists_cons_of_ne_nil hnil
      have hd : d ≠ newline := fun hd ↦ h.2 (by rw [hd]; exact List.mem_cons_self)
      rw [List.cons_append, replaceCrLf, if_neg, ih h.2, chomp_cons_of_ne_nil c hnil]
      · rfl
      · rintro ⟨-, hhead⟩
        exact hd (Option.some.inj hhead)

/-- **A line is an entry of its own.** -/
theorem entries_line {line : Bytes} (h : newline ∉ line) (s : Bytes) :
    entries (line ++ newline :: s) = (entryOf (chomp line)).toList ++ entries s := by
  rw [entries, replaceCrLf_line h, List.splitOn_append_cons_self_of_not_mem (notMem_chomp h)]
  cases hentry : entryOf (chomp line) with
  | none =>
    rw [List.filterMap_cons_none hentry]
    rfl
  | some e =>
    rw [List.filterMap_cons_some hentry]
    rfl

@[simp] theorem entries_nil : entries [] = [] := rfl

/-! ## Cells -/

/-- Cells in a line. -/
def row (cells : List Bytes) : Bytes := [44].intercalate cells

theorem row_singleton (cell : Bytes) : row [cell] = cell := by
  rw [row, List.intercalate_singleton]

theorem row_cons_cons (cell cell' : Bytes) (cells : List Bytes) :
    row (cell :: cell' :: cells) = cell ++ 44 :: row (cell' :: cells) := by
  rw [row, row, List.intercalate_cons_cons, List.append_assoc]
  rfl

theorem row_cons (cell : Bytes) (cells : List Bytes) :
    row (cell :: cells) = cell ++ cells.flatMap (44 :: ·) := by
  induction cells generalizing cell with
  | nil => rw [row_singleton, List.flatMap_nil, List.append_nil]
  | cons cell' cells ih => rw [row_cons_cons, ih, List.flatMap_cons, List.cons_append]

/-- `raw` is read as the cell `value`, at the end of a line and before a comma. -/
def Spells (raw value : Bytes) : Prop :=
  splitLine raw = [value] ∧ ∀ rest, splitLine (raw ++ 44 :: rest) = value :: splitLine rest

/-- Bytes that are neither a quote nor a comma stand for themselves. -/
theorem splitFields_plain {raw : Bytes} (h : ∀ b ∈ raw, b ≠ 34 ∧ b ≠ 44) (sb rest : Bytes) :
    splitFields false sb (raw ++ rest) = splitFields false (sb ++ raw) rest := by
  induction raw generalizing sb with
  | nil => rw [List.nil_append, List.append_nil]
  | cons c raw ih =>
    rw [List.forall_mem_cons] at h
    rw [List.cons_append, splitFields, if_neg h.1.1, if_neg h.1.2, ih h.2, List.append_assoc]
    rfl

theorem spells_plain {raw : Bytes} (h : ∀ b ∈ raw, b ≠ 34 ∧ b ≠ 44) : Spells raw raw := by
  constructor
  · have hfields := splitFields_plain h [] []
    rwa [List.append_nil, List.nil_append, splitFields] at hfields
  · intro rest
    rw [splitLine, splitFields_plain h, List.nil_append, splitFields, if_neg (by decide),
      if_pos rfl]
    rfl

/-- The bytes of a cell in quotes. -/
def doubled (value : Bytes) : Bytes := value.flatMap fun c ↦ if c = 34 then [34, 34] else [c]

/-- In quotes a text stands for itself, up to the quote that ends it. -/
theorem splitFields_doubled (value sb : Bytes) {rest : Bytes} (h : rest.head? ≠ some 34) :
    splitFields true sb (doubled value ++ 34 :: rest) = splitFields false (sb ++ value) rest := by
  induction value generalizing sb with
  | nil =>
    rw [doubled, List.flatMap_nil, List.nil_append, List.append_nil]
    cases rest with
    | nil => rfl
    | cons d rest => rw [splitFields, if_pos rfl, if_neg fun hd ↦ h (congrArg some hd)]
  | cons c value ih =>
    rw [doubled, List.flatMap_cons, ← doubled, List.append_assoc]
    by_cases hc : c = 34
    · subst hc
      rw [if_pos rfl, List.cons_append, List.cons_append, List.nil_append, splitFields, if_pos rfl,
        if_pos rfl, ih, List.append_assoc]
      rfl
    · rw [if_neg hc, List.cons_append, List.nil_append]
      obtain ⟨d, tail, htail⟩ : ∃ d tail, doubled value ++ 34 :: rest = d :: tail :=
        List.exists_cons_of_ne_nil (by simp)
      rw [htail, splitFields, if_neg hc, ← htail, ih, List.append_assoc]
      rfl

theorem spells_doubled (value : Bytes) : Spells (34 :: doubled value ++ [34]) value := by
  constructor
  · rw [splitLine, List.cons_append, splitFields, if_pos rfl,
      splitFields_doubled value [] (by simp), List.nil_append, splitFields]
  · intro rest
    rw [splitLine, List.append_assoc, List.cons_append, splitFields, if_pos rfl,
      List.singleton_append, splitFields_doubled value [] (by simp : (44 :: rest).head? ≠ some 34),
      List.nil_append, splitFields, if_neg (by decide), if_pos rfl]
    rfl

theorem splitLine_row {raws values : List Bytes} (h : List.Forall₂ Spells raws values)
    (hne : raws ≠ []) : splitLine (row raws) = values := by
  induction h with
  | nil => exact absurd rfl hne
  | @cons raw value raws values hcell hcells ih =>
    cases hcells with
    | nil => rw [row_singleton, hcell.1]
    | cons hcell' hcells' =>
      rw [row_cons_cons, hcell.2, ih (List.cons_ne_nil _ _)]

private theorem getString_row (cells : List Bytes) :
    getString (row cells) = row (cells.map getString) := by
  induction cells with
  | nil => rfl
  | cons cell cells ih =>
    cases cells with
    | nil => rw [row_singleton, List.map_singleton, row_singleton]
    | cons cell' cells =>
      rw [row_cons_cons, getString_append_cons (by decide), ih]
      exact (row_cons_cons ..).symm

/-- `raw` is in a line what it is in the text, and it is read as the cell `value`. -/
structure Cell (raw value : Bytes) : Prop where
  printed : ∀ b ∈ raw, (0x20 : UInt8) ≤ b
  decoded : getString raw = raw
  spells : Spells raw value

/-- A line that begins with this cell is neither a comment nor a title. -/
def opens (raw : Bytes) : Bool := raw.head?.any fun c ↦ c != 35 && c != 91

private theorem exists_cell {raws values : List Bytes} (h : List.Forall₂ Cell raws values)
    {raw : Bytes}
    (hraw : raw ∈ raws) : ∃ value, Cell raw value := by
  induction h with
  | nil => exact absurd hraw List.not_mem_nil
  | cons hcell _ ih =>
    rcases List.mem_cons.mp hraw with rfl | hraw
    · exact ⟨_, hcell⟩
    · exact ih hraw

private theorem printed_row {cells : List Bytes}
    (h : ∀ cell ∈ cells, ∀ b ∈ cell, (0x20 : UInt8) ≤ b) :
    ∀ b ∈ row cells, (0x20 : UInt8) ≤ b := by
  induction cells with
  | nil => exact fun b hb ↦ absurd hb List.not_mem_nil
  | cons cell cells ih =>
    rw [List.forall_mem_cons] at h
    cases cells with
    | nil =>
      rw [row_singleton]
      exact h.1
    | cons cell' cells =>
      intro b hb
      rw [row_cons_cons] at hb
      rcases List.mem_append.mp hb with hb | hb
      · exact h.1 b hb
      · rcases List.mem_cons.mp hb with rfl | hb
        · decide
        · exact ih h.2 b hb

private theorem head?_row_of_opens {raw : Bytes} (h : opens raw = true) (raws : List Bytes) :
    ∃ c, (row (raw :: raws)).head? = some c ∧ c ≠ 35 ∧ c ≠ 91 := by
  rw [opens] at h
  obtain _ | ⟨c, tail⟩ := raw
  · cases h
  · rw [List.head?_cons, Option.any_some, Bool.and_eq_true, bne_iff_ne, bne_iff_ne] at h
    cases raws with
    | nil => exact ⟨c, by rw [row_singleton, List.head?_cons], h⟩
    | cons raw' raws => exact ⟨c, by rw [row_cons_cons, List.cons_append, List.head?_cons], h⟩

/-! ## Parts of a text -/

/-- `bytes` contribute the entries `es` to a text, whatever follows them. -/
def Reads (bytes : Bytes) (es : List Entry) : Prop :=
  ∀ rest, entries (getString (bytes ++ rest)) = es ++ entries (getString rest)

namespace Reads

theorem nil : Reads [] [] := fun _ ↦ rfl

theorem append {bs bs' : Bytes} {es es' : List Entry} (h : Reads bs es) (h' : Reads bs' es') :
    Reads (bs ++ bs') (es ++ es') := by
  intro rest
  rw [List.append_assoc, h, h', List.append_assoc]

theorem flatMap {α : Type} {f : α → Bytes} {g : α → List Entry} {xs : List α}
    (h : ∀ x ∈ xs, Reads (f x) (g x)) : Reads (xs.flatMap f) (xs.flatMap g) := by
  induction xs with
  | nil => exact nil
  | cons x xs ih =>
    rw [List.forall_mem_cons] at h
    rw [List.flatMap_cons, List.flatMap_cons]
    exact h.1.append (ih h.2)

theorem line (line : Bytes) (h : newline ∉ line) :
    Reads (line ++ [newline]) (entryOf (chomp (getString line))).toList := by
  intro rest
  rw [List.append_assoc, List.singleton_append, getString_append_cons (by decide),
    entries_line fun hmem ↦ h (mem_of_mem_getString (by decide) hmem)]

/-- An empty line. -/
theorem blank : Reads [newline] [] := line [] List.not_mem_nil

theorem append_blank {bs : Bytes} {es : List Entry} (h : Reads bs es) :
    Reads (bs ++ [newline]) es := by
  have happend := h.append blank
  rwa [List.append_nil] at happend

theorem rows {α : Type} {f : α → Bytes} {g : α → List Bytes} {xs : List α}
    (h : ∀ x ∈ xs, Reads (f x) [.record (g x)]) :
    Reads (xs.flatMap f) ((xs.map g).map .record) := by
  have hflat := Reads.flatMap h
  rwa [← List.map_eq_flatMap (f := fun x ↦ Entry.record (g x)), ← Function.comp_def,
    ← List.map_map] at hflat

/-- Rows for those of the list that are not left out. -/
theorem rows_filter {α : Type} {p : α → Prop} [DecidablePred p] {f : α → Bytes}
    {g : α → List Bytes} (xs : List α) (h : ∀ x ∈ xs, ¬p x → Reads (f x) [.record (g x)]) :
    Reads (xs.flatMap fun x ↦ if p x then [] else f x)
      (((xs.filter fun x ↦ ¬p x).map g).map .record) := by
  induction xs with
  | nil => exact nil
  | cons x xs ih =>
    rw [List.forall_mem_cons] at h
    rw [List.flatMap_cons]
    by_cases hx : p x
    · rw [if_pos hx, List.filter_cons_of_neg (by simpa using hx)]
      exact ih h.2
    · rw [if_neg hx, List.filter_cons_of_pos (by simpa using hx)]
      exact (h.1 hx).append (ih h.2)

/-- A comment, whatever it contains. -/
theorem comment {text : Bytes} (h : newline ∉ text) : Reads (35 :: text ++ [newline]) [] := by
  have hline : newline ∉ 35 :: text := fun hmem ↦
    (List.mem_cons.mp hmem).elim (by decide) h
  have hentry : entryOf (chomp (getString (35 :: text))) = none := by
    rw [getString_ascii_cons (by decide)]
    cases htail : getString text with
    | nil => rfl
    | cons d tail =>
      rw [chomp_cons_of_ne_nil 35 (List.cons_ne_nil d tail), entryOf, if_neg]
      · exact if_pos (Or.inr rfl)
      · rw [sectionMark]
        simp [ascii]
  have hreads := Reads.line _ hline
  rwa [hentry] at hreads

/-- The title of a section. -/
theorem title {text name : Bytes} (h : ∀ b ∈ text, (0x20 : UInt8) ≤ b)
    (hname : trim (getString text) = name) :
    Reads (sectionMark ++ text ++ [newline]) [.title name] := by
  have hprinted : ∀ b ∈ sectionMark ++ text, (0x20 : UInt8) ≤ b := fun b hb ↦
    (List.mem_append.mp hb).elim (fun hb ↦ (by decide : ∀ b ∈ sectionMark, (0x20 : UInt8) ≤ b) b hb)
      (h b)
  have hdecoded : getString (sectionMark ++ text) = sectionMark ++ getString text :=
    getString_ascii_append (by decide) text
  have hreads := Reads.line _ fun hmem ↦ absurd (hprinted newline hmem) (by decide)
  rw [chomp_of_notMem fun hmem ↦ absurd (hprinted carriageReturn
    (mem_of_mem_getString (by decide) hmem)) (by decide), hdecoded, entryOf,
    if_pos (List.isPrefixOf_iff_prefix.mpr (List.prefix_append ..)),
    List.drop_left' (by decide : sectionMark.length = 10), hname] at hreads
  exact hreads

/-- Cells in a line. -/
theorem record {raw value : Bytes} {raws values : List Bytes} (hopens : opens raw = true)
    (h : List.Forall₂ Cell (raw :: raws) (value :: values)) :
    Reads (row (raw :: raws) ++ [newline]) [.record (value :: values)] := by
  have hcells : ∀ cell ∈ raw :: raws, ∃ value, Cell cell value :=
    fun cell hcell ↦ exists_cell h hcell
  have hprinted := printed_row fun cell hcell ↦ (hcells cell hcell).elim fun _ h ↦ h.printed
  have hdecoded : getString (row (raw :: raws)) = row (raw :: raws) := by
    have hmap : (raw :: raws).map getString = (raw :: raws).map id :=
      List.map_congr_left fun cell hcell ↦ (hcells cell hcell).elim fun _ h ↦ h.decoded
    rw [getString_row, hmap, List.map_id]
  have hsplit := splitLine_row (h.imp fun _ _ h ↦ h.spells) (List.cons_ne_nil raw raws)
  have hreads := Reads.line _ fun hmem ↦ absurd (hprinted newline hmem) (by decide)
  obtain ⟨c, hc, hne⟩ := head?_row_of_opens hopens raws
  have hmark : sectionMark.isPrefixOf (row (raw :: raws)) = false := by
    obtain ⟨tail, htail⟩ := List.head?_eq_some_iff.mp hc
    rw [htail, show sectionMark = 91 :: sectionMark.tail from by decide, List.isPrefixOf,
      beq_eq_false_iff_ne.mpr (Ne.symm hne.2), Bool.false_and]
  have hrecord : ¬(row (raw :: raws) = []
      ∨ (row (raw :: raws)).head? = some 35) := by
    rintro (hnil | hhash)
    · rw [hnil] at hc
      cases hc
    · exact hne.1 (Option.some.inj (hc.symm.trans hhash))
  rw [hdecoded, chomp_of_notMem fun hmem ↦ absurd (hprinted carriageReturn hmem) (by decide),
    entryOf, hmark, if_neg (by decide), if_neg hrecord, hsplit] at hreads
  exact hreads

end Reads

/-! ## Whole sections -/

/-- The entries that a section is made of. -/
def sectionEntries (s : CsvSection) : List Entry :=
  .title s.name :: .record s.header :: s.rows.map .record

private theorem records_append (rows : List (List Bytes)) (ss : List CsvSection) :
    records (rows.map .record ++ ss.flatMap sectionEntries) = rows := by
  induction rows with
  | nil => cases ss <;> rfl
  | cons cells rows ih => exact congrArg (cells :: ·) ih

theorem sectionsOf_append (rows : List (List Bytes)) (es : List Entry) :
    sectionsOf (rows.map .record ++ es) = sectionsOf es := by
  induction rows with
  | nil => rfl
  | cons cells rows ih => exact ih

private theorem sectionsOf_flatMap (ss : List CsvSection) :
    sectionsOf (ss.flatMap sectionEntries) = ss := by
  induction ss with
  | nil => rfl
  | cons s ss ih =>
    have hrecords := records_append (s.header :: s.rows) ss
    have hrest := sectionsOf_append (s.header :: s.rows) (ss.flatMap sectionEntries)
    rw [List.map_cons, List.cons_append] at hrecords hrest
    rw [List.flatMap_cons, sectionEntries, List.cons_append, List.cons_append, sectionsOf, hrecords,
      hrest, ih]
    rfl

/-- **A text made of sections is read back.** Records before the first title are lost. -/
theorem parse_of_reads {bytes : Bytes} (before : List (List Bytes)) {ss : List CsvSection}
    (h : Reads bytes (before.map .record ++ ss.flatMap sectionEntries)) :
    parse (getString bytes) = ss := by
  have hentries := h []
  rw [List.append_nil, getString_nil, entries_nil, List.append_nil] at hentries
  rw [parse_eq, hentries, sectionsOf_append, sectionsOf_flatMap]

end CsvDocument

end LoggerAnalyzer
