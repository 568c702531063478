import LoggerAnalyzer.Parse.LogLine

/-!
# The grammar of log lines

A `LogHeader` is a header that `parse_log_line` should let through: its parts with the conditions on
them as fields. `parseLogLine_eq_ok_iff` says that the lines which are accepted are those that begin
with such a header, and what is then in the fields.

The stages of the parser have a lemma each, for the text that the stage lets through whatever comes
after it.
-/

namespace LoggerAnalyzer

open ExactDouble

/-! ## Shapes -/

/-- Whether a string has a shape. A `d` in the shape stands for a digit, any other byte for
itself. -/
def hasShape : Bytes → Bytes → Bool
  | [], [] => true
  | c :: shape, b :: s => (if c = 100 then isDigit b else b == c) && hasShape shape s
  | _, _ => false

theorem length_of_hasShape {shape s : Bytes} (h : hasShape shape s = true) :
    s.length = shape.length := by
  induction shape generalizing s with
  | nil =>
    cases s with
    | nil => rfl
    | cons b s => cases h
  | cons c shape ih =>
    cases s with
    | nil => cases h
    | cons b s =>
      rw [hasShape, Bool.and_eq_true] at h
      rw [List.length_cons, List.length_cons, ih h.2]

/-- The shape of a timestamp. -/
def stampShape : Bytes := ascii "[dddd-dd-dd_dd:dd:dd.dddddd]"

theorem length_stampShape : stampShape.length = kTsEnd + 1 := rfl

private theorem take_eq_map_charAt {n : ℕ} {s : Bytes} (h : n ≤ s.length) :
    s.take n = (List.range n).map (charAt s) := by
  refine List.ext_getElem (by simpa using h) ?_
  intro i hi hi'
  have hlt : i < s.length := by
    rw [List.length_take] at hi
    omega
  rw [List.getElem_take, List.getElem_map, List.getElem_range, charAt,
    List.getD_eq_getElem?_getD, List.getElem?_eq_getElem hlt, Option.getD_some]

/-- The bytes that `check_timestamp` looks at are those of the shape. -/
theorem checkTimestamp_eq {s : Bytes} (h : kTsEnd + 1 ≤ s.length) :
    checkTimestamp s = hasShape stampShape (s.take (kTsEnd + 1)) := by
  rw [take_eq_map_charAt h, checkTimestamp]
  have hmicros : (List.range' 21 6).all (fun i ↦ isDigit (charAt s i))
      = (isDigit (charAt s 21) && (isDigit (charAt s 22) && (isDigit (charAt s 23) &&
        (isDigit (charAt s 24) && (isDigit (charAt s 25) && (isDigit (charAt s 26) && true)))))) :=
    rfl
  have hlast : (charAt s kTsEnd == 93) = (charAt s kTsEnd == 93 && true) := (Bool.and_true _).symm
  rw [hmicros, hlast]
  simp only [Bool.and_assoc, Bool.true_and]
  rfl

/-! ## Numbers -/

private theorem natOfDigits_foldl (ds : Bytes) (v : ℕ) :
    ds.foldl (fun v b ↦ v * 10 + digitValue b) v = v * 10 ^ ds.length + natOfDigits ds := by
  induction ds generalizing v with
  | nil => simp [natOfDigits]
  | cons d ds ih =>
    rw [natOfDigits, List.foldl_cons, List.foldl_cons, ih, ih, List.length_cons, Nat.pow_succ]
    ring

theorem natOfDigits_append (ds ds' : Bytes) :
    natOfDigits (ds ++ ds') = natOfDigits ds * 10 ^ ds'.length + natOfDigits ds' := by
  rw [natOfDigits, List.foldl_append, natOfDigits_foldl, ← natOfDigits]

private theorem digit2_append {ds : Bytes} (h : ds.length = 2) (s : Bytes) :
    digit2 (ds ++ s) = natOfDigits ds := by
  obtain ⟨a, b, rfl⟩ := List.length_eq_two.mp h
  simp [digit2, digitAt, charAt, natOfDigits, digitValue]

private theorem digit4_append {ds : Bytes} (h : ds.length = 4) (s : Bytes) :
    digit4 (ds ++ s) = natOfDigits ds := by
  obtain ⟨a, b, c, d, rfl⟩ : ∃ a b c d, ds = [a, b, c, d] := by
    match ds, h with
    | [a, b, c, d], _ => exact ⟨a, b, c, d, rfl⟩
  simp [digit4, digitAt, charAt, natOfDigits, digitValue]
  ring

/-! ## Bracketed fields -/

/-- A number with one to twenty digits. -/
structure IdDigits where
  digits : Bytes
  all_digits : ∀ b ∈ digits, isDigit b = true
  ne_nil : digits ≠ []
  length_le : digits.length ≤ 20

/-- The number in its brackets. -/
def IdDigits.text (n : IdDigits) : Bytes := 91 :: (n.digits ++ [93])

theorem takeWhile_append_cons {p : UInt8 → Bool} {xs : Bytes} (h : ∀ b ∈ xs, p b = true) {c : UInt8}
    (hc : p c = false) (after : Bytes) : (xs ++ c :: after).takeWhile p = xs := by
  rw [List.takeWhile_append_of_pos h, List.takeWhile_cons_of_neg (by simp [hc]), List.append_nil]

/-- A string up to the first byte that does not satisfy `p`, if there is one. -/
theorem takeWhile_cases (p : UInt8 → Bool) (s : Bytes) :
    (∀ b ∈ s, p b = true) ∨
      ∃ xs c after, s = xs ++ c :: after ∧ (∀ b ∈ xs, p b = true) ∧ p c = false := by
  induction s with
  | nil => exact .inl (by simp)
  | cons b s ih =>
    cases hb : p b with
    | false => exact .inr ⟨[], b, s, rfl, by simp, hb⟩
    | true =>
      rcases ih with hall | ⟨xs, c, after, rfl, hxs, hc⟩
      · exact .inl (List.forall_mem_cons.mpr ⟨hb, hall⟩)
      · exact .inr ⟨b :: xs, c, after, rfl, List.forall_mem_cons.mpr ⟨hb, hxs⟩, hc⟩

theorem takeWhile_of_all {p : UInt8 → Bool} {s : Bytes} (h : ∀ b ∈ s, p b = true) :
    s.takeWhile p = s := by
  have happ : (s ++ []).takeWhile p = s ++ [].takeWhile p := List.takeWhile_append_of_pos h
  rwa [List.append_nil, List.takeWhile_nil, List.append_nil] at happ

private theorem isDigit_bracket : isDigit 93 = false := by decide

theorem parseField_text (first : Bool) (n : IdDigits) (after : Bytes) :
    parseField first (n.text ++ after) = .ok after := by
  have hempty : n.digits.isEmpty = false := by simpa using n.ne_nil
  have htext : n.text ++ after = 91 :: (n.digits ++ 93 :: after) := by simp [IdDigits.text]
  rw [htext, parseField]
  simp only [takeWhile_append_cons n.all_digits isDigit_bracket, List.drop_left,
    if_neg (Nat.not_lt.mpr n.length_le), hempty, Bool.false_eq_true, if_false]

theorem exists_text_of_parseField {first : Bool} {s after : Bytes}
    (h : parseField first s = .ok after) : ∃ n : IdDigits, s = n.text ++ after := by
  rw [parseField.eq_def] at h
  split at h
  · rename_i s
    dsimp only at h
    by_cases hlong : 20 < (s.takeWhile isDigit).length
    · rw [if_pos hlong] at h
      cases h
    rw [if_neg hlong] at h
    split at h
    · rename_i after' hdrop
      split_ifs at h with hempty
      obtain rfl := Except.ok.inj h
      refine ⟨⟨s.takeWhile isDigit, fun b hb ↦ List.all_eq_true.mp List.all_takeWhile b hb,
        by simpa using hempty, Nat.not_lt.mp hlong⟩, ?_⟩
      have hsplit := List.take_append_drop (s.takeWhile isDigit).length s
      rw [hdrop, ← List.prefix_iff_eq_take.mp (List.takeWhile_prefix isDigit)] at hsplit
      rw [IdDigits.text, List.cons_append, List.append_assoc, List.singleton_append, hsplit]
    · cases h
  · cases h

/-- The digits of a field and the byte that ends them. -/
theorem parseField_digits (first : Bool) {ds : Bytes} (hds : ∀ b ∈ ds, isDigit b = true) {c : UInt8}
    (hc : isDigit c = false) (after : Bytes) :
    parseField first (91 :: (ds ++ c :: after)) =
      if ds ≠ [] ∧ ds.length ≤ 20 ∧ c = 93 then .ok after else .error .missingCloseBracket := by
  rw [parseField]
  simp only [takeWhile_append_cons hds hc, List.drop_left]
  by_cases hlong : 20 < ds.length
  · rw [if_pos hlong, if_neg fun h ↦ Nat.not_le.mpr hlong h.2.1]
  rw [if_neg hlong]
  split
  · rename_i heq
    obtain ⟨rfl, rfl⟩ := List.cons.inj heq
    simp only [List.isEmpty_iff, Nat.not_lt.mp hlong, and_self, and_true, ne_eq, ite_not]
  · rename_i hother
    rw [if_neg]
    rintro ⟨-, -, rfl⟩
    exact hother after rfl

theorem parseField_of_all_digits (first : Bool) {ds : Bytes} (hds : ∀ b ∈ ds, isDigit b = true) :
    parseField first (91 :: ds) = .error .missingCloseBracket := by
  rw [parseField]
  simp only [takeWhile_of_all hds, List.drop_length]
  exact ite_self _

theorem parseField_of_ne (first : Bool) {c : UInt8} (hc : c ≠ 91) (s : Bytes) :
    parseField first (c :: s)
      = .error (if first then .garbagePayload else .missingCloseBracket) := by
  rw [parseField.eq_def]
  split
  · rename_i heq
    exact absurd (List.cons.inj heq).1 hc
  · rfl

/-- What can be wrong with a field. -/
theorem reason_of_parseField {first : Bool} {s : Bytes} {r : Reason}
    (h : parseField first s = .error r) : r = .garbagePayload ∨ r = .missingCloseBracket := by
  rw [parseField.eq_def] at h
  split at h
  · dsimp only at h
    split_ifs at h
    · exact .inr (Except.error.inj h).symm
    · split at h
      · exact .inr (Except.error.inj h).symm
      · exact .inr (Except.error.inj h).symm
    · split at h
      · cases h
      · exact .inr (Except.error.inj h).symm
  · cases first
    · exact .inr (Except.error.inj h).symm
    · exact .inl (Except.error.inj h).symm

/-- The three bracketed fields. -/
def parseFields (s : Bytes) : Except Reason Bytes := do
  let s ← parseField true s
  let s ← parseField false s
  parseField false s

private theorem parseFields_text (pid tid seq : IdDigits) (after : Bytes) :
    parseFields (pid.text ++ tid.text ++ seq.text ++ after) = .ok after := by
  rw [List.append_assoc, List.append_assoc, parseFields, parseField_text]
  change (parseField false _ >>= parseField false) = _
  rw [parseField_text]
  exact parseField_text false seq after

theorem exists_text_of_parseFields {s after : Bytes} (h : parseFields s = .ok after) :
    ∃ pid tid seq : IdDigits, s = pid.text ++ tid.text ++ seq.text ++ after := by
  rw [parseFields] at h
  cases hfirst : parseField true s with
  | error reason =>
    rw [hfirst] at h
    cases h
  | ok s₁ =>
    rw [hfirst] at h
    replace h : (parseField false s₁ >>= parseField false) = .ok after := h
    cases hsecond : parseField false s₁ with
    | error reason =>
      rw [hsecond] at h
      cases h
    | ok s₂ =>
      rw [hsecond] at h
      obtain ⟨pid, rfl⟩ := exists_text_of_parseField hfirst
      obtain ⟨tid, rfl⟩ := exists_text_of_parseField hsecond
      obtain ⟨seq, rfl⟩ := exists_text_of_parseField h
      exact ⟨pid, tid, seq, by simp only [List.append_assoc]⟩

private theorem reason_of_parseFields {s : Bytes} {r : Reason} (h : parseFields s = .error r) :
    r = .garbagePayload ∨ r = .missingCloseBracket := by
  rw [parseFields] at h
  cases hfirst : parseField true s with
  | error reason =>
    rw [hfirst] at h
    rw [← Except.error.inj h]
    exact reason_of_parseField hfirst
  | ok s₁ =>
    rw [hfirst] at h
    replace h : (parseField false s₁ >>= parseField false) = .error r := h
    cases hsecond : parseField false s₁ with
    | error reason =>
      rw [hsecond] at h
      rw [← Except.error.inj h]
      exact reason_of_parseField hsecond
    | ok s₂ =>
      rw [hsecond] at h
      exact reason_of_parseField h

/-! ## The module -/

private theorem lookupModule_name (m : Module) : lookupModule m.name = some m := by
  cases m <;> decide

private theorem name_of_lookupModule {token : Bytes} {m : Module}
    (h : lookupModule token = some m) :
    token = m.name := by
  rw [lookupModule] at h
  split_ifs at h with _ h₁ h₂ _ h₁ h₂ _ h₁
  all_goals
    obtain rfl := Option.some.inj h
    simp only [Bool.and_eq_true, beq_iff_eq] at *
  · exact h₁.2
  · exact h₂.2
  · exact h₁.2
  · exact h₂.2
  · exact h₁.2

theorem isIdent_name : ∀ m : Module, ∀ b ∈ m.name, isIdent b = true := by
  intro m
  cases m <;> decide

theorem name_ne_nil (m : Module) : m.name ≠ [] := by
  cases m <;> decide

/-! ## Headers -/

/-- `" BYDA::"`. -/
def bydaTag : Bytes := ascii " BYDA::"

def yearOf (stamp : Bytes) : Bytes := (stamp.drop 1).take 4

def monthOf (stamp : Bytes) : Bytes := (stamp.drop 6).take 2

def dayOf (stamp : Bytes) : Bytes := (stamp.drop 9).take 2

def hourOf (stamp : Bytes) : Bytes := (stamp.drop 12).take 2

/-- Whether a timestamp is one of a calendar in which every month has 31 days. -/
def InCalendar (stamp : Bytes) : Prop :=
  (1 ≤ natOfDigits (monthOf stamp) ∧ natOfDigits (monthOf stamp) ≤ 12) ∧
    (1 ≤ natOfDigits (dayOf stamp) ∧ natOfDigits (dayOf stamp) ≤ 31) ∧
    natOfDigits (hourOf stamp) ≤ 23

instance (stamp : Bytes) : Decidable (InCalendar stamp) :=
  inferInstanceAs (Decidable (_ ∧ _ ∧ _))

/-- A header, up to and including the colon and the space behind the module. -/
structure LogHeader where
  stamp : Bytes
  pid : IdDigits
  tid : IdDigits
  seq : IdDigits
  module : Module
  shape : hasShape stampShape stamp = true
  inCalendar : InCalendar stamp

namespace LogHeader

/-- What stands behind the bracketed fields. -/
def nameText (h : LogHeader) : Bytes := bydaTag ++ h.module.name ++ ascii ": "

def text (h : LogHeader) : Bytes :=
  h.stamp ++ (h.pid.text ++ h.tid.text ++ h.seq.text) ++ h.nameText

/-- The year, the month, the day and the hour in one number. -/
def bucket (h : LogHeader) : ℕ :=
  natOfDigits (yearOf h.stamp ++ monthOf h.stamp ++ dayOf h.stamp ++ hourOf h.stamp)

theorem length_stamp (h : LogHeader) : h.stamp.length = kTsEnd + 1 :=
  (length_of_hasShape h.shape).trans length_stampShape

end LogHeader

/-! ## The line -/

section Parse

variable {D : Type} [DoubleOps D]

/-- The fields of an accepted line. -/
def LogHeader.parsed (h : LogHeader) (payload : Bytes) : ParsedLine D :=
  let found := findSpd (D := D) payload
  { module := h.module, bucket := h.bucket, hasSpd := found.value.isSome
    spdOutOfRange := found.outOfRange, spd := found.value.getD (DoubleOps.ofNat 0)
    moduleToken := h.module.name }

/-- The stages behind the tag: `stamp` is the beginning of the line, and `s` is what follows. -/
def parseNamed (D : Type) [DoubleOps D] (stamp s : Bytes) : Reason × ParsedLine D :=
  let token := s.takeWhile isIdent
  match s.drop token.length with
  | 58 :: 32 :: payload =>
    if token.isEmpty then (.badModuleName, ParsedLine.empty)
    else
      let out : ParsedLine D := { ParsedLine.empty with moduleToken := token }
      match lookupModule token with
      | none => (.unknownModule, out)
      | some module =>
        let out := { out with module := module }
        if ¬ InCalendar stamp then (.badTimestamp, out)
        else
          let found := findSpd (D := D) payload
          (.ok, { out with bucket := natOfDigits (yearOf stamp ++ monthOf stamp ++ dayOf stamp
                             ++ hourOf stamp)
                           hasSpd := found.value.isSome
                           spd := found.value.getD out.spd
                           spdOutOfRange := found.outOfRange })
  | _ => (.badModuleName, ParsedLine.empty)

/-- The stages behind the timestamp. -/
def parseStamped (D : Type) [DoubleOps D] (stamp s : Bytes) : Reason × ParsedLine D :=
  match parseFields s with
  | .error reason => (reason, ParsedLine.empty)
  | .ok s =>
    if !bydaTag.isPrefixOf s then (.missingBydaTag, ParsedLine.empty)
    else parseNamed D stamp (s.drop 7)

theorem length_of_take {n k i : ℕ} {s : Bytes} (h : s.length = n) (hk : i + k ≤ n) :
    ((s.drop i).take k).length = k := by
  rw [List.length_take, List.length_drop]
  omega

private theorem drop_split {i k : ℕ} {s : Bytes} (h : i + k ≤ s.length) (after : Bytes) :
    (s ++ after).drop i = (s.drop i).take k ++ (s.drop (i + k) ++ after) := by
  rw [List.drop_append_of_le_length (by omega), ← List.append_assoc, ← List.drop_drop,
    List.take_append_drop]

/-- What the code reads of the timestamp. -/
theorem digits_of_stamp {stamp : Bytes} (h : stamp.length = kTsEnd + 1) (s : Bytes) :
    digit4 ((stamp ++ s).drop 1) = natOfDigits (yearOf stamp) ∧
      digit2 ((stamp ++ s).drop 6) = natOfDigits (monthOf stamp) ∧
      digit2 ((stamp ++ s).drop 9) = natOfDigits (dayOf stamp) ∧
      digit2 ((stamp ++ s).drop 12) = natOfDigits (hourOf stamp) := by
  have hlen : stamp.length = 28 := h
  have hdigit2 : ∀ i, i + 2 ≤ 28 →
      digit2 ((stamp ++ s).drop i) = natOfDigits ((stamp.drop i).take 2) := fun i hi ↦ by
    rw [drop_split (k := 2) (by omega)]
    exact digit2_append (length_of_take hlen hi) _
  refine ⟨?_, hdigit2 6 (by decide), hdigit2 9 (by decide), hdigit2 12 (by decide)⟩
  rw [drop_split (k := 4) (by omega)]
  exact digit4_append (length_of_take hlen (by decide)) _

/-- The number that the code computes from the parts. -/
theorem natOfDigits_hour {stamp : Bytes} (h : stamp.length = kTsEnd + 1) :
    natOfDigits (yearOf stamp) * 1000000 + natOfDigits (monthOf stamp) * 10000
        + natOfDigits (dayOf stamp) * 100 + natOfDigits (hourOf stamp)
      = natOfDigits (yearOf stamp ++ monthOf stamp ++ dayOf stamp ++ hourOf stamp) := by
  have hlen : stamp.length = 28 := h
  rw [natOfDigits_append, natOfDigits_append, natOfDigits_append, monthOf, dayOf, hourOf,
    length_of_take hlen (by decide), length_of_take hlen (by decide),
    length_of_take hlen (by decide)]
  ring

theorem outside_eq (stamp : Bytes) :
    ((natOfDigits (monthOf stamp) < 1 || 12 < natOfDigits (monthOf stamp)
      || natOfDigits (dayOf stamp) < 1 || 31 < natOfDigits (dayOf stamp)
      || 23 < natOfDigits (hourOf stamp)) = true) = ¬ InCalendar stamp := by
  rw [InCalendar]
  simp only [Bool.or_eq_true, decide_eq_true_eq, eq_iff_iff]
  omega

/-- **The stages one after another**, for a line that begins with a timestamp. -/
theorem parseLogLine_stamp {stamp s : Bytes} (h : hasShape stampShape stamp = true)
    (hlen : kMinLineLength ≤ (stamp ++ s).length) :
    parseLogLine (stamp ++ s) = parseStamped D stamp s := by
  have hstamp : stamp.length = kTsEnd + 1 := (length_of_hasShape h).trans length_stampShape
  have hts : kTsEnd + 1 ≤ (stamp ++ s).length := by
    rw [List.length_append]
    omega
  have hcheck : checkTimestamp (stamp ++ s) = true := by
    rw [checkTimestamp_eq hts, List.take_left' hstamp, h]
  have hopen : charAt (stamp ++ s) 0 = 91 := by
    simp only [checkTimestamp, Bool.and_eq_true, beq_iff_eq] at hcheck
    iterate 14 replace hcheck := hcheck.1
    exact hcheck
  obtain ⟨hyear, hmonth, hday, hhour⟩ := digits_of_stamp hstamp s
  rw [parseLogLine, if_neg (Nat.not_lt.mpr hlen), if_neg (by rw [hopen]; decide),
    if_neg (by rw [hcheck]; decide), List.drop_left' hstamp, parseStamped]
  change (match parseFields s with | .error _ => _ | .ok _ => _) = _
  cases parseFields s with
  | error reason => rfl
  | ok s =>
    dsimp only
    by_cases htag : (!(ascii " BYDA::").isPrefixOf s) = true
    · rw [if_pos htag]
      exact (if_pos htag).symm
    rw [if_neg htag]
    refine Eq.trans ?_ (if_neg htag).symm
    simp only [hyear, hmonth, hday, hhour, natOfDigits_hour hstamp, outside_eq]
    rfl

theorem parseStamped_fields (stamp : Bytes) (pid tid seq : IdDigits) (s : Bytes) :
    parseStamped D stamp (pid.text ++ tid.text ++ seq.text ++ s) =
      if !bydaTag.isPrefixOf s then (.missingBydaTag, ParsedLine.empty)
      else parseNamed D stamp (s.drop 7) := by
  rw [parseStamped, parseFields_text]

theorem isPrefixOf_bydaTag (s : Bytes) : bydaTag.isPrefixOf (bydaTag ++ s) = true := by
  rw [List.isPrefixOf_iff_prefix]
  exact List.prefix_append ..

/-- A name and what the stages behind it make of it. -/
theorem parseNamed_token (stamp : Bytes) {token : Bytes} (hne : token ≠ [])
    (hident : ∀ b ∈ token, isIdent b = true) (payload : Bytes) :
    parseNamed D stamp (token ++ ascii ": " ++ payload) =
      match lookupModule token with
      | none => (.unknownModule, { ParsedLine.empty with moduleToken := token })
      | some module =>
        if ¬ InCalendar stamp then
          (.badTimestamp, { ParsedLine.empty with moduleToken := token, module := module })
        else
          (.ok, { module := module
                  bucket := natOfDigits (yearOf stamp ++ monthOf stamp ++ dayOf stamp
                    ++ hourOf stamp)
                  hasSpd := (findSpd (D := D) payload).value.isSome
                  spd := (findSpd (D := D) payload).value.getD (DoubleOps.ofNat 0)
                  spdOutOfRange := (findSpd (D := D) payload).outOfRange
                  moduleToken := token }) := by
  have hcolon : token ++ ascii ": " ++ payload = token ++ 58 :: 32 :: payload := by
    rw [List.append_assoc]
    rfl
  have htake : (token ++ 58 :: 32 :: payload).takeWhile isIdent = token :=
    takeWhile_append_cons hident (by decide) _
  have hempty : token.isEmpty = false := by simpa using hne
  rw [hcolon, parseNamed]
  simp only [htake, List.drop_left]
  rw [hempty, if_neg Bool.false_ne_true]
  rfl

/-- A name is refused that has no colon and space behind it. -/
theorem parseNamed_of_no_colon (stamp : Bytes) {token : Bytes}
    (hident : ∀ b ∈ token, isIdent b = true) {behind : Bytes}
    (hend : ∀ c ∈ behind.head?, isIdent c = false) (h : ¬ ascii ": " <+: behind) :
    parseNamed D stamp (token ++ behind) = (.badModuleName, .empty) := by
  have htake : (token ++ behind).takeWhile isIdent = token := by
    cases behind with
    | nil => rw [List.append_nil, takeWhile_of_all hident]
    | cons c after => exact takeWhile_append_cons hident (hend c rfl) after
  rw [parseNamed]
  simp only [htake, List.drop_left]
  split
  · rename_i payload
    exact absurd ⟨payload, rfl⟩ h
  · rfl

/-- **A line of the grammar is accepted.** -/
theorem parseLogLine_text (h : LogHeader) (payload : Bytes) :
    parseLogLine (h.text ++ payload) = (.ok, (h.parsed payload : ParsedLine D)) := by
  have htext : h.text ++ payload = h.stamp ++ (h.pid.text ++ h.tid.text ++ h.seq.text
      ++ (bydaTag ++ (h.module.name ++ ascii ": " ++ payload))) := by
    simp only [LogHeader.text, LogHeader.nameText, List.append_assoc]
  have hlen : kMinLineLength ≤ (h.text ++ payload).length := by
    have hname : 18 ≤ h.module.name.length := by cases h.module <;> decide
    have hpid := List.length_pos_iff.mpr h.pid.ne_nil
    have htid := List.length_pos_iff.mpr h.tid.ne_nil
    have hseq := List.length_pos_iff.mpr h.seq.ne_nil
    rw [htext]
    simp only [List.length_append, h.length_stamp, IdDigits.text, List.length_cons,
      List.length_nil, kTsEnd, kMinLineLength]
    omega
  rw [htext] at hlen ⊢
  rw [parseLogLine_stamp h.shape hlen, parseStamped_fields, isPrefixOf_bydaTag, if_neg (by decide),
    show (7 : ℕ) = bydaTag.length from rfl, List.drop_left,
    parseNamed_token _ (name_ne_nil _) (isIdent_name _), lookupModule_name]
  exact if_neg (not_not.mpr h.inCalendar)

/-- The name that was read, and what follows it. -/
theorem exists_token_of_parseNamed {stamp s : Bytes} {p : ParsedLine D}
    (h : parseNamed D stamp s = (.ok, p)) :
    InCalendar stamp ∧ ∃ (m : Module) (payload : Bytes), s = m.name ++ ascii ": " ++ payload := by
  rw [parseNamed] at h
  dsimp only at h
  split at h
  · rename_i payload hdrop
    by_cases hempty : (s.takeWhile isIdent).isEmpty = true
    · rw [if_pos hempty] at h
      cases h
    rw [if_neg hempty] at h
    split at h
    · cases h
    · rename_i m hlookup
      by_cases hcal : ¬ InCalendar stamp
      · rw [if_pos hcal] at h
        cases h
      refine ⟨not_not.mp hcal, m, payload, ?_⟩
      have hsplit := List.take_append_drop (s.takeWhile isIdent).length s
      rw [hdrop, ← List.prefix_iff_eq_take.mp (List.takeWhile_prefix isIdent),
        name_of_lookupModule hlookup] at hsplit
      rw [← hsplit, List.append_assoc]
      rfl
  · cases h

theorem parseLogLine_of_unopened {line : Bytes} (hlen : kMinLineLength ≤ line.length)
    (h : charAt line 0 ≠ 91) : parseLogLine (D := D) line = (.missingOpenBracket, .empty) := by
  rw [parseLogLine, if_neg (Nat.not_lt.mpr hlen), if_pos (by simpa using h)]

theorem parseLogLine_of_unstamped {line : Bytes} (hlen : kMinLineLength ≤ line.length)
    (hopen : charAt line 0 = 91) (h : checkTimestamp line = false) :
    parseLogLine (D := D) line = (.badTimestamp, .empty) := by
  rw [parseLogLine, if_neg (Nat.not_lt.mpr hlen), if_neg (by rw [hopen]; decide),
    if_pos (by rw [h]; rfl)]

/-- **How far a line gets**: it is refused before the name, or what stands behind the tag decides.
-/
theorem parseLogLine_cases (D : Type) [DoubleOps D] (line : Bytes) :
    (∃ r, r ≠ .ok ∧ r ≠ .unknownModule ∧ parseLogLine line = (r, (.empty : ParsedLine D))) ∨
      ∃ (stamp : Bytes) (pid tid seq : IdDigits) (named : Bytes),
        line = stamp ++ (pid.text ++ tid.text ++ seq.text ++ (bydaTag ++ named)) ∧
          hasShape stampShape stamp = true ∧ parseLogLine line = parseNamed D stamp named := by
  -- too short, not opened, or without a timestamp
  by_cases hlong : kMinLineLength ≤ line.length
  swap
  · rw [parseLogLine, if_pos (Nat.lt_of_not_le hlong)]
    split_ifs
    · exact .inl ⟨_, by decide, by decide, rfl⟩
    · exact .inl ⟨_, by decide, by decide, rfl⟩
    · exact .inl ⟨_, by decide, by decide, rfl⟩
  by_cases hopen : charAt line 0 = 91
  swap
  · exact .inl ⟨_, by decide, by decide, parseLogLine_of_unopened hlong hopen⟩
  by_cases hcheck : checkTimestamp line = true
  swap
  · exact .inl ⟨_, by decide, by decide,
      parseLogLine_of_unstamped hlong hopen (Bool.not_eq_true _ ▸ hcheck)⟩
  have hts : kTsEnd + 1 ≤ line.length := Nat.le_trans (by decide) hlong
  rw [checkTimestamp_eq hts] at hcheck
  -- behind the timestamp the line is taken apart from the front
  obtain ⟨stamp, s, rfl, hstamp⟩ : ∃ stamp s, line = stamp ++ s ∧ stamp.length = kTsEnd + 1 :=
    ⟨_, _, (List.take_append_drop (kTsEnd + 1) line).symm, List.length_take_of_le hts⟩
  rw [List.take_left' hstamp] at hcheck
  rw [parseLogLine_stamp hcheck hlong, parseStamped]
  cases hfields : parseFields s with
  | error reason =>
    refine .inl ⟨reason, ?_, ?_, rfl⟩
    · rcases reason_of_parseFields hfields with rfl | rfl <;> decide
    · rcases reason_of_parseFields hfields with rfl | rfl <;> decide
  | ok s' =>
    dsimp only
    by_cases htag : (!bydaTag.isPrefixOf s') = true
    · exact .inl ⟨_, by decide, by decide, if_pos htag⟩
    rw [if_neg htag]
    rw [Bool.not_eq_true', Bool.not_eq_false, List.isPrefixOf_iff_prefix] at htag
    obtain ⟨named, rfl⟩ := htag
    rw [show (7 : ℕ) = bydaTag.length from rfl, List.drop_left]
    obtain ⟨pid, tid, seq, rfl⟩ := exists_text_of_parseFields hfields
    exact .inr ⟨stamp, pid, tid, seq, named, rfl, hcheck, rfl⟩

/-- **A line that is accepted is one of the grammar.** -/
theorem exists_header_of_ok {line : Bytes} {p : ParsedLine D} (h : parseLogLine line = (.ok, p)) :
    ∃ (h : LogHeader) (payload : Bytes), line = h.text ++ payload := by
  rcases parseLogLine_cases D line with
    ⟨r, hne, -, hparse⟩ | ⟨stamp, pid, tid, seq, named, rfl, hshape, hparse⟩
  · rw [hparse] at h
    exact absurd (congrArg Prod.fst h) hne
  · rw [hparse] at h
    obtain ⟨hcal, m, payload, rfl⟩ := exists_token_of_parseNamed h
    refine ⟨⟨stamp, pid, tid, seq, m, hshape, hcal⟩, payload, ?_⟩
    simp only [LogHeader.text, LogHeader.nameText, List.append_assoc]

/-- A line whose module is unknown has a name in its place. -/
theorem token_ne_nil_of_unknownModule {line : Bytes} {p : ParsedLine D}
    (h : parseLogLine line = (.unknownModule, p)) : p.moduleToken ≠ [] := by
  rcases parseLogLine_cases D line with
    ⟨r, -, hne, hparse⟩ | ⟨stamp, pid, tid, seq, named, rfl, hshape, hparse⟩
  · rw [hparse] at h
    exact absurd (congrArg Prod.fst h) hne
  · rw [hparse, parseNamed] at h
    dsimp only at h
    split at h
    · by_cases hempty : (named.takeWhile isIdent).isEmpty = true
      · rw [if_pos hempty] at h
        cases h
      rw [if_neg hempty] at h
      split at h
      · rw [← (Prod.mk.inj h).2]
        exact mt List.isEmpty_iff.mpr hempty
      · have hreason := congrArg Prod.fst h
        split_ifs at hreason
    · cases h

/-- **The parser accepts its grammar**, and reads the fields off the header. -/
theorem parseLogLine_eq_ok_iff {line : Bytes} {p : ParsedLine D} :
    parseLogLine line = (.ok, p) ↔
      ∃ (h : LogHeader) (payload : Bytes), line = h.text ++ payload ∧ p = h.parsed payload := by
  constructor
  · intro hok
    obtain ⟨h, payload, rfl⟩ := exists_header_of_ok hok
    rw [parseLogLine_text] at hok
    exact ⟨h, payload, rfl, (congrArg Prod.snd hok).symm⟩
  · rintro ⟨h, payload, rfl, rfl⟩
    exact parseLogLine_text h payload

end Parse

end LoggerAnalyzer
