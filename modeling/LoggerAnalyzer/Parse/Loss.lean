import LoggerAnalyzer.Parse.Grammar

/-!
# Lines with a byte missing

A line that has lost one byte of its header is rejected, and the place of the byte says with which
reason. `LogHeader.losses` is the list of these reasons, one for each byte of the header, with
nothing for the digits of the numbers in brackets: a number with a digit less is a number still, as
long as one digit is left.

Everything behind the byte that is lost moves to the left by one, so the stage that looks at the
place sees what belongs to the next one. `eraseIdx_append_cases` finds the part of the header in
which the byte is lost.
-/

namespace LoggerAnalyzer

/-! ## Losing a byte -/

/-- The byte is lost in the first part or in the second one. -/
theorem eraseIdx_append_cases {β : Type} {xs ys : Bytes} {us vs : List β}
    (h : us.length = xs.length) {i : ℕ} {r : β} (hi : (us ++ vs)[i]? = some r) :
    (us[i]? = some r ∧ (xs ++ ys).eraseIdx i = xs.eraseIdx i ++ ys) ∨
      ∃ j, i = xs.length + j ∧ vs[j]? = some r ∧
        (xs ++ ys).eraseIdx i = xs ++ ys.eraseIdx j := by
  rcases Nat.lt_or_ge i xs.length with hlt | hge
  · rw [List.getElem?_append_left (h ▸ hlt)] at hi
    exact .inl ⟨hi, List.eraseIdx_append_of_lt_length hlt ys⟩
  · rw [List.getElem?_append_right (h ▸ hge), h] at hi
    exact .inr ⟨i - xs.length, (Nat.add_sub_cancel' hge).symm, hi,
      List.eraseIdx_append_of_length_le hge ys⟩

/-- Where a string ends too early, something else stands in its place. -/
theorem not_isPrefix_of_ne (xs : Bytes) {ys : Bytes} {b c : UInt8} (h : ys.length = xs.length)
    (hne : b ≠ c)
    (after : Bytes) : ¬ xs ++ [c] <+: ys ++ b :: after := by
  rintro ⟨zs, heq⟩
  rw [List.append_assoc] at heq
  exact hne (List.cons.inj (List.append_inj heq h.symm).2).1.symm

/-! ## The reasons -/

/-- The reasons for the bytes of a number in brackets. -/
def IdDigits.losses (n : IdDigits) (opening : Reason) : List (Option Reason) :=
  some opening :: (n.digits.map (fun _ ↦ none) ++ [some .missingCloseBracket])

namespace LogHeader

/-- The reasons for the bytes of the timestamp. -/
def stampLosses : List (Option Reason) :=
  some .missingOpenBracket :: List.replicate kTsEnd (some .badTimestamp)

/-- The reasons for the bytes of a header. -/
def losses (h : LogHeader) : List (Option Reason) :=
  stampLosses ++ (h.pid.losses .garbagePayload ++ (h.tid.losses .missingCloseBracket ++
    (h.seq.losses .missingCloseBracket ++ (List.replicate bydaTag.length (some .missingBydaTag) ++
      (List.replicate h.module.name.length (some .unknownModule) ++
        [some .badModuleName, some .badModuleName])))))

private theorem length_losses (h : LogHeader) : h.losses.length = h.text.length := by
  simp only [losses, stampLosses, IdDigits.losses, text, nameText, IdDigits.text, ascii,
    List.length_append, List.length_cons, List.length_replicate, List.length_map, List.length_nil,
    h.length_stamp]
  simp
  omega

end LogHeader

/-! ## Stages -/

section Stages

variable {D : Type} [DoubleOps D]

theorem IdDigits.eraseIdx_text {n : IdDigits} {opening r : Reason} {j : ℕ}
    (hj : (n.losses opening)[j]? = some (some r)) :
    (r = opening ∧ n.text.eraseIdx j = n.digits ++ [93]) ∨
      (r = .missingCloseBracket ∧ n.text.eraseIdx j = 91 :: n.digits) := by
  cases j with
  | zero => exact .inl ⟨(Option.some.inj (Option.some.inj hj)).symm, rfl⟩
  | succ j =>
    rw [losses, List.getElem?_cons_succ] at hj
    rcases @eraseIdx_append_cases _ n.digits [93] _ _ (List.length_map _) _ _ hj with
      ⟨hdigit, -⟩ | ⟨k, -, hk, htext⟩
    · rw [List.getElem?_map] at hdigit
      cases hget : n.digits[j]? with
      | none => simp [hget] at hdigit
      | some b => simp [hget] at hdigit
    · obtain rfl : k = 0 := by
        have hlt := (List.getElem?_eq_some_iff.mp hk).1
        simpa using hlt
      refine .inr ⟨(Option.some.inj (Option.some.inj hk)).symm, ?_⟩
      rw [text, List.eraseIdx_cons_succ, htext]
      simp

/-- A number that has lost a bracket, with something behind it that is neither a digit nor a closing
bracket. -/
theorem parseField_eraseIdx (first : Bool) {n : IdDigits} {r : Reason} {j : ℕ}
    (hj : (n.losses (if first then .garbagePayload else .missingCloseBracket))[j]? = some (some r))
    {c : UInt8} (hc : isDigit c = false) (hne : c ≠ 93) (after : Bytes) :
    parseField first (n.text.eraseIdx j ++ c :: after) = .error r := by
  rcases IdDigits.eraseIdx_text hj with ⟨rfl, htext⟩ | ⟨rfl, htext⟩
  · obtain ⟨d, ds, hdigits⟩ := List.exists_cons_of_ne_nil n.ne_nil
    have hd : d ≠ 91 := by
      rintro rfl
      exact absurd (n.all_digits 91 (by simp [hdigits])) (by decide)
    rw [htext, hdigits]
    exact parseField_of_ne first hd _
  · rw [htext, List.cons_append, parseField_digits first n.all_digits hc, if_neg fun h ↦ hne h.2.2]

theorem IdDigits.text_append (n : IdDigits) (after : Bytes) :
    n.text ++ after = 91 :: (n.digits ++ 93 :: after) := by
  rw [text, List.cons_append, List.append_assoc]
  rfl

private theorem parseFields_of_pid {s : Bytes} {r : Reason} (h : parseField true s = .error r) :
    parseFields s = .error r := by
  rw [parseFields, h]
  rfl

private theorem parseFields_of_tid {pid : IdDigits} {s : Bytes} {r : Reason}
    (h : parseField false s = .error r) : parseFields (pid.text ++ s) = .error r := by
  rw [parseFields, parseField_text]
  change (parseField false s >>= parseField false) = _
  rw [h]
  rfl

private theorem parseFields_of_seq {pid tid : IdDigits} {s : Bytes} {r : Reason}
    (h : parseField false s = .error r) : parseFields (pid.text ++ (tid.text ++ s)) = .error r := by
  rw [parseFields, parseField_text]
  change (parseField false (tid.text ++ s) >>= parseField false) = _
  rw [parseField_text]
  exact h

/-- A module name that has lost a byte is none of the names. -/
theorem lookupModule_eraseIdx {m : Module} {j : ℕ} (h : j < m.name.length) :
    lookupModule (m.name.eraseIdx j) = none := by
  have hall : ∀ k < m.name.length, lookupModule (m.name.eraseIdx k) = none := by
    cases m <;> decide
  exact hall j h

private theorem parseNamed_eraseIdx {stamp : Bytes} {m : Module} {j : ℕ} (h : j < m.name.length)
    (payload : Bytes) :
    (parseNamed D stamp (m.name.eraseIdx j ++ (ascii ": " ++ payload))).1 = .unknownModule := by
  have hne : m.name.eraseIdx j ≠ [] := by
    have hlen : 18 ≤ m.name.length := by cases m <;> decide
    refine List.ne_nil_of_length_pos ?_
    rw [List.length_eraseIdx_of_lt h]
    omega
  have hident : ∀ b ∈ m.name.eraseIdx j, isIdent b = true := fun b hb ↦
    isIdent_name m b (List.mem_of_mem_eraseIdx hb)
  rw [← List.append_assoc, parseNamed_token stamp hne hident, lookupModule_eraseIdx h]

private theorem parseStamped_of_error {stamp s : Bytes} {r : Reason}
    (h : parseFields s = .error r) :
    (parseStamped D stamp s).1 = r := by
  rw [parseStamped, h]

private theorem not_bydaTag_of_eraseIdx {k : ℕ} (hk : k < bydaTag.length) (m : Module)
    (after : Bytes) :
    ¬ bydaTag <+: bydaTag.eraseIdx k ++ (m.name ++ after) := by
  obtain ⟨c, cs, hname⟩ := List.exists_cons_of_ne_nil (name_ne_nil m)
  have hc : c ≠ 58 := by
    rintro rfl
    exact absurd (isIdent_name m 58 (by simp [hname])) (by decide)
  rw [hname]
  exact not_isPrefix_of_ne (ascii " BYDA:") (List.length_eraseIdx_of_lt hk) hc _

/-- The byte is lost behind the timestamp. -/
theorem parseStamped_eraseIdx (h : LogHeader) (payload : Bytes) {j : ℕ} {r : Reason}
    (hj : (h.pid.losses .garbagePayload ++ (h.tid.losses .missingCloseBracket ++
      (h.seq.losses .missingCloseBracket ++ (List.replicate bydaTag.length (some .missingBydaTag) ++
        (List.replicate h.module.name.length (some .unknownModule) ++
          [some .badModuleName, some .badModuleName])))))[j]? = some (some r))
    (hspace : kTsEnd + 1 + j + 1 = h.text.length → payload.head? ≠ some 32) :
    (parseStamped D h.stamp ((h.pid.text ++ (h.tid.text ++ (h.seq.text ++ (bydaTag ++
      (h.module.name ++ (ascii ": " ++ payload)))))).eraseIdx j)).1 = r := by
  have hlen : ∀ (n : IdDigits) (opening : Reason), (n.losses opening).length = n.text.length :=
    fun n opening ↦ by simp [IdDigits.losses, IdDigits.text]
  -- The numbers in brackets.
  rcases eraseIdx_append_cases (hlen _ _) hj with ⟨hpid, htext⟩ | ⟨j₁, rfl, hj₁, htext⟩
  · rw [htext, IdDigits.text_append h.tid]
    exact parseStamped_of_error (parseFields_of_pid (parseField_eraseIdx true hpid (by decide)
      (by decide) _))
  rw [htext]
  rcases eraseIdx_append_cases (hlen _ _) hj₁ with ⟨htid, htext⟩ | ⟨j₂, rfl, hj₂, htext⟩
  · rw [htext, IdDigits.text_append h.seq]
    exact parseStamped_of_error (parseFields_of_tid (parseField_eraseIdx false htid (by decide)
      (by decide) _))
  rw [htext]
  rcases eraseIdx_append_cases (hlen _ _) hj₂ with ⟨hseq, htext⟩ | ⟨j₃, rfl, hj₃, htext⟩
  · rw [htext]
    exact parseStamped_of_error (parseFields_of_seq (parseField_eraseIdx false hseq (c := 32)
      (by decide) (by decide) _))
  rw [htext, ← List.append_assoc, ← List.append_assoc, parseStamped_fields]
  -- The tag.
  rcases eraseIdx_append_cases List.length_replicate hj₃ with ⟨htag, htext⟩ | ⟨j₄, rfl, hj₄, htext⟩
  · obtain ⟨hlt, hr⟩ := List.getElem?_eq_some_iff.mp htag
    rw [List.length_replicate] at hlt
    rw [List.getElem_replicate] at hr
    rw [htext, if_pos]
    · exact Option.some.inj hr
    · rw [Bool.not_eq_true', ← Bool.not_eq_true, List.isPrefixOf_iff_prefix]
      exact not_bydaTag_of_eraseIdx hlt h.module _
  rw [htext, isPrefixOf_bydaTag, if_neg (by decide), show (7 : ℕ) = bydaTag.length from rfl,
    List.drop_left]
  -- The module.
  rcases eraseIdx_append_cases List.length_replicate hj₄ with
    ⟨hname, htext⟩ | ⟨j₅, rfl, hj₅, htext⟩
  · obtain ⟨hlt, hr⟩ := List.getElem?_eq_some_iff.mp hname
    rw [List.length_replicate] at hlt
    rw [List.getElem_replicate] at hr
    rw [htext, parseNamed_eraseIdx hlt]
    exact Option.some.inj hr
  rw [htext]
  -- The colon and the space.
  have hident := isIdent_name h.module
  obtain ⟨hlt, hr⟩ := List.getElem?_eq_some_iff.mp hj₅
  obtain rfl | rfl : j₅ = 0 ∨ j₅ = 1 := by
    have hlt : j₅ < 2 := hlt
    omega
  · have hbad : ¬ ascii ": " <+: 32 :: payload := fun hcolon ↦ by simp [ascii] at hcolon
    rw [← Option.some.inj hr]
    exact congrArg Prod.fst (parseNamed_of_no_colon h.stamp hident
      (by simp; decide) hbad)
  · have hbad : ¬ ascii ": " <+: 58 :: payload := by
      rintro ⟨after, hafter⟩
      refine hspace ?_ ?_
      · simp only [LogHeader.text, LogHeader.nameText, List.length_append, h.length_stamp]
        simp [ascii]
        omega
      · rw [← (List.cons.inj hafter).2]
        rfl
    rw [← Option.some.inj hr]
    exact congrArg Prod.fst (parseNamed_of_no_colon h.stamp hident
      (by simp; decide) hbad)

omit [DoubleOps D] in
private theorem stamp_eq_cons {stamp : Bytes} (h : hasShape stampShape stamp = true) :
    ∃ d st, stamp = 91 :: d :: st ∧ isDigit d = true := by
  have hlen := (length_of_hasShape h).trans length_stampShape
  obtain ⟨b, s, rfl⟩ := List.exists_cons_of_length_pos (l := stamp) (by rw [hlen]; decide)
  obtain ⟨d, st, rfl⟩ := List.exists_cons_of_length_pos (l := s) (by
    rw [List.length_cons, kTsEnd] at hlen
    omega)
  rw [show stampShape = 91 :: 100 :: stampShape.drop 2 from by decide, hasShape, hasShape,
    if_neg (by decide), if_pos rfl, Bool.and_eq_true, Bool.and_eq_true, beq_iff_eq] at h
  exact ⟨d, st, by rw [h.1], h.2.1⟩

omit [DoubleOps D] in
/-- A timestamp has its closing bracket in the right place. -/
theorem checkTimestamp_of_close {line : Bytes} (h : charAt line kTsEnd ≠ 93) :
    checkTimestamp line = false := by
  rw [checkTimestamp, Bool.and_eq_false_iff]
  exact .inr (beq_eq_false_iff_ne.mpr h)

/-- The byte is lost in the timestamp. What stands in the place of its closing bracket is an opening
one. -/
theorem parseLogLine_eraseIdx_stamp {stamp after : Bytes} (h : hasShape stampShape stamp = true)
    (hlen : kMinLineLength ≤ (stamp ++ 91 :: after).length - 1) {i : ℕ} {r : Reason}
    (hi : LogHeader.stampLosses[i]? = some (some r)) :
    (parseLogLine (D := D) (stamp.eraseIdx i ++ 91 :: after)).1 = r := by
  have hstamp := (length_of_hasShape h).trans length_stampShape
  obtain ⟨d, st, rfl, hd⟩ := stamp_eq_cons h
  -- without the bracket no line is opened; without another byte the `]` comes too early
  cases i with
  | zero =>
    have hd' : d ≠ 91 := by
      rintro rfl
      exact absurd hd (by decide)
    rw [← Option.some.inj (Option.some.inj hi), List.eraseIdx_zero, List.tail_cons]
    exact congrArg Prod.fst (parseLogLine_of_unopened
      (show kMinLineLength ≤ (d :: (st ++ 91 :: after)).length by simpa using hlen) hd')
  | succ i =>
    rw [LogHeader.stampLosses, List.getElem?_cons_succ] at hi
    obtain ⟨hlt, hr⟩ := List.getElem?_eq_some_iff.mp hi
    rw [List.length_replicate] at hlt
    rw [List.getElem_replicate] at hr
    have herased : ((91 :: d :: st).eraseIdx (i + 1)).length = kTsEnd := by
      rw [List.length_eraseIdx_of_lt (by omega), hstamp, Nat.add_sub_cancel]
    have hcheck : checkTimestamp ((91 :: d :: st).eraseIdx (i + 1) ++ 91 :: after) = false := by
      refine checkTimestamp_of_close ?_
      rw [charAt, List.getD_eq_getElem?_getD, List.getElem?_append_right (by omega), herased,
        Nat.sub_self, List.getElem?_cons_zero]
      decide
    rw [← Option.some.inj hr]
    refine congrArg Prod.fst (parseLogLine_of_unstamped ?_ rfl hcheck)
    rw [List.length_append, hstamp] at hlen
    rw [List.length_append, herased]
    omega

/-- **A byte that is lost in a header is noticed**, with the reason that belongs to its place. The
one exception is the space at the end of the header, for a payload that begins with a space. -/
theorem parseLogLine_eraseIdx {line : Bytes} (hok : (parseLogLine (D := D) line).1 = .ok) :
    ∃ (h : LogHeader) (payload : Bytes), line = h.text ++ payload ∧
      h.losses.length = h.text.length ∧
      ∀ i r, h.losses[i]? = some (some r) →
        (i + 1 = h.text.length → payload.head? ≠ some 32) →
        (parseLogLine (D := D) (line.eraseIdx i)).1 = r := by
  obtain ⟨h, payload, rfl, -⟩ := parseLogLine_eq_ok_iff.mp
    (show parseLogLine line = (.ok, (parseLogLine (D := D) line).2) from Prod.ext hok rfl)
  refine ⟨h, payload, rfl, h.length_losses, fun i r hi hspace ↦ ?_⟩
  have htext : h.text ++ payload = h.stamp ++ (h.pid.text ++ (h.tid.text ++ (h.seq.text ++
      (bydaTag ++ (h.module.name ++ (ascii ": " ++ payload)))))) := by
    simp only [LogHeader.text, LogHeader.nameText, List.append_assoc]
  -- the line is long enough even without one of its bytes
  have hlong : kMinLineLength + 1 ≤ (h.text ++ payload).length := by
    have hname : 18 ≤ h.module.name.length := by cases h.module <;> decide
    rw [htext]
    simp only [List.length_append, h.length_stamp, IdDigits.text, List.length_cons, kTsEnd,
      kMinLineLength]
    simp [bydaTag, ascii]
    omega
  rw [htext] at hlong ⊢
  have hlosses : LogHeader.stampLosses.length = h.stamp.length := h.length_stamp.symm
  -- the byte is of the timestamp or stands behind it
  rcases eraseIdx_append_cases hlosses hi with
    ⟨hstamp, herase⟩ | ⟨j, rfl, hj, herase⟩
  · rw [IdDigits.text_append] at hlong
    rw [herase, IdDigits.text_append]
    exact parseLogLine_eraseIdx_stamp h.shape (Nat.le_sub_one_of_lt hlong) hstamp
  · have hlen : kMinLineLength ≤ (h.stamp ++ (h.pid.text ++ (h.tid.text ++ (h.seq.text ++
        (bydaTag ++ (h.module.name ++ (ascii ": " ++ payload)))))).eraseIdx j).length := by
      rw [List.length_append] at hlong ⊢
      have herased := List.le_length_eraseIdx (h.pid.text ++ (h.tid.text ++ (h.seq.text ++
        (bydaTag ++ (h.module.name ++ (ascii ": " ++ payload)))))) j
      omega
    rw [herase, parseLogLine_stamp h.shape hlen]
    exact parseStamped_eraseIdx h payload hj (by rwa [h.length_stamp] at hspace)

end Stages

/-- The losses of one line. -/
theorem parseLogLine_eraseIdx_line :
    ∃ (h : LogHeader) (payload : Bytes),
      ascii "[2024-05-01_13:20:31.123456][1][22][333] BYDA::RadarTrackNodeState: up"
        = h.text ++ payload ∧
      ∀ i r, h.losses[i]? = some (some r) → payload.head? ≠ some 32 →
        (parseLogLine (D := ℚ) ((ascii
          "[2024-05-01_13:20:31.123456][1][22][333] BYDA::RadarTrackNodeState: up").eraseIdx i)).1
          = r := by
  have hok : (parseLogLine (D := ℚ) (ascii
      "[2024-05-01_13:20:31.123456][1][22][333] BYDA::RadarTrackNodeState: up")).1 = .ok := by
    decide
  obtain ⟨h, payload, hline, -, hloss⟩ := parseLogLine_eraseIdx hok
  exact ⟨h, payload, hline, fun i r hi hhead ↦ hloss i r hi fun _ ↦ hhead⟩

end LoggerAnalyzer
