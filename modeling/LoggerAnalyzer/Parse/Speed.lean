import LoggerAnalyzer.Parse.Grammar

/-!
# The speed in a payload

`find_spd` looks for `spd[` in a loop, scans what stands behind it by hand and compares the value
with a range. `SpeedRule` says what it should find, without a loop: the first anchor decides, where
an anchor is a `spd[` that is not the tail of a longer key. The values are exact here.
-/

namespace LoggerAnalyzer

open ExactDouble

/-! ## Numerals -/

inductive Sign where
  | absent
  | plus
  | minus
deriving DecidableEq, Repr

def Sign.text : Sign → Bytes
  | absent => []
  | plus => [43]
  | minus => [45]

/-- An optional sign, digits, and an optional point with digits behind it. -/
structure Numeral where
  sign : Sign
  whole : Bytes
  frac : Option Bytes
  all_whole : ∀ b ∈ whole, isDigit b = true
  all_frac : ∀ b ∈ frac.getD [], isDigit b = true
  some_digit : whole ≠ [] ∨ frac.getD [] ≠ []

namespace Numeral

/-- The point and what stands behind it. -/
def fracText (n : Numeral) : Bytes := (n.frac.map (46 :: ·)).getD []

def text (n : Numeral) : Bytes := n.sign.text ++ (n.whole ++ n.fracText)

/-- The exact value. -/
def value (n : Numeral) : ℚ :=
  (if n.sign = .minus then -1 else 1) *
    (natOfDigits n.whole + natOfDigits (n.frac.getD []) / 10 ^ (n.frac.getD []).length)

end Numeral

/-- `checkNumber` behind the sign. -/
def checkUnsigned (unsigned : Bytes) : Bool :=
  let whole := unsigned.takeWhile isDigit
  match unsigned.drop whole.length with
  | 46 :: t =>
    let frac := t.takeWhile isDigit
    whole.length + frac.length != 0 && (t.drop frac.length).isEmpty
  | t => whole.length != 0 && t.isEmpty

/-- What follows a sign, or is taken for no sign. -/
def Unsigned (sign : Sign) (unsigned : Bytes) : Prop :=
  sign = .absent → unsigned.head? ≠ some 43 ∧ unsigned.head? ≠ some 45

theorem exists_sign (token : Bytes) :
    ∃ sign : Sign, ∃ unsigned, token = sign.text ++ unsigned ∧ Unsigned sign unsigned := by
  by_cases hplus : token.head? = some 43
  · obtain ⟨t, rfl⟩ := List.head?_eq_some_iff.mp hplus
    exact ⟨.plus, t, rfl, by simp [Unsigned]⟩
  by_cases hminus : token.head? = some 45
  · obtain ⟨t, rfl⟩ := List.head?_eq_some_iff.mp hminus
    exact ⟨.minus, t, rfl, by simp [Unsigned]⟩
  · exact ⟨.absent, token, rfl, fun _ ↦ ⟨hplus, hminus⟩⟩

/-- The sign is skipped. -/
theorem checkNumber_sign {sign : Sign} {unsigned : Bytes} (h : Unsigned sign unsigned) :
    checkNumber (sign.text ++ unsigned) = checkUnsigned unsigned := by
  cases sign with
  | plus => rfl
  | minus => rfl
  | absent =>
    obtain ⟨hplus, hminus⟩ := h rfl
    change checkNumber unsigned = _
    rw [checkNumber.eq_def]
    split
    · simp at hplus
    · simp at hminus
    · rfl

theorem isDigit_point : isDigit 46 = false := by decide

private theorem checkUnsigned_of_digits {whole : Bytes} {frac : Option Bytes}
    (hwhole : ∀ b ∈ whole, isDigit b = true) (hfrac : ∀ b ∈ frac.getD [], isDigit b = true)
    (hsome : whole ≠ [] ∨ frac.getD [] ≠ []) :
    checkUnsigned (whole ++ (frac.map (46 :: ·)).getD []) = true := by
  rw [checkUnsigned]
  cases frac with
  | none =>
    have hne : whole ≠ [] := hsome.resolve_right (by simp)
    simp [takeWhile_of_all hwhole, hne]
  | some fs =>
    have hpos : whole.length + fs.length ≠ 0 := fun hzero ↦ by
      obtain ⟨hw, hf⟩ := Nat.add_eq_zero_iff.mp hzero
      exact hsome.elim (· (List.length_eq_zero_iff.mp hw)) (· (List.length_eq_zero_iff.mp hf))
    have hfs : ∀ b ∈ fs, isDigit b = true := hfrac
    simp only [Option.map_some, Option.getD_some, takeWhile_append_cons hwhole isDigit_point,
      List.drop_left, takeWhile_of_all hfs, List.drop_length, List.isEmpty_nil, Bool.and_true,
      bne_iff_ne]
    exact hpos

private theorem exists_digits_of_checkUnsigned {unsigned : Bytes}
    (h : checkUnsigned unsigned = true) :
    ∃ whole : Bytes, ∃ frac : Option Bytes,
      unsigned = whole ++ (frac.map (46 :: ·)).getD [] ∧ (∀ b ∈ whole, isDigit b = true) ∧
        (∀ b ∈ frac.getD [], isDigit b = true) ∧ (whole ≠ [] ∨ frac.getD [] ≠ []) := by
  rw [checkUnsigned] at h
  rcases takeWhile_cases isDigit unsigned with hall | ⟨whole, c, t, rfl, hwhole, hc⟩
  · refine ⟨unsigned, none, (List.append_nil _).symm, hall, by simp, .inl ?_⟩
    simpa [takeWhile_of_all hall] using h
  simp only [takeWhile_append_cons hwhole hc, List.drop_left] at h
  split at h
  · rename_i heq
    obtain ⟨rfl, rfl⟩ := List.cons.inj heq
    rcases takeWhile_cases isDigit t with hall | ⟨fs, d, t', rfl, hfs, hd⟩
    · refine ⟨whole, some t, rfl, hwhole, hall, ?_⟩
      rw [takeWhile_of_all hall, Bool.and_eq_true, bne_iff_ne] at h
      by_contra hnone
      rw [not_or, not_not, not_not] at hnone
      exact h.1 (by rw [hnone.1, show t = [] from hnone.2]; rfl)
    · rw [takeWhile_append_cons hfs hd, List.drop_left] at h
      simp at h
  · simp at h

theorem Numeral.unsigned (n : Numeral) : Unsigned n.sign (n.whole ++ n.fracText) := by
  intro _
  have hhead : ∀ c, isDigit c = false → c ≠ 46 → (n.whole ++ n.fracText).head? ≠ some c := by
    intro c hc hpoint h
    cases hwhole : n.whole with
    | cons b whole =>
      rw [hwhole, List.cons_append, List.head?_cons, Option.some.injEq] at h
      have hdigit := n.all_whole b (by rw [hwhole]; exact List.mem_cons_self)
      rw [h, hc] at hdigit
      cases hdigit
    | nil =>
      rw [hwhole, List.nil_append, fracText] at h
      cases hfrac : n.frac with
      | none => simp [hfrac] at h
      | some fs =>
        rw [hfrac] at h
        exact hpoint (Option.some.inj h).symm
  exact ⟨hhead 43 (by decide) (by decide), hhead 45 (by decide) (by decide)⟩

/-- **The scan lets the numerals through**, and nothing else. -/
theorem checkNumber_iff (token : Bytes) : checkNumber token = true ↔ ∃ n : Numeral, token = n.text
    := by
  constructor
  · intro h
    obtain ⟨sign, unsigned, rfl, hunsigned⟩ := exists_sign token
    rw [checkNumber_sign hunsigned] at h
    obtain ⟨whole, frac, rfl, hwhole, hfrac, hsome⟩ := exists_digits_of_checkUnsigned h
    exact ⟨⟨sign, whole, frac, hwhole, hfrac, hsome⟩, rfl⟩
  · rintro ⟨n, rfl⟩
    rw [Numeral.text, checkNumber_sign n.unsigned]
    exact checkUnsigned_of_digits n.all_whole n.all_frac n.some_digit

/-- What `strtod` makes of a sign: the factor, what follows it, and its length. -/
def signedOf (s : Bytes) : ℚ × Bytes × ℕ :=
  match s with
  | 43 :: s => (1, s, 1)
  | 45 :: s => (-1, s, 1)
  | s => (1, s, 0)

private theorem signedOf_sign {sign : Sign} {unsigned : Bytes} (h : Unsigned sign unsigned) :
    signedOf (sign.text ++ unsigned)
      = (if sign = .minus then -1 else 1, unsigned, sign.text.length) := by
  cases sign with
  | plus => rfl
  | minus => rfl
  | absent =>
    obtain ⟨hplus, hminus⟩ := h rfl
    change signedOf unsigned = (1, unsigned, 0)
    rw [signedOf.eq_def]
    split
    · simp at hplus
    · simp at hminus
    · rfl

/-- `strtod` behind the sign: the digits, and those behind the point. -/
def digitsOf (unsigned : Bytes) : Bytes × Bytes × ℕ :=
  let whole := unsigned.takeWhile isDigit
  let afterWhole := unsigned.drop whole.length
  (whole,
    match afterWhole with
      | 46 :: s => s.takeWhile isDigit
      | _ => [],
    match afterWhole with
      | 46 :: _ => 1
      | _ => 0)

private theorem digitsOf_text {whole : Bytes} {frac : Option Bytes}
    (hwhole : ∀ b ∈ whole, isDigit b = true)
    (hfrac : ∀ b ∈ frac.getD [], isDigit b = true) :
    digitsOf (whole ++ (frac.map (46 :: ·)).getD [])
      = (whole, frac.getD [], if frac.isSome then 1 else 0) := by
  cases frac with
  | none => simp [digitsOf, takeWhile_of_all hwhole]
  | some fs =>
    have hfs : fs.takeWhile isDigit = fs := takeWhile_of_all hfrac
    simp [digitsOf, takeWhile_append_cons hwhole isDigit_point, hfs]

private theorem strtod_eq (s : Bytes) :
    strtod s =
      let signed := signedOf s
      let digits := digitsOf signed.2.1
      if digits.1.length + digits.2.1.length = 0 then (0, 0, false)
      else
        (signed.1 * (natOfDigits digits.1 + natOfDigits digits.2.1 / 10 ^ digits.2.1.length),
          signed.2.2 + digits.1.length + digits.2.2 + digits.2.1.length, false) := rfl

/-- The value of a numeral is what `strtod` reads. -/
theorem strtod_text (n : Numeral) : strtod n.text = (n.value, n.text.length, false) := by
  have hdigits : digitsOf (n.whole ++ n.fracText) = _ := digitsOf_text n.all_whole n.all_frac
  have hpos : ¬ n.whole.length + (n.frac.getD []).length = 0 := fun hzero ↦ by
    obtain ⟨hw, hf⟩ := Nat.add_eq_zero_iff.mp hzero
    exact n.some_digit.elim (· (List.length_eq_zero_iff.mp hw)) (· (List.length_eq_zero_iff.mp hf))
  rw [strtod_eq, Numeral.text, signedOf_sign n.unsigned]
  dsimp only
  rw [hdigits, if_neg hpos]
  dsimp only
  have hlen : n.fracText.length = (if n.frac.isSome then 1 else 0) + (n.frac.getD []).length := by
    rw [Numeral.fracText]
    cases n.frac with
    | none => rfl
    | some fs => simp [Nat.add_comm]
  rw [List.length_append, List.length_append, hlen, Numeral.value, Nat.add_assoc, Nat.add_assoc]

/-! ## Anchors -/

/-- `"spd["`. -/
def anchor : Bytes := ascii "spd["

/-- There is an anchor at `a`: the text is there, and no character of a name precedes it. -/
def Anchored (payload : Bytes) (a : ℕ) : Prop :=
  anchor <+: payload.drop a ∧ (0 < a → isIdent (charAt payload (a - 1)) = false)

instance (payload : Bytes) (a : ℕ) : Decidable (Anchored payload a) :=
  inferInstanceAs (Decidable (_ ∧ _))

/-- The first anchor of a payload. -/
def FirstAnchor (payload : Bytes) (a : ℕ) : Prop :=
  Anchored payload a ∧ ∀ b < a, ¬ Anchored payload b

/-- The text between the first anchor and the next closing bracket. -/
def SpeedText (payload token : Bytes) : Prop :=
  ∃ a after, FirstAnchor payload a ∧ payload.drop (a + 4) = token ++ 93 :: after ∧ 93 ∉ token

/-- What `find_spd` should report: the first anchor decides. -/
inductive SpeedRule (payload : Bytes) : FoundSpd ℚ → Prop where
  | unanchored (never : ∀ a, ¬ Anchored payload a) : SpeedRule payload ⟨none, false⟩
  | unclosed {a} (first : FirstAnchor payload a) (never : 93 ∉ payload.drop (a + 4)) :
    SpeedRule payload ⟨none, false⟩
  | noNumeral {token} (text : SpeedText payload token)
    (why : ¬ (1 ≤ token.length ∧ token.length ≤ 63 ∧ ∃ n : Numeral, token = n.text)) :
    SpeedRule payload ⟨none, false⟩
  | inRange {n : Numeral} (text : SpeedText payload n.text) (short : n.text.length ≤ 63)
    (range : 0 ≤ n.value ∧ n.value ≤ 1000000000) : SpeedRule payload ⟨some n.value, false⟩
  | outOfRange {n : Numeral} (text : SpeedText payload n.text) (short : n.text.length ≤ 63)
    (range : ¬ (0 ≤ n.value ∧ n.value ≤ 1000000000)) : SpeedRule payload ⟨none, true⟩

theorem FirstAnchor.unique {payload : Bytes} {a b : ℕ} (ha : FirstAnchor payload a)
    (hb : FirstAnchor payload b) : a = b := by
  rcases Nat.lt_trichotomy a b with hlt | heq | hlt
  · exact absurd ha.1 (hb.2 a hlt)
  · exact heq
  · exact absurd hb.1 (ha.2 b hlt)

/-! ## The search -/

theorem findAnchor_some {s : Bytes} {k : ℕ} (h : findAnchor s = some k) :
    anchor <+: s.drop k ∧ ∀ j < k, ¬ anchor <+: s.drop j := by
  induction s generalizing k with
  | nil => cases h
  | cons b s ih =>
    rw [findAnchor] at h
    by_cases hhere : (ascii "spd[").isPrefixOf (b :: s) = true
    · rw [if_pos hhere] at h
      obtain rfl := Option.some.inj h
      exact ⟨List.isPrefixOf_iff_prefix.mp hhere, fun j hj ↦ absurd hj (Nat.not_lt_zero j)⟩
    · rw [if_neg hhere] at h
      obtain ⟨k, hk, rfl⟩ := Option.map_eq_some_iff.mp h
      obtain ⟨hat, hbefore⟩ := ih hk
      refine ⟨hat, fun j hj ↦ ?_⟩
      cases j with
      | zero => exact fun hprefix ↦ hhere (List.isPrefixOf_iff_prefix.mpr hprefix)
      | succ j => exact hbefore j (Nat.lt_of_succ_lt_succ hj)

private theorem findAnchor_none {s : Bytes} (h : findAnchor s = none) (j : ℕ) :
    ¬ anchor <+: s.drop j := by
  induction s generalizing j with
  | nil =>
    rw [List.drop_nil, List.prefix_nil]
    decide
  | cons b s ih =>
    rw [findAnchor] at h
    by_cases hhere : (ascii "spd[").isPrefixOf (b :: s) = true
    · rw [if_pos hhere] at h
      cases h
    · rw [if_neg hhere] at h
      cases j with
      | zero => exact fun hprefix ↦ hhere (List.isPrefixOf_iff_prefix.mpr hprefix)
      | succ j => exact ih (Option.map_eq_none_iff.mp h) j

/-- Two anchors do not overlap. -/
theorem not_anchor_inside {s : Bytes} (h : anchor <+: s) {j : ℕ} (hpos : 0 < j) (hlt : j < 4) :
    ¬ anchor <+: s.drop j := by
  obtain ⟨after, rfl⟩ := h
  obtain rfl | rfl | rfl : j = 1 ∨ j = 2 ∨ j = 3 := by omega
  all_goals simp [anchor, ascii]

/-- The search loop stops at the first anchor. -/
theorem findSpdFrom_eq {D : Type} [DoubleOps D] {payload : Bytes} {fuel pos : ℕ}
    (hfuel : payload.length < pos + fuel) (hbefore : ∀ b < pos, ¬ Anchored payload b) :
    (∃ a, FirstAnchor payload a ∧
        findSpdFrom payload fuel pos = readSpd (D := D) (payload.drop (a + 4))) ∨
      (∀ a, ¬ Anchored payload a) ∧ findSpdFrom (D := D) payload fuel pos = ⟨none, false⟩ := by
  have hnone : findAnchor (payload.drop pos) = none → ∀ a, ¬ Anchored payload a := by
    intro hfind a hanchored
    rcases Nat.lt_or_ge a pos with hlt | hge
    · exact hbefore a hlt hanchored
    · refine findAnchor_none hfind (a - pos) ?_
      rw [List.drop_drop, Nat.add_sub_cancel' hge]
      exact hanchored.1
  induction fuel generalizing pos with
  | zero =>
    have hend : payload.drop pos = [] := List.drop_eq_nil_iff.mpr (by omega)
    exact .inr ⟨hnone (by rw [hend]; rfl), rfl⟩
  | succ fuel ih =>
    rw [findSpdFrom]
    cases hfind : findAnchor (payload.drop pos) with
    | none => exact .inr ⟨hnone hfind, rfl⟩
    | some skipped =>
      obtain ⟨hat, hfirst⟩ := findAnchor_some hfind
      rw [List.drop_drop] at hat
      -- Nothing between `pos` and the match is an anchor.
      have hskipped : ∀ b < pos + skipped, ¬ Anchored payload b := by
        intro b hb hanchored
        rcases Nat.lt_or_ge b pos with hlt | hge
        · exact hbefore b hlt hanchored
        · refine hfirst (b - pos) (by omega) ?_
          rw [List.drop_drop, Nat.add_sub_cancel' hge]
          exact hanchored.1
      dsimp only
      by_cases htail : (decide (0 < pos + skipped)
          && isIdent (charAt payload (pos + skipped - 1))) = true
      · rw [if_pos htail]
        rw [Bool.and_eq_true, decide_eq_true_eq] at htail
        have hinside : ∀ b < pos + skipped + 4, ¬ Anchored payload b := by
          intro b hb hanchored
          rcases Nat.lt_trichotomy b (pos + skipped) with hlt | rfl | hgt
          · exact hskipped b hlt hanchored
          · rw [hanchored.2 htail.1] at htail
            exact Bool.false_ne_true htail.2
          · refine not_anchor_inside hat (j := b - (pos + skipped)) (by omega) (by omega) ?_
            rw [List.drop_drop, Nat.add_sub_cancel' (Nat.le_of_lt hgt)]
            exact hanchored.1
        refine ih (by omega) hinside ?_
        intro hfind' a hanchored
        rcases Nat.lt_or_ge a (pos + skipped + 4) with hlt | hge
        · exact hinside a hlt hanchored
        · refine findAnchor_none hfind' (a - (pos + skipped + 4)) ?_
          rw [List.drop_drop, Nat.add_sub_cancel' hge]
          exact hanchored.1
      · rw [if_neg htail]
        refine .inl ⟨pos + skipped, ⟨⟨hat, fun hpos ↦ ?_⟩, hskipped⟩, rfl⟩
        rw [Bool.and_eq_true, decide_eq_true_eq, not_and, Bool.not_eq_true] at htail
        exact htail hpos

/-! ## What is found -/

private theorem readSpd_unclosed {D : Type} [DoubleOps D] {behind : Bytes} (h : 93 ∉ behind) :
    readSpd behind = (⟨none, false⟩ : FoundSpd D) := by
  rw [readSpd, memchr_of_notMem h]

theorem readSpd_token {D : Type} [DoubleOps D] {token : Bytes} (h : 93 ∉ token) (after : Bytes) :
    readSpd (token ++ 93 :: after) =
      if token.isEmpty || 64 ≤ token.length then (⟨none, false⟩ : FoundSpd D)
      else if !checkNumber token then ⟨none, false⟩
      else
        match DoubleOps.strtod (D := D) token with
        | (v, taken, erange) =>
          if taken ≠ token.length || !DoubleOps.isfinite v then ⟨none, false⟩
          else if erange || DoubleOps.lt v kSpdMin || DoubleOps.lt kSpdMax v then ⟨none, true⟩
          else ⟨some v, false⟩ := by
  rw [readSpd, memchr_append_cons h]

theorem Numeral.text_ne_nil (n : Numeral) : n.text ≠ [] := by
  intro hnil
  rw [text, List.append_eq_nil_iff, List.append_eq_nil_iff] at hnil
  obtain ⟨-, hwhole, hfrac⟩ := hnil
  refine n.some_digit.elim (· hwhole) ?_
  intro hne
  rw [fracText] at hfrac
  cases hn : n.frac with
  | none => exact hne (by rw [hn]; rfl)
  | some fs => simp [hn] at hfrac

/-- A numeral that is not too long is compared with the range. -/
theorem readSpd_numeral (n : Numeral) (hclosed : 93 ∉ n.text) (hshort : n.text.length ≤ 63)
    (after : Bytes) :
    readSpd (n.text ++ 93 :: after) =
      if 0 ≤ n.value ∧ n.value ≤ 1000000000 then (⟨some n.value, false⟩ : FoundSpd ℚ)
      else ⟨none, true⟩ := by
  have hempty : n.text.isEmpty = false := by simpa using n.text_ne_nil
  have hlong : decide (64 ≤ n.text.length) = false := decide_eq_false (by omega)
  have hstrtod : DoubleOps.strtod (D := ℚ) n.text = (n.value, n.text.length, false) :=
    strtod_text n
  have hmin : (kSpdMin : ℚ) = 0 := Nat.cast_zero
  have hmax : (kSpdMax : ℚ) = 1000000000 := by norm_num [kSpdMax, DoubleOps.ofNat]
  rw [readSpd_token hclosed, hempty, hlong, if_neg (by decide),
    (checkNumber_iff n.text).mpr ⟨n, rfl⟩, if_neg (by decide), hstrtod]
  dsimp only
  rw [if_neg (by simp [DoubleOps.isfinite]), hmin, hmax]
  by_cases hrange : 0 ≤ n.value ∧ n.value ≤ 1000000000
  · rw [if_pos hrange, if_neg]
    simpa [DoubleOps.lt] using hrange
  · rw [if_neg hrange, if_pos]
    simpa [DoubleOps.lt, imp_iff_not_or] using hrange

private theorem readSpd_noNumeral {token : Bytes} (hclosed : 93 ∉ token)
    (why : ¬ (1 ≤ token.length ∧ token.length ≤ 63 ∧ ∃ n : Numeral, token = n.text))
    (after : Bytes) : readSpd (token ++ 93 :: after) = (⟨none, false⟩ : FoundSpd ℚ) := by
  rw [readSpd_token hclosed]
  by_cases hlen : (token.isEmpty || decide (64 ≤ token.length)) = true
  · rw [if_pos hlen]
  · rw [if_neg hlen, if_pos]
    rw [Bool.or_eq_true, not_or, List.isEmpty_iff, decide_eq_true_eq] at hlen
    rw [Bool.not_eq_true', ← Bool.not_eq_true, checkNumber_iff]
    exact fun hn ↦ why ⟨List.length_pos_iff.mpr hlen.1, by omega, hn⟩

theorem findSpd_cases (D : Type) [DoubleOps D] (payload : Bytes) :
    (∃ a, FirstAnchor payload a ∧ findSpd payload = readSpd (D := D) (payload.drop (a + 4))) ∨
      (∀ a, ¬ Anchored payload a) ∧ findSpd (D := D) payload = ⟨none, false⟩ :=
  findSpdFrom_eq (by omega) fun b hb ↦ absurd hb (Nat.not_lt_zero b)

theorem findSpd_of_first {D : Type} [DoubleOps D] {payload : Bytes} {a : ℕ}
    (h : FirstAnchor payload a) : findSpd payload = readSpd (D := D) (payload.drop (a + 4)) := by
  rcases findSpd_cases D payload with ⟨a', hfirst, hfind⟩ | ⟨hnever, -⟩
  · rw [hfind, h.unique hfirst]
  · exact absurd h.1 (hnever a)

private theorem findSpd_of_never {D : Type} [DoubleOps D] {payload : Bytes}
    (h : ∀ a, ¬ Anchored payload a) : findSpd payload = (⟨none, false⟩ : FoundSpd D) := by
  rcases findSpd_cases D payload with ⟨a, hfirst, -⟩ | ⟨-, hfind⟩
  · exact absurd hfirst.1 (h a)
  · exact hfind

private theorem findSpd_of_text {D : Type} [DoubleOps D] {payload token : Bytes}
    (h : SpeedText payload token) :
    93 ∉ token ∧ ∃ after, findSpd payload = readSpd (D := D) (token ++ 93 :: after) := by
  obtain ⟨a, after, hfirst, htext, hclosed⟩ := h
  exact ⟨hclosed, after, by rw [findSpd_of_first hfirst, htext]⟩

theorem SpeedRule.eq {payload : Bytes} {r : FoundSpd ℚ} (h : SpeedRule payload r) :
    findSpd payload = r := by
  cases h with
  | unanchored never => exact findSpd_of_never never
  | unclosed first never => rw [findSpd_of_first first, readSpd_unclosed never]
  | noNumeral text why =>
    obtain ⟨hclosed, after, hfind⟩ := findSpd_of_text (D := ℚ) text
    rw [hfind, readSpd_noNumeral hclosed why]
  | inRange text short range =>
    obtain ⟨hclosed, after, hfind⟩ := findSpd_of_text (D := ℚ) text
    rw [hfind, readSpd_numeral _ hclosed short, if_pos range]
  | outOfRange text short range =>
    obtain ⟨hclosed, after, hfind⟩ := findSpd_of_text (D := ℚ) text
    rw [hfind, readSpd_numeral _ hclosed short, if_neg range]

private theorem exists_speedRule (payload : Bytes) : ∃ r, SpeedRule payload r := by
  rcases findSpd_cases ℚ payload with ⟨a, hfirst, -⟩ | ⟨hnever, -⟩
  · rcases takeWhile_cases (· != 93) (payload.drop (a + 4)) with
      hall | ⟨token, c, after, htext, htoken, hc⟩
    · refine ⟨_, .unclosed hfirst fun hmem ↦ ?_⟩
      simpa using hall 93 hmem
    · obtain rfl : c = 93 := by simpa using hc
      have hclosed : 93 ∉ token := fun hmem ↦ by simpa using htoken 93 hmem
      have hbehind : SpeedText payload token := ⟨a, after, hfirst, htext, hclosed⟩
      by_cases hnumeral : 1 ≤ token.length ∧ token.length ≤ 63 ∧ ∃ n : Numeral, token = n.text
      · obtain ⟨-, hshort, n, rfl⟩ := hnumeral
        by_cases hrange : 0 ≤ n.value ∧ n.value ≤ 1000000000
        · exact ⟨_, .inRange hbehind hshort hrange⟩
        · exact ⟨_, .outOfRange hbehind hshort hrange⟩
      · exact ⟨_, .noNumeral hbehind hnumeral⟩
  · exact ⟨_, .unanchored hnever⟩

private theorem range_of_readSpd {D : Type} [DoubleOps D] {behind : Bytes} {v : D}
    (h : (readSpd behind).value = some v) :
    DoubleOps.isfinite v = true ∧ DoubleOps.lt v kSpdMin = false ∧
    DoubleOps.lt kSpdMax v = false := by
  rw [readSpd] at h
  split at h
  · cases h
  split_ifs at h with hlen hnumber
  dsimp only at h
  split_ifs at h with hbad hrange
  rw [Bool.or_eq_true, not_or, Bool.not_eq_true', Bool.not_eq_false] at hbad
  rw [Bool.or_eq_true, Bool.or_eq_true, not_or, not_or, Bool.not_eq_true, Bool.not_eq_true,
    Bool.not_eq_true] at hrange
  rw [← Option.some.inj h]
  exact ⟨hbad.2, hrange.1.2, hrange.2⟩

/-- A speed that is found is in range. -/
theorem range_of_findSpd {D : Type} [DoubleOps D] {payload : Bytes} {v : D}
    (h : (findSpd payload).value = some v) :
    DoubleOps.isfinite v = true ∧ DoubleOps.lt v kSpdMin = false ∧
    DoubleOps.lt kSpdMax v = false := by
  rcases findSpd_cases D payload with ⟨a, -, hfind⟩ | ⟨-, hfind⟩
  · rw [hfind] at h
    exact range_of_readSpd h
  · rw [hfind] at h
    cases h

/-- **What is found is what the rule says**, and the rule says one thing only. -/
theorem speedRule_iff (payload : Bytes) (r : FoundSpd ℚ) :
    SpeedRule payload r ↔ findSpd payload = r := by
  constructor
  · exact SpeedRule.eq
  · rintro rfl
    obtain ⟨r, hrule⟩ := exists_speedRule payload
    rw [hrule.eq]
    exact hrule

end LoggerAnalyzer
