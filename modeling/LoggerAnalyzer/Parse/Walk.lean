import LoggerAnalyzer.Parse.Speed

/-!
# No read past the end

`parseLogLine` works on what is left of a line. The code has a pointer and an index, and nothing but
its own checks keeps the index inside the line. Here the code is walked through once more with its
indices: `s[i]?` fails past the end, and so does a write past the end of the buffer for `strtod`.
`walkLogLine_eq` says that nothing fails, and that what comes out is what `parseLogLine` says.
-/

namespace LoggerAnalyzer

/-- The `n` bytes from index `i` on, which `memcmp` and `memcpy` read. -/
def bytesAt (s : Bytes) (i n : ℕ) : Option Bytes :=
  if i + n ≤ s.length then some ((s.drop i).take n) else none

theorem bytesAt_of_le {s : Bytes} {i n : ℕ} (h : i + n ≤ s.length) :
    bytesAt s i n = some ((s.drop i).take n) := if_pos h

theorem getElem?_of_drop {s : Bytes} {i : ℕ} {c : UInt8} {after : Bytes}
    (h : s.drop i = c :: after) :
    s[i]? = some c ∧ i < s.length ∧ s.drop (i + 1) = after := by
  have hlt : i < s.length := by
    have hlen := congrArg List.length h
    rw [List.length_drop, List.length_cons] at hlen
    omega
  rw [List.drop_eq_getElem_cons hlt] at h
  obtain ⟨hhead, htail⟩ := List.cons.inj h
  exact ⟨by rw [List.getElem?_eq_getElem hlt, hhead], hlt, htail⟩

/-! ## Runs of bytes -/

/-- `while (i < size && p(s[i])) ++i`: the index at which the loop stops. -/
def skip (p : UInt8 → Bool) (s : Bytes) : ℕ → ℕ → Option ℕ
  | 0, _ => none
  | fuel + 1, i =>
    if i < s.length then do
      let c ← s[i]?
      if p c then skip p s fuel (i + 1) else some i
    else some i

theorem skip_eq (p : UInt8 → Bool) {s : Bytes} {fuel i : ℕ} (hi : i ≤ s.length)
    (hfuel : s.length < i + fuel) :
    skip p s fuel i = some (i + ((s.drop i).takeWhile p).length) := by
  induction fuel generalizing i with
  | zero => omega
  | succ fuel ih =>
    rw [skip]
    cases hdrop : s.drop i with
    | nil =>
      rw [if_neg (Nat.not_lt.mpr (List.drop_eq_nil_iff.mp hdrop))]
      rfl
    | cons c after =>
      obtain ⟨hget, hlt, hafter⟩ := getElem?_of_drop hdrop
      rw [if_pos hlt, hget, Option.bind_eq_bind, Option.bind_some]
      by_cases hc : p c = true
      · rw [if_pos hc, ih (i := i + 1) hlt (by omega), hafter, List.takeWhile_cons_of_pos hc,
          List.length_cons, Nat.add_assoc, Nat.add_comm 1]
      · rw [if_neg hc, List.takeWhile_cons_of_neg hc]
        rfl

/-! ## The timestamp -/

/-- `check_timestamp` from index `i` on: each byte is read only if the ones before it fit. -/
def walkTimestamp (s : Bytes) : Bytes → ℕ → Option Bool
  | [], _ => some true
  | c :: shape, i => do
    let b ← s[i]?
    if (if c = 100 then isDigit b else b == c) then walkTimestamp s shape (i + 1) else some false

private theorem walkTimestamp_eq {s shape : Bytes} {i : ℕ} (h : i + shape.length ≤ s.length) :
    walkTimestamp s shape i = some (hasShape shape ((s.drop i).take shape.length)) := by
  induction shape generalizing i with
  | nil => rfl
  | cons c shape ih =>
    rw [List.length_cons] at h
    obtain ⟨b, after, hdrop⟩ : ∃ b after, s.drop i = b :: after :=
      List.exists_cons_of_length_pos (by rw [List.length_drop]; omega)
    obtain ⟨hget, -, rfl⟩ := getElem?_of_drop hdrop
    rw [walkTimestamp, hget, Option.bind_eq_bind, Option.bind_some, hdrop, List.length_cons,
      List.take_succ_cons, hasShape]
    cases (if c = 100 then isDigit b else b == c) with
    | true => rw [if_pos rfl, ih (by omega), Bool.true_and]
    | false => rw [if_neg (by decide), Bool.false_and]

/-! ## Bracketed fields -/

/-- The loop over the digits of a field. -/
def walkDigits (s : Bytes) : ℕ → ℕ → ℕ → Option (Except Reason (ℕ × ℕ))
  | 0, _, _ => none
  | fuel + 1, i, digits =>
    if i < s.length then do
      let c ← s[i]?
      if isDigit c then
        if 20 < digits + 1 then some (.error .missingCloseBracket)
        else walkDigits s fuel (i + 1) (digits + 1)
      else some (.ok (i, digits))
    else some (.ok (i, digits))

private theorem walkDigits_eq {s : Bytes} {fuel i digits : ℕ} (hi : i ≤ s.length)
    (hfuel : s.length < i + fuel) (hle : digits ≤ 20) :
    walkDigits s fuel i digits = some (
      if 20 < digits + ((s.drop i).takeWhile isDigit).length then .error .missingCloseBracket
      else .ok (i + ((s.drop i).takeWhile isDigit).length,
        digits + ((s.drop i).takeWhile isDigit).length)) := by
  induction fuel generalizing i digits with
  | zero => omega
  | succ fuel ih =>
    rw [walkDigits]
    cases hdrop : s.drop i with
    | nil =>
      rw [if_neg (Nat.not_lt.mpr (List.drop_eq_nil_iff.mp hdrop)), if_neg (by simpa using hle)]
      rfl
    | cons c after =>
      obtain ⟨hget, hlt, hafter⟩ := getElem?_of_drop hdrop
      rw [if_pos hlt, hget, Option.bind_eq_bind, Option.bind_some]
      by_cases hc : isDigit c = true
      · rw [if_pos hc, List.takeWhile_cons_of_pos hc, List.length_cons]
        by_cases hfull : 20 < digits + 1
        · rw [if_pos hfull, if_pos (by omega)]
        · rw [if_neg hfull, ih (i := i + 1) hlt (by omega) (by omega), hafter, Nat.add_assoc digits,
            Nat.add_assoc i, Nat.add_comm 1]
      · rw [if_neg hc, List.takeWhile_cons_of_neg hc, if_neg (by simpa using hle)]
        rfl

/-- One of the bracketed fields, from index `i` on: the index behind it. -/
def walkField (first : Bool) (s : Bytes) (i : ℕ) : Option (Except Reason ℕ) :=
  if s.length ≤ i then some (.error (if first then .garbagePayload else .missingCloseBracket))
  else do
    let c ← s[i]?
    if c ≠ 91 then some (.error (if first then .garbagePayload else .missingCloseBracket))
    else
      match ← walkDigits s (s.length + 1) (i + 1) 0 with
      | .error reason => some (.error reason)
      | .ok (i, digits) =>
        if digits = 0 ∨ s.length ≤ i then some (.error .missingCloseBracket)
        else do
          let c ← s[i]?
          if c ≠ 93 then some (.error .missingCloseBracket) else some (.ok (i + 1))

/-- The index that a stage gives back, for what it leaves of the line. -/
def indexOf (s : Bytes) (r : Except Reason Bytes) : Except Reason ℕ :=
  r.map fun after ↦ s.length - after.length

private theorem walkField_eq (first : Bool) (s : Bytes) (i : ℕ) :
    walkField first s i = some (indexOf s (parseField first (s.drop i))) := by
  rw [walkField]
  cases hdrop : s.drop i with
  | nil =>
    rw [if_pos (List.drop_eq_nil_iff.mp hdrop)]
    rfl
  | cons c after =>
    obtain ⟨hget, hlt, hafter⟩ := getElem?_of_drop hdrop
    rw [if_neg (Nat.not_le.mpr hlt), hget, Option.bind_eq_bind, Option.bind_some]
    by_cases hc : c = 91
    · subst hc
      have hbehind : ∀ k, s.drop (i + 1 + k) = after.drop k := fun k ↦ by
        rw [← List.drop_drop, hafter]
      rw [if_neg (by decide), walkDigits_eq (i := i + 1) hlt (by omega) (by omega), hafter,
        Option.bind_eq_bind, Option.bind_some, Nat.zero_add]
      -- the digits end at the end of the line, or at a byte `d`
      rcases takeWhile_cases isDigit after with hall | ⟨ds, d, rest, rfl, hds, hd⟩
      · rw [parseField_of_all_digits first hall, takeWhile_of_all hall]
        have hend : s.length ≤ i + 1 + after.length := by
          rw [← List.drop_eq_nil_iff, hbehind, List.drop_length]
        split_ifs
        · rfl
        · dsimp only
          rw [if_pos (.inr hend)]
          rfl
      · obtain ⟨hget', hlt', hrest⟩ := getElem?_of_drop
          ((hbehind ds.length).trans List.drop_left)
        rw [parseField_digits first hds hd, takeWhile_append_cons hds hd]
        -- more than 20 digits, none, or none that is closed: the code gives up
        by_cases hlong : 20 < ds.length
        · rw [if_pos hlong, if_neg fun h ↦ Nat.not_le.mpr hlong h.2.1]
          rfl
        rw [if_neg hlong]
        dsimp only
        by_cases hnone : ds = []
        · rw [if_pos (.inl (by rw [hnone]; rfl)), if_neg fun h ↦ h.1 hnone]
          rfl
        rw [if_neg (not_or.mpr ⟨mt List.length_eq_zero_iff.mp hnone, Nat.not_le.mpr hlt'⟩), hget',
          Option.bind_some]
        by_cases hclose : d = 93
        · rw [if_neg (not_not.mpr hclose), if_pos ⟨hnone, Nat.not_lt.mp hlong, hclose⟩, indexOf,
            ← hrest]
          simp only [Except.map, List.length_drop]
          congr 2
          omega
        · rw [if_pos hclose, if_neg fun h ↦ hclose h.2.2]
          rfl
    · rw [if_pos hc, parseField_of_ne first hc]
      rfl

/-- The three bracketed fields, from index `i` on. -/
def walkFields (s : Bytes) (i : ℕ) : Option (Except Reason ℕ) := do
  match ← walkField true s i with
  | .error reason => some (.error reason)
  | .ok i =>
    match ← walkField false s i with
    | .error reason => some (.error reason)
    | .ok i => walkField false s i

private theorem drop_of_parseField {first : Bool} {s after : Bytes} {i : ℕ}
    (h : parseField first (s.drop i) = .ok after) : s.drop (s.length - after.length) = after := by
  obtain ⟨n, htext⟩ := exists_text_of_parseField h
  have hsuffix : after <:+ s :=
    (htext ▸ List.suffix_append n.text after).trans (List.drop_suffix i s)
  exact (List.suffix_iff_eq_drop.mp hsuffix).symm

private theorem walkFields_eq (s : Bytes) (i : ℕ) :
    walkFields s i = some (indexOf s (parseFields (s.drop i))) := by
  rw [walkFields, walkField_eq, Option.bind_eq_bind, Option.bind_some, parseFields]
  cases hfirst : parseField true (s.drop i) with
  | error reason => rfl
  | ok after =>
    change (walkField false s (s.length - after.length)).bind _
      = some (indexOf s (parseField false after >>= parseField false))
    have hdrop := drop_of_parseField hfirst
    rw [walkField_eq, hdrop, Option.bind_some]
    cases hsecond : parseField false after with
    | error reason => rfl
    | ok after' =>
      rw [← hdrop] at hsecond
      change walkField false s (s.length - after'.length)
        = some (indexOf s (parseField false after'))
      rw [walkField_eq, drop_of_parseField hsecond]

/-! ## The module -/

/-- `memcmp(name.data(), text, n) == 0`, after a look at the first letter. -/
def walkName (name text : Bytes) (n : ℕ) (letter : UInt8) : Option Bool := do
  let c ← name[0]?
  if c = letter then do
    let bytes ← bytesAt name 0 n
    some (bytes == text)
  else some false

private theorem walkName_eq {name : Bytes} {n : ℕ} (hlen : name.length = n) (hpos : 0 < n)
    (text : Bytes)
    (letter : UInt8) :
    walkName name text n letter = some (charAt name 0 == letter && name == text) := by
  obtain ⟨c, rest, rfl⟩ := List.exists_cons_of_length_pos (hlen ▸ hpos)
  rw [walkName, List.getElem?_cons_zero, Option.bind_eq_bind, Option.bind_some,
    bytesAt_of_le (by omega), List.drop_zero, ← hlen, List.take_length,
    show charAt (c :: rest) 0 = c from rfl]
  by_cases hc : c = letter
  · rw [if_pos hc, hc, beq_self_eq_true, Bool.true_and]
    rfl
  · rw [if_neg hc, beq_eq_false_iff_ne.mpr hc, Bool.false_and]

/-- `lookup_module`. -/
def walkLookup (name : Bytes) : Option (Option Module) :=
  if name.length = 18 then do
    if ← walkName name (ascii "AntennaProfileSpec") 18 65 then some (some .antennaProfileSpec)
    else if ← walkName name (ascii "SectorSchedulerRTS") 18 83 then
      some (some .sectorSchedulerRTS)
    else some none
  else if name.length = 19 then do
    if ← walkName name (ascii "RadarTrackNodeState") 19 82 then some (some .radarTrackNodeState)
    else if ← walkName name (ascii "DetectionTaskRunner") 19 68 then
      some (some .detectionTaskRunner)
    else some none
  else if name.length = 21 then do
    if ← walkName name (ascii "BeamSteerCtrlUnitImpl") 21 66 then
      some (some .beamSteerCtrlUnitImpl)
    else some none
  else some none

private theorem walkLookup_eq (name : Bytes) : walkLookup name = some (lookupModule name) := by
  rw [walkLookup, lookupModule]
  by_cases h₁ : name.length = 18
  · rw [if_pos h₁, if_pos h₁, walkName_eq h₁ (by decide), walkName_eq h₁ (by decide)]
    simp only [Option.bind_eq_bind, Option.bind_some]
    split_ifs <;> rfl
  rw [if_neg h₁, if_neg h₁]
  by_cases h₂ : name.length = 19
  · rw [if_pos h₂, if_pos h₂, walkName_eq h₂ (by decide), walkName_eq h₂ (by decide)]
    simp only [Option.bind_eq_bind, Option.bind_some]
    split_ifs <;> rfl
  rw [if_neg h₂, if_neg h₂]
  by_cases h₃ : name.length = 21
  · rw [if_pos h₃, if_pos h₃, walkName_eq h₃ (by decide)]
    simp only [Option.bind_eq_bind, Option.bind_some]
    split_ifs <;> rfl
  · rw [if_neg h₃, if_neg h₃]

/-! ## The speed -/

section Speed

variable {D : Type} [DoubleOps D]

/-- `i < token.size() && token[i] == '.'`. -/
def pointAt (token : Bytes) (i : ℕ) : Option Bool :=
  if i < token.length then (token[i]?).map (· == 46) else some false

/-- The scan of `find_spd` over a token: whether it is a number. -/
def walkNumber (token : Bytes) : Option Bool := do
  let c ← token[0]?
  let i := if c = 43 ∨ c = 45 then 1 else 0
  let j ← skip isDigit token (token.length + 1) i
  let point ← pointAt token j
  if point then do
    let k ← skip isDigit token (token.length + 1) (j + 1)
    some (!((j - i) + (k - (j + 1)) == 0 || k != token.length))
  else some (!(j - i == 0 || j != token.length))

/-- `find_spd`, from an anchor on: `begin` is the index behind its bracket. -/
def walkSpdAt (payload : Bytes) (begin : ℕ) : Option (FoundSpd D) :=
  match memchr 93 (payload.drop begin) with
  | none => some ⟨none, false⟩
  | some (before, _) => do
    let token ← bytesAt payload begin before.length
    if token.isEmpty || 64 ≤ token.length then some ⟨none, false⟩
    else if !(← walkNumber token) then some ⟨none, false⟩
    -- The token and the zero behind it go into a buffer of 64 bytes.
    else if 64 < token.length + 1 then none
    else
      match DoubleOps.strtod (D := D) token with
      | (v, taken, erange) =>
        if taken ≠ token.length || !DoubleOps.isfinite v then some ⟨none, false⟩
        else if erange || DoubleOps.lt v kSpdMin || DoubleOps.lt kSpdMax v then some ⟨none, true⟩
        else some ⟨some v, false⟩

/-- The search loop of `find_spd`. -/
def walkSpdFrom (payload : Bytes) : ℕ → ℕ → Option (FoundSpd D)
  | 0, _ => none
  | fuel + 1, pos =>
    match findAnchor (payload.drop pos) with
    | none => some ⟨none, false⟩
    | some skipped => do
      let hit := pos + skipped
      let tail ← if 0 < hit then (payload[hit - 1]?).map isIdent else some false
      if tail then walkSpdFrom payload fuel (hit + 4) else walkSpdAt payload (hit + 4)

omit [DoubleOps D] in
private theorem walkNumber_eq {token : Bytes} (hne : token ≠ []) :
    walkNumber token = some (checkNumber token) := by
  obtain ⟨sign, unsigned, rfl, hunsigned⟩ := exists_sign token
  obtain ⟨c, rest, hcons⟩ := List.exists_cons_of_ne_nil hne
  -- the code steps over one byte if it is a sign
  have hsign : (if c = 43 ∨ c = 45 then 1 else 0) = sign.text.length := by
    cases sign with
    | plus => rw [if_pos (.inl (List.cons.inj hcons).1.symm)]; rfl
    | minus => rw [if_pos (.inr (List.cons.inj hcons).1.symm)]; rfl
    | absent =>
      obtain ⟨hplus, hminus⟩ := hunsigned rfl
      rw [show unsigned = c :: rest from hcons] at hplus hminus
      refine if_neg (not_or.mpr ⟨fun h ↦ hplus ?_, fun h ↦ hminus ?_⟩)
      · rw [h, List.head?_cons]
      · rw [h, List.head?_cons]
  have hlen : sign.text.length ≤ (sign.text ++ unsigned).length := by
    rw [List.length_append]
    omega
  rw [checkNumber_sign hunsigned, walkNumber, hcons, List.getElem?_cons_zero, ← hcons,
    Option.bind_eq_bind, Option.bind_some, hsign]
  dsimp only
  rw [skip_eq _ hlen (by omega), List.drop_left, Option.bind_eq_bind, Option.bind_some,
    checkUnsigned, Nat.add_sub_cancel_left, pointAt]
  have hbehind :
      (sign.text ++ unsigned).drop (sign.text.length + (unsigned.takeWhile isDigit).length)
      = unsigned.drop (unsigned.takeWhile isDigit).length := by
    rw [← List.drop_drop, List.drop_left]
  dsimp only
  -- behind the first digits the token ends, or there is a point, or something that may not be
  cases hdrop : unsigned.drop (unsigned.takeWhile isDigit).length with
  | nil =>
    rw [hdrop] at hbehind
    have hend := List.drop_eq_nil_iff.mp hbehind
    have hle := (List.takeWhile_prefix (l := unsigned) isDigit).length_le
    have hall : sign.text.length + (unsigned.takeWhile isDigit).length
        = (sign.text ++ unsigned).length := by
      rw [List.length_append] at hend ⊢
      omega
    rw [if_neg (Nat.not_lt.mpr hend), Option.bind_eq_bind, Option.bind_some,
      if_neg Bool.false_ne_true, hall]
    simp [bne]
  | cons d t =>
    obtain ⟨hget, hlt, hafter⟩ := getElem?_of_drop (hbehind.trans hdrop)
    have hlong := congrArg List.length hafter
    rw [List.length_drop] at hlong
    rw [if_pos hlt, hget, Option.map_some, Option.bind_eq_bind, Option.bind_some]
    by_cases hd : d = 46
    · subst hd
      have hle := (List.takeWhile_prefix (l := t) isDigit).length_le
      rw [if_pos (by decide), skip_eq (i := _ + 1) _ hlt (by omega), hafter,
        Option.bind_some, Nat.add_sub_cancel_left]
      congr 1
      rw [Bool.eq_iff_iff]
      simp only [Bool.not_eq_true', Bool.or_eq_false_iff, beq_eq_false_iff_ne, bne_eq_false_iff_eq,
        Bool.and_eq_true, bne_iff_ne, List.isEmpty_iff, List.drop_eq_nil_iff]
      omega
    · rw [if_neg (by simpa using hd)]
      split
      · rename_i heq
        exact absurd (List.cons.inj heq).1 hd
      · rw [bne_iff_ne.mpr (Nat.ne_of_lt hlt), Bool.or_true]
        simp

/-- The split of `memchr`. -/
theorem eq_of_memchr {c : UInt8} {s before after : Bytes} (h : memchr c s = some (before, after)) :
    s = before ++ c :: after := by
  by_cases hmem : c ∈ s
  · obtain ⟨before', after', rfl, hfirst⟩ := List.eq_append_cons_of_mem hmem
    rw [memchr_append_cons hfirst] at h
    obtain ⟨rfl, rfl⟩ := Prod.mk.inj (Option.some.inj h)
    rfl
  · rw [memchr_of_notMem hmem] at h
    cases h

private theorem walkSpdAt_eq (payload : Bytes) {begin : ℕ} (h : begin ≤ payload.length) :
    walkSpdAt payload begin = some (readSpd (D := D) (payload.drop begin)) := by
  rw [walkSpdAt, readSpd]
  cases hsplit : memchr 93 (payload.drop begin) with
  | none => rfl
  | some split =>
    obtain ⟨token, after⟩ := split
    have htext := eq_of_memchr hsplit
    have hlen := congrArg List.length htext
    rw [List.length_drop, List.length_append, List.length_cons] at hlen
    dsimp only
    rw [bytesAt_of_le (by omega), htext, List.take_left, Option.bind_eq_bind, Option.bind_some]
    by_cases hbad : (token.isEmpty || decide (64 ≤ token.length)) = true
    · rw [if_pos hbad, if_pos hbad]
    rw [if_neg hbad, if_neg hbad]
    rw [Bool.or_eq_true, not_or, List.isEmpty_iff, decide_eq_true_eq] at hbad
    rw [walkNumber_eq hbad.1, Option.bind_eq_bind, Option.bind_some,
      if_neg (show ¬ 64 < token.length + 1 by omega)]
    split_ifs <;> rfl

private theorem walkSpdFrom_eq {payload : Bytes} {fuel pos : ℕ} (hpos : pos ≤ payload.length)
    (hfuel : payload.length < pos + fuel) :
    walkSpdFrom payload fuel pos = some (findSpdFrom (D := D) payload fuel pos) := by
  induction fuel generalizing pos with
  | zero => omega
  | succ fuel ih =>
    rw [walkSpdFrom, findSpdFrom]
    cases hfind : findAnchor (payload.drop pos) with
    | none => rfl
    | some skipped =>
      have hlen := (findAnchor_some hfind).1.length_le
      rw [List.drop_drop, List.length_drop, show anchor.length = 4 from rfl] at hlen
      dsimp only
      rw [walkSpdAt_eq payload (by omega), ih (by omega) (by omega)]
      by_cases hhit : 0 < pos + skipped
      · have hlt : pos + skipped - 1 < payload.length := by omega
        rw [if_pos hhit, decide_eq_true hhit, Bool.true_and, charAt, List.getD_eq_getElem?_getD,
          List.getElem?_eq_getElem hlt, Option.map_some, Option.getD_some, Option.bind_eq_bind,
          Option.bind_some]
        split_ifs <;> rfl
      · rw [if_neg hhit, decide_eq_false hhit, Bool.false_and, Option.bind_eq_bind,
          Option.bind_some, if_neg Bool.false_ne_true, if_neg Bool.false_ne_true]

/-- `find_spd`. -/
def walkSpd (payload : Bytes) : Option (FoundSpd D) := walkSpdFrom payload (payload.length + 1) 0

/-- **The search ends**, without a read past the end. -/
theorem walkSpd_eq (payload : Bytes) : walkSpd payload = some (findSpd (D := D) payload) :=
  walkSpdFrom_eq (Nat.zero_le _) (by omega)

end Speed

/-! ## The line -/

/-- `digit2` at index `i`. -/
def walkDigit2 (s : Bytes) (i : ℕ) : Option ℕ := do
  let a ← s[i]?
  let b ← s[i + 1]?
  some ((a.toNat - 48) * 10 + (b.toNat - 48))

/-- `digit4` at index `i`. -/
def walkDigit4 (s : Bytes) (i : ℕ) : Option ℕ := do
  let a ← s[i]?
  let b ← s[i + 1]?
  let c ← s[i + 2]?
  let d ← s[i + 3]?
  some ((a.toNat - 48) * 1000 + (b.toNat - 48) * 100 + (c.toNat - 48) * 10 + (d.toNat - 48))

theorem getElem?_charAt {s : Bytes} {i : ℕ} (h : i < s.length) : s[i]? = some (charAt s i) := by
  rw [charAt, List.getD_eq_getElem?_getD, List.getElem?_eq_getElem h, Option.getD_some]

theorem charAt_drop (s : Bytes) (i j : ℕ) : charAt (s.drop i) j = charAt s (i + j) := by
  rw [charAt, charAt, List.getD_eq_getElem?_getD, List.getD_eq_getElem?_getD, List.getElem?_drop]

private theorem walkDigit2_eq {s : Bytes} {i : ℕ} (h : i + 1 < s.length) :
    walkDigit2 s i = some (digit2 (s.drop i)) := by
  rw [walkDigit2, getElem?_charAt (Nat.lt_of_succ_lt h), getElem?_charAt h, digit2, digitAt,
    digitAt, charAt_drop, charAt_drop]
  rfl

private theorem walkDigit4_eq {s : Bytes} {i : ℕ} (h : i + 3 < s.length) :
    walkDigit4 s i = some (digit4 (s.drop i)) := by
  rw [walkDigit4, getElem?_charAt (show i < _ by omega), getElem?_charAt (show i + 1 < _ by omega),
    getElem?_charAt (show i + 2 < _ by omega), getElem?_charAt h, digit4, digitAt, digitAt, digitAt,
    digitAt, charAt_drop, charAt_drop, charAt_drop, charAt_drop]
  rfl

section Parse

variable {D : Type} [DoubleOps D]

/-- The calendar and the payload, which begins at index `i`. -/
def walkCalendar (line : Bytes) (i : ℕ) (out : ParsedLine D) : Option (Reason × ParsedLine D) := do
  let year ← walkDigit4 line 1
  let month ← walkDigit2 line 6
  let day ← walkDigit2 line 9
  let hour ← walkDigit2 line 12
  if month < 1 || 12 < month || day < 1 || 31 < day || 23 < hour then some (.badTimestamp, out)
  else do
    let payload ← bytesAt line i (line.length - i)
    let found ← walkSpd payload
    some (.ok, { out with bucket := year * 1000000 + month * 10000 + day * 100 + hour
                          hasSpd := found.value.isSome
                          spd := found.value.getD out.spd
                          spdOutOfRange := found.outOfRange })

/-- The module, whose name begins at index `begin`. -/
def walkNamed (s : Bytes) (begin : ℕ) : Option (Reason × ParsedLine D) := do
  let i ← skip isIdent s (s.length + 1) begin
  if i - begin = 0 ∨ s.length ≤ i + 1 then some (.badModuleName, .empty)
  else do
    let c ← s[i]?
    if c ≠ 58 then some (.badModuleName, .empty)
    else do
      let d ← s[i + 1]?
      if d ≠ 32 then some (.badModuleName, .empty)
      else do
        let token ← bytesAt s begin (i - begin)
        let module ← walkLookup token
        match module with
        | none => some (.unknownModule, { ParsedLine.empty with moduleToken := token })
        | some module =>
          walkCalendar s (i + 2) { ParsedLine.empty with moduleToken := token, module := module }

/-- The tag, from index `i` on. -/
def walkTagged (line : Bytes) (i : ℕ) : Option (Reason × ParsedLine D) :=
  if line.length < i + 7 then some (.missingBydaTag, .empty)
  else do
    let tag ← bytesAt line i 7
    if tag ≠ bydaTag then some (.missingBydaTag, .empty) else walkNamed line (i + 7)

/-- `parse_log_line`. -/
def walkLogLine (s : Bytes) : Option (Reason × ParsedLine D) :=
  if s.length < kMinLineLength then
    if s.isEmpty then some (.tooShort, .empty)
    else do
      let c ← s[0]?
      some (if c ≠ 91 then .missingOpenBracket else .tooShort, .empty)
  else do
    let c ← s[0]?
    if c ≠ 91 then some (.missingOpenBracket, .empty)
    else do
      let good ← walkTimestamp s stampShape 0
      if !good then some (.badTimestamp, .empty)
      else do
        let fields ← walkFields s (kTsEnd + 1)
        match fields with
        | .error reason => some (reason, .empty)
        | .ok i => walkTagged s i

section Stages

variable {stamp line : Bytes} (hbegins : stamp <+: line) (hstamp : stamp.length = kTsEnd + 1)

include hbegins hstamp

private theorem walkCalendar_eq {i : ℕ} {payload : Bytes} (hi : line.drop i = payload)
    (hle : i ≤ line.length) (out : ParsedLine D) :
    walkCalendar line i out = some (
      if ¬ InCalendar stamp then (.badTimestamp, out)
      else
        (.ok, { out with bucket := ExactDouble.natOfDigits (yearOf stamp ++ monthOf stamp
                           ++ dayOf stamp ++ hourOf stamp)
                         hasSpd := (findSpd (D := D) payload).value.isSome
                         spd := (findSpd (D := D) payload).value.getD out.spd
                         spdOutOfRange := (findSpd (D := D) payload).outOfRange })) := by
  have hlen := hbegins.length_le
  rw [hstamp, kTsEnd] at hlen
  obtain ⟨behind, rfl⟩ := hbegins
  obtain ⟨hyear, hmonth, hday, hhour⟩ := digits_of_stamp hstamp behind
  rw [walkCalendar, walkDigit4_eq (by omega), walkDigit2_eq (by omega), walkDigit2_eq (by omega),
    walkDigit2_eq (by omega), hyear, hmonth, hday, hhour]
  simp only [Option.bind_eq_bind, Option.bind_some, outside_eq, natOfDigits_hour hstamp]
  rw [bytesAt_of_le (by omega), hi, ← List.length_drop, hi, List.take_length, Option.bind_some,
    walkSpd_eq, Option.bind_some]
  split_ifs <;> rfl

private theorem walkNamed_eq {begin : ℕ} {s : Bytes} (hbegin : line.drop begin = s)
    (hle : begin ≤ line.length) :
    walkNamed line begin = some (parseNamed D stamp s) := by
  have hlen := congrArg List.length hbegin
  rw [List.length_drop] at hlen
  rw [walkNamed, skip_eq _ hle (by omega), hbegin, Option.bind_eq_bind, Option.bind_some,
    Nat.add_sub_cancel_left]
  -- the name ends at the end of the line, or at a byte `c` that is not of a name
  rcases takeWhile_cases isIdent s with hall | ⟨token, c, after, rfl, htoken, hc⟩
  · rw [takeWhile_of_all hall, if_pos (.inr (by omega))]
    have hbad := parseNamed_of_no_colon (D := D) stamp hall (by simp)
      (show ¬ ascii ": " <+: [] by decide)
    rw [List.append_nil] at hbad
    rw [hbad]
  have hend : ∀ d ∈ (c :: after).head?, isIdent d = false := by simpa using hc
  have hbehind : line.drop (begin + token.length) = c :: after := by
    rw [← List.drop_drop, hbegin, List.drop_left]
  obtain ⟨hget, hlt, hafter⟩ := getElem?_of_drop hbehind
  have hbad : ¬ ascii ": " <+: c :: after →
      parseNamed D stamp (token ++ c :: after) = (.badModuleName, .empty) :=
    parseNamed_of_no_colon stamp htoken hend
  rw [takeWhile_append_cons htoken hc]
  by_cases hshort : token.length = 0 ∨ line.length ≤ begin + token.length + 1
  · rw [if_pos hshort]
    by_cases hcolon : ascii ": " <+: c :: after
    · obtain ⟨payload, hpayload⟩ := hcolon
      rw [← hpayload] at hlen ⊢
      rcases hshort with hzero | hend'
      · rw [List.length_eq_zero_iff.mp hzero]
        rfl
      · simp [ascii] at hlen
        omega
    · rw [hbad hcolon]
  rw [if_neg hshort, hget, Option.bind_eq_bind, Option.bind_some]
  rw [not_or] at hshort
  -- the code looks at the colon and at the space one after the other
  by_cases hcolon : c = 58
  swap
  · rw [if_pos hcolon, hbad]
    rintro ⟨payload, hpayload⟩
    exact hcolon (List.cons.inj hpayload).1.symm
  obtain ⟨d, payload, rfl⟩ : ∃ d payload, after = d :: payload := by
    refine List.exists_cons_of_length_pos ?_
    rw [List.length_append, List.length_cons] at hlen
    omega
  obtain ⟨hget', -, hpayload⟩ := getElem?_of_drop hafter
  rw [if_neg (not_not.mpr hcolon), hget', Option.bind_some]
  by_cases hspace : d = 32
  swap
  · rw [if_pos hspace, hbad]
    rintro ⟨payload', hpayload'⟩
    exact hspace (List.cons.inj (List.cons.inj hpayload').2).1.symm
  subst hcolon hspace
  -- both are there, so the name is looked up
  have htoken' : (line.drop begin).take token.length = token := by
    rw [hbegin, List.take_left]
  rw [if_neg (not_not.mpr rfl), bytesAt_of_le (by omega), htoken', Option.bind_eq_bind,
    Option.bind_some, walkLookup_eq, Option.bind_eq_bind, Option.bind_some]
  have hparse := parseNamed_token (D := D) stamp (mt List.length_eq_zero_iff.mpr hshort.1) htoken
    payload
  rw [List.append_assoc] at hparse
  refine Eq.trans ?_ (congrArg some hparse.symm)
  cases lookupModule token with
  | none => rfl
  | some module =>
    dsimp only
    rw [walkCalendar_eq hbegins hstamp hpayload (by omega)]
    rfl

private theorem walkTagged_eq {i : ℕ} {s : Bytes} (hi : line.drop i = s) (hle : i ≤ line.length) :
    walkTagged line i = some (
      if !bydaTag.isPrefixOf s then (.missingBydaTag, .empty)
      else parseNamed D stamp (s.drop 7)) := by
  have hlen := congrArg List.length hi
  rw [List.length_drop] at hlen
  rw [walkTagged]
  by_cases htag : bydaTag <+: s
  · have hfits := htag.length_le
    rw [show bydaTag.length = 7 from rfl] at hfits
    have htake : s.take 7 = bydaTag := (List.prefix_iff_eq_take.mp htag).symm
    rw [if_neg (by omega), bytesAt_of_le (by omega), hi, htake, Option.bind_eq_bind,
      Option.bind_some, if_neg (by decide), List.isPrefixOf_iff_prefix.mpr htag,
      if_neg (by decide)]
    refine walkNamed_eq hbegins hstamp ?_ (by omega)
    rw [← List.drop_drop, hi]
  · rw [Bool.eq_false_iff.mpr (mt List.isPrefixOf_iff_prefix.mp htag),
      if_pos (show (!false) = true from rfl)]
    by_cases hshort : line.length < i + 7
    · rw [if_pos hshort]
    · rw [if_neg hshort, bytesAt_of_le (by omega), hi, Option.bind_eq_bind, Option.bind_some,
        if_pos]
      exact fun heq ↦ htag (heq ▸ List.take_prefix 7 s)

end Stages

/-- **The code reads nothing past the end** of a line, whatever the line is, and comes to what
`parseLogLine` says. -/
theorem walkLogLine_eq (line : Bytes) :
    walkLogLine line = some (parseLogLine (D := D) line) := by
  rw [walkLogLine]
  by_cases hshort : line.length < kMinLineLength
  · rw [if_pos hshort, parseLogLine, if_pos hshort]
    cases line with
    | nil => rfl
    | cons c line =>
      rw [show charAt (c :: line) 0 = c from rfl, List.isEmpty_cons, if_neg Bool.false_ne_true,
        List.getElem?_cons_zero, Option.bind_eq_bind, Option.bind_some, if_neg Bool.false_ne_true]
      simp only [bne_iff_ne]
  have hlong := Nat.not_lt.mp hshort
  have hpos : 0 < line.length := Nat.lt_of_lt_of_le (by decide) hlong
  have hts : kTsEnd + 1 ≤ line.length := Nat.le_trans (by decide) hlong
  rw [if_neg hshort, getElem?_charAt hpos, Option.bind_eq_bind, Option.bind_some]
  by_cases hopen : charAt line 0 = 91
  swap
  · rw [if_pos hopen, parseLogLine_of_unopened hlong hopen]
  rw [if_neg (not_not.mpr hopen), walkTimestamp_eq (by rw [Nat.zero_add]; exact hts),
    List.drop_zero, length_stampShape, Option.bind_eq_bind, Option.bind_some,
    ← checkTimestamp_eq hts]
  cases hcheck : checkTimestamp line with
  | false =>
    rw [if_pos (by decide), parseLogLine_of_unstamped hlong hopen hcheck]
  | true =>
    rw [if_neg (by decide), walkFields_eq, Option.bind_eq_bind, Option.bind_some]
    rw [checkTimestamp_eq hts] at hcheck
    obtain ⟨stamp, s, rfl, hstamp⟩ : ∃ stamp s, line = stamp ++ s ∧ stamp.length = kTsEnd + 1 :=
      ⟨_, _, (List.take_append_drop (kTsEnd + 1) line).symm, List.length_take_of_le hts⟩
    rw [List.take_left' hstamp] at hcheck
    rw [parseLogLine_stamp hcheck hlong, parseStamped, List.drop_left' hstamp]
    cases hfields : parseFields s with
    | error reason => rfl
    | ok after =>
      obtain ⟨pid, tid, seq, rfl⟩ := exists_text_of_parseFields hfields
      have hsuffix : after <:+ stamp ++ (pid.text ++ tid.text ++ seq.text ++ after) :=
        (List.suffix_append _ after).trans (List.suffix_append stamp _)
      exact walkTagged_eq (List.prefix_append ..) hstamp (List.suffix_iff_eq_drop.mp hsuffix).symm
        (Nat.sub_le ..)

/-- **The lines that are accepted are the lines of the grammar**, the module and the hour are those
of the header, and no read goes past the end of any line. -/
theorem parseLogLine_grammar (line : Bytes) :
    ((parseLogLine (D := D) line).1 = .ok ↔
      ∃ (h : LogHeader) (payload : Bytes), line = h.text ++ payload) ∧
    (∀ (h : LogHeader) (payload : Bytes),
      (parseLogLine (D := D) (h.text ++ payload)).2.module = h.module ∧
      (parseLogLine (D := D) (h.text ++ payload)).2.bucket = h.bucket) ∧
    walkLogLine line = some (parseLogLine (D := D) line) := by
  refine ⟨⟨fun hok ↦ ?_, ?_⟩, fun h payload ↦ ?_, walkLogLine_eq line⟩
  · have hparse : parseLogLine line = (.ok, (parseLogLine (D := D) line).2) := Prod.ext hok rfl
    obtain ⟨h, payload, hline, -⟩ := parseLogLine_eq_ok_iff.mp hparse
    exact ⟨h, payload, hline⟩
  · rintro ⟨h, payload, rfl⟩
    rw [parseLogLine_text]
  · rw [parseLogLine_text]
    exact ⟨rfl, rfl⟩

end Parse

/-- **The speed of an accepted line is what the rule says** of its payload: the rule says one thing,
the search comes to an end with it, and it is in the fields. -/
theorem parseLogLine_speed {line : Bytes} (hok : (parseLogLine (D := ℚ) line).1 = .ok) :
    ∃ (h : LogHeader) (payload : Bytes) (found : FoundSpd ℚ), line = h.text ++ payload ∧
      (∀ r, SpeedRule payload r ↔ r = found) ∧
      walkSpd payload = some found ∧
      (parseLogLine (D := ℚ) line).2.hasSpd = found.value.isSome ∧
      (∀ v ∈ found.value, (parseLogLine (D := ℚ) line).2.spd = v) ∧
      (parseLogLine (D := ℚ) line).2.spdOutOfRange = found.outOfRange := by
  obtain ⟨h, payload, rfl⟩ := (parseLogLine_grammar line).1.mp hok
  refine ⟨h, payload, findSpd payload, rfl, fun r ↦ ?_, walkSpd_eq payload, ?_⟩
  · rw [speedRule_iff]
    exact eq_comm
  · rw [parseLogLine_text]
    refine ⟨rfl, fun v hv ↦ ?_, rfl⟩
    rw [LogHeader.parsed, hv]
    rfl

/-- The speed of one line. -/
theorem parseLogLine_speed_line :
    (parseLogLine (D := ℚ) (ascii
      "[2024-05-01_13:20:31.123456][1][22][333] BYDA::RadarTrackNodeState: spd[12.5]")).1 = .ok ∧
    ∃ (h : LogHeader) (payload : Bytes) (found : FoundSpd ℚ), ascii
        "[2024-05-01_13:20:31.123456][1][22][333] BYDA::RadarTrackNodeState: spd[12.5]"
        = h.text ++ payload ∧
      (∀ r, SpeedRule payload r ↔ r = found) ∧
      walkSpd payload = some found := by
  have hok : (parseLogLine (D := ℚ) (ascii
      "[2024-05-01_13:20:31.123456][1][22][333] BYDA::RadarTrackNodeState: spd[12.5]")).1
        = .ok := by
    decide
  obtain ⟨h, payload, found, hline, hrule, hwalk, -⟩ := parseLogLine_speed hok
  exact ⟨hok, h, payload, found, hline, hrule, hwalk⟩

end LoggerAnalyzer
