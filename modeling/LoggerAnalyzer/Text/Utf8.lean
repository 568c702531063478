import LoggerAnalyzer.Text.Bytes

/-!
# UTF-8

The C# client keeps text as strings, which are modelled by their UTF-8 form. Then encoding a string
changes nothing, and `getString`, the decoder, changes what is not well formed. It is the decoder of
the .NET Framework: a sequence that breaks off becomes one replacement character, and the byte at
which it does is looked at again, unless it has the form of a byte that continues a sequence. Such a
byte is outside of its bounds only where it is the second one, and it is replaced with the first.
-/

namespace LoggerAnalyzer

/-- U+FFFD. -/
def replacement : Bytes := [0xEF, 0xBF, 0xBD]

/-- The bounds of the bytes that have to follow the first byte of a sequence. -/
def utf8Tail (first : UInt8) : Option (List (UInt8 × UInt8)) :=
  let any : UInt8 × UInt8 := (0x80, 0xBF)
  if first < 0x80 then some []
  else if first < 0xC2 then none
  else if first < 0xE0 then some [any]
  else if first = 0xE0 then some [(0xA0, 0xBF), any]
  else if first = 0xED then some [(0x80, 0x9F), any]
  else if first < 0xF0 then some [any, any]
  else if first = 0xF0 then some [(0x90, 0xBF), any, any]
  else if first < 0xF4 then some [any, any, any]
  else if first = 0xF4 then some [(0x80, 0x8F), any, any]
  else none

/-- A byte that continues a sequence has the form `10xxxxxx`. -/
def continues (b : UInt8) : Bool := 0x80 ≤ b && b ≤ 0xBF

/-- The bytes at the front that continue a sequence, if they are all there, and what is left. -/
def takeTail : List (UInt8 × UInt8) → Bytes → Option Bytes × Bytes
  | [], bs => (some [], bs)
  | _ :: _, [] => (none, [])
  | (least, greatest) :: bounds, b :: bs =>
    if least ≤ b ∧ b ≤ greatest then
      let rest := takeTail bounds bs
      (rest.1.map (b :: ·), rest.2)
    else (none, if continues b then bs else b :: bs)

/-- The loop of `getString`. The fuel is the number of bytes. -/
def getStringLoop : ℕ → Bytes → Bytes
  | 0, _ => []
  | _ + 1, [] => []
  | fuel + 1, b :: bs =>
    match utf8Tail b with
    | none => replacement ++ getStringLoop fuel bs
    | some bounds =>
      let tail := takeTail bounds bs
      (tail.1.map (b :: ·)).getD replacement ++ getStringLoop fuel tail.2

/-- `Encoding.UTF8.GetString`. -/
def getString (bs : Bytes) : Bytes := getStringLoop bs.length bs

/-! ## ASCII -/

theorem suffix_takeTail (bounds : List (UInt8 × UInt8)) (bs : Bytes) :
    (takeTail bounds bs).2 <:+ bs := by
  induction bounds generalizing bs with
  | nil => exact List.suffix_refl bs
  | cons r bounds ih =>
    obtain _ | ⟨b, bs⟩ := bs
    · exact List.suffix_refl []
    · rw [takeTail]
      split_ifs
      · exact (ih bs).trans (List.suffix_cons b bs)
      · exact List.suffix_cons b bs
      · exact List.suffix_refl _

theorem length_takeTail_le (bounds : List (UInt8 × UInt8)) (bs : Bytes) :
    (takeTail bounds bs).2.length ≤ bs.length := (suffix_takeTail bounds bs).length_le

/-- More fuel than bytes changes nothing. -/
theorem getStringLoop_eq {fuel : ℕ} {bs : Bytes} (h : bs.length ≤ fuel) :
    getStringLoop fuel bs = getString bs := by
  have hfuel : ∀ (fuel fuel' : ℕ) (bs : Bytes), bs.length ≤ fuel → bs.length ≤ fuel' →
      getStringLoop fuel bs = getStringLoop fuel' bs := by
    intro fuel
    induction fuel with
    | zero =>
      intro fuel' bs hle _
      obtain rfl := List.length_eq_zero_iff.mp (Nat.le_zero.mp hle)
      cases fuel' <;> rfl
    | succ fuel ih =>
      intro fuel' bs hle hle'
      obtain _ | ⟨b, bs⟩ := bs
      · cases fuel' <;> rfl
      · obtain _ | fuel' := fuel'
        · exact absurd hle' (Nat.not_succ_le_zero _)
        rw [List.length_cons] at hle hle'
        rw [getStringLoop, getStringLoop]
        cases utf8Tail b with
        | none => exact congrArg (replacement ++ ·) (ih fuel' bs (by omega) (by omega))
        | some bounds =>
          have hleft := length_takeTail_le bounds bs
          dsimp only
          rw [ih fuel' _ (by omega) (by omega)]
  exact hfuel _ _ bs h (Nat.le_refl _)

@[simp] theorem getString_nil : getString [] = [] := rfl

theorem getString_cons (b : UInt8) (bs : Bytes) :
    getString (b :: bs) = match utf8Tail b with
      | none => replacement ++ getString bs
      | some bounds => ((takeTail bounds bs).1.map (b :: ·)).getD replacement
          ++ getString (takeTail bounds bs).2 := by
  rw [getString, List.length_cons, getStringLoop]
  cases utf8Tail b with
  | none => rfl
  | some bounds =>
    dsimp only
    rw [getStringLoop_eq (length_takeTail_le bounds bs)]

private theorem utf8Tail_of_lt {a : UInt8} (ha : a < 0x80) : utf8Tail a = some [] := by
  rw [utf8Tail, if_pos ha]

/-- ASCII stands for itself. -/
theorem getString_ascii_cons {a : UInt8} (ha : a < 0x80) (bs : Bytes) :
    getString (a :: bs) = a :: getString bs := by
  rw [getString_cons, utf8Tail_of_lt ha]
  rfl

/-- The bytes that may follow are none below 128. -/
theorem utf8Tail_bounds {b : UInt8} {bounds : List (UInt8 × UInt8)} (h : utf8Tail b = some bounds) :
    ∀ r ∈ bounds, (0x80 : UInt8) ≤ r.1 := by
  have hall : bounds.all (fun r ↦ decide (0x80 ≤ r.1)) = true := by
    rw [utf8Tail] at h
    split_ifs at h <;>
      (obtain rfl := Option.some.inj h
       decide)
  exact fun r hr ↦ of_decide_eq_true (List.all_eq_true.mp hall r hr)

private theorem continues_of_lt {a : UInt8} (ha : a < 0x80) : continues a = false := by
  rw [continues, decide_eq_false, Bool.false_and]
  rw [UInt8.le_iff_toNat_le]
  rw [UInt8.lt_iff_toNat_lt] at ha
  omega

/-- A byte below 128 ends whatever there was before it. -/
theorem takeTail_append {bounds : List (UInt8 × UInt8)}
    (hbounds : ∀ r ∈ bounds, (0x80 : UInt8) ≤ r.1) {a : UInt8} (ha : a < 0x80) (bs after : Bytes) :
    takeTail bounds (bs ++ a :: after)
      = ((takeTail bounds bs).1, (takeTail bounds bs).2 ++ a :: after) := by
  induction bounds generalizing bs with
  | nil => rfl
  | cons r bounds ih =>
    rw [List.forall_mem_cons] at hbounds
    obtain _ | ⟨b, bs⟩ := bs
    · rw [List.nil_append, takeTail, takeTail, if_neg, continues_of_lt ha]
      · rfl
      · rintro ⟨hle, -⟩
        have hge := hbounds.1
        rw [UInt8.le_iff_toNat_le] at hle hge
        rw [UInt8.lt_iff_toNat_lt] at ha
        omega
    · rw [List.cons_append, takeTail, takeTail, ih hbounds.2]
      split_ifs
      · rfl
      · rfl
      · rfl

/-- What is around an ASCII byte is decoded by itself. -/
theorem getString_append_cons {a : UInt8} (ha : a < 0x80) (bs after : Bytes) :
    getString (bs ++ a :: after) = getString bs ++ a :: getString after := by
  induction hlen : bs.length using Nat.strongRecOn generalizing bs with
  | _ n ih =>
    obtain _ | ⟨b, bs⟩ := bs
    · exact getString_ascii_cons ha after
    rw [List.length_cons] at hlen
    rw [List.cons_append, getString_cons, getString_cons]
    cases htail : utf8Tail b with
    | none =>
      dsimp only
      rw [ih bs.length (by omega) bs rfl, List.append_assoc]
    | some bounds =>
      have hleft := length_takeTail_le bounds bs
      dsimp only
      rw [takeTail_append (utf8Tail_bounds htail) ha, ih _ (by omega) _ rfl, List.append_assoc]

private theorem mem_of_mem_takeTail {bounds : List (UInt8 × UInt8)} {bs tail : Bytes} {a : UInt8}
    (htail : (takeTail bounds bs).1 = some tail) (h : a ∈ tail) : a ∈ bs := by
  induction bounds generalizing bs tail with
  | nil =>
    obtain rfl := Option.some.inj htail
    exact absurd h List.not_mem_nil
  | cons r bounds ih =>
    obtain _ | ⟨b, bs⟩ := bs
    · cases htail
    rw [takeTail] at htail
    split_ifs at htail
    obtain ⟨more, hmore, rfl⟩ := Option.map_eq_some_iff.mp htail
    rcases List.mem_cons.mp h with rfl | h
    · exact List.mem_cons_self
    · exact List.mem_cons_of_mem b (ih hmore h)

/-- The decoder makes no ASCII byte up. -/
theorem mem_of_mem_getString {a : UInt8} (ha : a < 0x80) {bs : Bytes} (h : a ∈ getString bs) :
    a ∈ bs := by
  have hreplacement : a ∉ replacement := fun hmem ↦ by
    rw [replacement, List.mem_cons, List.mem_cons, List.mem_singleton] at hmem
    rcases hmem with rfl | rfl | rfl <;> exact absurd ha (by decide)
  induction hlen : bs.length using Nat.strongRecOn generalizing bs with
  | _ n ih =>
    obtain _ | ⟨b, bs⟩ := bs
    · exact absurd h List.not_mem_nil
    rw [List.length_cons] at hlen
    rw [getString_cons] at h
    -- a byte that begins nothing is replaced, and so is one whose sequence is broken off
    cases htail : utf8Tail b with
    | none =>
      rw [htail, List.mem_append] at h
      rcases h with h | h
      · exact absurd h hreplacement
      · exact List.mem_cons_of_mem b (ih bs.length (by omega) h rfl)
    | some bounds =>
      have hleft := length_takeTail_le bounds bs
      rw [htail, List.mem_append] at h
      rcases h with h | h
      · cases htake : (takeTail bounds bs).1 with
        | none =>
          rw [htake] at h
          exact absurd h hreplacement
        | some tail =>
          rw [htake] at h
          rcases List.mem_cons.mp h with rfl | h
          · exact List.mem_cons_self
          · exact List.mem_cons_of_mem b (mem_of_mem_takeTail htake h)
      · exact List.mem_cons_of_mem b ((suffix_takeTail bounds bs).mem (ih _ (by omega) h rfl))

/-- What follows ASCII text is decoded by itself. -/
theorem getString_ascii_append {text : Bytes} (h : ∀ b ∈ text, b < 0x80) (bs : Bytes) :
    getString (text ++ bs) = text ++ getString bs := by
  induction text with
  | nil => rfl
  | cons b text ih =>
    rw [List.forall_mem_cons] at h
    rw [List.cons_append, getString_ascii_cons h.1, ih h.2, List.cons_append]

/-- **Text in ASCII is unchanged.** -/
theorem getString_of_ascii {bs : Bytes} (h : ∀ b ∈ bs, b < 0x80) : getString bs = bs := by
  have happend := getString_ascii_append h []
  rwa [List.append_nil, getString_nil, List.append_nil] at happend

/-- A text that begins with ASCII begins with it after it is decoded, and the other way round. -/
theorem prefix_getString_iff (text : Bytes) (h : ∀ b ∈ text, b < 0x80) (bs : Bytes) :
    text <+: getString bs ↔ text <+: bs := by
  induction text generalizing bs with
  | nil => exact iff_of_true List.nil_prefix List.nil_prefix
  | cons a text ih =>
    rw [List.forall_mem_cons] at h
    obtain _ | ⟨b, bs⟩ := bs
    · rfl
    by_cases hb : b < 0x80
    · rw [getString_ascii_cons hb, List.cons_prefix_cons, List.cons_prefix_cons, ih h.2]
    · have hne : a ≠ b := fun heq ↦ hb (heq ▸ h.1)
      have hfirst : ∃ c rest, getString (b :: bs) = c :: rest ∧ a ≠ c := by
        have hreplacement : a ≠ 0xEF := fun heq ↦ absurd h.1 (heq ▸ by decide)
        rw [getString_cons]
        cases utf8Tail b with
        | none => exact ⟨0xEF, _, rfl, hreplacement⟩
        | some bounds =>
          dsimp only
          cases (takeTail bounds bs).1 with
          | none => exact ⟨0xEF, _, rfl, hreplacement⟩
          | some tail => exact ⟨b, _, rfl, hne⟩
      obtain ⟨c, rest, heq, hc⟩ := hfirst
      rw [heq, List.cons_prefix_cons, List.cons_prefix_cons]
      exact iff_of_false (fun hboth ↦ hc hboth.1) fun hboth ↦ hne hboth.1

/-- Two characters of two bytes, the second one cut off. -/
example : getString [0xC3, 0xA9, 0xC3, 0x2C] = [0xC3, 0xA9, 0xEF, 0xBF, 0xBD, 0x2C] := by decide

/-- The three bytes of a surrogate: the first two are replaced together. -/
example : getString [0xED, 0xA0, 0x90] = replacement ++ replacement := by decide

end LoggerAnalyzer
