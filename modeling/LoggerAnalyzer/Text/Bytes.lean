import Mathlib.Data.List.Basic
import Mathlib.Data.Nat.Notation

/-!
# Byte strings

Files, wire buffers and CSV text are all the same thing to the program: sequences of bytes. They
are modelled as lists, `std::string`, `std::string_view` and `std::vector<std::uint8_t>` alike, and
a text literal of the source enters as `ascii "…"`.

`memchr` is modelled by the split it is used for: the bytes before the first occurrence and those
after it. A pointer difference in the source is then a length here.
-/

namespace LoggerAnalyzer

/-- A sequence of bytes. -/
abbrev Bytes := List UInt8

/-- The bytes of a string literal all of whose characters are below 256. -/
def ascii (s : String) : Bytes := s.toList.map fun c ↦ UInt8.ofNat c.toNat

/-- `'\n'`. -/
def newline : UInt8 := 10

/-- `'\r'`. -/
def carriageReturn : UInt8 := 13

/-- `"%llu"`: a counter in decimal. -/
def decimal (n : ℕ) : Bytes := (Nat.toDigits 10 n).map fun c ↦ UInt8.ofNat c.toNat

/-- `is_digit`: whether a byte is one of `'0'` to `'9'`. -/
def isDigit (c : UInt8) : Bool := 48 ≤ c && c ≤ 57

/-- What is said of the bytes of a string is decided by going through the string. -/
instance (priority := high) decidableForallMem {p : UInt8 → Prop} [DecidablePred p] (s : Bytes) :
    Decidable (∀ b ∈ s, p b) := List.decidableBAll p s

/-- There are 256 bytes. -/
theorem forall_byte {p : UInt8 → Prop} (h : ∀ n < 256, p (UInt8.ofNat n)) (b : UInt8) : p b := by
  have hb := h b.toNat b.toNat_lt
  rwa [UInt8.ofNat_toNat] at hb

/-! ## Searching for a byte -/

/-- `memchr`: the bytes before the first `c` and the bytes after it. -/
def memchr (c : UInt8) : Bytes → Option (Bytes × Bytes)
  | [] => none
  | b :: bs =>
    if b = c then some ([], bs) else (memchr c bs).map fun (before, after) ↦ (b :: before, after)

theorem memchr_of_notMem {c : UInt8} {xs : Bytes} (h : c ∉ xs) : memchr c xs = none := by
  induction xs with
  | nil => rfl
  | cons b bs ih =>
    rw [List.mem_cons, not_or] at h
    rw [memchr, if_neg (Ne.symm h.1), ih h.2, Option.map_none]

theorem memchr_append_cons {c : UInt8} {before : Bytes} (h : c ∉ before) (after : Bytes) :
    memchr c (before ++ c :: after) = some (before, after) := by
  induction before with
  | nil => rw [List.nil_append, memchr, if_pos rfl]
  | cons b bs ih =>
    rw [List.mem_cons, not_or] at h
    rw [List.cons_append, memchr, if_neg (Ne.symm h.1), ih h.2, Option.map_some]

/-! ## Decimal printing -/

/-- The digits are read back from the bytes, so a printed counter shows its value. -/
theorem decimal_chars (n : ℕ) :
    (decimal n).map (fun b ↦ Char.ofNat b.toNat) = Nat.toDigits 10 n := by
  rw [decimal, List.map_map]
  refine (List.map_congr_left fun c hc ↦ ?_).trans (List.map_id _)
  have hdigit := Nat.isDigit_of_mem_toDigits (by decide) (by decide) hc
  simp only [Char.isDigit, Bool.and_eq_true, decide_eq_true_eq] at hdigit
  have hle : c.toNat ≤ 57 := hdigit.2
  rw [Function.comp_apply, UInt8.toNat_ofNat', Nat.mod_eq_of_lt (by omega), Char.ofNat_toNat, id]

theorem isDigit_of_mem_decimal {n : ℕ} {b : UInt8} (h : b ∈ decimal n) : isDigit b = true := by
  obtain ⟨c, hc, rfl⟩ := List.mem_map.mp h
  have hdigit := Nat.isDigit_of_mem_toDigits (by decide) (by decide) hc
  simp only [Char.isDigit, Bool.and_eq_true, decide_eq_true_eq] at hdigit
  have hge : 48 ≤ c.toNat := hdigit.1
  have hle : c.toNat ≤ 57 := hdigit.2
  have hnat : (UInt8.ofNat c.toNat).toNat = c.toNat := by
    rw [UInt8.toNat_ofNat', Nat.mod_eq_of_lt (by omega)]
  simp only [isDigit, Bool.and_eq_true, decide_eq_true_eq, UInt8.le_iff_toNat_le, hnat]
  exact ⟨hge, hle⟩

theorem decimal_injective : Function.Injective decimal := by
  intro m n h
  have hchars : Nat.toDigits 10 m = Nat.toDigits 10 n := by
    rw [← decimal_chars, h, decimal_chars]
  rw [← Nat.ofDigitChars_ten_toDigits (n := m), hchars, Nat.ofDigitChars_ten_toDigits]

end LoggerAnalyzer
