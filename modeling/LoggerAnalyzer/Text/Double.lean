import LoggerAnalyzer.Text.Bytes
import Mathlib.Data.Rat.Floor

/-!
# Arithmetic of `double`

The program averages speeds in `double`. Nothing that is proved about it depends on how a `double`
rounds, so the type is a parameter: `DoubleOps D` lists the operations the code uses, and the model
is written over any such `D`. The rational numbers, where every operation is exact, are an instance.
-/

namespace LoggerAnalyzer

/-- The operations on `double` that the program uses. -/
class DoubleOps (D : Type) extends Add D, Sub D, Mul D, Div D where
  /-- A numeral, or the conversion of an integer. -/
  ofNat : ℕ → D
  fabs : D → D
  lt : D → D → Bool
  le : D → D → Bool
  isfinite : D → Bool
  /-- `strtod`: the value, the number of bytes taken, and whether `errno` became `ERANGE`. -/
  strtod : Bytes → D × ℕ × Bool
  /-- The text of `%.nf`. -/
  fixed : ℕ → D → Bytes

/-- `snprintf` into a buffer of `size` bytes: what does not fit beside the terminating zero is cut
off. -/
def snprintf (size : ℕ) (text : Bytes) : Bytes := text.take (size - 1)

/-- A character of what `printf` writes for a number: a digit, a sign, a point, or one of those in
the names of the values that are none. -/
def isNumberChar (b : UInt8) : Bool :=
  isDigit b || (65 ≤ b && b ≤ 90) || (97 ≤ b && b ≤ 122) || [40, 41, 43, 45, 46, 95].contains b

/-- `printf` writes numbers. -/
class PrintsNumbers (D : Type) [DoubleOps D] : Prop where
  isNumberChar_of_fixed : ∀ {n : ℕ} {x : D} {b : UInt8}, b ∈ DoubleOps.fixed n x →
    isNumberChar b = true

theorem isNumberChar_of_isDigit {b : UInt8} (h : isDigit b = true) : isNumberChar b = true := by
  rw [isNumberChar, h]
  rfl

theorem isNumberChar_lt {b : UInt8} (h : isNumberChar b = true) : b < 0x80 := by
  simp only [isNumberChar, isDigit, List.contains_iff_mem, Bool.or_eq_true, Bool.and_eq_true,
    decide_eq_true_eq, UInt8.le_iff_toNat_le, List.mem_cons, List.not_mem_nil, or_false] at h
  rw [UInt8.lt_iff_toNat_lt]
  rcases h with ((⟨_, h⟩ | ⟨_, h⟩) | ⟨_, h⟩) | h
  · exact Nat.lt_of_le_of_lt h (by decide)
  · exact Nat.lt_of_le_of_lt h (by decide)
  · exact Nat.lt_of_le_of_lt h (by decide)
  · rcases h with rfl | rfl | rfl | rfl | rfl | rfl <;> decide

/-! ## Exact arithmetic -/

namespace ExactDouble

def digitValue (b : UInt8) : ℕ := b.toNat - 48

def natOfDigits (ds : Bytes) : ℕ := ds.foldl (fun v b ↦ v * 10 + digitValue b) 0

/-- The value of a decimal numeral with an optional sign and fraction, and its length. -/
def strtod (s : Bytes) : ℚ × ℕ × Bool :=
  let signed := match s with
    | 43 :: s => (1, s, 1)
    | 45 :: s => (-1, s, 1)
    | s => ((1 : ℚ), s, 0)
  let whole := signed.2.1.takeWhile isDigit
  let afterWhole := signed.2.1.drop whole.length
  let frac := match afterWhole with
    | 46 :: s => s.takeWhile isDigit
    | _ => []
  let point := match afterWhole with
    | 46 :: _ => 1
    | _ => 0
  if whole.length + frac.length = 0 then (0, 0, false)
  else
    (signed.1 * (natOfDigits whole + natOfDigits frac / 10 ^ frac.length),
      signed.2.2 + whole.length + point + frac.length, false)

/-- The nearest integer, a half going to the even neighbour. -/
def roundHalfEven (q : ℚ) : ℕ :=
  let down := q.floor.toNat
  let excess := q - down
  if excess < 1 / 2 then down
  else if 1 / 2 < excess then down + 1
  else if down % 2 = 0 then down
  else down + 1

/-- A natural number in decimal, filled up with zeros to `width` digits. -/
def padded (width n : ℕ) : Bytes :=
  let ds := decimal n
  List.replicate (width - ds.length) 48 ++ ds

/-- The text of `%.nf`. -/
def fixed (n : ℕ) (q : ℚ) : Bytes :=
  let scaled := roundHalfEven (|q| * 10 ^ n)
  (if q < 0 then ascii "-" else []) ++ decimal (scaled / 10 ^ n)
    ++ (if n = 0 then [] else ascii "." ++ padded n (scaled % 10 ^ n))

end ExactDouble

instance : DoubleOps ℚ where
  ofNat n := n
  fabs q := |q|
  lt a b := decide (a < b)
  le a b := decide (a ≤ b)
  isfinite _ := true
  strtod := ExactDouble.strtod
  fixed := ExactDouble.fixed

namespace ExactDouble

private theorem foldl_digitValue {cs : List Char} (hcs : ∀ c ∈ cs, c.isDigit = true) (v : ℕ) :
    (cs.map fun c ↦ UInt8.ofNat c.toNat).foldl (fun v b ↦ v * 10 + digitValue b) v
      = Nat.ofDigitChars 10 cs v := by
  induction cs generalizing v with
  | nil => rw [List.map_nil, List.foldl_nil, Nat.ofDigitChars_nil]
  | cons c cs ih =>
    have hc := hcs c List.mem_cons_self
    simp only [Char.isDigit, Bool.and_eq_true, decide_eq_true_eq] at hc
    have hle : c.toNat ≤ 57 := hc.2
    rw [List.map_cons, List.foldl_cons, ih fun c hc ↦ hcs c (List.mem_cons_of_mem _ hc),
      Nat.ofDigitChars_cons, digitValue, UInt8.toNat_ofNat', Nat.mod_eq_of_lt (by omega),
      Nat.mul_comm v]
    rfl

/-- A printed number is read back. -/
theorem natOfDigits_decimal (n : ℕ) : natOfDigits (decimal n) = n := by
  rw [natOfDigits, decimal, foldl_digitValue, Nat.ofDigitChars_ten_toDigits]
  exact fun c hc ↦ Nat.isDigit_of_mem_toDigits (by decide) (by decide) hc

end ExactDouble

theorem ExactDouble.isNumberChar_of_padded {width n : ℕ} {b : UInt8} (h : b ∈ padded width n) :
    isNumberChar b = true := by
  rcases List.mem_append.mp h with hzero | hdigit
  · rw [(List.mem_replicate.mp hzero).2]
    rfl
  · exact isNumberChar_of_isDigit (isDigit_of_mem_decimal hdigit)

instance : PrintsNumbers ℚ where
  isNumberChar_of_fixed {n x b} h := by
    rcases List.mem_append.mp h with hfront | hfrac
    · rcases List.mem_append.mp hfront with hsign | hwhole
      · split_ifs at hsign
        · rw [List.mem_singleton.mp hsign]
          rfl
        · cases hsign
      · exact isNumberChar_of_isDigit (isDigit_of_mem_decimal hwhole)
    · split_ifs at hfrac
      · cases hfrac
      · rcases List.mem_append.mp hfrac with hpoint | hdigits
        · rw [List.mem_singleton.mp hpoint]
          rfl
        · exact ExactDouble.isNumberChar_of_padded hdigits

end LoggerAnalyzer
