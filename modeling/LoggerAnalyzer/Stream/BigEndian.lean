import Mathlib.Data.Nat.Notation
import Mathlib.Algebra.Group.Nat.Defs
import Mathlib.Data.List.Induction

/-!
# Big-endian numbers

The `k`-byte big-endian form of a natural number and back. `encode` keeps the low `k` bytes, as a
store into a fixed-width field does, and `decode` reads any number of bytes.
-/

namespace LoggerAnalyzer

namespace BigEndian

/-- The low `k` bytes of `n`, most significant first. -/
def encode : ℕ → ℕ → List UInt8
  | 0, _ => []
  | k + 1, n => encode k (n / 256) ++ [UInt8.ofNat n]

/-- The number whose bytes, most significant first, are `bs`. -/
def decode (bs : List UInt8) : ℕ := bs.foldl (fun v b ↦ v * 256 + b.toNat) 0

@[simp] theorem decode_nil : decode [] = 0 := rfl

theorem decode_concat (bs : List UInt8) (b : UInt8) :
    decode (bs ++ [b]) = decode bs * 256 + b.toNat := by
  rw [decode, List.foldl_append]
  rfl

theorem decode_lt (bs : List UInt8) : decode bs < 256 ^ bs.length := by
  induction bs using List.reverseRecOn with
  | nil => decide
  | append_singleton bs b ih =>
    have hb := b.toNat_lt
    rw [decode_concat, List.length_append, List.length_singleton, Nat.pow_succ]
    omega

/-- A field holds a number up to its width. -/
theorem decode_encode (k n : ℕ) : decode (encode k n) = n % 256 ^ k := by
  induction k generalizing n with
  | zero => rw [encode, decode_nil, Nat.pow_zero, Nat.mod_one]
  | succ k ih =>
    rw [encode, decode_concat, ih, Nat.pow_succ, Nat.mul_comm (256 ^ k), Nat.mod_mul,
      UInt8.toNat_ofNat']
    omega

theorem decode_encode_of_lt {k n : ℕ} (h : n < 256 ^ k) : decode (encode k n) = n := by
  rw [decode_encode, Nat.mod_eq_of_lt h]

end BigEndian

end LoggerAnalyzer
