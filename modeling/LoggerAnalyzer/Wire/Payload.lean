import LoggerAnalyzer.Wire.Frame

/-!
# Payloads

The fields of a payload are written one after another by `PayloadWriter` and read back in the same
order by `PayloadReader`. A reader that once ran short stays failed: every later read fails,
whatever bytes there are.

Reading is described by what lies ahead of the reader, `PayloadReader.ahead`; a field that was
written is read back from the front of it.
-/

namespace LoggerAnalyzer

/-! ## Writing -/

namespace PayloadWriter

def u8 (v : UInt8) : Bytes := [v]

def u16 (v : UInt16) : Bytes := storeBe16 v

def u32 (v : UInt32) : Bytes := storeBe32 v

def u64 (v : UInt64) : Bytes := storeBe64 v

/-- A string of at most 65535 bytes with its length before it; what is longer is cut off. -/
def str16 (s : Bytes) : Bytes :=
  let n := min s.length 0xFFFF
  u16 (UInt16.ofNat n) ++ s.take n

@[simp] theorem length_u16 (v : UInt16) : (u16 v).length = 2 := rfl

@[simp] theorem length_u32 (v : UInt32) : (u32 v).length = 4 := rfl

@[simp] theorem length_u64 (v : UInt64) : (u64 v).length = 8 := rfl

theorem length_str16_le (s : Bytes) : (str16 s).length ≤ 65537 := by
  rw [str16, List.length_append, length_u16, List.length_take]
  omega

end PayloadWriter

/-- The payload of an ERROR frame. -/
def errorPayload (code : ErrorCode) (message : Bytes) : Bytes :=
  PayloadWriter.u16 code.toUInt16 ++ PayloadWriter.str16 message

/-- `serialize_error`. -/
def serializeError (code : ErrorCode) (message : Bytes) : Bytes :=
  serializeFrame .error (errorPayload code message)

/-! ## Reading -/

/-- A position in a payload, and whether every read so far succeeded. -/
structure PayloadReader where
  buf : Bytes
  pos : ℕ
  ok : Bool
deriving DecidableEq, Repr

namespace PayloadReader

def new (buf : Bytes) : PayloadReader := ⟨buf, 0, true⟩

def remaining (r : PayloadReader) : ℕ := r.buf.length - r.pos

/-- The bytes ahead of the reader. -/
def ahead (r : PayloadReader) : Bytes := r.buf.drop r.pos

/-- Whether `n` bytes can be read. -/
def has (r : PayloadReader) (n : ℕ) : Bool := r.ok && decide (n ≤ r.remaining)

/-- A field of `n` bytes: `need(n)`, the load and the step past it, or the failure that stays. -/
def field {α : Type} (n : ℕ) (load : Bytes → α) (r : PayloadReader) : Option α × PayloadReader :=
  if r.has n then (some (load r.ahead), { r with pos := r.pos + n })
  else (none, { r with ok := false })

def u8 (r : PayloadReader) : Option UInt8 × PayloadReader := r.field 1 fun p ↦ p.getD 0 0

def u16 (r : PayloadReader) : Option UInt16 × PayloadReader := r.field 2 loadBe16

def u32 (r : PayloadReader) : Option UInt32 × PayloadReader := r.field 4 loadBe32

def u64 (r : PayloadReader) : Option UInt64 × PayloadReader := r.field 8 loadBe64

def str16 (r : PayloadReader) : Option Bytes × PayloadReader :=
  match r.u16 with
  | (none, r) => (none, r)
  | (some n, r) => r.field n.toNat fun p ↦ p.take n.toNat

/-- A field that is ahead is read, and what follows it is ahead then. -/
theorem field_of_ahead {α : Type} (load : Bytes → α) {n : ℕ} {r : PayloadReader}
    {bytes tail : Bytes} (hok : r.ok = true) (hlen : bytes.length = n)
    (h : r.ahead = bytes ++ tail) :
    ∃ r', r.field n load = (some (load (bytes ++ tail)), r') ∧ r'.ok = true ∧ r'.ahead = tail := by
  have hhas : r.has n = true := by
    have hle := congrArg List.length h
    rw [ahead, List.length_drop, List.length_append] at hle
    rw [has, hok, Bool.true_and, decide_eq_true_eq, remaining]
    omega
  refine ⟨{ r with pos := r.pos + n }, ?_, hok, ?_⟩
  · rw [field, if_pos hhas, h]
  · rw [ahead, ← List.drop_drop, ← ahead, h, List.drop_left' hlen]

theorem u16_of_ahead {r : PayloadReader} {v : UInt16} {tail : Bytes} (hok : r.ok = true)
    (h : r.ahead = PayloadWriter.u16 v ++ tail) :
    ∃ r', r.u16 = (some v, r') ∧ r'.ok = true ∧ r'.ahead = tail := by
  obtain ⟨r', hr, hok', htail⟩ := field_of_ahead loadBe16 (n := 2) hok rfl h
  refine ⟨r', ?_, hok', htail⟩
  rw [u16, hr, PayloadWriter.u16, loadBe16_store_append]

theorem u32_of_ahead {r : PayloadReader} {v : UInt32} {tail : Bytes} (hok : r.ok = true)
    (h : r.ahead = PayloadWriter.u32 v ++ tail) :
    ∃ r', r.u32 = (some v, r') ∧ r'.ok = true ∧ r'.ahead = tail := by
  obtain ⟨r', hr, hok', htail⟩ := field_of_ahead loadBe32 (n := 4) hok rfl h
  refine ⟨r', ?_, hok', htail⟩
  rw [u32, hr, PayloadWriter.u32, loadBe32_store_append]

theorem u64_of_ahead {r : PayloadReader} {v : UInt64} {tail : Bytes} (hok : r.ok = true)
    (h : r.ahead = PayloadWriter.u64 v ++ tail) :
    ∃ r', r.u64 = (some v, r') ∧ r'.ok = true ∧ r'.ahead = tail := by
  obtain ⟨r', hr, hok', htail⟩ := field_of_ahead loadBe64 (n := 8) hok rfl h
  refine ⟨r', ?_, hok', htail⟩
  rw [u64, hr, PayloadWriter.u64, loadBe64_store_append]

theorem str16_of_ahead {r : PayloadReader} {s tail : Bytes} (hok : r.ok = true)
    (hlen : s.length ≤ 0xFFFF) (h : r.ahead = PayloadWriter.str16 s ++ tail) :
    ∃ r', r.str16 = (some s, r') ∧ r'.ok = true ∧ r'.ahead = tail := by
  rw [PayloadWriter.str16, Nat.min_eq_left hlen, List.take_length, List.append_assoc] at h
  obtain ⟨r₁, hr₁, hok₁, htail₁⟩ := u16_of_ahead hok h
  have hn : (UInt16.ofNat s.length).toNat = s.length :=
    UInt16.toNat_ofNat_of_lt' (Nat.lt_of_le_of_lt hlen (by decide))
  obtain ⟨r₂, hr₂, hok₂, htail₂⟩ :=
    field_of_ahead (fun p ↦ p.take s.length) (n := s.length) hok₁ rfl htail₁
  refine ⟨r₂, ?_, hok₂, htail₂⟩
  rw [str16, hr₁]
  simp only [hn, hr₂, List.take_left]

end PayloadReader

end LoggerAnalyzer
