import LoggerAnalyzer.Stream.BigEndian
import LoggerAnalyzer.Text.Bytes

/-!
# The wire protocol

A frame is a fixed header of 16 bytes and `payload_len` bytes of payload; every integer travels in
network byte order.

`MsgType` is an `enum class` over `std::uint8_t`, so a header can carry any byte there and the code
compares it with the named values. It is modelled by its byte, with the named values as constants.
`ErrorCode` is only ever produced from its names and is an inductive type.

The byte-order functions are those of the source, shift by shift; `storeBe64_eq` and its siblings
say that they are the big-endian codec of `BigEndian`, which is what the rest of the development
uses.
-/

namespace LoggerAnalyzer

def kMagic : UInt32 := 0x42594441

def kVersion : UInt8 := 0x01

def kHeaderSize : ℕ := 16

/-- The bound on the payload of one frame. -/
def kMaxPayload : ℕ := 4 * 1024 * 1024

/-- The chunk size the server announces. -/
def kDefaultMaxChunk : ℕ := 1 * 1024 * 1024

/-! ## Message types and error codes -/

/-- A message type, as the byte that the header carries. -/
structure MsgType where
  byte : UInt8
deriving DecidableEq, Repr

namespace MsgType

def hello : MsgType := ⟨0x01⟩
def helloAck : MsgType := ⟨0x02⟩
def uploadBegin : MsgType := ⟨0x10⟩
def uploadBeginAck : MsgType := ⟨0x11⟩
def uploadChunk : MsgType := ⟨0x12⟩
def uploadEnd : MsgType := ⟨0x13⟩
def uploadAck : MsgType := ⟨0x14⟩
def analyzeProgress : MsgType := ⟨0x20⟩
def analyzeDone : MsgType := ⟨0x21⟩
def resultBegin : MsgType := ⟨0x31⟩
def resultChunk : MsgType := ⟨0x32⟩
def resultEnd : MsgType := ⟨0x33⟩
def cancel : MsgType := ⟨0x40⟩
def error : MsgType := ⟨0x7E⟩
def bye : MsgType := ⟨0x7F⟩

end MsgType

/-- `msg_name`. -/
def msgName (t : MsgType) : Bytes :=
  if t = .hello then ascii "HELLO"
  else if t = .helloAck then ascii "HELLO_ACK"
  else if t = .uploadBegin then ascii "UPLOAD_BEGIN"
  else if t = .uploadBeginAck then ascii "UPLOAD_BEGIN_ACK"
  else if t = .uploadChunk then ascii "UPLOAD_CHUNK"
  else if t = .uploadEnd then ascii "UPLOAD_END"
  else if t = .uploadAck then ascii "UPLOAD_ACK"
  else if t = .analyzeProgress then ascii "ANALYZE_PROGRESS"
  else if t = .analyzeDone then ascii "ANALYZE_DONE"
  else if t = .resultBegin then ascii "RESULT_BEGIN"
  else if t = .resultChunk then ascii "RESULT_CHUNK"
  else if t = .resultEnd then ascii "RESULT_END"
  else if t = .cancel then ascii "CANCEL"
  else if t = .error then ascii "ERROR"
  else if t = .bye then ascii "BYE"
  else ascii "UNKNOWN"

inductive ErrorCode where
  | none
  | badMagic
  | badVersion
  | unexpectedType
  | payloadTooLarge
  | sizeMismatch
  | internalIo
  | idleTimeout
  | cancelled
  | serverBusy
  | shuttingDown
deriving DecidableEq, Repr

namespace ErrorCode

/-- The number of an error code on the wire. -/
def toUInt16 : ErrorCode → UInt16
  | none => 0
  | badMagic => 1
  | badVersion => 2
  | unexpectedType => 3
  | payloadTooLarge => 4
  | sizeMismatch => 5
  | internalIo => 6
  | idleTimeout => 8
  | cancelled => 9
  | serverBusy => 10
  | shuttingDown => 11

/-- `error_text`. -/
def text : ErrorCode → Bytes
  | none => ascii "none"
  | badMagic => ascii "bad magic"
  | badVersion => ascii "unsupported protocol version"
  | unexpectedType => ascii "unexpected message type for current state"
  | payloadTooLarge => ascii "payload too large"
  | sizeMismatch => ascii "declared size mismatch"
  | internalIo => ascii "internal io error"
  | idleTimeout => ascii "idle timeout"
  | cancelled => ascii "cancelled by client"
  | serverBusy => ascii "server busy"
  | shuttingDown => ascii "server shutting down"

end ErrorCode

/-! ## Byte order -/

def storeBe16 (v : UInt16) : Bytes := [((v >>> 8) &&& 0xFF).toUInt8, (v &&& 0xFF).toUInt8]

def storeBe32 (v : UInt32) : Bytes :=
  [((v >>> 24) &&& 0xFF).toUInt8, ((v >>> 16) &&& 0xFF).toUInt8, ((v >>> 8) &&& 0xFF).toUInt8,
    (v &&& 0xFF).toUInt8]

def storeBe64 (v : UInt64) : Bytes :=
  (List.range 8).map fun i ↦ ((v >>> UInt64.ofNat (56 - 8 * i)) &&& 0xFF).toUInt8

def loadBe16 : Bytes → UInt16
  | b₀ :: b₁ :: _ => (b₀.toUInt16 <<< 8) ||| b₁.toUInt16
  | _ => 0

def loadBe32 : Bytes → UInt32
  | b₀ :: b₁ :: b₂ :: b₃ :: _ =>
    (b₀.toUInt32 <<< 24) ||| (b₁.toUInt32 <<< 16) ||| (b₂.toUInt32 <<< 8) ||| b₃.toUInt32
  | _ => 0

def loadBe64 (p : Bytes) : UInt64 := (p.take 8).foldl (fun v b ↦ (v <<< 8) ||| b.toUInt64) 0

private theorem storeBe16_eq (v : UInt16) : storeBe16 v = BigEndian.encode 2 v.toNat := by
  simp only [storeBe16, BigEndian.encode, List.nil_append, List.cons_append, List.cons.injEq,
    and_true]
  refine ⟨?_, ?_⟩ <;> rw [← UInt8.toNat_inj] <;>
    simp [Nat.shiftRight_eq_div_pow, Nat.and_two_pow_sub_one_eq_mod _ 8]

private theorem storeBe32_eq (v : UInt32) : storeBe32 v = BigEndian.encode 4 v.toNat := by
  simp only [storeBe32, BigEndian.encode, List.nil_append, List.cons_append, List.cons.injEq,
    and_true]
  refine ⟨?_, ?_, ?_, ?_⟩ <;> rw [← UInt8.toNat_inj] <;>
    simp [Nat.shiftRight_eq_div_pow, Nat.and_two_pow_sub_one_eq_mod _ 8, Nat.div_div_eq_div_mul]

private theorem storeBe64_eq (v : UInt64) : storeBe64 v = BigEndian.encode 8 v.toNat := by
  simp only [storeBe64, List.range, List.range.loop, List.map_cons, List.map_nil, BigEndian.encode,
    List.nil_append, List.cons_append, List.cons.injEq, and_true]
  refine ⟨?_, ?_, ?_, ?_, ?_, ?_, ?_, ?_⟩ <;> rw [← UInt8.toNat_inj] <;>
    simp [Nat.shiftRight_eq_div_pow, Nat.and_two_pow_sub_one_eq_mod _ 8, Nat.div_div_eq_div_mul]

/-- Shifted out of each other's way, "or" is addition. -/
private theorem mul_or_eq_add {k a b : ℕ} (h : b < 2 ^ k) : a * 2 ^ k ||| b = a * 2 ^ k + b := by
  rw [Nat.mul_comm, ← Nat.two_pow_add_eq_or_of_lt h]

private theorem shift_or_toNat {v : UInt64} (hv : v.toNat < 2 ^ 56) (b : UInt8) :
    ((v <<< 8) ||| b.toUInt64).toNat = v.toNat * 256 + b.toNat := by
  have hor := mul_or_eq_add (a := v.toNat) (k := 8) b.toNat_lt
  simp [Nat.shiftLeft_eq]
  rw [Nat.mod_eq_of_lt (by omega)]
  exact hor

private theorem loadBe64_toNat {p : Bytes} (hp : 8 ≤ p.length) :
    (loadBe64 p).toNat = BigEndian.decode (p.take 8) := by
  have hgen : ∀ bs : Bytes, bs.length ≤ 8 →
      (bs.foldl (fun (v : UInt64) b ↦ (v <<< 8) ||| b.toUInt64) 0).toNat = BigEndian.decode bs := by
    intro bs
    induction bs using List.reverseRecOn with
    | nil => intro; rfl
    | append_singleton bs b ih =>
      intro hlen
      rw [List.length_append, List.length_singleton] at hlen
      have hsmall := BigEndian.decode_lt bs
      have hpow : 256 ^ bs.length ≤ 256 ^ 7 := Nat.pow_le_pow_right (by decide) (by omega)
      have ih := ih (by omega)
      rw [List.foldl_append, List.foldl_cons, List.foldl_nil, shift_or_toNat (by omega), ih,
        BigEndian.decode_concat]
  exact hgen _ (by rw [List.length_take]; omega)

private theorem loadBe16_toNat {p : Bytes} (hp : 2 ≤ p.length) :
    (loadBe16 p).toNat = BigEndian.decode (p.take 2) := by
  obtain _ | ⟨b₀, _ | ⟨b₁, p⟩⟩ := p
  · simp at hp
  · simp at hp
  have h₀ := b₀.toNat_lt
  have hor := mul_or_eq_add (a := b₀.toNat) (k := 8) b₁.toNat_lt
  simp [loadBe16, BigEndian.decode, Nat.shiftLeft_eq]
  rw [Nat.mod_eq_of_lt (by omega)]
  exact hor

private theorem loadBe32_toNat {p : Bytes} (hp : 4 ≤ p.length) :
    (loadBe32 p).toNat = BigEndian.decode (p.take 4) := by
  obtain _ | ⟨b₀, _ | ⟨b₁, _ | ⟨b₂, _ | ⟨b₃, p⟩⟩⟩⟩ := p
  iterate 4 simp at hp
  have h₀ := b₀.toNat_lt
  have h₁ := b₁.toNat_lt
  have h₂ := b₂.toNat_lt
  have h₃ := b₃.toNat_lt
  have hlow := mul_or_eq_add (a := b₂.toNat) (k := 8) h₃
  have hmid := mul_or_eq_add (a := b₁.toNat) (k := 16) (b := b₂.toNat * 2 ^ 8 + b₃.toNat) (by omega)
  have hhigh := mul_or_eq_add (a := b₀.toNat) (k := 24)
    (b := b₁.toNat * 2 ^ 16 + (b₂.toNat * 2 ^ 8 + b₃.toNat)) (by omega)
  simp [loadBe32, BigEndian.decode, Nat.shiftLeft_eq, Nat.or_assoc]
  simp only [Nat.reducePow] at hlow hmid hhigh
  rw [Nat.mod_eq_of_lt (by omega), Nat.mod_eq_of_lt (by omega), Nat.mod_eq_of_lt (by omega), hlow,
    hmid, hhigh]
  omega

/-! ## Headers -/

/-- The fields of a header, with the values a fresh one has. -/
structure FrameHeader where
  magic : UInt32 := kMagic
  version : UInt8 := kVersion
  type : MsgType := .bye
  flags : UInt16 := 0
  payloadLen : UInt64 := 0
deriving DecidableEq, Repr

def encodeHeader (h : FrameHeader) : Bytes :=
  storeBe32 h.magic ++ ([h.version, h.type.byte] ++ (storeBe16 h.flags ++ storeBe64 h.payloadLen))

def decodeHeader (raw : Bytes) : FrameHeader :=
  { magic := loadBe32 raw
    version := raw.getD 4 0
    type := ⟨raw.getD 5 0⟩
    flags := loadBe16 (raw.drop 6)
    payloadLen := loadBe64 (raw.drop 8) }

private theorem length_storeBe16 (v : UInt16) : (storeBe16 v).length = 2 := rfl

private theorem length_storeBe32 (v : UInt32) : (storeBe32 v).length = 4 := rfl

theorem length_storeBe64 (v : UInt64) : (storeBe64 v).length = 8 := rfl

@[simp] theorem length_encodeHeader (h : FrameHeader) : (encodeHeader h).length = kHeaderSize := rfl

theorem loadBe16_store_append (v : UInt16) (xs : Bytes) : loadBe16 (storeBe16 v ++ xs) = v := by
  rw [← UInt16.toNat_inj, loadBe16_toNat (by simp [length_storeBe16]),
    List.take_left' (length_storeBe16 v), storeBe16_eq, BigEndian.decode_encode_of_lt v.toNat_lt]

theorem loadBe32_store_append (v : UInt32) (xs : Bytes) : loadBe32 (storeBe32 v ++ xs) = v := by
  rw [← UInt32.toNat_inj, loadBe32_toNat (by simp [length_storeBe32]),
    List.take_left' (length_storeBe32 v), storeBe32_eq, BigEndian.decode_encode_of_lt v.toNat_lt]

theorem loadBe64_store_append (v : UInt64) (xs : Bytes) : loadBe64 (storeBe64 v ++ xs) = v := by
  rw [← UInt64.toNat_inj, loadBe64_toNat (by simp [length_storeBe64]),
    List.take_left' (length_storeBe64 v), storeBe64_eq, BigEndian.decode_encode_of_lt v.toNat_lt]

/-- **A header that was written is read back**, whatever follows it. -/
theorem decodeHeader_encode_append (h : FrameHeader) (xs : Bytes) :
    decodeHeader (encodeHeader h ++ xs) = h := by
  have hflags : (encodeHeader h ++ xs).drop 6
      = storeBe16 h.flags ++ (storeBe64 h.payloadLen ++ xs) := by
    simp [encodeHeader, storeBe32]
  have hlen : (encodeHeader h ++ xs).drop 8 = storeBe64 h.payloadLen ++ xs := by
    simp [encodeHeader, storeBe32, storeBe16]
  rw [decodeHeader, hflags, hlen, loadBe16_store_append, loadBe64_store_append, encodeHeader,
    List.append_assoc, loadBe32_store_append]
  rfl

theorem decodeHeader_encode (h : FrameHeader) : decodeHeader (encodeHeader h) = h := by
  rw [← List.append_nil (encodeHeader h), decodeHeader_encode_append]

end LoggerAnalyzer
