import LoggerAnalyzer.Stream.Incremental
import LoggerAnalyzer.Wire.Protocol

/-!
# Frames

`serializeFrame` writes a frame. What a reader of the stream should find is said by `nextFrame`,
which looks at a whole byte string and not at fragments: sixteen bytes, the checks of the header,
then as many bytes as the header says. As a `Parser` it is the reference that the decoders are
compared with.
-/

namespace LoggerAnalyzer

open Incremental

/-- `serialize_frame`. -/
def serializeFrame (type : MsgType) (payload : Bytes) : Bytes :=
  encodeHeader { type := type, payloadLen := UInt64.ofNat payload.length } ++ payload

/-! ## Frames at the front of a stream -/

/-- A complete frame. -/
structure Frame where
  header : FrameHeader
  payload : Bytes
deriving DecidableEq, Repr

/-- The first check that a header fails. -/
def headerError (h : FrameHeader) : Option ErrorCode :=
  if h.magic ≠ kMagic then some .badMagic
  else if h.version ≠ kVersion then some .badVersion
  else if kMaxPayload < h.payloadLen.toNat then some .payloadTooLarge
  else none

/-- The frame at the front of a stream: sixteen bytes, the checks, then as many bytes as the header
says. -/
def nextFrame (bs : Bytes) : Outcome UInt8 Frame ErrorCode :=
  if bs.length < kHeaderSize then .more
  else
    let h := decodeHeader (bs.take kHeaderSize)
    match headerError h with
    | some e => .fail e
    | none =>
      if bs.length < kHeaderSize + h.payloadLen.toNat then .more
      else .item ⟨h, (bs.drop kHeaderSize).take h.payloadLen.toNat⟩
        (bs.drop (kHeaderSize + h.payloadLen.toNat))

theorem nextFrame_short {bs : Bytes} (h : bs.length < kHeaderSize) : nextFrame bs = .more := by
  rw [nextFrame, if_pos h]

theorem nextFrame_bad {bs : Bytes} {e : ErrorCode} (h : kHeaderSize ≤ bs.length)
    (herr : headerError (decodeHeader (bs.take kHeaderSize)) = some e) :
    nextFrame bs = .fail e := by
  rw [nextFrame, if_neg (Nat.not_lt.mpr h)]
  simp only [herr]

theorem nextFrame_good {bs : Bytes} (h : kHeaderSize ≤ bs.length)
    (herr : headerError (decodeHeader (bs.take kHeaderSize)) = none) :
    nextFrame bs =
      if bs.length < kHeaderSize + (decodeHeader (bs.take kHeaderSize)).payloadLen.toNat then .more
      else .item ⟨decodeHeader (bs.take kHeaderSize),
          (bs.drop kHeaderSize).take (decodeHeader (bs.take kHeaderSize)).payloadLen.toNat⟩
        (bs.drop (kHeaderSize + (decodeHeader (bs.take kHeaderSize)).payloadLen.toNat)) := by
  rw [nextFrame, if_neg (Nat.not_lt.mpr h)]
  simp only [herr]

/-- What the outcomes say about the bytes. -/
theorem nextFrame_cases (bs : Bytes) :
    (bs.length < kHeaderSize ∧ nextFrame bs = .more) ∨
    (kHeaderSize ≤ bs.length ∧
      ∃ e, headerError (decodeHeader (bs.take kHeaderSize)) = some e ∧ nextFrame bs = .fail e) ∨
    (kHeaderSize ≤ bs.length ∧ headerError (decodeHeader (bs.take kHeaderSize)) = none ∧
      bs.length < kHeaderSize + (decodeHeader (bs.take kHeaderSize)).payloadLen.toNat ∧
      nextFrame bs = .more) ∨
    (kHeaderSize ≤ bs.length ∧ headerError (decodeHeader (bs.take kHeaderSize)) = none ∧
      kHeaderSize + (decodeHeader (bs.take kHeaderSize)).payloadLen.toNat ≤ bs.length ∧
      nextFrame bs = .item ⟨decodeHeader (bs.take kHeaderSize),
          (bs.drop kHeaderSize).take (decodeHeader (bs.take kHeaderSize)).payloadLen.toNat⟩
        (bs.drop (kHeaderSize + (decodeHeader (bs.take kHeaderSize)).payloadLen.toNat))) := by
  rcases Nat.lt_or_ge bs.length kHeaderSize with hshort | hlong
  · exact Or.inl ⟨hshort, nextFrame_short hshort⟩
  cases herr : headerError (decodeHeader (bs.take kHeaderSize)) with
  | some e => exact Or.inr (Or.inl ⟨hlong, e, rfl, nextFrame_bad hlong herr⟩)
  | none =>
    have hgood := nextFrame_good hlong herr
    split_ifs at hgood with hmore
    · exact Or.inr (Or.inr (Or.inl ⟨hlong, rfl, hmore, hgood⟩))
    · exact Or.inr (Or.inr (Or.inr ⟨hlong, rfl, Nat.not_lt.mp hmore, hgood⟩))

/-- The header alone is what fails. -/
theorem nextFrame_fail {bs : Bytes} {e : ErrorCode} (h : nextFrame bs = .fail e) :
    kHeaderSize ≤ bs.length ∧ nextFrame (bs.take kHeaderSize) = .fail e := by
  rcases nextFrame_cases bs with ⟨_, hn⟩ | ⟨hlong, e', herr, hn⟩ | ⟨_, _, _, hn⟩ | ⟨_, _, _, hn⟩ <;>
    rw [hn] at h <;> cases h
  refine ⟨hlong, nextFrame_bad ?_ ?_⟩
  · rw [List.length_take]
    omega
  · rwa [List.take_take, Nat.min_self]

/-- The bytes of a frame that was taken off the front. -/
theorem nextFrame_item {bs left : Bytes} {f : Frame} (h : nextFrame bs = .item f left) :
    ∃ raw, bs = raw ++ left ∧ raw.length = kHeaderSize + f.header.payloadLen.toNat ∧
      f.header = decodeHeader (raw.take kHeaderSize) ∧ f.payload = raw.drop kHeaderSize ∧
      headerError f.header = none := by
  rcases nextFrame_cases bs with ⟨_, hn⟩ | ⟨_, e, _, hn⟩ | ⟨_, _, _, hn⟩ |
    ⟨hlong, herr, hall, hn⟩ <;> rw [hn] at h
  iterate 3 cases h
  injection h with hf hleft
  subst hf hleft
  refine ⟨bs.take (kHeaderSize + (decodeHeader (bs.take kHeaderSize)).payloadLen.toNat),
    (List.take_append_drop _ bs).symm, ?_, ?_, ?_, herr⟩
  · rw [List.length_take, Nat.min_eq_left hall]
  · rw [List.take_take, Nat.min_eq_left (Nat.le_add_right _ _)]
  · rw [List.drop_take, Nat.add_sub_cancel_left]

/-- The header of a frame is at the front of the stream, and its payload is as long as it says. -/
theorem nextFrame_item_header {bs left : Bytes} {f : Frame} (h : nextFrame bs = .item f left) :
    f.header = decodeHeader (bs.take kHeaderSize) ∧
      f.payload.length = f.header.payloadLen.toNat := by
  obtain ⟨raw, rfl, hlen, hheader, hpayload, -⟩ := nextFrame_item h
  constructor
  · rw [hheader, List.take_append_of_le_length (by omega)]
  · rw [hpayload, List.length_drop, hlen, Nat.add_sub_cancel_left]

/-- A frame that `p` did not yet make takes some of what follows. -/
theorem length_left_lt {p data left : Bytes} {f : Frame} (hp : nextFrame p = .more)
    (h : nextFrame (p ++ data) = .item f left) : left.length < data.length := by
  obtain ⟨raw, happ, hraw, hheader, -, -⟩ := nextFrame_item h
  have hlen := congrArg List.length happ
  rw [List.length_append, List.length_append] at hlen
  have hshort : p.length < raw.length := by
    by_contra hle
    have hprefix : p.take raw.length = raw := by
      have htake := congrArg (List.take raw.length) happ
      rwa [List.take_append_of_le_length (by omega), List.take_left] at htake
    have hfirst : p.take kHeaderSize = raw.take kHeaderSize := by
      rw [← hprefix, List.take_take, Nat.min_eq_left (by omega)]
    rcases nextFrame_cases p with ⟨hp', _⟩ | ⟨_, _, _, hn⟩ | ⟨_, _, hp', _⟩ | ⟨_, _, _, hn⟩
    · omega
    · rw [hn] at hp
      cases hp
    · rw [hfirst, ← hheader] at hp'
      omega
    · rw [hn] at hp
      cases hp
  omega

/-- Frames as an incremental parser. -/
def frameParser : Parser UInt8 Frame ErrorCode where
  next := nextFrame
  shrinks := by
    intro bs f left h
    rcases nextFrame_cases bs with ⟨_, hn⟩ | ⟨_, e, _, hn⟩ | ⟨_, _, _, hn⟩ | ⟨hlong, _, _, hn⟩ <;>
      rw [hn] at h
    iterate 3 cases h
    injection h with _ hleft
    rw [← hleft, List.length_drop]
    unfold kHeaderSize at *
    omega
  fail_append := by
    intro bs e h ys
    rcases nextFrame_cases bs with
      ⟨_, hn⟩ | ⟨hlong, e', herr, hn⟩ | ⟨_, _, _, hn⟩ | ⟨_, _, _, hn⟩ <;> rw [hn] at h
    · cases h
    · cases h
      refine nextFrame_bad (by rw [List.length_append]; omega) ?_
      rwa [List.take_append_of_le_length hlong]
    · cases h
    · cases h
  item_append := by
    intro bs f left h ys
    rcases nextFrame_cases bs with ⟨_, hn⟩ | ⟨_, e, _, hn⟩ | ⟨_, _, _, hn⟩ |
      ⟨hlong, herr, hall, hn⟩ <;> rw [hn] at h
    iterate 3 cases h
    cases h
    rw [nextFrame_good (by rw [List.length_append]; omega)
      (by rwa [List.take_append_of_le_length hlong]), List.take_append_of_le_length hlong,
      if_neg (by rw [List.length_append]; omega), List.drop_append_of_le_length hlong,
      List.take_append_of_le_length (by rw [List.length_drop]; omega),
      List.drop_append_of_le_length hall]

@[simp] theorem frameParser_next (bs : Bytes) : frameParser.next bs = nextFrame bs := rfl

/-- All frames of a stream. -/
def parseFrames (bs : Bytes) : Parsed UInt8 Frame ErrorCode := frameParser.parse bs

theorem parseFrames_more {bs : Bytes} (h : nextFrame bs = .more) :
    parseFrames bs = ⟨[], none, bs⟩ := Parser.parse_more h

theorem parseFrames_fail {bs : Bytes} {e : ErrorCode} (h : nextFrame bs = .fail e) :
    parseFrames bs = ⟨[], some e, bs⟩ := Parser.parse_fail h

theorem parseFrames_item {bs left : Bytes} {f : Frame} (h : nextFrame bs = .item f left) :
    parseFrames bs
      = ⟨f :: (parseFrames left).items, (parseFrames left).failure, (parseFrames left).left⟩ :=
  Parser.parse_item h

theorem parseFrames_append {bs : Bytes} (h : (parseFrames bs).failure = none) (data : Bytes) :
    parseFrames (bs ++ data)
      = ⟨(parseFrames bs).items ++ (parseFrames ((parseFrames bs).left ++ data)).items,
          (parseFrames ((parseFrames bs).left ++ data)).failure,
          (parseFrames ((parseFrames bs).left ++ data)).left⟩ := Parser.parse_append h data

theorem parseFrames_append_of_some {bs : Bytes} {e : ErrorCode}
    (h : (parseFrames bs).failure = some e) (data : Bytes) :
    parseFrames (bs ++ data)
      = ⟨(parseFrames bs).items, some e, (parseFrames bs).left ++ data⟩ :=
  Parser.parse_append_of_some h data

theorem nextFrame_left_of_none {bs : Bytes} (h : (parseFrames bs).failure = none) :
    nextFrame (parseFrames bs).left = .more := Parser.next_left_of_none h

theorem nextFrame_left_of_some {bs : Bytes} {e : ErrorCode}
    (h : (parseFrames bs).failure = some e) : nextFrame (parseFrames bs).left = .fail e :=
  Parser.next_left_of_some h

/-! ## Frames that were written -/

/-- The bytes of frames that are written one after another. -/
def wire (frames : List (MsgType × Bytes)) : Bytes :=
  frames.flatMap fun f ↦ serializeFrame f.1 f.2

/-- The header of a frame with this type and payload. -/
def frameHeader (type : MsgType) (payload : Bytes) : FrameHeader :=
  { type := type, payloadLen := UInt64.ofNat payload.length }

@[simp] theorem length_serializeFrame (type : MsgType) (payload : Bytes) :
    (serializeFrame type payload).length = kHeaderSize + payload.length := by
  rw [serializeFrame, List.length_append, length_encodeHeader]

theorem frameHeader_payloadLen {type : MsgType} {payload : Bytes}
    (h : payload.length ≤ kMaxPayload) :
    (frameHeader type payload).payloadLen.toNat = payload.length := by
  refine UInt64.toNat_ofNat_of_lt' (Nat.lt_of_le_of_lt h ?_)
  decide

theorem headerError_frameHeader {type : MsgType} {payload : Bytes}
    (h : payload.length ≤ kMaxPayload) : headerError (frameHeader type payload) = none := by
  rw [headerError, if_neg (by simp [frameHeader]), if_neg (by simp [frameHeader]),
    if_neg (by rw [frameHeader_payloadLen h]; omega)]

theorem decodeHeader_serializeFrame (type : MsgType) (payload xs : Bytes) :
    decodeHeader ((serializeFrame type payload ++ xs).take kHeaderSize)
      = frameHeader type payload := by
  rw [serializeFrame, List.append_assoc, List.take_left' (length_encodeHeader _),
    decodeHeader_encode]
  rfl

/-- **A frame that was written is the frame at the front**, whatever follows it. -/
theorem nextFrame_serializeFrame {type : MsgType} {payload : Bytes}
    (h : payload.length ≤ kMaxPayload) (xs : Bytes) :
    nextFrame (serializeFrame type payload ++ xs)
      = .item ⟨frameHeader type payload, payload⟩ xs := by
  have hlen : kHeaderSize ≤ (serializeFrame type payload ++ xs).length := by
    rw [List.length_append, length_serializeFrame]
    omega
  have hdrop : (serializeFrame type payload ++ xs).drop kHeaderSize = payload ++ xs := by
    rw [serializeFrame, List.append_assoc, List.drop_left' (length_encodeHeader _)]
  have hall : (serializeFrame type payload ++ xs).drop (kHeaderSize + payload.length) = xs :=
    List.drop_left' (length_serializeFrame type payload)
  rw [nextFrame_good hlen
    (by rw [decodeHeader_serializeFrame, headerError_frameHeader h]), decodeHeader_serializeFrame,
    frameHeader_payloadLen h, if_neg (by rw [List.length_append, length_serializeFrame]; omega),
    hdrop, List.take_left, hall]

/-- Frames written one after another are read one after another. -/
theorem parseFrames_flatMap_serializeFrame (frames : List (MsgType × Bytes))
    (h : ∀ f ∈ frames, f.2.length ≤ kMaxPayload) :
    parseFrames (frames.flatMap fun f ↦ serializeFrame f.1 f.2)
      = ⟨frames.map fun f ↦ ⟨frameHeader f.1 f.2, f.2⟩, none, []⟩ := by
  induction frames with
  | nil => exact parseFrames_more (nextFrame_short (by decide))
  | cons f frames ih =>
    rw [List.forall_mem_cons] at h
    rw [List.flatMap_cons, parseFrames_item (nextFrame_serializeFrame h.1 _), ih h.2,
      List.map_cons]

end LoggerAnalyzer
