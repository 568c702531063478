import LoggerAnalyzer.Wire.Frame

/-!
# The frame decoder

The event loop hands the server fragments of any size. `FrameDecoder` turns them into frames: it
collects a header, checks it, and then either collects the payload or, when its sink asks for that,
passes the payload on piece by piece as it comes.

## Two halves of `feed`

`feed` is the source's function, with the sink's state threaded through it. The sink is asked one
question, when a header is complete, and is handed at most one piece, and nothing that `feed` does
afterwards depends on the sink again. `advance` is the half that is about the decoder alone; it
says what the piece is, if any. `feed_eq` puts the halves together, and everything after it is
proved about `advance`.

## What the decoder holds

`At d p` says that the decoder `d` has consumed the bytes `p` of a frame it has not completed. The
bytes determine what one more fragment does (`advance_more`, `advance_fail`, `advance_item`), by
the outcome of `frameParser` on the bytes so far and the fragment together.
-/

namespace LoggerAnalyzer

open Incremental

/-! ## The source -/

/-- The consumer of large payloads, `IPayloadSink`. -/
structure PayloadSink (σ : Type*) where
  streamPayload : MsgType → UInt64 → σ → Bool
  payloadChunk : Bytes → σ → σ

inductive DecoderStatus where
  | needMore
  | ready
  | failed
deriving DecidableEq, Repr

inductive DecoderState where
  | header
  | payload
  | complete
deriving DecidableEq, Repr

/-- The fields of a `FrameDecoder`. `headRaw` and `payload` hold the bytes collected so far; the
code keeps their number beside a buffer of the full size. -/
structure FrameDecoder where
  state : DecoderState := .header
  headRaw : Bytes := []
  header : FrameHeader := {}
  payload : Bytes := []
  payloadGot : ℕ := 0
  streaming : Bool := false
  error : ErrorCode := .none
deriving DecidableEq, Repr

namespace FrameDecoder

def resetFrame (d : FrameDecoder) : FrameDecoder :=
  { d with state := .header, headRaw := [], payloadGot := 0, payload := [], streaming := false,
           error := .none }

/-- The results of one call of `feed`. -/
structure Fed (σ : Type*) where
  status : DecoderStatus
  consumed : ℕ
  decoder : FrameDecoder
  sink : σ

variable {σ : Type*}

/-- Whether there is a sink and it wants a payload. -/
def asks (sink : Option (PayloadSink σ)) (s : σ) (type : MsgType) (length : UInt64) : Bool :=
  match sink with
  | some sink => sink.streamPayload type length s
  | none => false

/-- The part of `feed` for `State::Payload`, after `consumed` bytes of the fragment. -/
def feedPayload (sink : Option (PayloadSink σ)) (data : Bytes) (consumed : ℕ) (d : FrameDecoder)
    (s : σ) : Fed σ :=
  let total := d.header.payloadLen.toNat
  let take := min (total - d.payloadGot) data.length
  let piece := data.take take
  let s :=
    if 0 < take ∧ d.streaming then
      match sink with
      | some sink => sink.payloadChunk piece s
      | none => s
    else s
  let d :=
    if 0 < take ∧ ¬d.streaming then { d with payload := d.payload ++ piece } else d
  let d := { d with payloadGot := d.payloadGot + take }
  if d.payloadGot < total then ⟨.needMore, consumed + take, d, s⟩
  else ⟨.ready, consumed + take, { d with state := .complete }, s⟩

def feed (sink : Option (PayloadSink σ)) (data : Bytes) (d : FrameDecoder) (s : σ) : Fed σ :=
  match d.state with
  | .complete => ⟨.ready, 0, d, s⟩
  | .header =>
    let take := min (kHeaderSize - d.headRaw.length) data.length
    let d := { d with headRaw := d.headRaw ++ data.take take }
    if d.headRaw.length < kHeaderSize then ⟨.needMore, take, d, s⟩
    else
      let d := { d with header := decodeHeader d.headRaw }
      if d.header.magic ≠ kMagic then ⟨.failed, take, { d with error := .badMagic }, s⟩
      else if d.header.version ≠ kVersion then
        ⟨.failed, take, { d with error := .badVersion }, s⟩
      else if kMaxPayload < d.header.payloadLen.toNat then
        ⟨.failed, take, { d with error := .payloadTooLarge }, s⟩
      else if d.header.payloadLen.toNat = 0 then ⟨.ready, take, { d with state := .complete }, s⟩
      else
        let streaming := asks sink s d.header.type d.header.payloadLen
        feedPayload sink (data.drop take) take
          { d with streaming := streaming, payload := if streaming then d.payload else [],
                   payloadGot := 0, state := .payload } s
  | .payload => feedPayload sink data 0 d s

/-! ## The decoder without its sink -/

/-- The sink is handed a piece, if there is one. -/
def handOver (sink : Option (PayloadSink σ)) (piece : Option Bytes) (s : σ) : σ :=
  match sink, piece with
  | some sink, some piece => sink.payloadChunk piece s
  | _, _ => s

/-- The results of `feed` but for the sink, and the piece that is for the sink. -/
structure Advanced where
  status : DecoderStatus
  consumed : ℕ
  decoder : FrameDecoder
  piece : Option Bytes

def advancePayload (data : Bytes) (consumed : ℕ) (d : FrameDecoder) : Advanced :=
  let total := d.header.payloadLen.toNat
  let take := min (total - d.payloadGot) data.length
  let piece := data.take take
  let d' :=
    { d with payload := if 0 < take ∧ ¬d.streaming then d.payload ++ piece else d.payload,
             payloadGot := d.payloadGot + take }
  let piece := if 0 < take ∧ d.streaming then some piece else none
  if d'.payloadGot < total then ⟨.needMore, consumed + take, d', piece⟩
  else ⟨.ready, consumed + take, { d' with state := .complete }, piece⟩

/-- `feed`, given the answers of the sink. -/
def advance (answer : MsgType → UInt64 → Bool) (data : Bytes) (d : FrameDecoder) : Advanced :=
  match d.state with
  | .complete => ⟨.ready, 0, d, none⟩
  | .header =>
    let take := min (kHeaderSize - d.headRaw.length) data.length
    let d := { d with headRaw := d.headRaw ++ data.take take }
    if d.headRaw.length < kHeaderSize then ⟨.needMore, take, d, none⟩
    else
      let d := { d with header := decodeHeader d.headRaw }
      match headerError d.header with
      | some e => ⟨.failed, take, { d with error := e }, none⟩
      | none =>
        if d.header.payloadLen.toNat = 0 then ⟨.ready, take, { d with state := .complete }, none⟩
        else
          let streaming := answer d.header.type d.header.payloadLen
          advancePayload (data.drop take) take
            { d with streaming := streaming, payload := if streaming then d.payload else [],
                     payloadGot := 0, state := .payload }
  | .payload => advancePayload data 0 d

private theorem feedPayload_eq (sink : Option (PayloadSink σ)) (data : Bytes) (consumed : ℕ)
    (d : FrameDecoder) (s : σ) :
    feedPayload sink data consumed d s =
      let r := advancePayload data consumed d
      ⟨r.status, r.consumed, r.decoder, handOver sink r.piece s⟩ := by
  simp only [feedPayload, advancePayload]
  cases hs : d.streaming <;> cases sink <;>
    by_cases ht : 0 < min (d.header.payloadLen.toNat - d.payloadGot) data.length <;>
    simp only [hs, ht, handOver, and_true, and_false, not_true, not_false_iff, if_true, if_false,
      Bool.false_eq_true] <;> split_ifs <;> rfl

/-- **`feed` is `advance`, and the piece handed over.** -/
theorem feed_eq (sink : Option (PayloadSink σ)) (data : Bytes) (d : FrameDecoder) (s : σ) :
    feed sink data d s =
      let r := advance (asks sink s) data d
      ⟨r.status, r.consumed, r.decoder, handOver sink r.piece s⟩ := by
  have hnone : handOver sink none s = s := by cases sink <;> rfl
  unfold feed advance
  cases d.state with
  | complete => simp only [hnone]
  | payload => exact feedPayload_eq sink data 0 d s
  | header =>
    simp only [headerError]
    split_ifs <;> first | exact feedPayload_eq sink _ _ _ s | simp only [hnone]

/-! ## What the decoder holds -/

/-- The decoder is inside the payload of a frame of which it has consumed `p`. -/
structure InPayload (d : FrameDecoder) (p : Bytes) : Prop where
  header_le : kHeaderSize ≤ p.length
  good : headerError (decodeHeader (p.take kHeaderSize)) = none
  lt_total : p.length < kHeaderSize + (decodeHeader (p.take kHeaderSize)).payloadLen.toNat
  state : d.state = .payload
  header : d.header = decodeHeader (p.take kHeaderSize)
  got : d.payloadGot = p.length - kHeaderSize
  payload : d.payload = if d.streaming then [] else p.drop kHeaderSize

/-- The decoder has consumed the bytes `p` of a frame it has not completed. -/
inductive At : FrameDecoder → Bytes → Prop where
  | head {d : FrameDecoder} {p : Bytes} (short : p.length < kHeaderSize)
      (state : d.state = .header) (raw : d.headRaw = p) (payload : d.payload = [])
      (streaming : d.streaming = false) : At d p
  | bad {d : FrameDecoder} {p : Bytes} {e : ErrorCode} (full : p.length = kHeaderSize)
      (err : headerError (decodeHeader p) = some e) (state : d.state = .header)
      (raw : d.headRaw = p) (payload : d.payload = []) (streaming : d.streaming = false)
      (error : d.error = e) : At d p
  | body {d : FrameDecoder} {p : Bytes} (inside : InPayload d p) : At d p

/-- The decoder has completed the frame `f`. -/
structure Completed (d : FrameDecoder) (f : Frame) : Prop where
  state : d.state = .complete
  header : d.header = f.header
  payload : d.payload = if d.streaming then [] else f.payload

theorem at_new : At {} [] := .head (by decide) rfl rfl rfl rfl

theorem at_resetFrame (d : FrameDecoder) : At d.resetFrame [] := .head (by decide) rfl rfl rfl rfl

/-- Bytes of a header are not streamed. -/
theorem At.streaming_eq_false {d : FrameDecoder} {p : Bytes} (h : At d p)
    (hshort : p.length < kHeaderSize) : d.streaming = false := by
  cases h with
  | head _ _ _ _ streaming => exact streaming
  | bad _ _ _ _ _ streaming => exact streaming
  | body inside => exact absurd inside.header_le (by omega)

/-- Between two frames the decoder holds what it has of the header. -/
theorem At.headRaw {d : FrameDecoder} {p : Bytes} (h : At d p) (hstate : d.state = .header) :
    d.headRaw = p := by
  cases h with
  | head _ _ raw => exact raw
  | bad _ _ _ raw => exact raw
  | body inside => exact absurd (inside.state.symm.trans hstate) (by decide)

/-- The decoder is between two frames only if it holds nothing. -/
theorem At.eq_nil {d : FrameDecoder} {p : Bytes} (h : At d p) (hnone : At d []) : p = [] := by
  cases hnone with
  | head _ state raw => exact (h.headRaw state).symm.trans raw
  | bad full => exact absurd full (by decide)
  | body inside => exact absurd inside.header_le (by decide)

/-- A header that failed is not streamed either. -/
theorem At.streaming_of_fail {d : FrameDecoder} {p : Bytes} (h : At d p) {e : ErrorCode}
    (hfail : nextFrame p = .fail e) : d.streaming = false := by
  cases h with
  | head _ _ _ _ streaming => exact streaming
  | bad _ _ _ _ _ streaming => exact streaming
  | body inside =>
    rcases nextFrame_cases p with ⟨_, hn⟩ | ⟨_, e, herr, _⟩ | ⟨_, _, _, hn⟩ | ⟨_, _, _, hn⟩
    · exact absurd (hn.symm.trans hfail) (by simp)
    · exact absurd (herr.symm.trans inside.good) (by simp)
    · exact absurd (hn.symm.trans hfail) (by simp)
    · exact absurd (hn.symm.trans hfail) (by simp)

/-- The bytes that the decoder holds never make a frame by themselves. -/
theorem At.next_ne_item {d : FrameDecoder} {p : Bytes} (h : At d p) {f : Frame} {left : Bytes} :
    nextFrame p ≠ .item f left := by
  cases h with
  | head short => simp [nextFrame_short short]
  | bad full err =>
    rw [nextFrame_bad (Nat.le_of_eq full.symm) (by rwa [← full, List.take_length])]
    simp
  | body inside => simp [nextFrame_good inside.header_le inside.good, inside.lt_total]

/-- What a frame begins with is incomplete. -/
theorem At.next_more {d : FrameDecoder} {p data left : Bytes} {f : Frame} (h : At d p)
    (hnext : nextFrame (p ++ data) = .item f left) : nextFrame p = .more := by
  cases hp : nextFrame p with
  | more => rfl
  | fail e =>
    have hfail := frameParser.fail_append hp data
    rw [frameParser_next, hnext] at hfail
    cases hfail
  | item f' left' => exact absurd hp h.next_ne_item

/-- A piece for the sink: what there is, unless it is not wanted or empty. -/
def pieceOf (streaming : Bool) (xs : Bytes) : Option Bytes :=
  if xs ≠ [] ∧ streaming then some xs else none

/-- What `advancePayload` does to a decoder inside a payload. -/
theorem advancePayload_eq {d : FrameDecoder} {p : Bytes} (h : InPayload d p) (data : Bytes)
    (consumed : ℕ) :
    let total := kHeaderSize + (decodeHeader (p.take kHeaderSize)).payloadLen.toNat
    let r := advancePayload data consumed d
    r.piece = pieceOf d.streaming (data.take (total - p.length)) ∧
      r.decoder.streaming = d.streaming ∧
      r.consumed = consumed + min (total - p.length) data.length ∧
      (p.length + data.length < total → r.status = .needMore ∧ InPayload r.decoder (p ++ data)) ∧
      (total ≤ p.length + data.length → r.status = .ready ∧
        Completed r.decoder ⟨decodeHeader (p.take kHeaderSize),
          (p.drop kHeaderSize ++ data).take (decodeHeader (p.take kHeaderSize)).payloadLen.toNat⟩)
      := by
  obtain ⟨hle, hgood, hlt, hstate, hheader, hgot, hpayload⟩ := h
  set len := (decodeHeader (p.take kHeaderSize)).payloadLen.toNat with hlen
  -- what the payload still wants is what the frame still wants
  have hwant : d.header.payloadLen.toNat - d.payloadGot = kHeaderSize + len - p.length := by
    rw [hheader, hgot, ← hlen]
    omega
  have htake : data.take (min (kHeaderSize + len - p.length) data.length)
      = data.take (kHeaderSize + len - p.length) := by
    rw [← List.take_take, List.take_length]
  have hpos : 0 < min (kHeaderSize + len - p.length) data.length
      ↔ data.take (kHeaderSize + len - p.length) ≠ [] := by
    rw [← List.length_pos_iff, List.length_take]
  have hdrop : (p.drop kHeaderSize).length = p.length - kHeaderSize := List.length_drop
  simp only [advancePayload, hwant, htake, hpos]
  have hlen' : d.header.payloadLen.toNat = len := by rw [hheader]
  refine ⟨?_, ?_, ?_, fun hmore ↦ ?_, fun hall ↦ ?_⟩
  · split_ifs <;> simp_all [pieceOf]
  · split_ifs <;> rfl
  · split_ifs <;> rfl
  · -- the frame goes on behind `data`
    have hfew : d.payloadGot + min (kHeaderSize + len - p.length) data.length
        < d.header.payloadLen.toNat := by
      rw [hlen', hgot]
      omega
    rw [if_pos hfew]
    refine ⟨rfl, ?_, ?_, ?_, hstate, ?_, ?_, ?_⟩
    · rw [List.length_append]
      omega
    · rwa [List.take_append_of_le_length hle]
    · rw [List.take_append_of_le_length hle, List.length_append, ← hlen]
      exact hmore
    · rw [List.take_append_of_le_length hle]
      exact hheader
    · show d.payloadGot + _ = _
      rw [hgot, List.length_append]
      omega
    · rw [List.take_of_length_le (by omega), hpayload, List.drop_append_of_le_length hle]
      cases d.streaming
      · by_cases hnil : data = [] <;> simp [hnil]
      · simp
  · -- the frame ends in `data`
    have hfull : ¬d.payloadGot + min (kHeaderSize + len - p.length) data.length
        < d.header.payloadLen.toNat := by
      rw [hlen', hgot]
      omega
    rw [if_neg hfull]
    refine ⟨rfl, rfl, hheader, ?_⟩
    rw [List.take_append, List.take_of_length_le (l := p.drop kHeaderSize) (by omega), hdrop]
    have hwant' : len - (p.length - kHeaderSize) = kHeaderSize + len - p.length := by omega
    rw [hwant', hpayload]
    cases d.streaming
    · by_cases hnil : data.take (kHeaderSize + len - p.length) = [] <;> simp [hnil]
    · simp

/-- What one attempt at the bytes `p` and the fragment `data` together calls for: the status, how
much of the fragment is consumed, and what the decoder holds then. -/
def Meets (p data : Bytes) (status : DecoderStatus) (consumed : ℕ) (d : FrameDecoder) :
    Outcome UInt8 Frame ErrorCode → Prop
  | .more => status = .needMore ∧ consumed = data.length ∧ At d (p ++ data)
  | .fail e => status = .failed ∧ d.error = e ∧ consumed = kHeaderSize - p.length ∧
      At d ((p ++ data).take kHeaderSize)
  | .item f left => status = .ready ∧ data.drop consumed = left ∧ Completed d f

/-- Inside a payload, relative to where the piece of the fragment begins. -/
theorem advancePayload_meets {d : FrameDecoder} {p : Bytes} (h : InPayload d p) (data : Bytes)
    (consumed : ℕ) :
    let r := advancePayload data consumed d
    r.consumed = consumed + (r.consumed - consumed) ∧
    Meets p data r.status (r.consumed - consumed) r.decoder (nextFrame (p ++ data)) ∧
      r.piece = pieceOf r.decoder.streaming (data.take (r.consumed - consumed)) ∧
      r.decoder.streaming = d.streaming := by
  obtain ⟨hpiece, hstream, hcons, hmore, hall⟩ := advancePayload_eq h data consumed
  obtain ⟨hle, hgood, hlt, -⟩ := h
  set r := advancePayload data consumed d
  set len := (decodeHeader (p.take kHeaderSize)).payloadLen.toNat with hlen
  have hfirst : (p ++ data).take kHeaderSize = p.take kHeaderSize :=
    List.take_append_of_le_length hle
  have hlong : kHeaderSize ≤ (p ++ data).length := by
    rw [List.length_append]
    omega
  -- the header is in `p`, so `data` decides nothing but how much of the payload is there
  have hnext := nextFrame_good hlong (by rwa [hfirst])
  rw [hfirst, ← hlen, List.length_append] at hnext
  have hdiff : r.consumed - consumed = min (kHeaderSize + len - p.length) data.length := by omega
  refine ⟨by omega, ?_, ?_, hstream⟩
  · rw [hnext, hdiff]
    split_ifs with hshort
    · obtain ⟨hstatus, hin⟩ := hmore hshort
      exact ⟨hstatus, by omega, .body hin⟩
    · obtain ⟨hstatus, hdone⟩ := hall (Nat.not_lt.mp hshort)
      refine ⟨hstatus, ?_, ?_⟩
      · rw [List.drop_append, List.drop_of_length_le (l := p) (by omega), List.nil_append]
        congr 1
        omega
      · rwa [List.drop_append_of_le_length hle]
  · rw [hpiece, hstream, hdiff, ← List.take_take, List.take_length]

/-! ### Completing a header -/

/-- A header that stays incomplete. -/
theorem advance_short {d : FrameDecoder} (state : d.state = .header)
    (answer : MsgType → UInt64 → Bool) {data : Bytes}
    (h : (d.headRaw ++ data).length < kHeaderSize) :
    advance answer data d
      = ⟨.needMore, data.length, { d with headRaw := d.headRaw ++ data }, none⟩ := by
  have htake : min (kHeaderSize - d.headRaw.length) data.length = data.length := by
    rw [List.length_append] at h
    omega
  simp only [advance, state, htake, List.take_length, if_pos h]

/-- The bytes with which a header becomes complete. -/
theorem header_completed {raw data : Bytes} (hraw : raw.length ≤ kHeaderSize)
    (h : kHeaderSize ≤ (raw ++ data).length) :
    min (kHeaderSize - raw.length) data.length = kHeaderSize - raw.length ∧
      raw ++ data.take (kHeaderSize - raw.length) = (raw ++ data).take kHeaderSize ∧
      ((raw ++ data).take kHeaderSize).length = kHeaderSize := by
  refine ⟨?_, ?_, ?_⟩
  · rw [List.length_append] at h
    omega
  · rw [List.take_append, List.take_of_length_le hraw]
  · rw [List.length_take]
    omega

/-- A bad header, which becomes complete or has been for some time. -/
theorem advance_bad {d : FrameDecoder} (state : d.state = .header)
    (answer : MsgType → UInt64 → Bool) {data : Bytes} {e : ErrorCode}
    (hraw : d.headRaw.length ≤ kHeaderSize) (h : kHeaderSize ≤ (d.headRaw ++ data).length)
    (err : headerError (decodeHeader ((d.headRaw ++ data).take kHeaderSize)) = some e) :
    advance answer data d = ⟨.failed, kHeaderSize - d.headRaw.length,
      { d with headRaw := (d.headRaw ++ data).take kHeaderSize,
               header := decodeHeader ((d.headRaw ++ data).take kHeaderSize), error := e },
      none⟩ := by
  obtain ⟨htake, happ, hlen⟩ := header_completed hraw h
  simp only [advance, state, htake, happ, hlen, Nat.lt_irrefl, if_false, err]

/-- A good header of a frame without payload becomes complete. -/
theorem advance_empty {d : FrameDecoder} (state : d.state = .header)
    (answer : MsgType → UInt64 → Bool) {data : Bytes}
    (hraw : d.headRaw.length ≤ kHeaderSize) (h : kHeaderSize ≤ (d.headRaw ++ data).length)
    (good : headerError (decodeHeader ((d.headRaw ++ data).take kHeaderSize)) = none)
    (hzero : (decodeHeader ((d.headRaw ++ data).take kHeaderSize)).payloadLen.toNat = 0) :
    advance answer data d = ⟨.ready, kHeaderSize - d.headRaw.length,
      { d with headRaw := (d.headRaw ++ data).take kHeaderSize,
               header := decodeHeader ((d.headRaw ++ data).take kHeaderSize), state := .complete },
      none⟩ := by
  obtain ⟨htake, happ, hlen⟩ := header_completed hraw h
  simp only [advance, state, htake, happ, hlen, Nat.lt_irrefl, if_false, good, hzero, if_true]

/-- The decoder on its way from a complete header into the payload. -/
def entering (answer : MsgType → UInt64 → Bool) (first : Bytes) (d : FrameDecoder) : FrameDecoder :=
  let streaming := answer (decodeHeader first).type (decodeHeader first).payloadLen
  { d with headRaw := first, header := decodeHeader first, streaming := streaming,
           payload := if streaming then d.payload else [], payloadGot := 0, state := .payload }

private theorem inPayload_entering {d : FrameDecoder} (answer : MsgType → UInt64 → Bool)
    {first : Bytes}
    (hlen : first.length = kHeaderSize) (good : headerError (decodeHeader first) = none)
    (hpos : (decodeHeader first).payloadLen.toNat ≠ 0) (payload : d.payload = []) :
    InPayload (entering answer first d) first := by
  have hself : first.take kHeaderSize = first := List.take_of_length_le (Nat.le_of_eq hlen)
  refine ⟨Nat.le_of_eq hlen.symm, by rwa [hself], by rw [hself]; omega, rfl, by rw [hself]; rfl,
    ?_, ?_⟩
  · rw [hlen, Nat.sub_self]
    rfl
  · rw [List.drop_of_length_le (Nat.le_of_eq hlen)]
    simp only [entering, payload, ite_self]

/-- A good header of a frame with a payload becomes complete. -/
theorem advance_entering {d : FrameDecoder} (state : d.state = .header)
    (answer : MsgType → UInt64 → Bool) {data : Bytes}
    (hraw : d.headRaw.length ≤ kHeaderSize) (h : kHeaderSize ≤ (d.headRaw ++ data).length)
    (good : headerError (decodeHeader ((d.headRaw ++ data).take kHeaderSize)) = none)
    (hpos : (decodeHeader ((d.headRaw ++ data).take kHeaderSize)).payloadLen.toNat ≠ 0) :
    advance answer data d = advancePayload (data.drop (kHeaderSize - d.headRaw.length))
      (kHeaderSize - d.headRaw.length) (entering answer ((d.headRaw ++ data).take kHeaderSize) d)
    := by
  obtain ⟨htake, happ, hlen⟩ := header_completed hraw h
  simp only [advance, state, htake, happ, hlen, Nat.lt_irrefl, if_false, good, hpos, entering]

/-! ### One step -/

/-- How `streaming` comes about: it is the answer of the sink from the moment the header of a frame
with a payload is complete, and never set without it. -/
structure Asked (answer : MsgType → UInt64 → Bool) (p data : Bytes) (before after : Bool) :
    Prop where
  inside : kHeaderSize ≤ p.length → after = before
  yes : p.length < kHeaderSize → after = true →
    answer (decodeHeader ((p ++ data).take kHeaderSize)).type
      (decodeHeader ((p ++ data).take kHeaderSize)).payloadLen = true
  told : p.length < kHeaderSize → kHeaderSize ≤ (p ++ data).length →
    headerError (decodeHeader ((p ++ data).take kHeaderSize)) = none →
    (decodeHeader ((p ++ data).take kHeaderSize)).payloadLen.toNat ≠ 0 →
    after = answer (decodeHeader ((p ++ data).take kHeaderSize)).type
      (decodeHeader ((p ++ data).take kHeaderSize)).payloadLen

/-- **One step of the decoder** does what the reference says of the bytes, passes on exactly the
part of the fragment that belongs to the payload, and asks the sink only when the header becomes
complete. -/
theorem advance_spec {d : FrameDecoder} {p : Bytes} (h : At d p)
    (answer : MsgType → UInt64 → Bool) (data : Bytes) :
    let r := advance answer data d
    Meets p data r.status r.consumed r.decoder (nextFrame (p ++ data)) ∧
      r.piece = pieceOf r.decoder.streaming ((data.take r.consumed).drop (kHeaderSize - p.length)) ∧
      Asked answer p data d.streaming r.decoder.streaming := by
  have hempty : ∀ xs, pieceOf false xs = none := fun xs ↦ by simp [pieceOf]
  cases h with
  | body inside =>
    -- the header is complete already
    obtain ⟨-, hmeets, hpiece, hstream⟩ := advancePayload_meets inside data 0
    have hle := inside.header_le
    simp only [advance, inside.state]
    refine ⟨hmeets, ?_, fun _ ↦ hstream, fun hlt ↦ absurd hlt (by omega),
      fun hlt ↦ absurd hlt (by omega)⟩
    rw [Nat.sub_eq_zero_of_le hle, List.drop_zero]
    exact hpiece
  | @bad e full err state raw payload streaming error =>
    subst raw
    -- the header was refused, and is refused again
    have hfirst : (d.headRaw ++ data).take kHeaderSize = d.headRaw := List.take_left' full
    have hlen : kHeaderSize ≤ (d.headRaw ++ data).length := by
      rw [List.length_append]
      omega
    have herr : headerError (decodeHeader ((d.headRaw ++ data).take kHeaderSize)) = some e := by
      rwa [hfirst]
    rw [advance_bad state answer (Nat.le_of_eq full) hlen herr, nextFrame_bad hlen herr]
    refine ⟨⟨rfl, rfl, rfl, ?_⟩, ?_, fun _ ↦ rfl, fun hlt ↦ absurd hlt (by omega),
      fun hlt ↦ absurd hlt (by omega)⟩
    · rw [hfirst]
      exact .bad full err state rfl payload streaming rfl
    · simp only [streaming, hempty]
  | head short state raw payload streaming =>
    subst raw
    have hraw := Nat.le_of_lt short
    -- the header is still incomplete, or complete and bad, or complete and good
    rcases nextFrame_cases (d.headRaw ++ data) with ⟨hshort, hnext⟩ | ⟨hlen, e, err, hnext⟩ | hgood
    · rw [advance_short state answer hshort, hnext]
      refine ⟨⟨rfl, rfl, .head hshort state rfl payload streaming⟩, ?_, fun _ ↦ rfl, ?_, ?_⟩
      · simp only [streaming, hempty]
      · simp [streaming]
      · exact fun _ hle ↦ absurd hle (by omega)
    · rw [advance_bad state answer hraw hlen err, hnext]
      refine ⟨⟨rfl, rfl, rfl, ?_⟩, ?_, fun _ ↦ rfl, ?_, ?_⟩
      · exact .bad (header_completed hraw hlen).2.2 err state rfl payload streaming rfl
      · simp only [streaming, hempty]
      · simp [streaming]
      · exact fun _ _ good ↦ absurd (good.symm.trans err) (by simp)
    have hlen : kHeaderSize ≤ (d.headRaw ++ data).length := hgood.elim And.left And.left
    have good : headerError (decodeHeader ((d.headRaw ++ data).take kHeaderSize)) = none :=
      hgood.elim (·.2.1) (·.2.1)
    obtain ⟨-, happ, hfull⟩ := header_completed hraw hlen
    -- the frame is empty, or its payload begins in `data`
    by_cases hzero : (decodeHeader ((d.headRaw ++ data).take kHeaderSize)).payloadLen.toNat = 0
    · rw [advance_empty state answer hraw hlen good hzero, nextFrame_good hlen good, hzero,
        if_neg (by omega)]
      refine ⟨⟨rfl, ?_, rfl, rfl, ?_⟩, ?_, fun _ ↦ rfl, ?_, ?_⟩
      · rw [Nat.add_zero, List.drop_append, List.drop_of_length_le hraw, List.nil_append]
      · simp [payload]
      · simp only [streaming, hempty]
      · simp [streaming]
      · exact fun _ _ _ hpos ↦ absurd hzero hpos
    · have inside := inPayload_entering answer hfull good hzero payload
      obtain ⟨hcons, hmeets, hpiece, hstream⟩ := advancePayload_meets inside
        (data.drop (kHeaderSize - d.headRaw.length)) (kHeaderSize - d.headRaw.length)
      have hwhole : (d.headRaw ++ data).take kHeaderSize
          ++ data.drop (kHeaderSize - d.headRaw.length) = d.headRaw ++ data := by
        rw [← happ, List.append_assoc, List.take_append_drop]
      rw [hwhole] at hmeets
      rw [advance_entering state answer hraw hlen good hzero]
      set r := advancePayload (data.drop (kHeaderSize - d.headRaw.length))
        (kHeaderSize - d.headRaw.length)
        (entering answer ((d.headRaw ++ data).take kHeaderSize) d)
      refine ⟨?_, ?_, fun hle ↦ absurd hle (by omega), fun _ hs ↦ ?_, fun _ _ _ _ ↦ hstream⟩
      · rw [List.length_append] at hlen
        cases hnext : nextFrame (d.headRaw ++ data) with
        | more =>
          rw [hnext] at hmeets
          obtain ⟨hstatus, hused, hat⟩ := hmeets
          rw [hwhole] at hat
          simp only [List.length_drop] at hused
          exact ⟨hstatus, by omega, hat⟩
        | fail e =>
          have hlong : kHeaderSize ≤ (d.headRaw ++ data).length := by
            rw [List.length_append]
            omega
          have hitem := nextFrame_good hlong good
          rw [hnext] at hitem
          split_ifs at hitem
        | item f left =>
          rw [hnext] at hmeets
          obtain ⟨hstatus, hleft, hdone⟩ := hmeets
          refine ⟨hstatus, ?_, hdone⟩
          rw [hcons, ← List.drop_drop]
          exact hleft
      · rw [hpiece, List.drop_take]
      · rw [hstream] at hs
        exact hs

/-- The part of a fragment that belongs to the payload of a frame that it completes. -/
theorem drop_take_of_item {p data left : Bytes} {f : Frame} {consumed : ℕ}
    (h : nextFrame (p ++ data) = .item f left) (hleft : data.drop consumed = left) :
    (data.take consumed).drop (kHeaderSize - p.length)
      = f.payload.drop (p.length - kHeaderSize) := by
  obtain ⟨raw, happ, -, -, hpayload, -⟩ := nextFrame_item h
  have hraw : raw = p ++ data.take consumed := by
    have hsame : raw ++ left = (p ++ data.take consumed) ++ left := by
      rw [← happ, List.append_assoc, ← hleft, List.take_append_drop]
    exact List.append_cancel_right hsame
  rw [hpayload, hraw, List.drop_append, ← List.length_drop, List.drop_left]

/-- **`feed` does what the reference says of the bytes**, whatever the sink. -/
theorem feed_meets {d : FrameDecoder} {p : Bytes} (h : At d p) (sink : Option (PayloadSink σ))
    (data : Bytes) (s : σ) :
    let r := feed sink data d s
    Meets p data r.status r.consumed r.decoder (nextFrame (p ++ data)) := by
  rw [feed_eq]
  exact (advance_spec h (asks sink s) data).1

end FrameDecoder

end LoggerAnalyzer
