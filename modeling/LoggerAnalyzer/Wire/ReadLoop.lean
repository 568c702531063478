import LoggerAnalyzer.Wire.FrameDecoder

/-!
# The documented read loop

`FrameDecoder.h` says how the decoder is to be used: feed what is left of the fragment, stop when
the decoder needs more or has failed, and otherwise handle the frame, reset the decoder and go on.
`drive` is that loop and `read` runs it over the fragments of a stream.

Handling a frame means recording it, with its payload taken from the decoder or, for a payload that
was streamed, put together from the pieces the sink was handed. So that the record depends on the
stream alone, the sink's answers may depend only on the type and the length of a payload; the caller
may also have no sink.

`read_eq_parseFrames` compares the record and the final status with the frames of the whole stream.
-/

namespace LoggerAnalyzer

open Incremental FrameDecoder

/-! ## The loop -/

/-- A sink that answers by type and length and keeps what it is handed. -/
def collector (answer : MsgType → UInt64 → Bool) : PayloadSink Bytes where
  streamPayload type length _ := answer type length
  payloadChunk piece got := got ++ piece

/-- The caller of the decoder: the pieces of the current frame, the frames handled, and the error
with which the decoder stopped the loop, if it did. -/
structure Reader where
  decoder : FrameDecoder := {}
  collected : Bytes := []
  frames : List Frame := []
  failure : Option ErrorCode := none
deriving DecidableEq, Repr

/-- The loop over one fragment. The fuel is the length of the fragment. -/
def drive (sink : Option (PayloadSink Bytes)) : ℕ → Bytes → Reader → Reader
  | 0, _, r => r
  | fuel + 1, data, r =>
    if data = [] then r
    else
      let fed := feed sink data r.decoder r.collected
      match fed.status with
      | .failed =>
        { r with decoder := fed.decoder, collected := fed.sink, failure := some fed.decoder.error }
      | .needMore => { r with decoder := fed.decoder, collected := fed.sink }
      | .ready =>
        drive sink fuel (data.drop fed.consumed)
          { r with decoder := fed.decoder.resetFrame
                   collected := []
                   frames := r.frames ++ [⟨fed.decoder.header,
                     if fed.decoder.streaming then fed.sink else fed.decoder.payload⟩] }

/-- The fragments of a stream, one after another. -/
def read (sink : Option (PayloadSink Bytes)) (frags : List Bytes) : Reader :=
  frags.foldl (fun r data ↦ drive sink data.length data r) {}

/-! ## What the reader holds -/

variable {answer : Option (MsgType → UInt64 → Bool)}

/-- The caller has the pieces of the bytes `p` of an unfinished frame, if it gets them at all. -/
structure Collects (answer : Option (MsgType → UInt64 → Bool)) (d : FrameDecoder) (got p : Bytes) :
    Prop where
  wanted : d.streaming = true → answer.isSome = true
  got : got = if d.streaming then p.drop kHeaderSize else []

private theorem collects_resetFrame (answer : Option (MsgType → UInt64 → Bool)) (d : FrameDecoder) :
    Collects answer d.resetFrame [] [] :=
  ⟨fun h ↦ (Bool.false_ne_true h).elim, rfl⟩

private theorem handOver_collector (answer : MsgType → UInt64 → Bool) (streaming : Bool)
    (xs got : Bytes) :
    handOver (some (collector answer)) (pieceOf streaming xs) got
      = if streaming then got ++ xs else got := by
  cases streaming <;> by_cases hnil : xs = [] <;> simp [handOver, pieceOf, collector, hnil]

/-- The caller keeps up with the decoder. -/
theorem Collects.feed {d : FrameDecoder} {got p : Bytes} (hat : At d p)
    (h : Collects answer d got p) (data : Bytes) :
    let r := FrameDecoder.feed (answer.map collector) data d got
    Collects answer r.decoder r.sink (p ++ data.take r.consumed) := by
  obtain ⟨-, hpiece, hlater, hasked⟩ :=
    advance_spec hat (asks (answer.map collector) got) data
  simp only [feed_eq]
  set r := advance (asks (answer.map collector) got) data d
  have hwanted : r.decoder.streaming = true → answer.isSome = true := by
    intro hs
    rcases Nat.lt_or_ge p.length kHeaderSize with hshort | hlong
    · cases answer with
      | none => exact (Bool.false_ne_true (hasked hshort hs)).elim
      | some _ => rfl
    · exact h.wanted ((hlater hlong).symm.trans hs)
  refine ⟨hwanted, ?_⟩
  rw [hpiece, h.got, List.drop_append]
  -- what is not streamed is not collected; what is goes behind what was collected before
  cases hs : r.decoder.streaming with
  | false =>
    have hd : d.streaming = false := by
      rcases Nat.lt_or_ge p.length kHeaderSize with hshort | hlong
      · exact At.streaming_eq_false hat hshort
      · rw [← hlater hlong, hs]
    have hnone : pieceOf false ((data.take r.consumed).drop (kHeaderSize - p.length)) = none := by
      simp [pieceOf]
    rw [hd, hnone]
    cases answer <;> rfl
  | true =>
    obtain ⟨a, rfl⟩ := Option.isSome_iff_exists.mp (hwanted hs)
    rw [Option.map_some, handOver_collector, if_pos rfl, if_pos rfl]
    congr 1
    rcases Nat.lt_or_ge p.length kHeaderSize with hshort | hlong
    · rw [At.streaming_eq_false hat hshort, List.drop_of_length_le (Nat.le_of_lt hshort)]
      rfl
    · rw [← hlater hlong, hs, if_pos rfl]

/-- The reader has the frames `x.items`; it holds the bytes left over, or stands on the header that
failed. -/
structure Holds (answer : Option (MsgType → UInt64 → Bool)) (r : Reader)
    (x : Parsed UInt8 Frame ErrorCode) : Prop where
  frames : r.frames = x.items
  failure : r.failure = x.failure
  decoder : At r.decoder (if x.failure.isNone then x.left else x.left.take kHeaderSize)
  collected : x.failure = none → Collects answer r.decoder r.collected x.left

/-! ## One fragment -/

/-- A decoder that stands on a bad header takes nothing and says why, again and again. -/
theorem feed_bad {σ : Type*} {d : FrameDecoder} {p : Bytes} {e : ErrorCode} (hat : At d p)
    (hlen : p.length = kHeaderSize) (hnext : nextFrame p = .fail e)
    (sink : Option (PayloadSink σ)) (data : Bytes) (s : σ) :
    (FrameDecoder.feed sink data d s).status = .failed ∧
      (FrameDecoder.feed sink data d s).consumed = 0 ∧
      (FrameDecoder.feed sink data d s).decoder.error = e ∧
      At (FrameDecoder.feed sink data d s).decoder p := by
  have hmeets := feed_meets hat sink data s
  rw [show nextFrame (p ++ data) = .fail e from frameParser.fail_append hnext data] at hmeets
  obtain ⟨hstatus, herror, hused, hstill⟩ := hmeets
  rw [List.take_left' hlen] at hstill
  rw [hlen, Nat.sub_self] at hused
  exact ⟨hstatus, hused, herror, hstill⟩

private theorem drive_holds {fuel : ℕ} {data p : Bytes} {r : Reader} (hfuel : data.length ≤ fuel)
    (hat : At r.decoder p) (hnext : nextFrame p = .more) (hfail : r.failure = none)
    (hgot : Collects answer r.decoder r.collected p) :
    Holds answer (drive (answer.map collector) fuel data r)
      ⟨r.frames ++ (parseFrames (p ++ data)).items, (parseFrames (p ++ data)).failure,
        (parseFrames (p ++ data)).left⟩ := by
  -- each turn takes a byte at least, so there is fuel for all of `data`
  induction fuel generalizing data p r with
  | zero =>
    obtain rfl := List.length_eq_zero_iff.mp (Nat.le_zero.mp hfuel)
    rw [List.append_nil, parseFrames_more hnext, drive]
    exact ⟨(List.append_nil _).symm, hfail, hat, fun _ ↦ hgot⟩
  | succ fuel ih =>
    rw [drive]
    split_ifs with hnil
    · subst hnil
      rw [List.append_nil, parseFrames_more hnext]
      exact ⟨(List.append_nil _).symm, hfail, hat, fun _ ↦ hgot⟩
    have hmeets := feed_meets hat (answer.map collector) data r.collected
    have hkeeps := hgot.feed hat data
    set fed := FrameDecoder.feed (answer.map collector) data r.decoder r.collected
    simp only at hmeets hkeeps
    -- the decoder stands where the parser stands
    cases hout : nextFrame (p ++ data) with
    | more =>
      rw [hout] at hmeets
      obtain ⟨hs, hu, hd⟩ := hmeets
      rw [hu, List.take_length] at hkeeps
      simp only [hs, parseFrames_more hout]
      exact ⟨(List.append_nil _).symm, hfail, hd, fun _ ↦ hkeeps⟩
    | fail e =>
      rw [hout] at hmeets
      obtain ⟨hs, he, hu, hd⟩ := hmeets
      simp only [hs, parseFrames_fail hout]
      exact ⟨(List.append_nil _).symm, congrArg some he, hd, fun h ↦ (Option.some_ne_none _ h).elim⟩
    | item f left =>
      rw [hout] at hmeets
      obtain ⟨hs, hl, hd⟩ := hmeets
      have hshrink := length_left_lt hnext hout
      -- a streamed payload was collected from the pieces, any other is in the decoder
      have hframe : (⟨fed.decoder.header,
          if fed.decoder.streaming then fed.sink else fed.decoder.payload⟩ : Frame) = f := by
        obtain ⟨raw, happ, -, -, hpayload, -⟩ := nextFrame_item hout
        have hraw : raw = p ++ data.take fed.consumed := by
          have hsame : raw ++ left = (p ++ data.take fed.consumed) ++ left := by
            rw [← happ, ← hl, List.append_assoc, List.take_append_drop]
          exact List.append_cancel_right hsame
        have hgot' := hkeeps.got
        have hpay := hd.payload
        cases hstream : fed.decoder.streaming with
        | true =>
          rw [hstream, if_pos rfl, ← hraw, ← hpayload] at hgot'
          rw [if_pos rfl, hgot', hd.header]
        | false =>
          rw [hstream, if_neg Bool.false_ne_true] at hpay
          rw [if_neg Bool.false_ne_true, hpay, hd.header]
      simp only [hs, parseFrames_item hout, hl, hframe]
      have hnext' := ih (p := [])
        (r := { r with decoder := fed.decoder.resetFrame, collected := [],
                       frames := r.frames ++ [f] })
        (show left.length ≤ fuel by omega) (at_resetFrame _) (nextFrame_short (by decide)) hfail
        (collects_resetFrame answer _)
      rwa [List.nil_append, List.append_assoc, List.singleton_append] at hnext'

/-- Reading on, whether or not a header has failed before. -/
theorem Holds.drive {r : Reader} {bs : Bytes} (h : Holds answer r (parseFrames bs)) (data : Bytes) :
    Holds answer (LoggerAnalyzer.drive (answer.map collector) data.length data r)
      (parseFrames (bs ++ data)) := by
  obtain ⟨hframes, hfailure, hdec, hcoll⟩ := h
  -- the reader goes on, or it failed before and fails again
  cases hx : (parseFrames bs).failure with
  | none =>
    rw [hx] at hfailure hdec
    have hnext := nextFrame_left_of_none hx
    have hdrive := drive_holds (Nat.le_refl data.length) hdec hnext hfailure (hcoll hx)
    rw [hframes] at hdrive
    rwa [parseFrames_append hx]
  | some e =>
    rw [hx] at hfailure hdec
    have hnext := nextFrame_left_of_some hx
    obtain ⟨hfull, hbad⟩ := nextFrame_fail hnext
    have hlen : ((parseFrames bs).left.take kHeaderSize).length = kHeaderSize :=
      List.length_take_of_le hfull
    have hsame : ((parseFrames bs).left ++ data).take kHeaderSize
        = (parseFrames bs).left.take kHeaderSize := List.take_append_of_le_length hfull
    rw [parseFrames_append_of_some hx]
    cases data with
    | nil =>
      rw [List.append_nil]
      exact ⟨hframes, hfailure, hdec, fun h ↦ (Option.some_ne_none _ h).elim⟩
    | cons b data =>
      obtain ⟨hstatus, -, herror, hstill⟩ :=
        feed_bad hdec hlen hbad (answer.map collector) (b :: data) r.collected
      rw [List.length_cons, LoggerAnalyzer.drive, if_neg (List.cons_ne_nil b data)]
      simp only [hstatus]
      refine ⟨hframes, congrArg some herror, ?_, fun h ↦ (Option.some_ne_none _ h).elim⟩
      simp only [Option.isNone_some, Bool.false_eq_true, if_false]
      rwa [hsame]

private theorem read_holds (answer : Option (MsgType → UInt64 → Bool)) (frags : List Bytes) :
    Holds answer (read (answer.map collector) frags) (parseFrames frags.flatten) := by
  induction frags using List.reverseRecOn with
  | nil =>
    have hnil : parseFrames [] = ⟨[], none, []⟩ := parseFrames_more (nextFrame_short (by decide))
    rw [List.flatten_nil, hnil]
    exact ⟨rfl, rfl, at_new, fun _ ↦ ⟨fun h ↦ (Bool.false_ne_true h).elim, rfl⟩⟩
  | append_singleton frags data ih =>
    rw [List.flatten_concat, read, List.foldl_concat]
    exact ih.drive data

/-- **The decoder equals the reference under any fragmentation.** The frames are those of the whole
stream, and so is the failure, if any. After a failure every further fragment is refused with the
same error; without one the decoder asks for more. In particular frames that were written are
read. -/
theorem read_eq_parseFrames (answer : Option (MsgType → UInt64 → Bool)) (frags : List Bytes) :
    let r := read (answer.map collector) frags
    let whole := parseFrames frags.flatten
    r.frames = whole.items ∧ r.failure = whole.failure ∧
      (∀ e, whole.failure = some e → ∀ data got,
        (feed (answer.map collector) data r.decoder got).status = .failed ∧
          (feed (answer.map collector) data r.decoder got).consumed = 0 ∧
          (feed (answer.map collector) data r.decoder got).decoder.error = e) ∧
      (whole.failure = none →
        (feed (answer.map collector) [] r.decoder r.collected).status = .needMore) ∧
      ∀ frames : List (MsgType × Bytes), (∀ f ∈ frames, f.2.length ≤ kMaxPayload) →
        frags.flatten = frames.flatMap (fun f ↦ serializeFrame f.1 f.2) →
        r.frames.map (fun f ↦ (f.header.type, f.payload)) = frames ∧ r.failure = none := by
  obtain ⟨hframes, hfailure, hdec, -⟩ := read_holds answer frags
  refine ⟨hframes, hfailure, fun e he data got ↦ ?_, fun hnone ↦ ?_, fun frames hlen heq ↦ ?_⟩
  · have hnext := nextFrame_left_of_some he
    obtain ⟨hfull, hbad⟩ := nextFrame_fail hnext
    rw [he] at hdec
    obtain ⟨hstatus, hused, herror, -⟩ :=
      feed_bad hdec (List.length_take_of_le hfull) hbad (answer.map collector) data got
    exact ⟨hstatus, hused, herror⟩
  · have hnext := nextFrame_left_of_none hnone
    rw [hnone] at hdec
    have hmeets := feed_meets hdec (answer.map collector) []
      (read (answer.map collector) frags).collected
    simp only [Option.isNone_none, if_true, List.append_nil, hnext] at hmeets
    exact hmeets.1
  · rw [hframes, hfailure, heq, parseFrames_flatMap_serializeFrame frames hlen]
    refine ⟨?_, rfl⟩
    rw [List.map_map]
    exact List.map_id'' (fun _ ↦ rfl) frames

/-- Two frames in fragments that cut both of them. -/
theorem read_two_frames :
    (read (none.map collector) [[0x42, 0x59],
      [0x44, 0x41, 1, 0x40, 0, 0, 0, 0, 0, 0, 0, 0, 0, 0, 0x42],
      [0x59, 0x44, 0x41, 1, 0x7F, 0, 0, 0, 0, 0, 0, 0, 0, 0, 1, 9]]).frames.map
        (fun f ↦ (f.header.type, f.payload)) = [(.cancel, []), (.bye, [9])] :=
  ((read_eq_parseFrames none _).2.2.2.2 [(.cancel, []), (.bye, [9])] (by decide) (by decide)).1

end LoggerAnalyzer
