import LoggerAnalyzer.Session.Service

/-!
# Frames in reads of any size

The bytes of frames that are in order may reach a session in reads of any size. `serves_run` says
that it makes no difference: the session ends up where the machine of `service` does, and sends what
that machine answers.

The relation that carries the proof is `Progress`. It holds between any two rounds of the loop, so
also in the middle of a header or of a payload, and says which frames are done with, how much of the
next one is in, and what bytes are still to come.
-/

namespace LoggerAnalyzer

open Incremental FrameDecoder

/-! ## The frame at the front -/

section Frames

variable {type : MsgType} {payload p more tail : Bytes}

/-- Bytes of a frame that do not make the whole frame. -/
theorem length_lt_of_incomplete (hsmall : payload.length ≤ kMaxPayload)
    (happ : p ++ more = serializeFrame type payload ++ tail)
    (hnext : ∀ f left, nextFrame p ≠ .item f left) :
    p.length < kHeaderSize + payload.length := by
  refine Nat.lt_of_not_le ?_
  intro hlong
  obtain ⟨rest, hrest⟩ := List.prefix_of_prefix_length_le
    (happ ▸ List.prefix_append (serializeFrame type payload) tail) (List.prefix_append p more)
    (by rw [length_serializeFrame]; exact hlong)
  exact hnext _ _ (hrest ▸ nextFrame_serializeFrame hsmall rest)

/-- The bytes of the payload that are in. -/
theorem drop_header (happ : p ++ more = serializeFrame type payload ++ tail)
    (hlen : p.length ≤ kHeaderSize + payload.length) :
    p.drop kHeaderSize = payload.take (p.length - kHeaderSize) := by
  have hpayload : (p ++ more).drop kHeaderSize = payload ++ tail := by
    rw [happ, serializeFrame, List.append_assoc, List.drop_left' (length_encodeHeader _)]
  have hdrop : (p.drop kHeaderSize).length = p.length - kHeaderSize := List.length_drop
  have htake : (payload ++ tail).take (p.length - kHeaderSize)
      = payload.take (p.length - kHeaderSize) := List.take_append_of_le_length (by omega)
  rw [← htake, ← hpayload, List.drop_append, ← hdrop, List.take_left]

/-- The header of the frame at the front. -/
theorem decodeHeader_front (happ : p ++ more = serializeFrame type payload ++ tail)
    (hlen : kHeaderSize ≤ p.length) :
    decodeHeader (p.take kHeaderSize) = frameHeader type payload := by
  rw [← decodeHeader_serializeFrame type payload tail, ← happ,
    List.take_append_of_le_length hlen]

/-- What one attempt at bytes of a frame finds. -/
theorem nextFrame_front (hsmall : payload.length ≤ kMaxPayload)
    (happ : p ++ more = serializeFrame type payload ++ tail) :
    (nextFrame p = .more ∧ p.length < kHeaderSize + payload.length) ∨
      ∃ left, nextFrame p = .item ⟨frameHeader type payload, payload⟩ left ∧
        left ++ more = tail := by
  have hwhole : nextFrame (serializeFrame type payload ++ tail) = _ :=
    nextFrame_serializeFrame hsmall tail
  rw [← happ] at hwhole
  cases hnext : nextFrame p with
  | more =>
    exact .inl ⟨rfl, length_lt_of_incomplete hsmall happ (by simp [hnext])⟩
  | fail e =>
    have hfail := frameParser.fail_append hnext more
    rw [frameParser_next, hwhole] at hfail
    cases hfail
  | item f left =>
    have hitem := frameParser.item_append hnext more
    rw [frameParser_next, hwhole] at hitem
    cases hitem
    exact .inr ⟨left, rfl, rfl⟩

end Frames

namespace Conversation

variable {D : Type} [DoubleOps D]

/-- The acknowledgements that belong to a frame of this type. -/
def AcksOnly (type : MsgType) (part : List (MsgType × Bytes)) : Prop :=
  if type = .uploadChunk then ∀ m ∈ part, m.1 = MsgType.uploadAck else part = []

theorem AcksOnly.nil (type : MsgType) : AcksOnly type [] := by
  unfold AcksOnly
  split_ifs <;> simp

theorem AcksOnly.append {type : MsgType} {part part' : List (MsgType × Bytes)}
    (h : AcksOnly type part) (h' : AcksOnly type part') : AcksOnly type (part ++ part') := by
  unfold AcksOnly at *
  split_ifs at * with htype
  · exact fun m hm ↦ (List.mem_append.mp hm).elim (h m) (h' m)
  · rw [h, h', List.append_nil]

/-- Acknowledgements on the way are part of the answer. -/
theorem AcksOnly.answers {phase : Phase} {type : MsgType} {payload : Bytes}
    {part reply : List (MsgType × Bytes)} (h : AcksOnly type part)
    (hans : Answers D phase (type, payload) reply) :
    Answers D phase (type, payload) (part ++ reply) := by
  unfold AcksOnly at h
  split_ifs at h with htype
  · subst htype
    cases hans with
    | chunk all => exact .chunk fun m hm ↦ (List.mem_append.mp hm).elim (h m) (all m)
  · rwa [h, List.nil_append]

/-- The first of the frames still to come, of which `p` is in: the part of a chunk that is in, the
acknowledgements that were sent on the way, and whether the payload is streamed. -/
inductive Front :
    List (MsgType × Bytes) → Bytes → Bytes → List (MsgType × Bytes) → Bool → Prop where
  | nothing {streaming} : Front [] [] [] [] streaming
  | frame {type payload rest p q part streaming}
    (inside : q = if type = .uploadChunk then p.drop kHeaderSize else [])
    (acks : AcksOnly type part)
    (streams : kHeaderSize ≤ p.length → streaming = decide (type = .uploadChunk)) :
    Front ((type, payload) :: rest) p q part streaming

theorem Front.boundary (rest : List (MsgType × Bytes)) (streaming : Bool) :
    Front rest [] [] [] streaming := by
  cases rest with
  | nil => exact .nothing
  | cons f rest =>
    exact .frame (by simp) (.nil _) fun hlen ↦ absurd hlen (by decide)

omit [DoubleOps D] in
/-- Whether the payload at the front is streamed, once its header is in. -/
theorem streaming_front {type : MsgType} {payload p data more tail : Bytes} {c : Conversation D}
    {before after : Bool} (hasked : Asked c.streams p data before after)
    (hsmall : payload.length ≤ kMaxPayload)
    (happ : p ++ data ++ more = serializeFrame type payload ++ tail)
    (hbefore : kHeaderSize ≤ p.length → before = decide (type = .uploadChunk))
    (hchunk : type = .uploadChunk → payload ≠ [] ∧ payload.length ≤ kDefaultMaxChunk ∧
      c.state = .uploading)
    (hlen : kHeaderSize ≤ (p ++ data).length) : after = decide (type = .uploadChunk) := by
  rcases Nat.lt_or_ge p.length kHeaderSize with hshort | hlong
  · have hheader := decodeHeader_front happ hlen
    by_cases htype : type = .uploadChunk
    · obtain ⟨hne, hmax, hstate⟩ := hchunk htype
      have hpos : payload.length ≠ 0 := fun h ↦ hne (List.length_eq_zero_iff.mp h)
      have htold := hasked.told hshort hlen
        (by rw [hheader, headerError_frameHeader hsmall])
        (by rw [hheader, frameHeader_payloadLen hsmall]; exact hpos)
      rw [hheader, streams, frameHeader_payloadLen hsmall] at htold
      simpa [htype, hmax, hstate, frameHeader] using htold
    · rw [decide_eq_false htype]
      refine Bool.eq_false_iff.mpr fun hafter ↦ htype ?_
      have hyes := hasked.yes hshort hafter
      rw [hheader, streams] at hyes
      exact of_decide_eq_true (Bool.and_eq_true_iff.mp (Bool.and_eq_true_iff.mp hyes).1).1
  · rw [hasked.inside hlong, hbefore hlong]

/-- What is handed over of the frame at the front. -/
theorem Serving.takesPiece {phase : Phase} {type : MsgType} {q xs : Bytes}
    {sent : List (MsgType × Bytes)} {c c' : Conversation D} {streaming : Bool}
    (h : Serving phase q sent c) (hstreaming : xs ≠ [] → streaming = decide (type = .uploadChunk))
    (hchunk : type = .uploadChunk → ∃ declared chunks, phase = .uploading declared chunks ∧
      chunks.flatten.length + (q ++ xs).length ≤ declared)
    (ht : TakesPiece (pieceOf streaming xs) c c') :
    ∃ acks, AcksOnly type acks ∧
      Serving phase (if type = .uploadChunk then q ++ xs else q) (sent ++ acks) c' := by
  -- nothing is handed over, or a piece of a chunk, or a payload that is not streamed
  by_cases hnil : xs = []
  · rw [hnil, pieceOf, if_neg (by simp)] at ht
    cases ht
    refine ⟨[], .nil type, ?_⟩
    rw [hnil, List.append_nil, List.append_nil, ite_self]
    exact h
  by_cases htype : type = .uploadChunk
  · obtain ⟨declared, chunks, rfl, hfits⟩ := hchunk htype
    rw [hstreaming hnil, decide_eq_true htype, pieceOf, if_pos ⟨hnil, rfl⟩] at ht
    cases ht with
    | some takes =>
      obtain ⟨acks, hall, hserving⟩ := h.takes hnil hfits takes
      refine ⟨acks, ?_, ?_⟩
      · rw [AcksOnly, if_pos htype]
        exact hall
      · rw [if_pos htype]
        exact hserving
  · rw [hstreaming hnil, decide_eq_false htype, pieceOf, if_neg (by simp)] at ht
    cases ht
    refine ⟨[], .nil type, ?_⟩
    rw [if_neg htype, List.append_nil]
    exact h

/-! ## One frame

The frame at the front is `(type, payload)`. The machine would take it, `p` of it is in, and the
read brings `data`. -/

section Frame

variable {phase phase' : Phase} {type : MsgType} {payload p q data more tail : Bytes}
  {rest part sent : List (MsgType × Bytes)} {c c₁ c₂ : Conversation D} {d : FrameDecoder}
  {goesOn : Bool} (hnext : phase.next (type, payload) = some phase')
  (hsmall : payload.length ≤ kMaxPayload) (hserving : Serving phase q sent c)
  (hfront : Front ((type, payload) :: rest) p q part c.decoder.streaming)
  (happ : p ++ data ++ more = serializeFrame type payload ++ tail)
  (hasked : Asked c.streams p data c.decoder.streaming d.streaming)

include hnext hserving in
theorem chunk_front (htype : type = .uploadChunk) :
    payload ≠ [] ∧ payload.length ≤ kDefaultMaxChunk ∧ c.state = .uploading ∧
      ∃ declared chunks, phase = .uploading declared chunks ∧
        chunks.flatten.length + payload.length ≤ declared := by
  subst htype
  obtain ⟨declared, chunks, rfl, hne, hmax, hfits⟩ := Phase.next_uploadChunk hnext
  exact ⟨hne, hmax, hserving.state_uploading.1, declared, chunks, rfl, hfits⟩

include hnext hsmall hserving hfront happ hasked in
theorem streaming_eq (hlen : kHeaderSize ≤ (p ++ data).length) :
    d.streaming = decide (type = .uploadChunk) := by
  cases hfront with
  | frame inside acks streams =>
    refine streaming_front hasked hsmall happ streams (fun htype ↦ ?_) hlen
    obtain ⟨hne, hmax, hstate, -⟩ := chunk_front hnext hserving htype
    exact ⟨hne, hmax, hstate⟩

include hnext hsmall hserving hfront happ hasked in
/-- The frame stays incomplete. -/
theorem front_more (hshort : (p ++ data).length < kHeaderSize + payload.length)
    (ht : TakesPiece (pieceOf d.streaming (data.drop (kHeaderSize - p.length))) c c₁) :
    ∃ q' acks, Serving phase q' (sent ++ acks) c₁ ∧
      Front ((type, payload) :: rest) (p ++ data) q' (part ++ acks) d.streaming := by
  have hstreams := streaming_eq hnext hsmall hserving hfront happ hasked
  cases hfront with
  | frame inside hacks streams =>
    have hdrop : p.drop kHeaderSize ++ data.drop (kHeaderSize - p.length)
        = (p ++ data).drop kHeaderSize := List.drop_append.symm
    have hstreaming : data.drop (kHeaderSize - p.length) ≠ [] →
        d.streaming = decide (type = .uploadChunk) := fun hne ↦ by
      have hpos := List.length_pos_iff.mpr hne
      rw [List.length_drop] at hpos
      exact hstreams (by rw [List.length_append]; omega)
    have hfits : type = .uploadChunk → ∃ declared chunks, phase = .uploading declared chunks ∧
        chunks.flatten.length + (q ++ data.drop (kHeaderSize - p.length)).length ≤ declared := by
      intro htype
      obtain ⟨-, -, -, declared, chunks, rfl, hfits⟩ := chunk_front hnext hserving htype
      refine ⟨declared, chunks, rfl, ?_⟩
      rw [inside, if_pos htype, hdrop, List.length_drop]
      omega
    obtain ⟨acks, hall, hserving'⟩ := hserving.takesPiece hstreaming hfits ht
    refine ⟨_, acks, hserving', .frame ?_ (hacks.append hall) hstreams⟩
    rw [inside]
    split_ifs
    · exact hdrop
    · rfl

include hnext hsmall hserving hfront happ hasked in
/-- The frame becomes complete. -/
theorem front_item (hincomplete : p.length < kHeaderSize + payload.length)
    (hlen : kHeaderSize ≤ (p ++ data).length)
    (completed : Completed d ⟨frameHeader type payload, payload⟩)
    (ht : TakesPiece (pieceOf d.streaming (payload.drop (p.length - kHeaderSize))) c c₁)
    (hr : Reacts { c₁ with decoder := d }.receive c₂ goesOn) :
    goesOn = true ∧ ∃ reply, Answers D phase (type, payload) (part ++ reply) ∧
      Serving phase' [] (sent ++ reply) c₂ := by
  have hstreams := streaming_eq hnext hsmall hserving hfront happ hasked hlen
  cases hfront with
  | frame inside hacks streams =>
    -- a chunk was fed up to here, and this is the rest of it
    have hwhole : type = .uploadChunk → q ++ payload.drop (p.length - kHeaderSize) = payload := by
      intro htype
      rw [List.append_assoc] at happ
      rw [inside, if_pos htype, drop_header happ (Nat.le_of_lt hincomplete), List.take_append_drop]
    have hfits : type = .uploadChunk → ∃ declared chunks, phase = .uploading declared chunks ∧
        chunks.flatten.length + (q ++ payload.drop (p.length - kHeaderSize)).length ≤ declared := by
      intro htype
      obtain ⟨-, -, -, declared, chunks, rfl, hfits⟩ := chunk_front hnext hserving htype
      exact ⟨declared, chunks, rfl, by rw [hwhole htype]; exact hfits⟩
    obtain ⟨acks, hall, hserving'⟩ := hserving.takesPiece (fun _ ↦ hstreams) hfits ht
    have hinside : (if type = .uploadChunk then q ++ payload.drop (p.length - kHeaderSize) else q)
        = if type = .uploadChunk then payload else [] := by
      split_ifs with htype
      · exact hwhole htype
      · rw [inside, if_neg htype]
    -- any other payload is in the decoder
    have hpayload : type ≠ .uploadChunk → d.payload = payload := fun htype ↦ by
      have h := completed.payload
      rwa [hstreams, decide_eq_false htype, if_neg (by decide)] at h
    have hchunk : type = .uploadChunk → d.streaming = true := fun htype ↦ by
      rw [hstreams, decide_eq_true htype]
    obtain ⟨hgoesOn, reply, hans, hserving''⟩ := (hserving'.setDecoder d).receive.reacts hnext
      hinside (congrArg FrameHeader.type completed.header) hpayload hchunk hr
    refine ⟨hgoesOn, acks ++ reply, ?_, ?_⟩
    · rw [← List.append_assoc]
      exact (hacks.append hall).answers hans
    · rw [← List.append_assoc]
      exact hserving''

end Frame

/-! ## Between two rounds -/

/-- Of `frames` some are done with, a part `p` of the next is in, and `ahead` is still to come. -/
def Progress (phase₀ : Phase) (frames sent₀ : List (MsgType × Bytes)) (ahead p : Bytes)
    (c : Conversation D) : Prop :=
  ∃ done rest phase replies part q, frames = done ++ rest ∧
    (service D).Answered phase₀ done phase replies ∧
    Serving phase q (sent₀ ++ replies ++ part) c ∧ p ++ ahead = wire rest ∧
    Front rest p q part c.decoder.streaming

namespace Progress

variable {phase₀ : Phase} {frames sent₀ : List (MsgType × Bytes)}

/-- **One round of the loop** makes progress through the bytes of the frames. -/
theorem turn (hsmall : ∀ f ∈ frames, f.2.length ≤ kMaxPayload)
    (hrun : ((service D).run phase₀ frames).isSome) {p data p' more : Bytes} {left : Option Bytes}
    {c c' : Conversation D} (holds : At c.decoder p) (hdata : data ≠ [])
    (h : Progress phase₀ frames sent₀ (data ++ more) p c) (ht : Turn p data c left p' c') :
    Progress phase₀ frames sent₀ (left.getD [] ++ more) p' c' := by
  obtain ⟨done, rest, phase, replies, part, q, rfl, hans, hserving, hwire, hfront⟩ := h
  -- there are bytes, so there is a frame at the front
  obtain _ | ⟨⟨type, payload⟩, rest⟩ := rest
  · obtain ⟨-, hmore⟩ := List.append_eq_nil_iff.mp hwire
    exact absurd (List.append_eq_nil_iff.mp hmore).1 hdata
  obtain ⟨phase', hnext⟩ := hans.next_isSome hrun
  have hsmall : payload.length ≤ kMaxPayload := hsmall (type, payload) (by simp)
  have happ : p ++ (data ++ more) = serializeFrame type payload ++ wire rest := hwire
  have hincomplete := length_lt_of_incomplete hsmall happ fun f left ↦ holds.next_ne_item
  rw [← List.append_assoc] at happ
  -- the turn ends in this frame, or takes the rest of it
  rcases nextFrame_front hsmall happ with ⟨hmore, hshort⟩ | ⟨left', hitem, hleft⟩
  · cases ht with
    | more next holds' asked takes =>
      obtain ⟨q', acks, hserving', hfront'⟩ := front_more hnext hsmall hserving hfront happ asked
        hshort takes
      refine ⟨done, _, phase, replies, part ++ acks, q', rfl, hans, ?_, happ, hfront'⟩
      rw [← List.append_assoc]
      exact hserving'.setDecoder _
    | fail next => exact absurd (hmore.symm.trans next) (by simp)
    | item next => exact absurd (hmore.symm.trans next) (by simp)
  · cases ht with
    | more next => exact absurd (hitem.symm.trans next) (by simp)
    | fail next => exact absurd (hitem.symm.trans next) (by simp)
    | item next completed asked takes reacts =>
      cases hitem.symm.trans next
      have hlen : kHeaderSize ≤ (p ++ data).length := by
        by_contra hlt
        rw [nextFrame_short (Nat.lt_of_not_le hlt)] at next
        cases next
      obtain ⟨rfl, reply, hanswers, hserving'⟩ := front_item hnext hsmall hserving hfront happ
        asked hincomplete hlen completed takes reacts
      refine ⟨done ++ [(type, payload)], rest, phase', replies ++ (part ++ reply), [], [],
        by simp, .snoc hans hnext hanswers, ?_, hleft, .boundary rest _⟩
      rw [List.append_nil]
      simpa only [List.append_assoc] using hserving'.setDecoder _

/-- The loop over a read. -/
theorem process (hsmall : ∀ f ∈ frames, f.2.length ≤ kMaxPayload)
    (hrun : ((service D).run phase₀ frames).isSome) {more : Bytes} {fuel : ℕ} {data : Bytes}
    (hfuel : data.length ≤ fuel) {s : TcpSession D} {p : Bytes} (holds : At s.decoder p)
    (h : Progress phase₀ frames sent₀ (data ++ more) p s.conversation) :
    Sits (Progress phase₀ frames sent₀ more) (s.process fuel data).conversation := by
  induction fuel generalizing data s p with
  | zero =>
    rw [List.length_eq_zero_iff.mp (Nat.le_zero.mp hfuel), List.nil_append] at h
    exact ⟨p, holds, h⟩
  | succ fuel ih =>
    rw [TcpSession.process]
    split_ifs with hstop
    · rcases hstop with hnil | hclosing
      · rw [hnil, List.nil_append] at h
        exact ⟨p, holds, h⟩
      · obtain ⟨_, _, _, _, _, _, -, -, hserving, -⟩ := h
        exact absurd hclosing hserving.opened
    rw [not_or] at hstop
    obtain ⟨p', hturn⟩ := s.turn_turn holds data
    have hnext := h.turn hsmall hrun holds hstop.1 hturn
    have hholds : At (s.turn data).1.decoder p' := hturn.holds
    generalize s.turn data = r at hturn hnext hholds ⊢
    obtain ⟨s', _ | left⟩ := r
    · exact ⟨p', hholds, hnext⟩
    · have hlt := hturn.length_lt holds
      exact ih (by omega) hholds hnext

/-- When nothing is still to come, all frames are done with. -/
theorem complete (hsmall : ∀ f ∈ frames, f.2.length ≤ kMaxPayload) {p : Bytes}
    {c : Conversation D} (holds : At c.decoder p) (h : Progress phase₀ frames sent₀ [] p c) :
    ∃ phase replies, (service D).Answered phase₀ frames phase replies ∧
      Serving phase [] (sent₀ ++ replies) c ∧ p = [] := by
  obtain ⟨done, rest, phase, replies, part, q, rfl, hans, hserving, hwire, hfront⟩ := h
  cases hfront with
  | nothing =>
    rw [List.append_nil] at hserving hwire
    exact ⟨phase, replies, (List.append_nil done).symm ▸ hans, hserving, hwire⟩
  | @frame type payload rest =>
    rw [List.append_nil] at hwire
    have hitem : nextFrame (serializeFrame type payload ++ wire rest) = _ :=
      nextFrame_serializeFrame (hsmall (type, payload) (by simp)) (wire rest)
    have hp : p = serializeFrame type payload ++ wire rest := hwire
    exact absurd (hp ▸ hitem) holds.next_ne_item

end Progress

end Conversation

/-! ## Runs -/

namespace TcpSession

open Conversation

variable {D : Type} [DoubleOps D]

/-- The bytes that an event brings. -/
def Event.bytes : Event → Bytes
  | .read data => data
  | _ => []

/-- Whether an event is a read or a write that went well. -/
def Event.smooth : Event → Bool
  | .read _ => true
  | .written ok => ok
  | _ => false

private theorem progress_step {phase₀ : Phase} {frames sent₀ : List (MsgType × Bytes)}
    (hsmall : ∀ f ∈ frames, f.2.length ≤ kMaxPayload)
    (hrun : ((service D).run phase₀ frames).isSome) {event : Event} (hsmooth : event.smooth = true)
    {more : Bytes} {s : TcpSession D}
    (h : Sits (Progress phase₀ frames sent₀ (event.bytes ++ more)) s.conversation) :
    Sits (Progress phase₀ frames sent₀ more) (s.step event).conversation := by
  obtain ⟨p, holds, hp⟩ := h
  cases event with
  | read data =>
    have hread := hp.process (s := { s with rxBytes := s.rxBytes + data.length }) hsmall hrun
      le_rfl holds
    rwa [← conversation_touchIdle] at hread
  | written ok =>
    have hok : ok = true := hsmooth
    have hflag : s.closeAfterFlush = false := by
      obtain ⟨_, _, _, _, _, _, -, -, hserving, -⟩ := hp
      exact hserving.unflagged
    rw [step, hok, onWrite_of_unflagged hflag]
    exact ⟨p, holds, hp⟩
  | readEof | readError | idleTimeout | handleClosed => cases hsmooth

theorem progress_run {phase₀ : Phase} {frames sent₀ : List (MsgType × Bytes)}
    (hsmall : ∀ f ∈ frames, f.2.length ≤ kMaxPayload)
    (hrun : ((service D).run phase₀ frames).isSome) {events : List Event}
    (hsmooth : ∀ event ∈ events, event.smooth = true) {more : Bytes} {s : TcpSession D}
    (h : Sits (Progress phase₀ frames sent₀ (events.flatMap Event.bytes ++ more)) s.conversation) :
    Sits (Progress phase₀ frames sent₀ more) (s.run events).conversation := by
  induction events generalizing s with
  | nil => exact h
  | cons event events ih =>
    rw [List.forall_mem_cons] at hsmooth
    rw [List.flatMap_cons, List.append_assoc] at h
    exact ih hsmooth.2 (progress_step hsmall hrun hsmooth.1 h)

/-- The bytes of frames that are in order are still to come. -/
theorem progress_start {phase : Phase} {frames sent₀ : List (MsgType × Bytes)} {s : TcpSession D}
    (h : Serving phase [] sent₀ s.conversation) :
    Progress phase frames sent₀ (wire frames) [] s.conversation :=
  ⟨[], frames, phase, [], [], [], rfl, .nil, by simpa using h, rfl, .boundary frames _⟩

/-- **Frames in order are served**, in whatever reads their bytes arrive: the session gets to where
the machine gets to, and sends what the machine answers. -/
theorem serves_run {phase phase' : Phase} {frames sent₀ : List (MsgType × Bytes)}
    (hsmall : ∀ f ∈ frames, f.2.length ≤ kMaxPayload)
    (hrun : (service D).run phase frames = some phase') {events : List Event}
    (hsmooth : ∀ event ∈ events, event.smooth = true)
    (hbytes : events.flatMap Event.bytes = wire frames) {s : TcpSession D}
    (holds : At s.decoder []) (h : Serving phase [] sent₀ s.conversation) :
    ∃ replies, (service D).Answered phase frames phase' replies ∧
      Serving phase' [] (sent₀ ++ replies) (s.run events).conversation ∧
      At (s.run events).decoder [] := by
  have hstart :
      Progress phase frames sent₀ (events.flatMap Event.bytes ++ []) [] s.conversation := by
    rw [List.append_nil, hbytes]
    exact progress_start h
  obtain ⟨p, holds', hend⟩ := progress_run hsmall (hrun ▸ rfl) hsmooth ⟨[], holds, hstart⟩
  obtain ⟨phase'', replies, hans, hserving, rfl⟩ := hend.complete hsmall holds'
  cases hans.run.symm.trans hrun
  exact ⟨replies, hans, hserving, holds'⟩

end TcpSession

end LoggerAnalyzer
