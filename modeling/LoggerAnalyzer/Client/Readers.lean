import LoggerAnalyzer.Client.Incoming
import LoggerAnalyzer.Client.ServerConnection
import LoggerAnalyzer.Client.TransferClient
import LoggerAnalyzer.Wire.FrameDecoder

/-!
# The five readers of frames

The server's decoder, the reader of the C++ client and the two of the C# client check the same three
things of a header. The reader that the C++ client uses while it cancels leaves out the version.
-/

namespace LoggerAnalyzer

open Program

/-! ## The server's decoder -/

namespace FrameDecoder

/-- The decoder is fed fragments until it has a frame or has failed. -/
def firstFrame : List Bytes → FrameDecoder → ℕ → Option Accepted
  | [], _, _ => none
  | data :: frags, d, consumed =>
    let fed := feed (none : Option (PayloadSink Unit)) data d ()
    match fed.status with
    | .needMore => firstFrame frags fed.decoder (consumed + fed.consumed)
    | .ready =>
      some ⟨fed.decoder.header.type, fed.decoder.payload, consumed + fed.consumed⟩
    | .failed => none

private theorem feedPayload_consumed {σ : Type*} (sink : Option (PayloadSink σ)) (data : Bytes)
    (consumed : ℕ) (d : FrameDecoder) (s : σ) :
    (feedPayload sink data consumed d s).consumed ≤ consumed + data.length := by
  have hle := Nat.min_le_right (d.header.payloadLen.toNat - d.payloadGot) data.length
  simp only [feedPayload]
  split_ifs <;> exact Nat.add_le_add_left hle consumed

private theorem feed_consumed {σ : Type*} (sink : Option (PayloadSink σ)) (data : Bytes)
    (d : FrameDecoder)
    (s : σ) : (feed sink data d s).consumed ≤ data.length := by
  have hle := Nat.min_le_right (kHeaderSize - d.headRaw.length) data.length
  unfold feed
  cases d.state with
  | complete => exact Nat.zero_le _
  | payload => simpa using feedPayload_consumed sink data 0 d s
  | header =>
    simp only
    split_ifs
    iterate 5 exact hle
    all_goals
      refine (feedPayload_consumed sink _ _ _ s).trans ?_
      rw [List.length_drop]
      omega

/-- Without a sink nothing is streamed. -/
theorem feed_streaming {d : FrameDecoder} {p : Bytes} (hat : At d p) (hno : d.streaming = false)
    (data : Bytes) :
    (feed (none : Option (PayloadSink Unit)) data d ()).decoder.streaming = false := by
  obtain ⟨-, -, hasked⟩ := advance_spec hat (asks (none : Option (PayloadSink Unit)) ()) data
  rw [feed_eq]
  rcases Nat.lt_or_ge p.length kHeaderSize with hshort | hlong
  · exact Bool.eq_false_iff.mpr fun hyes ↦ Bool.false_ne_true (hasked.yes hshort hyes)
  · exact (hasked.inside hlong).trans hno

end FrameDecoder

/-- What is accepted by the checks of `headerError` is what `nextFrame` finds. -/
theorem accepts_headerError (bs : Bytes) :
    accepts (fun h ↦ (headerError h).isSome) bs =
      match nextFrame bs with
      | .item f left => some ⟨f.header.type, f.payload, bs.length - left.length⟩
      | _ => none := by
  rw [accepts]
  rcases nextFrame_cases bs with
    ⟨hshort, hn⟩ | ⟨_, e, herr, hn⟩ | ⟨_, _, hshort, hn⟩ | ⟨hlong, herr, hall, hn⟩ <;> rw [hn]
  · exact if_pos (.inl hshort)
  · exact if_pos (.inr (.inl (by rw [herr]; rfl)))
  · exact if_pos (.inr (.inr hshort))
  · rw [if_neg]
    · simp only [List.length_drop]
      congr 2
      omega
    · rw [herr]
      rintro (hshort | hbad | hshort)
      · omega
      · exact Bool.false_ne_true hbad
      · omega

namespace FrameDecoder

private theorem firstFrame_of_at {frags : List Bytes} {d : FrameDecoder} {p : Bytes} (hat : At d p)
    (hno : d.streaming = false) (hmore : nextFrame p = .more) :
    firstFrame frags d p.length
      = accepts (fun h ↦ (headerError h).isSome) (p ++ frags.flatten) := by
  induction frags generalizing d p with
  | nil => rw [List.flatten_nil, List.append_nil, accepts_headerError, hmore, firstFrame]
  | cons data frags ih =>
    have hmeets := feed_meets hat (none : Option (PayloadSink Unit)) data ()
    have hstream := feed_streaming hat hno data
    have hle := feed_consumed (none : Option (PayloadSink Unit)) data d ()
    rw [firstFrame, List.flatten_cons, ← List.append_assoc]
    set fed := feed (none : Option (PayloadSink Unit)) data d ()
    -- what this fragment completes stays complete when the others are there as well
    cases hnext : nextFrame (p ++ data) with
    | more =>
      rw [hnext] at hmeets
      obtain ⟨hstatus, hused, hstill⟩ := hmeets
      simp only [hstatus, hused]
      rw [← List.length_append]
      exact ih hstill hstream hnext
    | fail e =>
      rw [hnext] at hmeets
      have hfail : nextFrame (p ++ data ++ frags.flatten) = .fail e :=
        frameParser.fail_append hnext _
      simp only [hmeets.1]
      rw [accepts_headerError, hfail]
    | item f left =>
      rw [hnext] at hmeets
      obtain ⟨hstatus, hleft, hdone⟩ := hmeets
      have hitem : nextFrame (p ++ data ++ frags.flatten) = .item f (left ++ frags.flatten) :=
        frameParser.item_append hnext _
      have hpayload := hdone.payload
      rw [hstream, if_neg Bool.false_ne_true] at hpayload
      simp only [hstatus, hdone.header, hpayload]
      rw [accepts_headerError, hitem, ← hleft]
      simp only [List.length_append, List.length_drop]
      congr 2
      omega

/-- **However the bytes are fragmented, the decoder accepts by the checks of `headerError`.** -/
theorem firstFrame_eq (frags : List Bytes) :
    firstFrame frags {} 0 = accepts (fun h ↦ (headerError h).isSome) frags.flatten :=
  firstFrame_of_at at_new rfl (nextFrame_short (by decide))

end FrameDecoder

/-! ## The clients -/

theorem TransferClient.refuse_isSome (h : FrameHeader) :
    (TransferClient.refuse h).isSome = (headerError h).isSome := by
  simp only [TransferClient.refuse, headerError]
  split_ifs <;> rfl

theorem ServerConnection.refuse_isSome (h : FrameHeader) :
    (ServerConnection.refuse h).isSome = (headerError h).isSome := by
  simp only [ServerConnection.refuse, headerError]
  split_ifs <;> rfl

theorem ServerConnection.refuseBlocking_isSome (h : FrameHeader) :
    (ServerConnection.refuseBlocking h).isSome = (headerError h).isSome := by
  simp only [ServerConnection.refuseBlocking, headerError]
  split_ifs <;> rfl

/-- A connection that was not disposed of may be used. -/
theorem ServerConnection.ensureUsable_eq {σ : Type} {e : Endpoint σ ServerConnection}
    (h : e.own.disposed = false) : ServerConnection.ensureUsable e = .ok ⟨⟩ e := by
  refine (bind_ok (show (get : Act σ ServerConnection _) e = .ok e e from rfl)).trans ?_
  rw [h]
  rfl

theorem ServerConnection.ensureUsable_disposed {σ : Type} {e : Endpoint σ ServerConnection}
    (h : e.own.disposed = true) : ServerConnection.ensureUsable e = .error .disposed e := by
  refine (bind_ok (show (get : Act σ ServerConnection _) e = .ok e e from rfl)).trans ?_
  rw [h]
  rfl

theorem ServerConnection.readFrameAsync_eq {σ : Type} (link : Link σ) (heeds : Bool)
    {e : Endpoint σ ServerConnection} (h : e.own.disposed = false) :
    ServerConnection.readFrameAsync link heeds e
      = Act.readFrameWith ServerConnection.refuse
          (Act.recvExactly link heeds ServerConnection.syncReadTimeoutMs)
          (Act.recvExactly link heeds ServerConnection.syncReadTimeoutMs) e :=
  bind_ok (ensureUsable_eq h)

/-! ## Agreement -/

/-- The header has the right magic and an admissible length, its version is another one, and the
payload is all there. -/
def OtherVersion (bs : Bytes) : Prop :=
  (decodeHeader (bs.take kHeaderSize)).magic = kMagic ∧
    (decodeHeader (bs.take kHeaderSize)).version ≠ kVersion ∧
    (decodeHeader (bs.take kHeaderSize)).payloadLen.toNat ≤ kMaxPayload ∧
    kHeaderSize + (decodeHeader (bs.take kHeaderSize)).payloadLen.toNat ≤ bs.length

instance (bs : Bytes) : Decidable (OtherVersion bs) := inferInstanceAs (Decidable (_ ∧ _ ∧ _ ∧ _))

/-- Without the check of the version the same is accepted, except a frame of another version. -/
theorem accepts_eq_iff {bs : Bytes} (hlong : kHeaderSize ≤ bs.length) :
    accepts (fun h ↦ (TransferClient.refuseWhileCancelling h).isSome) bs
        = accepts (fun h ↦ (headerError h).isSome) bs ↔ ¬ OtherVersion bs := by
  rw [accepts, accepts, OtherVersion, TransferClient.refuseWhileCancelling, headerError]
  set h := decodeHeader (bs.take kHeaderSize)
  by_cases hmagic : h.magic = kMagic <;> by_cases hversion : h.version = kVersion <;>
    by_cases hmax : h.payloadLen.toNat ≤ kMaxPayload <;>
    by_cases hall : kHeaderSize + h.payloadLen.toNat ≤ bs.length <;>
    simp [hmagic, hversion, hmax, hall, hlong, Nat.not_lt.mpr, Nat.not_le.mp]

/-- All five readers make `x` of a byte string, however it arrives. -/
structure ReadersDecide (bs : Bytes) (x : Option Accepted) : Prop where
  decoder : ∀ frags : List Bytes, frags.flatten = bs → FrameDecoder.firstFrame frags {} 0 = x
  readFrame : ∀ (input : Incoming) (c : TransferClient) (idleMs : ℕ), input.bytes = bs →
    decision (TransferClient.readFrame Incoming.link idleMs) c input = x
  cancelling : ∀ (input : Incoming) (c : TransferClient) (idleMs : ℕ), input.bytes = bs →
    decision (TransferClient.readFrameWhileCancelling Incoming.link idleMs) c input = x
  async : ∀ (input : Incoming) (c : ServerConnection) (heeds : Bool), input.bytes = bs →
    c.disposed = false → decision (ServerConnection.readFrameAsync Incoming.link heeds) c input = x
  blocking : ∀ (input : Incoming) (c : ServerConnection), input.bytes = bs →
    decision (ServerConnection.readFrameBlocking Incoming.link) c input = x

/-- Four of the readers always agree. -/
theorem readersDecide_of_cancelling {bs : Bytes}
    (h : accepts (fun h ↦ (TransferClient.refuseWhileCancelling h).isSome) bs
      = accepts (fun h ↦ (headerError h).isSome) bs) :
    ReadersDecide bs (accepts (fun h ↦ (headerError h).isSome) bs) where
  decoder frags hbs := by rw [FrameDecoder.firstFrame_eq, hbs]
  readFrame input c idleMs hbs := by
    rw [TransferClient.readFrame, decision_readFrameWith, hbs]
    simp only [TransferClient.refuse_isSome]
  cancelling input c idleMs hbs := by
    rw [TransferClient.readFrameWhileCancelling, decision_readFrameWith, hbs, h]
  async input c heeds hbs husable := by
    rw [decision, ServerConnection.readFrameAsync_eq _ _ husable, ← decision,
      decision_readFrameWith, hbs]
    simp only [ServerConnection.refuse_isSome]
  blocking input c hbs := by
    rw [ServerConnection.readFrameBlocking, decision_readFrameWith, hbs]
    simp only [ServerConnection.refuseBlocking_isSome]

/-- What the decoder and the reader without the version check make of the bytes is the same. -/
theorem ReadersDecide.accepts_eq {bs : Bytes} {x : Option Accepted} (h : ReadersDecide bs x) :
    accepts (fun h ↦ (TransferClient.refuseWhileCancelling h).isSome) bs
      = accepts (fun h ↦ (headerError h).isSome) bs := by
  have hcancelling := h.cancelling ⟨bs, fun _ ↦ 0, fun _ ↦ 0⟩ ⟨{}, []⟩ 0 rfl
  have hdecoder := h.decoder [bs] (by simp)
  rw [TransferClient.readFrameWhileCancelling, decision_readFrameWith] at hcancelling
  rw [FrameDecoder.firstFrame_eq, List.flatten_singleton] at hdecoder
  exact hcancelling.trans hdecoder.symm

/-- **Exactly when all frame readers agree** on bytes that begin with a frame or a bad header:
unless the frame is of another version and would be accepted otherwise. -/
theorem readersDecide_iff (bs : Bytes) (hbs : nextFrame bs ≠ .more) :
    (∃ x, ReadersDecide bs x) ↔ ¬ OtherVersion bs := by
  have hlong : kHeaderSize ≤ bs.length := Nat.not_lt.mp fun hshort ↦ hbs (nextFrame_short hshort)
  rw [← accepts_eq_iff hlong]
  constructor
  · rintro ⟨x, hx⟩
    exact hx.accepts_eq
  · exact fun h ↦ ⟨_, readersDecide_of_cancelling h⟩

/-- A frame with a payload, and the beginning of another, are read alike by all. -/
theorem readersDecide_chunk :
    ∃ x, ReadersDecide (serializeFrame .resultChunk (ascii "a,1\n") ++ [0x42, 0x59]) x :=
  (readersDecide_iff _ (by decide +kernel)).mpr (by decide +kernel)

/-- An empty frame of version 2. -/
def otherVersion : Bytes := [0x42, 0x59, 0x44, 0x41, 2, 0x7E, 0, 0, 0, 0, 0, 0, 0, 0, 0, 0]

/-- A frame of version 2 is accepted by the reader that waits for the answer to a CANCEL only. -/
theorem not_readersDecide_otherVersion :
    nextFrame otherVersion ≠ .more ∧ ¬ ∃ x, ReadersDecide otherVersion x := by
  refine ⟨by decide +kernel, ?_⟩
  rintro ⟨x, hx⟩
  exact absurd hx.accepts_eq (by decide +kernel)

end LoggerAnalyzer
