import LoggerAnalyzer.Client.Laws
import Mathlib.Data.Stream.Init

/-!
# A byte string on its way to a client

A client that only reads, on a connection that is closed at the end, is given a byte string. In what
pieces it gets it, and how often it has to wait, is arbitrary and makes no difference: a reader of
frames accepts what `accepts` says, by the checks that it makes of a header.
-/

namespace LoggerAnalyzer

open Program

/-- The bytes that are still to come, in how many bytes at a time, and after how many waits. -/
structure Incoming where
  bytes : Bytes
  pieces : Stream' ℕ
  waits : Stream' ℕ

namespace Incoming

/-- Nobody cancels, and what the client sends is taken. -/
def link : Link Incoming where
  flag _ s := (false, s)
  pauses s := (s.waits.head, { s with waits := s.waits.tail })
  send data s := (.took data.length, s)
  recv n s :=
    match s.bytes with
    | [] => (.closed, s)
    | first :: more =>
      (.got first (more.take s.pieces.head),
        { s with bytes := (first :: more).drop (min n (s.pieces.head + 1))
                 pieces := s.pieces.tail })
  readable s := (decide (s.bytes ≠ []), s)
  now s := (0, s)

def Moves (_ received : Bytes) (s s' : Incoming) : Prop := s.bytes = received ++ s'.bytes

/-- The only way to fail is that the bytes run out. -/
def Down : Failure → Incoming → Prop
  | .closed _ _, s => s.bytes = []
  | _, _ => False

theorem laws : link.Laws Moves Down where
  refl _ := rfl
  trans {_ _ _ _ _ _ _} h h' := by rw [Moves, h, h', List.append_assoc]
  flag _ _ := rfl
  flag_true _ _ h := (Bool.false_ne_true h).elim
  pauses _ := rfl
  readable _ := rfl
  now _ := rfl
  took _ _ := rfl
  stalled {_ _} _ h := by simp [link] at h
  sendFailed {_ _ _} _ h := by simp [link] at h
  got {n s first more} _ h := by
    rw [Moves]
    cases hbytes : s.bytes with
    | nil => simp [link, hbytes] at h
    | cons b bs =>
      simp only [link, hbytes, RecvAnswer.got.injEq] at h ⊢
      obtain ⟨rfl, rfl⟩ := h
      rw [← List.take_succ_cons, List.take_take, List.take_append_drop]
  closed {n s} _ h := by
    cases hbytes : s.bytes with
    | nil =>
      have hsame : (link.recv n s).2 = s := by simp [link, hbytes]
      rw [hsame]
      exact ⟨rfl, fun _ _ ↦ hbytes⟩
    | cons b bs => simp [link, hbytes] at h
  idle {n s} _ h := by cases hbytes : s.bytes <;> simp [link, hbytes] at h
  recvFailed {n s _} _ h := by cases hbytes : s.bytes <;> simp [link, hbytes] at h

end Incoming

/-! ## Frame readers -/

/-- A frame that was accepted, and how many bytes of the input it took. -/
structure Accepted where
  type : MsgType
  payload : Bytes
  consumed : ℕ
deriving DecidableEq, Repr

/-- What a reader accepts that refuses a header if `refuses` holds of it. -/
def accepts (refuses : FrameHeader → Bool) (bs : Bytes) : Option Accepted :=
  let h := decodeHeader (bs.take kHeaderSize)
  if bs.length < kHeaderSize ∨ refuses h = true ∨ bs.length < kHeaderSize + h.payloadLen.toNat then
    none
  else some ⟨h.type, (bs.drop kHeaderSize).take h.payloadLen.toNat,
    kHeaderSize + h.payloadLen.toNat⟩

/-- What a client makes of a byte string with a reader of frames. -/
def decision {κ : Type} (reader : Act Incoming κ Frame) (own : κ) (input : Incoming) :
    Option Accepted :=
  match reader { outside := input, own := own } with
  | .ok f e => some ⟨f.header.type, f.payload, input.bytes.length - e.outside.bytes.length⟩
  | .error _ _ => none

private theorem accepts_of_frame {refuses : FrameHeader → Bool} {head payload left : Bytes}
    (hhead : head.length = kHeaderSize) (hgood : refuses (decodeHeader head) = false)
    (hlen : payload.length = (decodeHeader head).payloadLen.toNat) :
    accepts refuses (head ++ payload ++ left)
      = some ⟨(decodeHeader head).type, payload, kHeaderSize + payload.length⟩ := by
  have htake : (head ++ payload ++ left).take kHeaderSize = head := by
    rw [List.append_assoc, List.take_left' hhead]
  have hdrop : (head ++ payload ++ left).drop kHeaderSize = payload ++ left := by
    rw [List.append_assoc, List.drop_left' hhead]
  have hlong : kHeaderSize + payload.length ≤ (head ++ payload ++ left).length := by
    rw [List.length_append, List.length_append]
    omega
  rw [accepts, htake, hdrop, ← hlen, List.take_left, if_neg]
  rintro (hshort | hbad | hshort)
  · omega
  · exact Bool.false_ne_true (hgood.symm.trans hbad)
  · omega

private theorem accepts_of_refused {refuses : FrameHeader → Bool} {head left : Bytes}
    (hhead : head.length = kHeaderSize) (hbad : refuses (decodeHeader head) = true) :
    accepts refuses (head ++ left) = none := by
  rw [accepts, List.take_left' hhead]
  exact if_pos (.inr (.inl hbad))

private theorem accepts_of_begun {refuse : FrameHeader → Option Failure} {bs : Bytes}
    (h : Act.Begun refuse bs) : accepts (fun h ↦ (refuse h).isSome) bs = none := by
  rw [accepts]
  rcases h with hshort | ⟨_, _, hshort⟩
  · exact if_pos (.inl hshort)
  · exact if_pos (.inr (.inr hshort))

section Readers

variable {κ : Type} (refuse : FrameHeader → Option Failure) (heeds : Bool) (idleMs idleMs' : ℕ)

/-- A reader of frames takes the frame that it accepts off the bytes, or fails. -/
theorem run_readFrameWith (e : Endpoint Incoming κ) :
    match accepts (fun h ↦ (refuse h).isSome) e.outside.bytes with
    | some a => ∃ s, Act.readFrameWith refuse (Act.recvExactly Incoming.link heeds idleMs)
        (Act.recvExactly Incoming.link heeds idleMs') e
          = .ok ⟨decodeHeader (e.outside.bytes.take kHeaderSize), a.payload⟩ (e.onto s) ∧
        (decodeHeader (e.outside.bytes.take kHeaderSize)).type = a.type ∧
        a.consumed ≤ e.outside.bytes.length ∧ s.bytes = e.outside.bytes.drop a.consumed
    | none => ∃ f e', Act.readFrameWith refuse (Act.recvExactly Incoming.link heeds idleMs)
        (Act.recvExactly Incoming.link heeds idleMs') e = .error f e' := by
  have hyields := Act.yields_readFrameWith Incoming.laws refuse heeds idleMs idleMs' e
  rw [Yields] at hyields
  cases hrun : Act.readFrameWith refuse (Act.recvExactly Incoming.link heeds idleMs)
    (Act.recvExactly Incoming.link heeds idleMs') e with
  | ok f e' =>
    rw [hrun] at hyields
    obtain ⟨head, hhead, hheader, hgood, hlen, s, hmoves, rfl⟩ := hyields
    obtain ⟨header, payload⟩ := f
    obtain rfl : header = decodeHeader head := hheader
    have hbytes : e.outside.bytes = head ++ payload ++ s.bytes := hmoves
    have htake : e.outside.bytes.take kHeaderSize = head := by
      rw [hbytes, List.append_assoc, List.take_left' hhead]
    rw [htake, hbytes, accepts_of_frame hhead (by rw [hgood]; rfl) hlen]
    have hall : (head ++ payload).length = kHeaderSize + payload.length := by
      rw [List.length_append, hhead]
    refine ⟨s, rfl, rfl, ?_, (List.drop_left' hall).symm⟩
    rw [List.length_append, hall]
    exact Nat.le_add_right ..
  | error f e' =>
    rw [hrun] at hyields
    -- the header is refused, or the bytes end in the frame
    have hnone : accepts (fun h ↦ (refuse h).isSome) e.outside.bytes = none := by
      rcases hyields with
        ⟨head, hhead, hbad, s, hmoves, rfl⟩ | ⟨bytes, hbegun, -, s, hmoves, hdown, rfl⟩
      · have hbytes : e.outside.bytes = head ++ s.bytes := hmoves
        rw [hbytes, accepts_of_refused hhead (by rw [hbad]; rfl)]
      · have hbytes : e.outside.bytes = bytes ++ s.bytes := hmoves
        have hend : s.bytes = [] := by
          cases f <;> first | exact hdown | exact hdown.elim
        rw [hbytes, hend, List.append_nil, accepts_of_begun hbegun]
    rw [hnone]
    exact ⟨f, e', rfl⟩

/-- **What a reader accepts does not depend on how the bytes arrive.** -/
theorem decision_readFrameWith (own : κ) (input : Incoming) :
    decision (Act.readFrameWith refuse (Act.recvExactly Incoming.link heeds idleMs)
      (Act.recvExactly Incoming.link heeds idleMs')) own input
      = accepts (fun h ↦ (refuse h).isSome) input.bytes := by
  have hrun := run_readFrameWith refuse heeds idleMs idleMs'
    ({ outside := input, own := own } : Endpoint Incoming κ)
  dsimp only at hrun
  rw [decision]
  cases haccepts : accepts (fun h ↦ (refuse h).isSome) input.bytes with
  | some a =>
    rw [haccepts] at hrun
    obtain ⟨s, hok, htype, hle, hleft⟩ := hrun
    rw [hok]
    simp only [Endpoint.onto_outside, htype, hleft, List.length_drop, Nat.sub_sub_self hle]
  | none =>
    rw [haccepts] at hrun
    obtain ⟨f, e', herror⟩ := hrun
    rw [herror]

end Readers

end LoggerAnalyzer
