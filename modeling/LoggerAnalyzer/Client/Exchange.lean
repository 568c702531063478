import LoggerAnalyzer.Client.Net
import LoggerAnalyzer.Session.Delivery

/-!
# Frames that are exchanged

A client that sends whole frames on a net, and reads whole frames from it, has a conversation with
the machine that a session is. `Talk` says which frames were sent and which were read, and `Heard`
what the machine has made of them so far: the frames that were read are the first of its answers,
and the next ones are on their way. A read takes the next answer, and fails only if there is none.
-/

namespace LoggerAnalyzer

open Program Incremental FrameDecoder TcpSession Conversation

/-! ## Frames on the wire -/

theorem wire_append (frames frames' : List (MsgType × Bytes)) :
    wire (frames ++ frames') = wire frames ++ wire frames' := List.flatMap_append ..

theorem wire_cons (type : MsgType) (payload : Bytes) (frames : List (MsgType × Bytes)) :
    wire ((type, payload) :: frames) = serializeFrame type payload ++ wire frames := rfl

theorem wire_singleton (type : MsgType) (payload : Bytes) :
    wire [(type, payload)] = serializeFrame type payload := List.flatMap_singleton ..

theorem wire_eq_nil {frames : List (MsgType × Bytes)} (h : wire frames = []) : frames = [] := by
  obtain _ | ⟨⟨type, payload⟩, frames⟩ := frames
  · rfl
  · have hlen := congrArg List.length (List.append_eq_nil_iff.mp h).1
    rw [length_serializeFrame, List.length_nil] at hlen
    have hpos : 0 < kHeaderSize := by decide
    omega

/-- Frames are told apart by their bytes. -/
theorem append_of_wire {frames frames' : List (MsgType × Bytes)} {left : Bytes}
    (hsmall : ∀ f ∈ frames, f.2.length ≤ kMaxPayload)
    (hsmall' : ∀ f ∈ frames', f.2.length ≤ kMaxPayload) (h : wire frames ++ left = wire frames') :
    ∃ rest, frames' = frames ++ rest ∧ left = wire rest := by
  induction frames generalizing frames' with
  | nil => exact ⟨frames', rfl, h⟩
  | cons f frames ih =>
    obtain ⟨type, payload⟩ := f
    rw [List.forall_mem_cons] at hsmall
    have hitem : nextFrame (wire ((type, payload) :: frames) ++ left)
        = .item ⟨frameHeader type payload, payload⟩ (wire frames ++ left) := by
      rw [wire_cons, List.append_assoc, nextFrame_serializeFrame hsmall.1]
    rw [h] at hitem
    obtain _ | ⟨⟨type', payload'⟩, frames'⟩ := frames'
    · exact absurd (hitem.symm.trans (nextFrame_short (by decide))) (by simp)
    rw [List.forall_mem_cons] at hsmall'
    rw [wire_cons, nextFrame_serializeFrame hsmall'.1] at hitem
    obtain ⟨hframe, hleft⟩ := Outcome.item.inj hitem
    obtain ⟨hheader, rfl⟩ := Frame.mk.inj hframe
    obtain rfl : type' = type := congrArg FrameHeader.type hheader
    obtain ⟨rest, rfl, rfl⟩ := ih hsmall.2 hsmall'.2 hleft.symm
    exact ⟨rest, rfl, rfl⟩

/-! ## The conversation -/

section Conversation

variable {D : Type} [DoubleOps D]

/-- Nothing is on its way, and the session stands at a phase, between two frames. -/
structure Rests (phase : Phase) (s : Net D) : Prop where
  toServer : s.toServer = []
  toClient : s.toClient = []
  holds : At s.session.decoder []
  serving : Serving phase [] (sentFrames s.session.timeline) s.session.conversation

/-- The client has sent the frames `sent` and read the frames `read`. -/
structure Talk (s₀ : Net D) (sent read : List (MsgType × Bytes)) (s : Net D) : Prop where
  moves : Net.Moves (wire sent) (wire read) s₀ s
  small : ∀ f ∈ read, f.2.length ≤ kMaxPayload

/-- The session has taken the frames `done` and is in the middle of the next one, if it has begun.
It has answered them with `replies` and `part`, of which the client was given `bytes`. -/
inductive Served (phase₀ : Phase) (s₀ : Net D) (sent : List (MsgType × Bytes)) (bytes : Bytes)
    (s : Net D) : Prop where
  | intro {done rest phase replies part q p} (frames : sent = done ++ rest)
    (answered : (service D).Answered phase₀ done phase replies)
    (serving : Serving phase q (sentFrames s₀.session.timeline ++ replies ++ part)
      s.session.conversation)
    (holds : At s.session.decoder p) (ahead : p ++ s.toServer = wire rest)
    (front : Front rest p q part s.session.decoder.streaming)
    (given : bytes ++ s.toClient = wire (replies ++ part))
    (sayable : ∀ f ∈ replies ++ part, Sayable D s₀.session.config f.1 f.2)

variable {phase₀ : Phase} {s₀ s : Net D} {sent read : List (MsgType × Bytes)}

theorem Talk.refl (s₀ : Net D) : Talk s₀ [] [] s₀ := ⟨.refl s₀, fun _ h ↦ absurd h List.not_mem_nil⟩

/-- **What the session makes of the frames that were sent to it.** -/
theorem served (hrests : Rests phase₀ s₀) (hsmall : ∀ f ∈ sent, f.2.length ≤ kMaxPayload)
    (hrun : ((service D).run phase₀ sent).isSome) {bytes : Bytes}
    (h : Net.Moves (wire sent) bytes s₀ s) : Served phase₀ s₀ sent bytes s := by
  obtain ⟨⟨events, hsmooth, -, hsession, hbytes⟩, ⟨new, houtput, hnew⟩, -, -, -⟩ := h
  rw [hrests.toServer, List.nil_append] at hbytes
  rw [hrests.toClient, List.nil_append] at hnew
  have hstart : Progress phase₀ sent (sentFrames s₀.session.timeline)
      (events.flatMap Event.bytes ++ s.toServer) [] s₀.session.conversation := by
    rw [← hbytes]
    exact progress_start hrests.serving
  obtain ⟨p, holds, done, rest, phase, replies, part, q, rfl, hans, hserving, hahead, hfront⟩ :=
    progress_run hsmall hrun hsmooth ⟨[], hrests.holds, hstart⟩
  rw [← hsession] at holds hserving hfront
  obtain ⟨-, added, htimeline, hsayable⟩ := (Says.refl s₀.session).run events
  rw [← hsession] at htimeline
  have hframes : sentFrames added = replies ++ part := by
    have hall : sentFrames s.session.timeline = _ := hserving.sent
    rw [htimeline, sentFrames_append, List.append_assoc] at hall
    exact List.append_cancel_left hall
  refine ⟨rfl, hans, hserving, holds, hahead, hfront, ?_, fun f hf ↦ ?_⟩
  · rw [TcpSession.output, htimeline, sentFrames_append, wire_append, hframes] at houtput
    exact hnew.symm.trans (List.append_cancel_left houtput).symm
  · rw [← hframes] at hf
    exact hsayable f.1 f.2 (mem_sentFrames.mp hf)

/-- The session has read everything. -/
theorem Served.complete {bytes : Bytes} (hsmall : ∀ f ∈ sent, f.2.length ≤ kMaxPayload)
    (h : Served phase₀ s₀ sent bytes s) (hnil : s.toServer = []) :
    ∃ phase replies, (service D).Answered phase₀ sent phase replies ∧
      Serving phase [] (sentFrames s₀.session.timeline ++ replies) s.session.conversation ∧
      At s.session.decoder [] ∧ bytes ++ s.toClient = wire replies ∧
      ∀ f ∈ replies, Sayable D s₀.session.config f.1 f.2 := by
  obtain ⟨rfl, answered, serving, holds, ahead, front, given, sayable⟩ := h
  rw [hnil, List.append_nil] at ahead
  cases front with
  | nothing =>
    rw [List.append_nil] at given serving sayable ⊢
    exact ⟨_, _, answered, serving, holds, given, sayable⟩
  | @frame type payload rest =>
    have hpayload : payload.length ≤ kMaxPayload := hsmall (type, payload) (by simp)
    rw [ahead, wire_cons] at holds
    exact absurd (nextFrame_serializeFrame hpayload (wire rest)) holds.next_ne_item

/-! ## Reading a frame -/

/-- The header at the front of frames. -/
theorem front_of_wire {frames : List (MsgType × Bytes)} {head left : Bytes}
    (hhead : head.length = kHeaderSize) (h : head ++ left = wire frames) :
    ∃ type payload rest, frames = (type, payload) :: rest ∧
      head = encodeHeader (frameHeader type payload) ∧ left = payload ++ wire rest := by
  obtain _ | ⟨⟨type, payload⟩, rest⟩ := frames
  · have hlen := congrArg List.length (List.append_eq_nil_iff.mp h).1
    rw [hhead] at hlen
    exact absurd hlen (by decide)
  · rw [wire_cons, serializeFrame, List.append_assoc] at h
    obtain ⟨rfl, rfl⟩ := List.append_inj h (hhead.trans (length_encodeHeader _).symm)
    exact ⟨type, payload, rest, rfl, rfl, rfl⟩

/-- Frames, all of them there, do not stop within one. -/
theorem eq_nil_of_begun {refuse : FrameHeader → Option Failure} {frames : List (MsgType × Bytes)}
    (hsmall : ∀ f ∈ frames, f.2.length ≤ kMaxPayload) (h : Act.Begun refuse (wire frames)) :
    frames = [] := by
  obtain _ | ⟨⟨type, payload⟩, rest⟩ := frames
  · rfl
  have hpayload : payload.length ≤ kMaxPayload := hsmall (type, payload) (List.mem_cons_self ..)
  have hlen : kHeaderSize + payload.length ≤ (wire ((type, payload) :: rest)).length := by
    rw [wire_cons, List.length_append, length_serializeFrame]
    exact Nat.le_add_right ..
  rcases h with hshort | ⟨-, -, hshort⟩
  · omega
  · rw [wire_cons, decodeHeader_serializeFrame, frameHeader_payloadLen hpayload, ← wire_cons]
      at hshort
    omega

/-- Headers that the server may send are let through. -/
def Lenient (refuse : FrameHeader → Option Failure) : Prop :=
  ∀ h, headerError h = none → refuse h = none

/-- Less is on its way. -/
def Net.Shorter (s' s : Net D) : Prop :=
  s'.toServer.length < s.toServer.length ∨
    s'.toServer.length = s.toServer.length ∧ s'.toClient.length < s.toClient.length

omit [DoubleOps D] in
theorem Net.wellFounded_shorter : WellFounded (Net.Shorter (D := D)) := by
  refine Subrelation.wf (r := InvImage (Prod.Lex (· < ·) (· < ·))
    fun s : Net D ↦ (s.toServer.length, s.toClient.length)) (fun h ↦ ?_)
    (InvImage.wf _ (WellFounded.prod_lex wellFounded_lt wellFounded_lt))
  exact Prod.lex_def.mpr h

/-- A frame was read, which was the next one on its way. -/
def ReadNext {κ : Type} (s₀ : Net D) (sent read : List (MsgType × Bytes)) (e : Endpoint (Net D) κ)
    (f : Frame) (e' : Endpoint (Net D) κ) : Prop :=
  ∃ type payload s, f = ⟨frameHeader type payload, payload⟩ ∧ e' = e.onto s ∧
    Talk s₀ sent (read ++ [(type, payload)]) s ∧ s.Shorter e.outside

/-- A call was given up because the flag was seen. -/
def Interrupted {κ : Type} (heeds : Bool) (e : Endpoint (Net D) κ) (failure : Failure)
    (e' : Endpoint (Net D) κ) : Prop :=
  failure = .cancelled ∧ heeds = true ∧ ∃ bytes s, e' = (e.onto s).notice ∧
    Net.Moves [] bytes e.outside s ∧ s.cancelAfter = some 0

/-- The flag was seen before all of a frame was read. -/
def Midway {κ : Type} (refuse : FrameHeader → Option Failure) (heeds : Bool)
    (e : Endpoint (Net D) κ) (failure : Failure) (e' : Endpoint (Net D) κ) : Prop :=
  failure = .cancelled ∧ heeds = true ∧ ∃ bytes s, Act.Begun refuse bytes ∧
    e' = (e.onto s).notice ∧ Net.Moves [] bytes e.outside s ∧ s.cancelAfter = some 0

theorem Midway.interrupted {κ : Type} {refuse : FrameHeader → Option Failure} {heeds : Bool}
    {e e' : Endpoint (Net D) κ} {failure : Failure} (h : Midway refuse heeds e failure e') :
    Interrupted heeds e failure e' := by
  obtain ⟨hfailure, hheeds, bytes, s, -, hrest⟩ := h
  exact ⟨hfailure, hheeds, bytes, s, hrest⟩

/-- No frame was read, because the flag was seen or because there is none. -/
def ReadNone {κ : Type} (refuse : FrameHeader → Option Failure) (heeds : Bool)
    (e : Endpoint (Net D) κ) (failure : Failure) (e' : Endpoint (Net D) κ) : Prop :=
  Midway refuse heeds e failure e' ∨
    ∃ ms s, failure = .idle ms ∧ e' = e.onto s ∧ Net.Moves [] [] e.outside s ∧ s.toServer = [] ∧
      s.toClient = []

theorem yields_readFrame {κ : Type} {refuse : FrameHeader → Option Failure}
    (hlenient : Lenient refuse) (heeds : Bool) (idleMs idleMs' : ℕ) (hrests : Rests phase₀ s₀)
    (hsmall : ∀ f ∈ sent, f.2.length ≤ kMaxPayload) (hrun : ((service D).run phase₀ sent).isSome)
    {e : Endpoint (Net D) κ} (h : Talk s₀ sent read e.outside) :
    Yields (Act.readFrameWith refuse (Act.recvExactly (Net.link D) heeds idleMs)
        (Act.recvExactly (Net.link D) heeds idleMs')) e
      (ReadNext s₀ sent read e) (ReadNone refuse heeds e) := by
  -- what is on its way when some more bytes have been received
  have hfront : ∀ {bytes : Bytes} {s : Net D}, Net.Moves [] bytes e.outside s →
      ∃ pending, bytes ++ s.toClient = wire pending ∧ (∀ f ∈ pending, f.2.length ≤ kMaxPayload) ∧
        s.session.state ≠ .closing := by
    intro bytes s hmoves
    have hall := h.moves.trans hmoves
    rw [List.append_nil] at hall
    obtain ⟨-, -, serving, -, -, -, given, sayable⟩ := served hrests hsmall hrun hall
    rw [List.append_assoc] at given
    obtain ⟨pending, hpending, hwire⟩ := append_of_wire h.small (fun f hf ↦ (sayable f hf).length)
      given
    refine ⟨pending, hwire, fun f hf ↦ (sayable f ?_).length, serving.opened⟩
    exact hpending ▸ List.mem_append_right _ hf
  refine (Act.yields_readFrameWith Net.laws refuse heeds idleMs idleMs' e).mono ?_ ?_
  · rintro ⟨header, payload⟩ _ ⟨head, hhead, hheader, -, hlen, s, hmoves, rfl⟩
    dsimp only at hheader hlen hmoves
    obtain ⟨pending, hwire, hpending, -⟩ := hfront hmoves
    rw [List.append_assoc] at hwire
    obtain ⟨type, payload', rest, rfl, rfl, hleft⟩ := front_of_wire hhead hwire
    rw [List.forall_mem_cons] at hpending
    obtain rfl : header = frameHeader type payload' := hheader.trans (decodeHeader_encode _)
    have hpayload : payload'.length ≤ kMaxPayload := hpending.1
    rw [frameHeader_payloadLen hpayload] at hlen
    obtain ⟨rfl, -⟩ := List.append_inj hleft hlen
    have htalk : Net.Moves (wire sent ++ []) (wire read ++ serializeFrame type payload) s₀ s :=
      h.moves.trans hmoves
    rw [List.append_nil, ← wire_singleton, ← wire_append] at htalk
    refine ⟨type, payload, s, rfl, rfl, ⟨htalk, ?_⟩, ?_⟩
    · exact List.forall_mem_append.mpr ⟨h.small, by simpa using hpayload⟩
    · have hpos : 0 < (encodeHeader (frameHeader type payload) ++ payload).length := by
        rw [List.length_append, hhead]
        exact Nat.add_pos_left (by decide) _
      exact (hmoves.shorter rfl).imp_right fun ⟨heq, hle⟩ ↦ ⟨heq, by omega⟩
  · rintro failure _
      (⟨head, hhead, hrefuse, s, hmoves, rfl⟩ | ⟨bytes, hbegun, hheeds, s, hmoves, hdown, rfl⟩)
    · obtain ⟨pending, hwire, hpending, -⟩ := hfront hmoves
      obtain ⟨type, payload, rest, rfl, rfl, -⟩ := front_of_wire hhead hwire
      rw [List.forall_mem_cons] at hpending
      rw [decodeHeader_encode, hlenient _ (headerError_frameHeader hpending.1)] at hrefuse
      cases hrefuse
    · cases failure with
      | cancelled => exact .inl ⟨rfl, hheeds rfl, bytes, s, hbegun, rfl, hmoves, hdown⟩
      | idle ms =>
        obtain ⟨hserver, hclient⟩ := hdown
        obtain ⟨pending, hwire, hpending, -⟩ := hfront hmoves
        rw [hclient, List.append_nil] at hwire
        obtain rfl := eq_nil_of_begun hpending (hwire ▸ hbegun)
        obtain rfl : bytes = [] := hwire
        exact .inr ⟨ms, s, rfl, rfl, hmoves, hserver, hclient⟩
      | closed got len =>
        obtain ⟨_, -, -, hopen⟩ := hfront hmoves
        exact absurd hdown.2.2 hopen
      | stalled | sendFailed | recvFailed | refused | localFile | disposed
      | spent => exact hdown.elim

/-! ## Sending -/

/-- Part of the data was sent before the flag was seen. -/
def SendStopped {κ : Type} (heeds : Bool) (data : Bytes) (e : Endpoint (Net D) κ)
    (failure : Failure) (e' : Endpoint (Net D) κ) : Prop :=
  failure = .cancelled ∧ heeds = true ∧ ∃ n s, n < data.length ∧
    Net.Moves (data.take n) [] e.outside s ∧ s.cancelAfter = some 0 ∧
    e' = ((e.onto s).wrote (data.take n)).notice

theorem SendStopped.of_calm {κ : Type} {heeds : Bool} {data : Bytes} {e e' : Endpoint (Net D) κ}
    {failure : Failure} (h : SendStopped heeds data e failure e')
    (hcalm : e.outside.cancelAfter = none) : False := by
  obtain ⟨-, -, n, s, -, hmoves, hset, -⟩ := h
  exact absurd ((hmoves.calm hcalm).symm.trans hset) (by simp)

theorem yields_sendAll {κ : Type} (heeds : Bool) (stallMs : ℕ) (data : Bytes)
    (e : Endpoint (Net D) κ) :
    Yields (Act.sendAll (Net.link D) heeds stallMs data) e
      (fun _ e' ↦ ∃ s, Net.Moves data [] e.outside s ∧ e' = (e.onto s).wrote data)
      (SendStopped heeds data e) := by
  refine ((Act.yields_sendAll Net.laws heeds stallMs data e).and
    (Act.failsSending_sendAll _ heeds stallMs data e)).mono (fun _ _ h ↦ h.1) ?_
  rintro failure _ ⟨⟨hheeds, n, s, hn, hmoves, hdown, rfl⟩, hfails⟩
  cases failure with
  | cancelled => exact ⟨rfl, hheeds rfl, n, s, hn, hmoves, hdown, rfl⟩
  | stalled | sendFailed => exact hdown.elim
  | closed | idle | recvFailed | refused | localFile | disposed | spent => exact hfails.elim

/-- A frame was sent to its end. -/
def SentFrame {κ : Type} (type : MsgType) (payload : Bytes) (e e' : Endpoint (Net D) κ) : Prop :=
  ∃ s, Net.Moves (serializeFrame type payload) [] e.outside s ∧
    e' = ((e.onto s).wrote (serializeFrame type payload)).complete type payload

theorem Talk.send {type : MsgType} {payload : Bytes} {s' : Net D} (h : Talk s₀ sent read s)
    (hmoves : Net.Moves (serializeFrame type payload) [] s s') :
    Talk s₀ (sent ++ [(type, payload)]) read s' := by
  have hall := h.moves.trans hmoves
  rw [List.append_nil, ← wire_singleton, ← wire_append] at hall
  exact ⟨hall, h.small⟩

theorem SendStopped.append {κ : Type} {heeds : Bool} {data : Bytes} {e e' : Endpoint (Net D) κ}
    {failure : Failure} (h : SendStopped heeds data e failure e') (data' : Bytes) :
    SendStopped heeds (data ++ data') e failure e' := by
  obtain ⟨hfailure, hheeds, n, s, hn, hmoves, hset, rfl⟩ := h
  have htake : (data ++ data').take n = data.take n :=
    List.take_append_of_le_length (Nat.le_of_lt hn)
  rw [← htake] at hmoves ⊢
  refine ⟨hfailure, hheeds, n, s, ?_, hmoves, hset, rfl⟩
  rw [List.length_append]
  exact Nat.lt_add_right _ hn

/-- What was sent before belongs to the same frame. -/
theorem SendStopped.after {κ : Type} {heeds : Bool} {head data : Bytes} {e e' : Endpoint (Net D) κ}
    {failure : Failure} {s : Net D} (hmoves : Net.Moves head [] e.outside s)
    (h : SendStopped heeds data ((e.onto s).wrote head) failure e') :
    SendStopped heeds (head ++ data) e failure e' := by
  obtain ⟨hfailure, hheeds, n, s', hn, hmoves', hset, rfl⟩ := h
  have htake : (head ++ data).take (head.length + n) = head ++ data.take n :=
    List.take_length_add_append n
  have hall := hmoves.trans hmoves'
  rw [List.append_nil, ← htake] at hall
  refine ⟨hfailure, hheeds, head.length + n, s', ?_, hall, hset, ?_⟩
  · rw [List.length_append]
    exact Nat.add_lt_add_left hn _
  · rw [htake, Endpoint.wrote_onto, Endpoint.wrote_wrote, Endpoint.onto_onto]

end Conversation

end LoggerAnalyzer
