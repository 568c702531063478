import LoggerAnalyzer.Client.Laws
import LoggerAnalyzer.Session.ResultSize
import LoggerAnalyzer.Session.Says

/-!
# A client and a server

A `Net` is a connection on which nothing goes wrong, with a session of the server at its other end:
the bytes that are on their way in either direction, and what is still to happen. The server may
read what is on its way at any time and in any pieces, and a write of it may be done at any time; a
call of the client takes or gives any number of bytes. Nothing is lost, no timer of the server
fires, and a client that waits runs into its timeout only if the server has read everything and
nothing is on its way back.

`Moves` is what is known of a net: the session was run on bytes of the client, and the client was
given bytes of the session.
-/

namespace LoggerAnalyzer

open TcpSession Conversation

/-- What may happen at the server's end: it reads up to `more + 1` bytes, or a write is done. -/
inductive Move where
  | reads (more : ℕ)
  | wrote
deriving DecidableEq, Repr

/-- The session, the bytes on their way, and what is to come: how many times the flag is looked at
before it is seen to be set, if it ever is, what happens at the server's end before each call, how
often a call would block, how many bytes it takes or gives, whether what is on its way has arrived,
and the readings of the clock. `looks` records from where the flag was looked at before it was set.
-/
structure Net (D : Type) where
  session : TcpSession D
  toServer : Bytes
  toClient : Bytes
  cancelAfter : Option ℕ
  moves : Stream' (List Move)
  waits : Stream' ℕ
  sizes : Stream' ℕ
  arrived : Stream' Bool
  clock : Stream' ℕ
  looks : List Site := []

namespace TcpSession

variable {D : Type}

/-- The bytes that a session has sent. -/
def output (s : TcpSession D) : Bytes := wire (sentFrames s.timeline)

/-- What a session has sent only grows. -/
theorem Says.output {s s' : TcpSession D} (h : Says s s') :
    s'.output = s.output ++ s'.output.drop s.output.length := by
  obtain ⟨-, added, htimeline, -⟩ := h
  have hgrows : s'.output = s.output ++ wire (sentFrames added) := by
    rw [TcpSession.output, htimeline, sentFrames_append, wire, List.flatMap_append]
    rfl
  rw [hgrows, List.drop_left]

variable [DoubleOps D]

/-- Nothing is sent when a write is done. -/
theorem output_onWrite (ok : Bool) (s : TcpSession D) : (s.onWrite ok).output = s.output := by
  have hsent : sentFrames (s.onWrite ok).timeline = sentFrames s.timeline := by
    rcases s.onWrite_cases ok with hsame | hcloses
    · exact congrArg (fun c ↦ sentFrames c.timeline) hsame
    · obtain ⟨⟨added, htimeline, hall⟩, -⟩ := hcloses.appends
        (P := fun h ↦ ∀ type payload, h ≠ .sent type payload) (by simp) (by simp)
      have htimeline : (s.onWrite ok).timeline = s.timeline ++ added := htimeline
      have hnone : sentFrames added = [] := List.eq_nil_iff_forall_not_mem.mpr fun f hf ↦
        hall _ (mem_sentFrames.mp hf) f.1 f.2 rfl
      rw [htimeline, sentFrames_append, hnone, List.append_nil]
  rw [output, hsent, output]

end TcpSession

namespace Net

variable {D : Type} [DoubleOps D]

/-- The session is called, and what it sends is on its way. -/
def call (event : Event) (net : Net D) : Net D :=
  let session := net.session.step event
  { net with
    session := session
    toClient := net.toClient ++ session.output.drop net.session.output.length }

def move (net : Net D) : Move → Net D
  | .reads more =>
    let size := min (more + 1) kReadBuffer
    if net.toServer = [] then net
    else { net with toServer := net.toServer.drop size }.call (.read (net.toServer.take size))
  | .wrote => if net.session.writes = [] then net else net.call (.written true)

/-- What happens before a call. -/
def pass (net : Net D) : Net D :=
  net.moves.head.foldl move { net with moves := net.moves.tail }

/-- The server reads all that is on its way. -/
def flush : ℕ → Net D → Net D
  | 0, net => net
  | fuel + 1, net => if net.toServer = [] then net else flush fuel (net.move (.reads kReadBuffer))

/-- The flag is looked at. -/
def flag (site : Site) (net : Net D) : Bool × Net D :=
  match net.cancelAfter with
  | none => (false, { net with looks := net.looks ++ [site] })
  | some 0 => (true, net)
  | some (n + 1) => (false, { net with cancelAfter := some n, looks := net.looks ++ [site] })

/-- The socket takes some of the data. -/
def send (data : Bytes) (net : Net D) : SendAnswer × Net D :=
  (.took net.sizes.head,
    { net with
      toServer := net.toServer ++ data.take (net.sizes.head + 1), sizes := net.sizes.tail })

/-- The socket gives some of what is on its way, once there is anything. -/
def recv (n : ℕ) (net : Net D) : RecvAnswer × Net D :=
  let net := if net.toClient = [] then net.flush net.toServer.length else net
  match net.toClient with
  | [] => (if net.session.state = .closing then .closed else .idle, net)
  | first :: more =>
    (.got first (more.take net.sizes.head),
      { net with
        toClient := (first :: more).drop (min n (net.sizes.head + 1)), sizes := net.sizes.tail })

/-- Whether something has arrived. -/
def readable (net : Net D) : Bool × Net D :=
  let net := net.pass
  (net.arrived.head && decide (net.toClient ≠ []), { net with arrived := net.arrived.tail })

def link (D : Type) [DoubleOps D] : Link (Net D) where
  flag := flag
  pauses net := (net.waits.head, { net.pass with waits := net.waits.tail })
  send := send
  recv := recv
  readable := readable
  now net := (net.clock.head, { net with clock := net.clock.tail })

/-! ## What is known of a net -/

/-- A net goes from `s` to `s'` while it takes the bytes `sent` and gives the bytes `received`. -/
structure Moves (sent received : Bytes) (s s' : Net D) : Prop where
  served : ∃ events, (∀ event ∈ events, event.smooth = true) ∧ Buffered events ∧
    s'.session = s.session.run events ∧
    s.toServer ++ sent = events.flatMap Event.bytes ++ s'.toServer
  answered : ∃ new, s'.session.output = s.session.output ++ new ∧
    s.toClient ++ new = received ++ s'.toClient
  calm : s.cancelAfter = none → s'.cancelAfter = none
  clock : ∃ n, s'.clock = s.clock.drop n
  shorter : sent = [] → s'.toServer.length < s.toServer.length ∨
    s'.toServer.length = s.toServer.length ∧
      s'.toClient.length + received.length ≤ s.toClient.length

/-- In what state the client gives up. -/
def Down : Failure → Net D → Prop
  | .cancelled, s => s.cancelAfter = some 0
  | .closed _ _, s => s.toServer = [] ∧ s.toClient = [] ∧ s.session.state = .closing
  | .idle _, s => s.toServer = [] ∧ s.toClient = []
  | _, _ => False

namespace Moves

variable {sent received sent' received' : Bytes} {s s' s'' : Net D}

theorem trans (h : Moves sent received s s') (h' : Moves sent' received' s' s'') :
    Moves (sent ++ sent') (received ++ received') s s'' where
  served := by
    obtain ⟨events, hsmooth, hbuffered, hrun, hbytes⟩ := h.served
    obtain ⟨events', hsmooth', hbuffered', hrun', hbytes'⟩ := h'.served
    refine ⟨events ++ events', List.forall_mem_append.mpr ⟨hsmooth, hsmooth'⟩,
      fun data hmem ↦ ?_, ?_, ?_⟩
    · exact (List.mem_append.mp hmem).elim (hbuffered data) (hbuffered' data)
    · calc s''.session = (s.session.run events).run events' := by rw [hrun', hrun]
        _ = s.session.run (events ++ events') := (List.foldl_append ..).symm
    · calc s.toServer ++ (sent ++ sent')
          = events.flatMap Event.bytes ++ (s'.toServer ++ sent') := by
            rw [← List.append_assoc, hbytes, List.append_assoc]
        _ = events.flatMap Event.bytes ++ (events'.flatMap Event.bytes ++ s''.toServer) := by
            rw [hbytes']
        _ = (events ++ events').flatMap Event.bytes ++ s''.toServer := by
            rw [List.flatMap_append, List.append_assoc]
  answered := by
    obtain ⟨new, houtput, hnew⟩ := h.answered
    obtain ⟨new', houtput', hnew'⟩ := h'.answered
    refine ⟨new ++ new', by rw [houtput', houtput, List.append_assoc], ?_⟩
    calc s.toClient ++ (new ++ new')
        = received ++ (s'.toClient ++ new') := by
          rw [← List.append_assoc, hnew, List.append_assoc]
      _ = received ++ (received' ++ s''.toClient) := by rw [hnew']
      _ = received ++ received' ++ s''.toClient := (List.append_assoc ..).symm
  calm hcalm := h'.calm (h.calm hcalm)
  clock := by
    obtain ⟨n, hn⟩ := h.clock
    obtain ⟨n', hn'⟩ := h'.clock
    exact ⟨n + n', by rw [hn', hn, Stream'.drop_drop]⟩
  shorter hnil := by
    obtain ⟨rfl, rfl⟩ := List.append_eq_nil_iff.mp hnil
    rw [List.length_append]
    rcases h.shorter rfl with hlt | ⟨heq, hle⟩ <;> rcases h'.shorter rfl with hlt' | ⟨heq', hle'⟩
    · exact .inl (hlt'.trans hlt)
    · exact .inl (heq' ▸ hlt)
    · exact .inl (heq ▸ hlt')
    · exact .inr ⟨heq'.trans heq, by omega⟩

/-- What the session and the bytes do not depend on changes. -/
theorem of_eq (session : s'.session = s.session) (toServer : s'.toServer = s.toServer)
    (toClient : s'.toClient = s.toClient) (calm : s.cancelAfter = none → s'.cancelAfter = none)
    {n : ℕ} (clock : s'.clock = s.clock.drop n) : Moves [] [] s s' where
  served := ⟨[], by simp, fun _ h ↦ absurd h List.not_mem_nil, session, by
    rw [toServer, List.append_nil]
    rfl⟩
  answered := ⟨[], by rw [session, List.append_nil], by rw [toClient, List.append_nil]; rfl⟩
  calm := calm
  clock := ⟨n, clock⟩
  shorter _ := .inr ⟨by rw [toServer], by rw [toClient]; exact Nat.le_refl _⟩

theorem refl (s : Net D) : Moves [] [] s s := of_eq rfl rfl rfl id (n := 0) rfl

end Moves

/-! ## What happens at the server's end -/

private theorem moves_call {event : Event} (hsmooth : event.smooth = true) {s t : Net D}
    (hbuffered : event.bytes.length ≤ kReadBuffer)
    (session : t.session = s.session) (toServer : s.toServer = event.bytes ++ t.toServer)
    (toClient : t.toClient = s.toClient) (calm : t.cancelAfter = s.cancelAfter)
    (clock : t.clock = s.clock)
    (quiet : event.bytes = [] → (s.session.step event).output = s.session.output) :
    Moves [] [] s (t.call event) := by
  have hsays := (Says.refl s.session).step event
  have hnew : (t.call event).toClient
      = s.toClient ++ (s.session.step event).output.drop s.session.output.length := by
    rw [call, toClient, session]
  refine ⟨⟨[event], by simpa using hsmooth, fun data hmem ↦ ?_, ?_, ?_⟩,
    ⟨(s.session.step event).output.drop s.session.output.length, ?_, hnew.symm⟩,
    fun h ↦ calm.trans h, ⟨0, clock⟩, fun _ ↦ ?_⟩
  · rw [← List.mem_singleton.mp hmem] at hbuffered
    exact hbuffered
  · rw [call, session]
    rfl
  · rw [List.append_nil, List.flatMap_singleton, toServer]
    rfl
  · rw [call, session]
    exact hsays.output
  · -- a call that takes no bytes says nothing; any other makes what is on its way shorter
    by_cases hnil : event.bytes = []
    · refine .inr ⟨?_, ?_⟩
      · rw [toServer, hnil]
        rfl
      · rw [hnew, quiet hnil, List.drop_length, List.append_nil]
        exact Nat.le_refl _
    · have hpos := List.length_pos_iff.mpr hnil
      have hlen := congrArg List.length toServer
      rw [List.length_append] at hlen
      have hleft : (t.call event).toServer.length = t.toServer.length := rfl
      exact .inl (by omega)

theorem moves_move (s : Net D) (m : Move) : Moves [] [] s (s.move m) := by
  cases m with
  | reads more =>
    rw [move]
    split_ifs with hnil
    · exact .refl s
    · have hsize : 0 < min (more + 1) kReadBuffer := by
        have hbuffer : 0 < kReadBuffer := by decide
        omega
      have hlen : (s.toServer.take (min (more + 1) kReadBuffer)).length ≤ kReadBuffer := by
        rw [List.length_take]
        omega
      refine moves_call rfl hlen rfl (List.take_append_drop ..).symm rfl rfl rfl ?_
      intro hempty
      exact absurd (List.take_eq_nil_iff.mp hempty) (not_or.mpr ⟨by omega, hnil⟩)
  | wrote =>
    rw [move]
    split_ifs
    · exact .refl s
    · exact moves_call rfl (Nat.zero_le _) rfl rfl rfl rfl rfl fun _ ↦ output_onWrite true s.session

theorem moves_pass (s : Net D) : Moves [] [] s s.pass := by
  have hall : ∀ (ms : List Move) (s : Net D), Moves [] [] s (ms.foldl move s) := by
    intro ms
    induction ms with
    | nil => exact fun s ↦ .refl s
    | cons m ms ih => exact fun s ↦ (moves_move s m).trans (ih _)
  have htail : Moves [] [] s { s with moves := s.moves.tail } := .of_eq rfl rfl rfl id (n := 0) rfl
  exact htail.trans (hall _ _)

theorem moves_flush (fuel : ℕ) (s : Net D) : Moves [] [] s (s.flush fuel) := by
  induction fuel generalizing s with
  | zero => exact .refl s
  | succ fuel ih =>
    rw [flush]
    split_ifs
    · exact .refl s
    · exact (moves_move s _).trans (ih _)

theorem toServer_flush {fuel : ℕ} {s : Net D} (hfuel : s.toServer.length ≤ fuel) :
    (s.flush fuel).toServer = [] := by
  induction fuel generalizing s with
  | zero => exact List.length_eq_zero_iff.mp (Nat.le_zero.mp hfuel)
  | succ fuel ih =>
    rw [flush]
    split_ifs with hnil
    · exact hnil
    · refine ih ?_
      have hsize : 0 < min (kReadBuffer + 1) kReadBuffer := by decide
      have hpos := List.length_pos_iff.mpr hnil
      rw [move]
      rw [if_neg hnil]
      show (s.toServer.drop _).length ≤ fuel
      rw [List.length_drop]
      omega

/-! ## The laws -/

/-- What the client is given before the session has to do anything. -/
theorem moves_recv {s : Net D} {first : UInt8} {more : Bytes} (h : s.toClient = first :: more)
    (n : ℕ) :
    Moves [] ((first :: more.take s.sizes.head).take n) s
      { s with
        toClient := (first :: more).drop (min n (s.sizes.head + 1)), sizes := s.sizes.tail } := by
  have hbytes : s.toClient = (first :: more.take s.sizes.head).take n
      ++ (first :: more).drop (min n (s.sizes.head + 1)) := by
    rw [← List.take_succ_cons, List.take_take, List.take_append_drop, h]
  refine ⟨⟨[], by simp, fun _ h ↦ absurd h List.not_mem_nil, rfl, List.append_nil _⟩,
    ⟨[], (List.append_nil _).symm, ?_⟩, id, ⟨0, rfl⟩, fun _ ↦ .inr ⟨rfl, ?_⟩⟩
  · rw [List.append_nil, hbytes]
  · rw [hbytes, List.length_append]
    exact Nat.le_of_eq (Nat.add_comm _ _)

/-- The state in which the socket gives what is on its way, or in which there is nothing. -/
def awaited (s : Net D) : Net D := if s.toClient = [] then s.flush s.toServer.length else s

theorem moves_awaited (s : Net D) : Moves [] [] s s.awaited := by
  rw [awaited]
  split_ifs
  · exact moves_flush _ s
  · exact .refl s

private theorem toServer_awaited {s : Net D} (h : s.awaited.toClient = []) :
    s.awaited.toServer = [] := by
  rw [awaited] at h ⊢
  split_ifs at h ⊢ with hnil
  · exact toServer_flush (Nat.le_refl _)
  · exact absurd h hnil

theorem recv_eq (n : ℕ) (s : Net D) : s.recv n = match s.awaited.toClient with
    | [] => (if s.awaited.session.state = .closing then .closed else .idle, s.awaited)
    | first :: more => (.got first (more.take s.awaited.sizes.head),
        { s.awaited with
          toClient := (first :: more).drop (min n (s.awaited.sizes.head + 1))
          sizes := s.awaited.sizes.tail }) := rfl

/-- What a call of `recv` comes to. -/
theorem recv_cases (n : ℕ) (s : Net D) :
    (s.awaited.toServer = [] ∧ s.awaited.toClient = [] ∧ (s.recv n).2 = s.awaited ∧
      (s.awaited.session.state = .closing ∧ (s.recv n).1 = .closed ∨ (s.recv n).1 = .idle)) ∨
    ∃ first more, (s.recv n).1 = .got first more ∧
    Moves [] ((first :: more).take n) s (s.recv n).2 := by
  rw [recv_eq]
  cases hclient : s.awaited.toClient with
  | nil =>
    refine .inl ⟨toServer_awaited hclient, rfl, rfl, ?_⟩
    dsimp only
    split_ifs with hclosing
    · exact .inl ⟨hclosing, rfl⟩
    · exact .inr rfl
  | cons first more =>
    exact .inr ⟨first, _, rfl, (moves_awaited s).trans (moves_recv hclient n)⟩

private theorem moves_send {data : Bytes} (hdata : data ≠ []) (s : Net D) :
    Moves (data.take (s.sizes.head + 1)) [] s (s.send data).2 where
  served := ⟨[], by simp, fun _ h ↦ absurd h List.not_mem_nil, rfl, rfl⟩
  answered := ⟨[], (List.append_nil _).symm, List.append_nil _⟩
  calm := id
  clock := ⟨0, rfl⟩
  shorter hnil := absurd (List.take_eq_nil_iff.mp hnil) (not_or.mpr ⟨Nat.succ_ne_zero _, hdata⟩)

/-- **What is known of a net.** -/
theorem laws : (link D).Laws Moves Down where
  refl := .refl
  trans := .trans
  flag site s := by
    show Moves [] [] s (s.flag site).2
    rw [flag]
    split
    · exact .of_eq rfl rfl rfl id (n := 0) rfl
    · exact .refl s
    · rename_i n hsome
      exact .of_eq rfl rfl rfl (fun hnone ↦ absurd (hsome.symm.trans hnone) (by simp)) (n := 0) rfl
  flag_true site s h := by
    have hflag : (s.flag site).1 = true := h
    show (s.flag site).2.cancelAfter = some 0
    rw [flag] at hflag ⊢
    split at hflag
    · cases hflag
    · rename_i hzero
      rw [hzero]
    · cases hflag
  pauses s := (moves_pass s).trans (.of_eq rfl rfl rfl id (n := 0) rfl)
  readable s := (moves_pass s).trans (.of_eq rfl rfl rfl id (n := 0) rfl)
  now s := .of_eq rfl rfl rfl id (n := 1) rfl
  took {data s more} hdata h := by
    have hmore : s.sizes.head = more := SendAnswer.took.inj h
    exact hmore ▸ moves_send hdata s
  stalled {_ _} _ h := by cases h
  sendFailed {_ _ _} _ h := by cases h
  got {n s first more} _ h := by
    rcases recv_cases n s with ⟨-, -, -, ⟨-, hother⟩ | hother⟩ | ⟨first', more', hgot, hmoves⟩
    · exact absurd (h.symm.trans hother) (by simp)
    · exact absurd (h.symm.trans hother) (by simp)
    · obtain ⟨rfl, rfl⟩ := RecvAnswer.got.inj (h.symm.trans hgot)
      exact hmoves
  closed {n s} _ h := by
    rcases recv_cases n s with ⟨hserver, hclient, hsame, hwhy⟩ | ⟨first', more', hgot, -⟩
    · rcases hwhy with ⟨hclosing, -⟩ | hother
      · show Moves [] [] s (s.recv n).2 ∧ ∀ got len, Down (.closed got len) (s.recv n).2
        rw [hsame]
        exact ⟨moves_awaited s, fun _ _ ↦ ⟨hserver, hclient, hclosing⟩⟩
      · exact absurd (h.symm.trans hother) (by simp)
    · exact absurd (h.symm.trans hgot) (by simp)
  idle {n s} _ h := by
    rcases recv_cases n s with ⟨hserver, hclient, hsame, -⟩ | ⟨first', more', hgot, -⟩
    · show Moves [] [] s (s.recv n).2 ∧ ∀ ms, Down (.idle ms) (s.recv n).2
      rw [hsame]
      exact ⟨moves_awaited s, fun _ ↦ ⟨hserver, hclient⟩⟩
    · exact absurd (h.symm.trans hgot) (by simp)
  recvFailed {n s _} _ h := by
    rcases recv_cases n s with ⟨-, -, -, ⟨-, hother⟩ | hother⟩ | ⟨first', more', hgot, -⟩
    · exact absurd (h.symm.trans hother) (by simp)
    · exact absurd (h.symm.trans hother) (by simp)
    · exact absurd (h.symm.trans hgot) (by simp)

end Net

end LoggerAnalyzer
