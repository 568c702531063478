import LoggerAnalyzer.Server.Lifetime
import Mathlib.Algebra.Order.BigOperators.Group.Finset

/-!
# The server shuts down

SIGINT and SIGTERM make the server close all its sessions, and it accepts no connection after that.
What is left to be done is done by libuv, which closes the handles, two for each session, and calls
back for each. `outstanding` counts the callbacks that are to come. `drains` says of every run from
there that nothing but these callbacks counts: each takes one away, whatever else is called in
between, and with the last of them the last session is gone.

`begin_shutdown` leaves a session alone that is in the state `closing`. So it matters that the
handles of such a session are being closed, and this is `Shut`.
-/

namespace LoggerAnalyzer

open Incremental FrameDecoder

namespace TcpSession

variable {D : Type}

/-- The state is `closing` only when the handles are being closed. -/
def Shut (s : TcpSession D) : Prop := s.state = .closing → s.handlesClosing = true

namespace Shut

variable {s s' : TcpSession D}

theorem of_ne (h : s.state ≠ .closing) : Shut s := fun hclosing ↦ absurd hclosing h

theorem congr (h : Shut s) (state : s'.state = s.state)
    (handlesClosing : s'.handlesClosing = s.handlesClosing) : Shut s' := by
  rw [Shut, state, handlesClosing]
  exact h

theorem handlesClosing_closeHandles (s : TcpSession D) : s.closeHandles.handlesClosing = true := by
  have hset : (if s.handlesClosing then { s with timer := none }
      else { s with timer := none, handlesClosing := true, pendingClose := s.pendingClose + 2 }
        : TcpSession D).handlesClosing = true := by
    split_ifs with hclosing
    · exact hclosing
    · rfl
  rw [TcpSession.closeHandles]
  dsimp only
  split_ifs at hset ⊢
  all_goals exact hset

variable [DoubleOps D]

/-- **A session that is closed** has its handles closed. -/
theorem handlesClosing_close (h : Shut s) : s.close.handlesClosing = true := by
  rw [TcpSession.close]
  split_ifs with hclosing
  · exact h hclosing
  · exact handlesClosing_closeHandles _
  · exact handlesClosing_closeHandles _

theorem close (h : Shut s) : Shut s.close := fun _ ↦ h.handlesClosing_close

theorem durable : Durable (Shut (D := D)) where
  congr h _ _ _ state handlesClosing _ := h.congr state handlesClosing
  note h _ _ := h.congr rfl rfl
  enter _ hne := of_ne hne
  named h _ := h.congr rfl rfl
  queued _ _ h := h.congr rfl rfl
  close h := h.close

/-- Every callback keeps to it. -/
theorem step (h : Shut s) (event : Event) : Shut (s.step event) := by
  refine durable.step h (fun _ _ ↦ h.congr rfl rfl) ?_
  intro _
  rw [TcpSession.onHandleClosed]
  dsimp only
  split_ifs
  · exact h.congr rfl rfl
  · exact h.congr rfl rfl

theorem startReading (h : Shut s) (readStarted : Bool) : Shut (s.startReading readStarted) :=
  durable.startReading h readStarted

theorem reject (h : Shut s) (code : ErrorCode) (message : Bytes) : Shut (s.reject code message) :=
  durable.reject h code message

end Shut

end TcpSession

namespace TcpServer

variable {D : Type}

/-! ## What the code of a session leaves in the map -/

section Lookup

variable {s : TcpServer D} {id id' : UInt32} {session session' : TcpSession D}

@[simp] theorem sessions_uvClose (s : TcpServer D) (id : UInt32) (before after : TcpSession D) :
    (s.uvClose id before after).sessions = s.sessions := by
  rw [uvClose]
  split_ifs
  · rfl
  · rfl

variable [DoubleOps D] {code : TcpSession D → TcpSession D}

omit [DoubleOps D] in
/-- The code of a session does not touch the others. -/
theorem lookup_runSession_ne (s : TcpServer D) (code : TcpSession D → TcpSession D)
    (hne : id' ≠ id) : (s.runSession id code).sessions.lookup id' = s.sessions.lookup id' := by
  rw [runSession]
  split
  · rfl
  · dsimp only
    rw [onSessionClosed]
    split_ifs
    · rw [AList.lookup_erase_ne hne, sessions_uvClose, AList.lookup_insert_ne hne]
    · rw [sessions_uvClose, AList.lookup_insert_ne hne]
    · rw [sessions_uvClose, AList.lookup_insert_ne hne]

omit [DoubleOps D] in
/-- A session that is still in the map is as its code left it. -/
theorem lookup_runSession_self (hlookup : s.sessions.lookup id = some session)
    (hthere : (s.runSession id code).sessions.lookup id = some session') :
    session' = code session := by
  rw [runSession, hlookup] at hthere
  dsimp only at hthere
  rw [onSessionClosed] at hthere
  split_ifs at hthere
  · exact absurd (hthere.symm.trans (AList.lookup_erase _ _)) (by simp)
  · rw [sessions_uvClose, AList.lookup_insert] at hthere
    exact (Option.some.inj hthere).symm
  · rw [sessions_uvClose, AList.lookup_insert] at hthere
    exact (Option.some.inj hthere).symm

omit [DoubleOps D] in
theorem runSession_of_none (hlookup : s.sessions.lookup id = none) : s.runSession id code = s := by
  rw [runSession, hlookup]

omit [DoubleOps D] in
/-- **What is so of every session** that the code of one of them keeps to. -/
theorem forall_runSession {P : UInt32 → TcpSession D → Prop}
    (h : ∀ id' session, s.sessions.lookup id' = some session → id' ≠ id → P id' session)
    (hcode : ∀ session, s.sessions.lookup id = some session → P id (code session)) :
    ∀ id' session, (s.runSession id code).sessions.lookup id' = some session → P id' session := by
  intro id' session' hthere
  by_cases heq : id' = id
  · subst heq
    cases hlookup : s.sessions.lookup id' with
    | none =>
      rw [runSession_of_none hlookup, hlookup] at hthere
      exact absurd hthere (by simp)
    | some session =>
      rw [lookup_runSession_self hlookup hthere]
      exact hcode session hlookup
  · rw [lookup_runSession_ne s code heq] at hthere
    exact h id' session' hthere heq

omit [DoubleOps D] in
/-- libuv is not told to close handles that are being closed. -/
theorem handles_runSession
    (hclosing : ∀ session, s.sessions.lookup id = some session → session.handlesClosing = true) :
    (s.runSession id code).handles = s.handles := by
  rw [runSession]
  split
  · rfl
  · rename_i session hlookup
    have hopen : ¬ (!session.handlesClosing && (code session).handlesClosing) = true := by
      rw [hclosing session hlookup]
      simp
    dsimp only
    rw [uvClose, if_neg hopen, onSessionClosed]
    split_ifs
    all_goals rfl

end Lookup

/-! ## The callbacks that are to come -/

/-- How many callbacks of `uv_close` are to come before all sessions are gone. -/
def outstanding (s : TcpServer D) : ℕ := ∑ id ∈ s.made.toFinset, remaining (s.handles id)

/-- A callback of `uv_close`. -/
def Event.isHandleClosed : Event → Bool
  | .handleClosed _ _ => true
  | _ => false

private theorem remaining_eq_zero_iff {handles : Handle → HandleState} :
    remaining handles = 0 ↔ ∀ handle, handles handle = .closed := by
  have hpos := remaining_pos_iff handles
  constructor
  · intro hzero handle
    by_contra hopen
    have := hpos.mpr ⟨handle, hopen⟩
    omega
  · intro hclosed
    by_contra hne
    obtain ⟨handle, hopen⟩ := hpos.mp (Nat.pos_of_ne_zero hne)
    exact hopen (hclosed handle)

/-- The callbacks have all come when the last session is gone. -/
theorem Sound.outstanding_eq_zero_iff {s : TcpServer D} (h : Sound s) :
    s.outstanding = 0 ↔ s.sessions.keys = [] := by
  rw [outstanding, Finset.sum_eq_zero_iff, List.eq_nil_iff_forall_not_mem]
  constructor
  · intro hnone id hmem
    have hmem := AList.mem_keys.mpr hmem
    obtain ⟨session, hlookup⟩ := exists_lookup hmem
    obtain ⟨handle, hopen⟩ := (h.watched id session hlookup).1.exists_open
    have hzero := hnone id (List.mem_toFinset.mpr (h.made id hmem))
    exact hopen (remaining_eq_zero_iff.mp hzero handle)
  · intro hempty id hmade
    have hnot : id ∉ s.sessions := fun hmem ↦ hempty id (AList.mem_keys.mp hmem)
    exact remaining_eq_zero_iff.mpr (h.gone id (List.mem_toFinset.mp hmade) hnot).1

/-- One callback comes. -/
theorem outstanding_update {s s' : TcpServer D} {id : UInt32} {handle : Handle}
    (hmade : id ∈ s.made) (hopen : s.handles id handle ≠ .closed) (made : s'.made = s.made)
    (handles : s'.handles = Function.update s.handles id
      (Function.update (s.handles id) handle .closed)) :
    s'.outstanding + 1 = s.outstanding := by
  have hmem := List.mem_toFinset.mpr hmade
  have hothers : ∀ id' ∈ s.made.toFinset.erase id,
      remaining (s'.handles id') = remaining (s.handles id') := fun id' hid' ↦ by
    rw [handles, Function.update_of_ne (Finset.ne_of_mem_erase hid')]
  rw [outstanding, outstanding, made, ← Finset.add_sum_erase _ _ hmem,
    ← Finset.add_sum_erase s.made.toFinset (fun id ↦ remaining (s.handles id)) hmem,
    Finset.sum_congr rfl hothers, handles, Function.update_self, ← remaining_update hopen]
  omega

/-! ## Shutting down -/

variable [DoubleOps D]

/-- What is so of the sessions in the map, before the shutdown and after. -/
structure Winding (s : TcpServer D) : Prop where
  sound : Sound s
  shut : ∀ id session, s.sessions.lookup id = some session → session.Shut
  closing : s.shuttingDown = true →
    ∀ id session, s.sessions.lookup id = some session → session.handlesClosing = true

namespace Winding

variable {s : TcpServer D}

omit [DoubleOps D] in
theorem listening (config : ServerConfig) : Winding (listening (D := D) config) where
  sound := .listening config
  shut _ _ hlookup := absurd (mem_of_lookup hlookup) (AList.notMem_empty _)
  closing hdown := absurd hdown (by simp [TcpServer.listening])

/-- Every session is closed, one by one. -/
theorem closeAll {ids : List UInt32} {s : TcpServer D}
    (h : ∀ id session, s.sessions.lookup id = some session →
      session.Shut ∧ (id ∉ ids → session.handlesClosing = true)) :
    ∀ id session, (s.closeAll ids).sessions.lookup id = some session →
      session.Shut ∧ session.handlesClosing = true := by
  induction ids generalizing s with
  | nil =>
    exact fun id session hlookup ↦ (h id session hlookup).imp_right fun h ↦ h List.not_mem_nil
  | cons id ids ih =>
    refine ih (forall_runSession ?_ ?_)
    · intro id' session hlookup hne
      obtain ⟨hshut, hclosing⟩ := h id' session hlookup
      refine ⟨hshut, fun hnot ↦ hclosing fun hmem ↦ ?_⟩
      exact (List.mem_cons.mp hmem).elim hne hnot
    · intro session hlookup
      obtain ⟨hshut, -⟩ := h id session hlookup
      exact ⟨hshut.close, fun _ ↦ hshut.handlesClosing_close⟩

/-- **`begin_shutdown` closes every session.** -/
theorem beginShutdown (h : Winding s) : Winding s.beginShutdown := by
  rw [TcpServer.beginShutdown]
  split_ifs with hdown
  · exact h
  · have hall : ∀ id session,
        ({ s with shuttingDown := true }.closeAll
          (s.sessions.keys.mergeSort (· ≤ ·))).sessions.lookup id = some session →
        session.Shut ∧ session.handlesClosing = true := by
      refine closeAll fun id session hlookup ↦
        ⟨h.shut id session hlookup, fun hnot ↦ absurd ?_ hnot⟩
      exact (List.mergeSort_perm _ _).mem_iff.mpr (AList.mem_keys.mp (mem_of_lookup hlookup))
    have hsound := h.sound.beginShutdown
    rw [TcpServer.beginShutdown, if_neg hdown] at hsound
    exact ⟨hsound, fun id session hlookup ↦ (hall id session hlookup).1,
      fun _ id session hlookup ↦ (hall id session hlookup).2⟩

omit [DoubleOps D] in
/-- Code of a session runs, and libuv may have closed a handle of it. -/
theorem runSession (h : Winding s) {t : TcpServer D} (sessions : t.sessions = s.sessions)
    (shutting : t.shuttingDown = s.shuttingDown) {id : UInt32}
    {code : TcpSession D → TcpSession D} (hsound : Sound (t.runSession id code))
    (hshut : ∀ session, s.sessions.lookup id = some session → (code session).Shut)
    (hcode : ∀ session, s.sessions.lookup id = some session → session.handlesClosing = true →
      (code session).handlesClosing = true) : Winding (t.runSession id code) := by
  rw [← sessions] at hshut hcode
  refine ⟨hsound, forall_runSession (fun id' session hlookup _ ↦ ?_) hshut, fun hdown ↦ ?_⟩
  · rw [sessions] at hlookup
    exact h.shut id' session hlookup
  · rw [(runSession_keeps t id code).2.1, shutting] at hdown
    have hclosing := h.closing hdown
    rw [← sessions] at hclosing
    exact forall_runSession (fun id' session hlookup _ ↦ hclosing id' session hlookup)
      fun session hlookup ↦ hcode session hlookup (hclosing id session hlookup)

/-- A connection is made. -/
theorem acceptOne (h : Winding s) {arrival : Arrival} (hfew : s.made.length + 1 < 2 ^ 32)
    (hsound : Sound (s.acceptOne arrival)) : Winding (s.acceptOne arrival) := by
  by_cases hdown : s.shuttingDown = true
  · rwa [TcpServer.acceptOne, if_pos hdown]
  have hrunning := Bool.eq_false_iff.mpr hdown
  have hnot : s.nextId ∉ s.sessions := fun hmem ↦ h.sound.nextId_notMem hfew (h.sound.made _ hmem)
  have hshut : ∀ id session, (s.join arrival).sessions.lookup id = some session →
      session.Shut := by
    intro id session hlookup
    by_cases heq : id = s.nextId
    · rw [heq, lookup_join] at hlookup
      rw [← Option.some.inj hlookup]
      exact TcpSession.Shut.of_ne SessionState.noConfusion
    · rw [join, AList.lookup_insert_ne heq] at hlookup
      exact h.shut id session hlookup
  rw [acceptOne_eq hrunning hnot] at hsound ⊢
  refine ⟨hsound, ?_, fun hdown' ↦ absurd hdown' ?_⟩
  · split_ifs
    · exact forall_runSession (fun id session hlookup _ ↦ hshut id session hlookup)
        fun session hlookup ↦ (hshut _ session hlookup).close
    · exact forall_runSession (fun id session hlookup _ ↦ hshut id session hlookup)
        fun session hlookup ↦ (hshut _ session hlookup).reject _ _
    · exact forall_runSession (fun id session hlookup _ ↦ hshut id session hlookup)
        fun session hlookup ↦ (hshut _ session hlookup).startReading _
  · split_ifs
    all_goals
      rw [(runSession_keeps _ _ _).2.1]
      exact hdown

/-- **A step** that the surroundings may take. -/
theorem step (h : Winding s) {event : Event} (promised : s.Promised event)
    (orderly : s.Orderly event) : Winding (s.step event) := by
  have hsound := h.sound.step promised orderly
  cases event with
  | connection ok arrival =>
    rw [TcpServer.step, onConnection] at hsound ⊢
    split_ifs at hsound ⊢
    · exact h.acceptOne promised hsound
    · exact h
  | session id event =>
    obtain ⟨-, handle, hhandle, -⟩ := promised
    have hevent : event ≠ .handleClosed := fun heq ↦ by simp [heq, handleOf] at hhandle
    refine h.runSession rfl rfl hsound
      (fun session hlookup ↦ (h.shut id session hlookup).step event) ?_
    intro session hlookup hclosing
    have halive := (h.sound.watched id session hlookup).1.alive
    rcases ((TcpSession.Retires.refl halive).step hevent).handles with ⟨hsame, -⟩ | ⟨hopen, -⟩
    · exact hsame.trans hclosing
    · exact absurd (hclosing.symm.trans hopen) (by decide)
  | handleClosed id handle =>
    refine h.runSession (t := s.closed id handle) rfl rfl hsound
      (fun session hlookup ↦ (h.shut id session hlookup).step .handleClosed) ?_
    exact fun session _ hclosing ↦ (handlesClosing_onHandleClosed session).trans hclosing
  | shutdown => exact h.beginShutdown

/-- **A step during the shutdown** makes no session, and takes one callback away if it is one. -/
theorem step_outstanding (h : Winding s) (hdown : s.shuttingDown = true) {event : Event}
    (promised : s.Promised event) : (s.step event).made = s.made ∧
      (s.step event).shuttingDown = true ∧
      (s.step event).outstanding + (if event.isHandleClosed then 1 else 0) = s.outstanding := by
  have hclosing := h.closing hdown
  cases event with
  | connection ok arrival =>
    have hsame : s.step (.connection ok arrival) = s := by
      rw [TcpServer.step, onConnection, TcpServer.acceptOne, if_pos hdown, ite_self]
    rw [hsame]
    exact ⟨rfl, hdown, rfl⟩
  | session id event =>
    obtain ⟨-, hshutting, hmade, -⟩ := runSession_keeps s id (·.step event)
    have hhandles : (s.runSession id (·.step event)).handles = s.handles :=
      handles_runSession fun session hlookup ↦ hclosing id session hlookup
    refine ⟨hmade, hshutting.trans hdown, ?_⟩
    show (s.runSession id (·.step event)).outstanding = _
    rw [outstanding, hhandles, hmade]
    rfl
  | handleClosed id handle =>
    obtain ⟨-, hshutting, hmade, -⟩ := runSession_keeps (s.closed id handle) id (·.onHandleClosed)
    have hopen : s.handles id handle ≠ .closed := by
      rw [promised.2]
      decide
    refine ⟨hmade, hshutting.trans hdown, ?_⟩
    refine outstanding_update promised.1 hopen hmade ?_
    exact handles_runSession fun session hlookup ↦ hclosing id session hlookup
  | shutdown =>
    have hsame : s.step .shutdown = s := if_pos hdown
    rw [hsame]
    exact ⟨rfl, hdown, rfl⟩

omit [DoubleOps D] in
/-- During the shutdown libuv owes a callback as long as there is a session. -/
theorem exists_promised (h : Winding s) (hdown : s.shuttingDown = true) {id : UInt32}
    (hmem : id ∈ s.sessions) : ∃ handle, s.Promised (.handleClosed id handle) := by
  obtain ⟨session, hlookup⟩ := exists_lookup hmem
  have hwatched := (h.sound.watched id session hlookup).1
  obtain ⟨handle, hopen⟩ := hwatched.exists_open
  have hclosing := h.closing hdown id session hlookup
  refine ⟨handle, h.sound.made id hmem, ?_⟩
  rcases hwatched.handles with ⟨hnot, -⟩ | ⟨-, -, -, hnone⟩
  · exact absurd (hclosing.symm.trans hnot) (by decide)
  · cases hstate : s.handles id handle with
    | active => exact absurd hstate (hnone handle)
    | closing => rfl
    | closed => exact absurd hstate hopen

end Winding

/-- **The shutdown ends.** From any state of a server that is shutting down, and whatever is called
in whatever order: no session is made, each callback of `uv_close` is one of those that were to
come, and no session is left exactly when the last of them has come. Until then libuv owes another.
-/
theorem drains (config : ServerConfig) {s : TcpServer D}
    (h : ((system D config).under Orderly).Reaches s) (hdown : s.shuttingDown = true)
    {events : List Event} (hoffers : ((system D config).under Orderly).Offers s events) :
    let s' := (system D config).run s events
    s'.made = s.made ∧
      s'.outstanding + events.countP Event.isHandleClosed = s.outstanding ∧
      (s'.sessions.keys = [] ↔ events.countP Event.isHandleClosed = s.outstanding) ∧
      ∀ id ∈ s'.sessions, ∃ handle, s'.Promised (.handleClosed id handle) := by
  have hwinding : Winding s := by
    refine h.invariant (Winding.listening config) fun _ hs offered ↦ ?_
    exact hs.step offered.1 offered.2
  obtain ⟨⟨hafter, hmade, hdown'⟩, hcount⟩ :=
    System.run_countP (P := fun t ↦ Winding t ∧ t.made = s.made ∧ t.shuttingDown = true)
      (fun {t e} ht offered ↦ by
        obtain ⟨hmade, hdown, hcount⟩ := ht.1.step_outstanding ht.2.2 offered.1
        exact ⟨⟨ht.1.step offered.1 offered.2, hmade.trans ht.2.1, hdown⟩, hcount⟩)
      ⟨hwinding, rfl, hdown⟩ hoffers
  refine ⟨hmade, hcount, ?_, fun id hmem ↦ hafter.exists_promised hdown' hmem⟩
  exact hafter.sound.outstanding_eq_zero_iff.symm.trans (by omega)

theorem drains_one_client :
    let s := (system ℚ singleConfig).run (.listening singleConfig)
      [.connection true (calmArrival true), .shutdown]
    ((system ℚ singleConfig).run s [.handleClosed 1 .tcp, .connection true (calmArrival true),
      .handleClosed 1 .timer]).sessions.keys = [] := by
  have hfew : (0 : ℕ) + 1 < 2 ^ 32 := by decide
  have hfew' : (1 : ℕ) + 1 < 2 ^ 32 := by decide
  have hsize : (0 : ℕ) + 1 < 2 ^ 31 := by decide
  have hsize' : (1 : ℕ) + 1 < 2 ^ 31 := by decide
  have hmade : (1 : UInt32) ∈ [(1 : UInt32)] := List.mem_singleton_self _
  have hreach : ((system ℚ singleConfig).under Orderly).Reaches
      ((system ℚ singleConfig).run (.listening singleConfig)
        [.connection true (calmArrival true), .shutdown]) :=
    .run (S := (system ℚ singleConfig).under Orderly) .start
      ⟨⟨hfew, hsize, final_calmEnv⟩, ⟨trivial, trivial⟩, trivial⟩
  have hclosed : (system ℚ singleConfig).run (.listening singleConfig)
        [.connection true (calmArrival true), .shutdown]
      = { (listening singleConfig : TcpServer ℚ).step (.connection true (calmArrival true)) with
          shuttingDown := true }.runSession 1 .close := by
    show TcpServer.closeAll ([1].mergeSort _) _ = _
    rw [List.mergeSort_singleton]
    rfl
  rw [hclosed] at hreach
  intro s
  rw [show s = _ from hclosed]
  refine ((drains singleConfig hreach rfl ?_).2.2.1).mpr ?_
  · exact
      ⟨⟨⟨hmade, rfl⟩, trivial⟩, ⟨hfew', hsize', final_calmEnv⟩, ⟨⟨hmade, rfl⟩, trivial⟩, trivial⟩
  · rfl

end TcpServer

end LoggerAnalyzer
