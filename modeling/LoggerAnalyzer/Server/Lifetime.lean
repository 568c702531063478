import LoggerAnalyzer.Server.Handles
import LoggerAnalyzer.Session.Transport

/-!
# The lifetime of a session

A session is owned by the map of the server, and what it is called for comes from libuv, which knows
only its handles. The two agree: `Lifetime` says that a session is in the map as long as one of its
handles is not closed, that it is erased once, when the second is closed, and that libuv has no
callback for it after that. `lifetime` proves it for every order of connections, callbacks and a
shutdown.

Two things are assumed of what is outside of the server, and `Orderly` names them. The limit on the
sessions is compared with the size of the map as an `int`; memory ends long before there are as many
sessions as an `int` can count. And libuv accepts no more writes of a session after it has refused
one, since the session has then closed its handle.
-/

namespace LoggerAnalyzer

open TcpSession

namespace TcpServer

variable {D : Type}

/-! ## The claim -/

structure Lifetime (s : TcpServer D) : Prop where
  made : ∀ id ∈ s.sessions, id ∈ s.made
  inMap : ∀ id ∈ s.made, id ∈ s.sessions ↔ ∃ handle, s.handles id handle ≠ .closed
  erased : ∀ id ∈ s.made, s.erased.count id = if id ∈ s.sessions then 0 else 1
  callbacks : ∀ id event, s.Promised (.session id event) → id ∈ s.sessions
  closeCallbacks : ∀ id handle, s.Promised (.handleClosed id handle) → id ∈ s.sessions
  silent : ∀ id session, s.sessions.lookup id = some session →
    SilentAfterClosing session.timeline
  limit : ((s.sessions.keys.filter (· ∈ s.started)).length : ℤ) ≤ s.config.maxSessions

/-- The assumption on memory: the size of the map is an `int`, with one more session in it as well.
Each session has a read buffer of 256 KiB. -/
def FitsInMemory (s : TcpServer D) : Prop := s.sessions.keys.length + 1 < 2 ^ 31

/-- What is assumed when a connection comes. -/
def Orderly (s : TcpServer D) : Event → Prop
  | .connection _ arrival => s.FitsInMemory ∧ Final arrival.env.uvWrite
  | _ => True

/-! ## A session in the map -/

/-- How many handles are not closed. -/
def remaining (handles : Handle → HandleState) : ℕ :=
  (if handles .timer = .closed then 0 else 1) + if handles .tcp = .closed then 0 else 1

theorem remaining_pos_iff (handles : Handle → HandleState) :
    0 < remaining handles ↔ ∃ handle, handles handle ≠ .closed := by
  rw [remaining]
  constructor
  · intro h
    by_cases htimer : handles .timer = .closed
    · refine ⟨.tcp, fun htcp ↦ ?_⟩
      rw [if_pos htimer, if_pos htcp] at h
      exact absurd h (by decide)
    · exact ⟨.timer, htimer⟩
  · rintro ⟨_ | _, h⟩
    · rw [if_neg h]
      omega
    · rw [if_neg h]
      omega

/-- A handle that was not closed is. -/
theorem remaining_update {handles : Handle → HandleState} {handle : Handle}
    (h : handles handle ≠ .closed) :
    remaining (Function.update handles handle .closed) + 1 = remaining handles := by
  rw [remaining, remaining]
  cases handle
  · rw [Function.update_self, Function.update_of_ne (by decide), if_pos rfl, if_neg h]
    omega
  · rw [Function.update_self, Function.update_of_ne (by decide), if_pos rfl, if_neg h]

/-- A session in the map and its handles: they are all in use, or they are being closed and the
session waits for as many callbacks as there are handles left. -/
structure Watched (session : TcpSession D) (handles : Handle → HandleState) : Prop where
  calls : session.closedCalls = 0
  hushed : session.IsHushed
  handles : session.handlesClosing = false ∧ session.pendingClose = 0 ∧
      (∀ handle, handles handle = .active) ∨
    session.handlesClosing = true ∧ session.pendingClose = remaining handles ∧
      0 < remaining handles ∧ ∀ handle, handles handle ≠ .active

namespace Watched

variable {session : TcpSession D} {handles : Handle → HandleState}

theorem alive (h : Watched session handles) :
    session.handlesClosing = true → 0 < session.pendingClose := by
  intro hclosing
  rcases h.handles with ⟨hopen, -⟩ | ⟨-, hpending, hpos, -⟩
  · exact absurd (hclosing.symm.trans hopen) (by decide)
  · exact hpending ▸ hpos

theorem exists_open (h : Watched session handles) : ∃ handle, handles handle ≠ .closed := by
  rcases h.handles with ⟨-, -, hactive⟩ | ⟨-, -, hpos, -⟩
  · exact ⟨.tcp, by simp [hactive]⟩
  · exact (remaining_pos_iff handles).mp hpos

theorem silent (h : Watched session handles) : SilentAfterClosing session.timeline := by
  obtain ⟨-, -, hc⟩ := h.hushed
  exact hc.silent

variable [DoubleOps D]

theorem init (config : SessionConfig) {env : Env} (final : Final env.uvWrite) :
    Watched (.init (D := D) config env) fun _ ↦ .active :=
  ⟨rfl, .init config final, .inl ⟨rfl, rfl, fun _ ↦ rfl⟩⟩

omit [DoubleOps D] in
/-- Code of the session runs, and libuv closes the handles if it was told to. -/
theorem retires (h : Watched session handles) {after : TcpSession D}
    (hr : Retires session after) (hushed : after.IsHushed) :
    Watched after
      (if !session.handlesClosing && after.handlesClosing then fun _ ↦ .closing else handles) := by
  refine ⟨hr.calls.trans h.calls, hushed, ?_⟩
  rcases hr.handles with ⟨hclosing, hpending⟩ | ⟨hopen, hclosing, hpending⟩
  · rw [hclosing, Bool.not_and_self, if_neg (by decide), hpending]
    exact h.handles
  · rw [hopen, hclosing, if_pos (by decide)]
    rcases h.handles with ⟨-, hzero, -⟩ | ⟨hclosed, -⟩
    · exact .inr ⟨rfl, by rw [hpending, hzero]; rfl, by decide, by simp⟩
    · exact absurd (hopen.symm.trans hclosed) (by decide)

end Watched

theorem handlesClosing_onHandleClosed (session : TcpSession D) :
    session.onHandleClosed.handlesClosing = session.handlesClosing := by
  rw [onHandleClosed]
  split_ifs
  · rfl
  · rfl

private theorem one_inRange : (1 : ℤ) ≤ 1 ∧ (1 : ℤ) ≤ 1024 := by decide

/-- A size that is an `int`. -/
theorem castInt_of_lt {size : ℕ} (h : size < 2 ^ 31) : castInt size = size := by
  unfold castInt
  rw [Int.bmod_def, Int.emod_eq_of_lt (by omega) (by omega), if_pos (by omega)]

/-! ## A connection -/

/-- A session is in the map where it was before. -/
theorem perm_insert {s : TcpServer D} {id : UInt32} (hmem : id ∈ s.sessions)
    (after : TcpSession D) : (s.sessions.insert id after).keys.Perm s.sessions.keys := by
  rw [AList.keys_insert]
  exact (List.perm_cons_erase (AList.mem_keys.mp hmem)).symm

section Join

variable [DoubleOps D] {s : TcpServer D} {arrival : Arrival}

/-- The session for a connection is in the map. -/
def join (arrival : Arrival) (s : TcpServer D) : TcpServer D :=
  { s with
    nextId := s.nextId + 1, made := s.made ++ [s.nextId]
    sessions := s.sessions.insert s.nextId (s.newSession arrival) }

private theorem mem_join : s.nextId ∈ (s.join arrival).sessions :=
    (AList.mem_insert _).mpr (.inl rfl)

theorem lookup_join :
    (s.join arrival).sessions.lookup s.nextId = some (s.newSession arrival) :=
  AList.lookup_insert _

theorem keys_join (hnot : s.nextId ∉ s.sessions) (arrival : Arrival) :
    (s.join arrival).sessions.keys = s.nextId :: s.sessions.keys := by
  rw [join, AList.keys_insert, List.erase_of_not_mem (mt AList.mem_keys.mpr hnot)]

/-- Where `uv_accept` failed the session is closed before it is in the map, which is all the same.
-/
theorem emplace_close {id : UInt32} {session : TcpSession D} (hnot : id ∉ s.sessions)
    (calls : session.close.closedCalls = session.closedCalls) :
    (s.uvClose id session session.close).emplace id session.close
      = ({ s with sessions := s.sessions.insert id session } : TcpServer D).runSession id
        .close := by
  rw [runSession, AList.lookup_insert]
  dsimp only
  rw [if_neg (by rw [calls]; exact Nat.lt_irrefl _), AList.insert_insert, uvClose, uvClose]
  split_ifs
  · rw [emplace, if_neg hnot]
  · rw [emplace, if_neg hnot]

/-- **What `accept_one` does**: the session is in the map, and is closed, rejected or started. -/
theorem acceptOne_eq (running : s.shuttingDown = false) (hnot : s.nextId ∉ s.sessions) :
    s.acceptOne arrival =
      if !arrival.accepted then (s.join arrival).runSession s.nextId .close
      else if s.config.maxSessions < castInt (s.sessions.keys.length + 1) then
        (s.join arrival).runSession s.nextId
          (.reject .serverBusy (ascii "server busy: too many concurrent sessions"))
      else
        ({ s.join arrival with started := s.started ++ [s.nextId] } : TcpServer D).runSession
          s.nextId (.startReading arrival.readStarted) := by
  have hcalls : (s.newSession arrival).close.closedCalls = (s.newSession arrival).closedCalls :=
    (Retires.refl fun hclosing ↦ absurd hclosing Bool.false_ne_true).close.calls
  have hemplace : ({ s with
      nextId := s.nextId + 1, made := s.made ++ [s.nextId] } : TcpServer D).emplace s.nextId
        (s.newSession arrival) = s.join arrival := if_neg hnot
  have hclose := emplace_close (s := { s with
    nextId := s.nextId + 1, made := s.made ++ [s.nextId] }) hnot hcalls
  have hlength := congrArg List.length (keys_join hnot arrival)
  rw [acceptOne, if_neg (by rw [running]; exact Bool.false_ne_true)]
  dsimp only
  rw [hemplace, hlength, hclose]
  rfl

end Join

/-! ## The invariant -/

/-- What is so between any two steps: the ids are given in order, and a session is watched in the
map or is gone. -/
structure Sound (s : TcpServer D) : Prop where
  ids : s.made = (List.range s.made.length).map fun k ↦ UInt32.ofNat (k + 1)
  nextId : s.nextId = UInt32.ofNat (s.made.length + 1)
  made : ∀ id ∈ s.sessions, id ∈ s.made
  fresh : ∀ id ∉ s.made, s.handles id = (fun _ ↦ .active) ∧ id ∉ s.erased ∧ id ∉ s.started
  watched : ∀ id session, s.sessions.lookup id = some session →
    Watched session (s.handles id) ∧ id ∉ s.erased
  gone : ∀ id ∈ s.made, id ∉ s.sessions →
    (∀ handle, s.handles id handle = .closed) ∧ s.erased.count id = 1
  limit : ((s.sessions.keys.filter (· ∈ s.started)).length : ℤ) ≤ s.config.maxSessions

theorem exists_lookup {s : TcpServer D} {id : UInt32} (h : id ∈ s.sessions) :
    ∃ session, s.sessions.lookup id = some session :=
  Option.isSome_iff_exists.mp (AList.lookup_isSome.mpr h)

theorem mem_of_lookup {s : TcpServer D} {id : UInt32} {session : TcpSession D}
    (h : s.sessions.lookup id = some session) : id ∈ s.sessions :=
  AList.lookup_isSome.mp (h ▸ rfl)

/-- What the code of a session does not change. -/
theorem runSession_keeps (s : TcpServer D) (id : UInt32) (code : TcpSession D → TcpSession D) :
    (s.runSession id code).config = s.config ∧
      (s.runSession id code).shuttingDown = s.shuttingDown ∧
      (s.runSession id code).made = s.made ∧ (s.runSession id code).started = s.started := by
  rw [runSession]
  split
  · exact ⟨rfl, rfl, rfl, rfl⟩
  · dsimp only
    rw [onSessionClosed, uvClose]
    split_ifs
    all_goals exact ⟨rfl, rfl, rfl, rfl⟩

/-- Code of a session that is not done leaves the ids in the map as they are. -/
theorem keys_runSession {s : TcpServer D} {id : UInt32} {code : TcpSession D → TcpSession D}
    (calls : ∀ session, s.sessions.lookup id = some session →
      (code session).closedCalls = session.closedCalls) :
    (s.runSession id code).sessions.keys.Perm s.sessions.keys := by
  rw [runSession]
  split
  · exact .refl _
  · rename_i session hlookup
    dsimp only
    rw [if_neg (by rw [calls session hlookup]; exact Nat.lt_irrefl _), uvClose]
    split_ifs
    · exact perm_insert (mem_of_lookup hlookup) _
    · exact perm_insert (mem_of_lookup hlookup) _

namespace Sound

variable {s : TcpServer D} {id : UInt32}

/-- An id that was not given before. -/
theorem nextId_notMem (h : Sound s) (hfew : s.made.length + 1 < 2 ^ 32) : s.nextId ∉ s.made := by
  intro hmem
  have hids := h.ids
  have hnext := h.nextId
  generalize s.made.length = n at hids hnext hfew
  rw [hnext, hids, List.mem_map] at hmem
  obtain ⟨k, hk, heq⟩ := hmem
  have hlt := List.mem_range.mp hk
  have hnat := congrArg UInt32.toNat heq
  have hsize : UInt32.size = 2 ^ 32 := rfl
  rw [UInt32.toNat_ofNat_of_lt' (by omega), UInt32.toNat_ofNat_of_lt' (by omega)] at hnat
  omega

/-- A session that is not watched is gone, and so are its handles. -/
theorem mem_of_open (h : Sound s) (hmade : id ∈ s.made) {handle : Handle}
    (hopen : s.handles id handle ≠ .closed) : id ∈ s.sessions := by
  by_contra hnot
  exact hopen ((h.gone id hmade hnot).1 handle)

/-- A session in the map is another than before, and so are its handles. -/
theorem replace (h : Sound s) {session after : TcpSession D}
    (hlookup : s.sessions.lookup id = some session) {handles : Handle → HandleState}
    (hwatched : Watched after handles) :
    Sound { s with
      sessions := s.sessions.insert id after
      handles := Function.update s.handles id handles } := by
  have hmem := mem_of_lookup hlookup
  refine ⟨h.ids, h.nextId, fun id' hid' ↦ ?_, fun id' hid' ↦ ?_, fun id' session' hid' ↦ ?_,
    fun id' hmade hid' ↦ ?_, ?_⟩
  · rcases (AList.mem_insert _).mp hid' with heq | hid'
    · exact heq ▸ h.made id hmem
    · exact h.made _ hid'
  · have hne : id' ≠ id := fun heq ↦ hid' (heq ▸ h.made id hmem)
    dsimp only
    rw [Function.update_of_ne hne]
    exact h.fresh id' hid'
  · dsimp only at hid' ⊢
    by_cases heq : id' = id
    · subst heq
      rw [AList.lookup_insert] at hid'
      rw [Function.update_self, ← Option.some.inj hid']
      exact ⟨hwatched, (h.watched _ _ hlookup).2⟩
    · rw [AList.lookup_insert_ne heq] at hid'
      rw [Function.update_of_ne heq]
      exact h.watched _ _ hid'
  · dsimp only at hid' ⊢
    rw [AList.mem_insert, not_or] at hid'
    rw [Function.update_of_ne hid'.1]
    exact h.gone id' hmade hid'.2
  · rw [((perm_insert hmem after).filter _).length_eq]
    exact h.limit

/-- A session is erased when its handles are closed. -/
theorem erase (h : Sound s) (hmem : id ∈ s.sessions) (after : TcpSession D)
    {handles : Handle → HandleState} (hclosed : ∀ handle, handles handle = .closed) :
    Sound { s with
      sessions := (s.sessions.insert id after).erase id
      handles := Function.update s.handles id handles, erased := s.erased ++ [id] } := by
  have hkeys : ((s.sessions.insert id after).erase id).keys = s.sessions.keys.erase id := by
    rw [AList.keys_erase, AList.keys_insert, List.erase_cons_head]
  have hmem_iff : ∀ id', id' ∈ (s.sessions.insert id after).erase id ↔
      id' ≠ id ∧ id' ∈ s.sessions := fun id' ↦ by
    rw [AList.mem_erase, AList.mem_insert]
    exact and_congr_right fun hne ↦ or_iff_right hne
  obtain ⟨session, hlookup⟩ := exists_lookup hmem
  refine ⟨h.ids, h.nextId, fun id' hid' ↦ h.made _ ((hmem_iff id').mp hid').2, fun id' hid' ↦ ?_,
    fun id' session' hid' ↦ ?_, fun id' hmade hid' ↦ ?_, ?_⟩
  · have hne : id' ≠ id := fun heq ↦ hid' (heq ▸ h.made id hmem)
    obtain ⟨hactive, herased, hstarted⟩ := h.fresh id' hid'
    dsimp only
    rw [Function.update_of_ne hne]
    exact ⟨hactive, by simp [herased, hne], hstarted⟩
  · have hne : id' ≠ id := ((hmem_iff id').mp (mem_of_lookup hid')).1
    dsimp only at hid' ⊢
    rw [AList.lookup_erase_ne hne, AList.lookup_insert_ne hne] at hid'
    obtain ⟨hwatched, herased⟩ := h.watched id' session' hid'
    rw [Function.update_of_ne hne]
    exact ⟨hwatched, by simp [herased, hne]⟩
  · dsimp only
    by_cases heq : id' = id
    · subst heq
      rw [Function.update_self, List.count_append, List.count_singleton_self,
        List.count_eq_zero_of_not_mem (h.watched id' session hlookup).2]
      exact ⟨hclosed, rfl⟩
    · obtain ⟨hgone, hcount⟩ := h.gone id' hmade fun hmem' ↦ hid' ((hmem_iff id').mpr ⟨heq, hmem'⟩)
      rw [Function.update_of_ne heq, List.count_append, hcount,
        List.count_eq_zero_of_not_mem (by simpa using heq)]
      exact ⟨hgone, rfl⟩
  · dsimp only
    rw [hkeys]
    exact (Int.ofNat_le.mpr (List.erase_sublist.filter _).length_le).trans h.limit

/-- The session for a connection has an id that was not given before. -/
theorem join [DoubleOps D] (h : Sound s) (hfew : s.made.length + 1 < 2 ^ 32) {arrival : Arrival}
    (final : Final arrival.env.uvWrite) : Sound (s.join arrival) := by
  have hnew := h.nextId_notMem hfew
  have hnot : s.nextId ∉ s.sessions := fun hmem ↦ hnew (h.made _ hmem)
  obtain ⟨hactive, herased, hstarted⟩ := h.fresh _ hnew
  refine ⟨?_, ?_, fun id' hid' ↦ ?_, fun id' hid' ↦ ?_, fun id' session' hid' ↦ ?_,
    fun id' hmade hid' ↦ ?_, ?_⟩
  · calc s.made ++ [s.nextId]
        = ((List.range s.made.length).map fun k ↦ UInt32.ofNat (k + 1))
            ++ [UInt32.ofNat (s.made.length + 1)] := by rw [← h.ids, h.nextId]
      _ = (List.range (s.made ++ [s.nextId]).length).map fun k ↦ UInt32.ofNat (k + 1) := by
          rw [List.length_append, List.length_singleton, List.range_succ, List.map_append]
          rfl
  · show s.nextId + 1 = UInt32.ofNat ((s.made ++ [s.nextId]).length + 1)
    rw [List.length_append, List.length_singleton, UInt32.ofNat_add, ← h.nextId]
    rfl
  · rcases (AList.mem_insert _).mp hid' with heq | hid'
    · exact heq ▸ List.mem_append_right _ (List.mem_singleton_self _)
    · exact List.mem_append_left _ (h.made _ hid')
  · exact h.fresh id' fun hmem ↦ hid' (List.mem_append_left _ hmem)
  · by_cases heq : id' = s.nextId
    · subst heq
      rw [lookup_join] at hid'
      show Watched session' (s.handles s.nextId) ∧ s.nextId ∉ s.erased
      rw [hactive, ← Option.some.inj hid']
      exact ⟨.init _ final, herased⟩
    · rw [TcpServer.join, AList.lookup_insert_ne heq] at hid'
      exact h.watched _ _ hid'
  · rw [TcpServer.join, AList.mem_insert, not_or] at hid'
    refine h.gone id' ?_ hid'.2
    exact (List.mem_append.mp hmade).resolve_right fun hmem ↦ hid'.1 (List.mem_singleton.mp hmem)
  · rw [keys_join hnot]
    show (((s.nextId :: s.sessions.keys).filter (· ∈ s.started)).length : ℤ) ≤ s.config.maxSessions
    rw [List.filter_cons_of_neg (by simpa using hstarted)]
    exact h.limit

/-- A session is started while the map has room. -/
theorem begin (h : Sound s) (hmem : id ∈ s.sessions)
    (hroom : (s.sessions.keys.length : ℤ) ≤ s.config.maxSessions) :
    Sound { s with started := s.started ++ [id] } := by
  refine ⟨h.ids, h.nextId, h.made, fun id' hid' ↦ ?_, h.watched, h.gone, ?_⟩
  · obtain ⟨hactive, herased, hstarted⟩ := h.fresh id' hid'
    have hne : id' ≠ id := fun heq ↦ hid' (heq ▸ h.made id hmem)
    exact ⟨hactive, herased, by simp [hstarted, hne]⟩
  · exact (Int.ofNat_le.mpr (List.length_filter_le _ _)).trans hroom

/-- **Code of a session runs** that is not a callback of `uv_close`. -/
theorem runSession (h : Sound s) {code : TcpSession D → TcpSession D}
    (hcode : ∀ session, s.sessions.lookup id = some session → Watched session (s.handles id) →
      Retires session (code session) ∧ (code session).IsHushed) :
    Sound (s.runSession id code) := by
  rw [TcpServer.runSession]
  split
  · exact h
  · rename_i session hlookup
    obtain ⟨hwatched, -⟩ := h.watched id session hlookup
    obtain ⟨hretires, hhushed⟩ := hcode session hlookup hwatched
    have hafter := hwatched.retires hretires hhushed
    dsimp only
    rw [if_neg (by rw [hretires.calls]; exact Nat.lt_irrefl _), uvClose]
    split_ifs at hafter ⊢
    · exact h.replace hlookup hafter
    · have hsame := h.replace hlookup hafter
      rwa [Function.update_eq_self] at hsame

variable [DoubleOps D]

/-- A callback of a session comes. -/
theorem session (h : Sound s) {event : TcpSession.Event} (hevent : event ≠ .handleClosed) :
    Sound (s.runSession id (·.step event)) :=
  h.runSession fun _ _ hwatched ↦
    ⟨(Retires.refl hwatched.alive).step hevent, hwatched.hushed.step event⟩

/-- The session is closed. -/
theorem close (h : Sound s) : Sound (s.runSession id .close) :=
  h.runSession fun _ _ hwatched ↦
    ⟨(Retires.refl hwatched.alive).close, hwatched.hushed.close⟩

/-- A callback of `uv_close` comes, for the first handle or for the second. -/
theorem handleClosed (h : Sound s) {handle : Handle} (hmade : id ∈ s.made)
    (hclosing : s.handles id handle = .closing) :
    Sound ((s.closed id handle).runSession id (·.onHandleClosed)) := by
  have hopen : s.handles id handle ≠ .closed := by rw [hclosing]; decide
  have hmem := h.mem_of_open hmade hopen
  obtain ⟨session, hlookup⟩ := exists_lookup hmem
  obtain ⟨hwatched, -⟩ := h.watched id session hlookup
  rcases hwatched.handles with ⟨-, -, hactive⟩ | ⟨hsession, hpending, -, hnone⟩
  · exact absurd ((hactive handle).symm.trans hclosing) (by decide)
  have hleft := remaining_update hopen
  have hhushed : IsHushed session.onHandleClosed := hwatched.hushed.step .handleClosed
  have hlookup' : (s.closed id handle).sessions.lookup id = some session := hlookup
  rw [TcpServer.runSession, hlookup']
  dsimp only
  rw [uvClose, handlesClosing_onHandleClosed, Bool.not_and_self, if_neg Bool.false_ne_true]
  -- the other handle is still to be closed, or this was the second
  by_cases hlast : 0 < remaining (Function.update (s.handles id) handle .closed)
  · have hmore : 0 < session.pendingClose - 1 := by omega
    have hafter :
      session.onHandleClosed = { session with pendingClose := session.pendingClose - 1 } :=
      if_pos hmore
    have hcalls : session.onHandleClosed.closedCalls = session.closedCalls := by rw [hafter]; rfl
    have hpending' : session.onHandleClosed.pendingClose
        = remaining (Function.update (s.handles id) handle .closed) := by
      rw [hafter]
      show session.pendingClose - 1 = _
      omega
    have hnone' : ∀ other, Function.update (s.handles id) handle .closed other ≠ .active := by
      intro other
      rw [Function.update_apply]
      split_ifs
      · decide
      · exact hnone other
    rw [if_neg (by rw [hcalls]; exact Nat.lt_irrefl _)]
    exact h.replace hlookup ⟨hcalls.trans hwatched.calls, hhushed,
      .inr ⟨(handlesClosing_onHandleClosed session).trans hsession, hpending', hlast, hnone'⟩⟩
  · have hdone : ¬ 0 < session.pendingClose - 1 := by omega
    have hcalls : session.onHandleClosed.closedCalls = session.closedCalls + 1 := by
      rw [onHandleClosed]
      dsimp only
      rw [if_neg hdone, closedCalls, closedCalls, TcpSession.note, List.count_append]
      rfl
    have hin : id ∈ (s.closed id handle).sessions.insert id session.onHandleClosed :=
      (AList.mem_insert _).mpr (.inl rfl)
    rw [if_pos (by omega), onSessionClosed]
    dsimp only
    rw [if_pos hin]
    refine h.erase hmem _ ?_
    intro other
    by_contra hnot
    exact hlast ((remaining_pos_iff _).mpr ⟨other, hnot⟩)

/-- **A connection comes**: it is not accepted, or it is rejected, or it is started. -/
theorem acceptOne (h : Sound s) {arrival : Arrival} (hfew : s.made.length + 1 < 2 ^ 32)
    (hsize : s.sessions.keys.length + 1 < 2 ^ 31) (final : Final arrival.env.uvWrite) :
    Sound (s.acceptOne arrival) := by
  by_cases hshutting : s.shuttingDown = true
  · rwa [TcpServer.acceptOne, if_pos hshutting]
  have hnot : s.nextId ∉ s.sessions := fun hmem ↦ h.nextId_notMem hfew (h.made _ hmem)
  have hjoined := h.join hfew final
  rw [acceptOne_eq (Bool.eq_false_iff.mpr hshutting) hnot, castInt_of_lt hsize]
  split_ifs with haccepted hbusy
  · exact hjoined.close
  · refine hjoined.runSession fun session hlookup hwatched ↦
      ⟨(Retires.refl hwatched.alive).reject _ _, hwatched.hushed.reject ?_ _ _⟩
    rw [← Option.some.inj (lookup_join.symm.trans hlookup)]
    exact SessionState.noConfusion
  · refine (hjoined.begin mem_join ?_).runSession fun session _ hwatched ↦
      ⟨(Retires.refl hwatched.alive).startReading _, hwatched.hushed.startReading _⟩
    rw [keys_join hnot, List.length_cons]
    exact not_lt.mp hbusy

/-- The sessions are closed one by one. -/
theorem closeAll (h : Sound s) (ids : List UInt32) : Sound (s.closeAll ids) := by
  induction ids generalizing s with
  | nil => exact h
  | cons id ids ih => exact ih h.close

theorem beginShutdown (h : Sound s) : Sound s.beginShutdown := by
  rw [TcpServer.beginShutdown]
  split_ifs
  · exact h
  · have hset : Sound { s with shuttingDown := true } :=
      ⟨h.ids, h.nextId, h.made, h.fresh, h.watched, h.gone, h.limit⟩
    exact hset.closeAll _

omit [DoubleOps D] in
theorem listening (config : ServerConfig) : Sound (listening (D := D) config) where
  ids := rfl
  nextId := rfl
  made _ hmem := absurd hmem (AList.notMem_empty _)
  fresh _ _ := ⟨rfl, List.not_mem_nil, List.not_mem_nil⟩
  watched _ _ hlookup := absurd (mem_of_lookup hlookup) (AList.notMem_empty _)
  gone _ hmem := absurd hmem List.not_mem_nil
  limit := (Int.le_of_lt Int.zero_lt_one).trans config.inRange.1

/-- **A step** that the surroundings may take. -/
theorem step (h : Sound s) {event : Event} (promised : s.Promised event)
    (orderly : s.Orderly event) : Sound (s.step event) := by
  cases event with
  | connection ok arrival =>
    rw [TcpServer.step, onConnection]
    split_ifs
    · exact h.acceptOne promised orderly.1 orderly.2
    · exact h
  | session id event =>
    obtain ⟨-, handle, hhandle, -⟩ := promised
    exact h.session fun heq ↦ by simp [heq, handleOf] at hhandle
  | handleClosed id handle => exact h.handleClosed promised.1 promised.2
  | shutdown => exact h.beginShutdown

omit [DoubleOps D] in
theorem to_lifetime (h : Sound s) : Lifetime s where
  made := h.made
  inMap id hmade := by
    constructor
    · intro hmem
      obtain ⟨session, hlookup⟩ := exists_lookup hmem
      exact (h.watched id session hlookup).1.exists_open
    · rintro ⟨handle, hopen⟩
      exact h.mem_of_open hmade hopen
  erased id hmade := by
    split_ifs with hmem
    · obtain ⟨session, hlookup⟩ := exists_lookup hmem
      exact List.count_eq_zero_of_not_mem (h.watched id session hlookup).2
    · exact (h.gone id hmade hmem).2
  callbacks id event promised := by
    obtain ⟨hmade, handle, -, hopen⟩ := promised
    exact h.mem_of_open hmade hopen
  closeCallbacks id handle promised := by
    obtain ⟨hmade, hclosing⟩ := promised
    have hopen : s.handles id handle ≠ .closed := by rw [hclosing]; decide
    exact h.mem_of_open hmade hopen
  silent id session hlookup := (h.watched id session hlookup).1.silent
  limit := h.limit

end Sound

/-! ## Every run -/

variable [DoubleOps D]

/-- **The lifetime of the sessions**, in every order of what can happen. -/
theorem lifetime (config : ServerConfig) {s : TcpServer D}
    (h : ((system D config).under Orderly).Reaches s) : Lifetime s := by
  have hsound : Sound s := by
    refine h.invariant (Sound.listening config) fun _ hs offered ↦ ?_
    exact hs.step offered.1 offered.2
  exact hsound.to_lifetime

/-- A server for one session. -/
def singleConfig : ServerConfig := ⟨1, ascii "1.0.0", 300000, 30000, one_inRange⟩

/-- A connection that is accepted if `accepted`. -/
def calmArrival (accepted : Bool) : Arrival := ⟨accepted, true, ascii "peer", calmEnv⟩

theorem final_calmEnv : Final calmEnv.uvWrite := fun _ refused ↦
  absurd (show true = false from refused) (by decide)

theorem lifetime_one_client :
    Lifetime ((system ℚ singleConfig).run (.listening singleConfig)
      [.connection true (calmArrival true), .session 1 .readEof, .handleClosed 1 .timer]) := by
  refine lifetime singleConfig (.run (S := (system ℚ singleConfig).under Orderly) .start ?_)
  have hfew : (0 : ℕ) + 1 < 2 ^ 32 := by decide
  have hsize : (0 : ℕ) + 1 < 2 ^ 31 := by decide
  have hmade : (1 : UInt32) ∈ [(1 : UInt32)] := List.mem_singleton_self _
  have hopen : HandleState.active ≠ .closed := by decide
  exact ⟨⟨hfew, hsize, final_calmEnv⟩, ⟨⟨hmade, .tcp, rfl, hopen⟩, trivial⟩,
    ⟨⟨hmade, rfl⟩, trivial⟩, trivial⟩

end TcpServer

end LoggerAnalyzer
