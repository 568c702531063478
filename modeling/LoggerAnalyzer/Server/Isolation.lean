import LoggerAnalyzer.Server.Shutdown

/-!
# The sessions of a server do not disturb one another

The server has one loop for all its clients, and one map for all its sessions. A client sees none of
this. `admitted` is what the server makes of a connection, `callsOf` are the callbacks in a run that
are for one session, and `alone` says that a session in the map is where it would be if these were
all that ever happened: however the callbacks of the others come in between, and whatever the others
send.

So what is shown of a session that is alone is so of each session of the server. `served_amid` is an
upload while others are connected.
-/

namespace LoggerAnalyzer

open Conversation TcpSession

namespace TcpServer

variable {D : Type} [DoubleOps D]

/-! ## What one session sees of a run -/

/-- The session that is made for a connection, after it was closed, rejected or started. -/
def admitted (config : ServerConfig) (id : UInt32) (arrival : Arrival) (started : Bool) :
    TcpSession D :=
  let session : TcpSession D := .init ⟨id, arrival.peer, config.uvVersion, config.idleTimeoutMs,
    config.uploadStallTimeoutMs⟩ arrival.env
  if !arrival.accepted then session.close
  else if started then session.startReading arrival.readStarted
  else session.reject .serverBusy (ascii "server busy: too many concurrent sessions")

/-- The server is shutting down after this. -/
def Event.isShutdown : Event → Bool
  | .shutdown => true
  | _ => false

/-- What a session is called for in a step. The first shutdown closes it, and so does the end of
what the client sends. -/
def called (id : UInt32) (down : Bool) : Event → List TcpSession.Event
  | .connection _ _ => []
  | .session id' event => if id' = id then [event] else []
  | .handleClosed id' _ => if id' = id then [.handleClosed] else []
  | .shutdown => if down then [] else [.readEof]

/-- What a session is called for in a run. -/
def callsOf (id : UInt32) : Bool → List Event → List TcpSession.Event
  | _, [] => []
  | down, event :: events =>
    called id down event ++ callsOf id (down || event.isShutdown) events

/-- The connection that a session is made for in a step. -/
def arrived (down : Bool) : Event → List Arrival
  | .connection ok arrival => if ok && !down then [arrival] else []
  | _ => []

/-- The connections that a session is made for. -/
def arrivals : Bool → List Event → List Arrival
  | _, [] => []
  | down, event :: events => arrived down event ++ arrivals (down || event.isShutdown) events

/-- A client that is let in is in a session that was just started. -/
theorem admitted_started (config : ServerConfig) (id : UInt32) {arrival : Arrival}
    (accepted : arrival.accepted = true) (readStarted : arrival.readStarted = true) :
    admitted (D := D) config id arrival true = start ⟨id, arrival.peer, config.uvVersion,
      config.idleTimeoutMs, config.uploadStallTimeoutMs⟩ arrival.env := by
  rw [admitted, accepted, readStarted]
  rfl

/-! ## One step -/

section Step

variable {s : TcpServer D} {id : UInt32} {session session' : TcpSession D}

private theorem shuttingDown_closeAll (ids : List UInt32) (s : TcpServer D) :
    (s.closeAll ids).shuttingDown = s.shuttingDown ∧ (s.closeAll ids).made = s.made ∧
      (s.closeAll ids).started = s.started ∧ (s.closeAll ids).config = s.config := by
  induction ids generalizing s with
  | nil => exact ⟨rfl, rfl, rfl, rfl⟩
  | cons id ids ih =>
    obtain ⟨hdown, hmade, hstarted, hconfig⟩ := ih (s.runSession id .close)
    obtain ⟨hconfig', hdown', hmade', hstarted'⟩ := runSession_keeps s id .close
    exact ⟨hdown.trans hdown', hmade.trans hmade', hstarted.trans hstarted', hconfig.trans hconfig'⟩

/-- What a step does to the ids and to the rest of the server. -/
structure Stepped (s : TcpServer D) (event : Event) (s' : TcpServer D) : Prop where
  config : s'.config = s.config
  shuttingDown : s'.shuttingDown = (s.shuttingDown || event.isShutdown)
  made : s'.made = s.made ++ (arrived s.shuttingDown event).map fun _ ↦ s.nextId
  started : ∀ id ∈ s.made, id ∈ s'.started ↔ id ∈ s.started

/-- **What is made of a connection** while the server runs. -/
structure Admits (arrival : Arrival) (s s' : TcpServer D) : Prop where
  stepped : Stepped s (.connection true arrival) s'
  admitted : ∀ session, s'.sessions.lookup s.nextId = some session →
    session = admitted s.config s.nextId arrival (decide (s.nextId ∈ s'.started))

theorem admits_acceptOne (h : Sound s) {arrival : Arrival} (hfew : s.made.length + 1 < 2 ^ 32)
    (running : s.shuttingDown = false) : Admits arrival s (s.acceptOne arrival) := by
  have hnew := h.nextId_notMem hfew
  have hnot : s.nextId ∉ s.sessions := fun hmem ↦ hnew (h.made _ hmem)
  obtain ⟨-, -, hstarted⟩ := h.fresh _ hnew
  have harrived : arrived s.shuttingDown (.connection true arrival) = [arrival] := by
    rw [running]
    rfl
  have hkeep : ∀ {t : TcpServer D} {code : TcpSession D → TcpSession D},
      t.sessions = (s.join arrival).sessions → t.config = s.config →
      t.shuttingDown = s.shuttingDown → t.made = s.made ++ [s.nextId] →
      (∀ id ∈ s.made, id ∈ t.started ↔ id ∈ s.started) →
      code (s.newSession arrival)
        = TcpServer.admitted s.config s.nextId arrival (decide (s.nextId ∈ t.started)) →
      Admits arrival s (t.runSession s.nextId code) := by
    intro t code hsessions hconfig hdown hmade hstarted hcode
    obtain ⟨hconfig', hdown', hmade', hstarted'⟩ := runSession_keeps t s.nextId code
    have hlookup : t.sessions.lookup s.nextId = some (s.newSession arrival) := by
      rw [hsessions, lookup_join]
    refine ⟨⟨hconfig'.trans hconfig, ?_, ?_, fun id hid ↦ ?_⟩, fun session hthere ↦ ?_⟩
    · exact (hdown'.trans hdown).trans (Bool.or_false _).symm
    · rw [hmade', hmade, harrived]
      rfl
    · rw [hstarted']
      exact hstarted id hid
    · rw [hstarted', ← hcode]
      exact lookup_runSession_self hlookup hthere
  have hno : decide (s.nextId ∈ (s.join arrival).started) = false := decide_eq_false hstarted
  rw [acceptOne_eq running hnot]
  -- `uv_accept` fails, or the server is full, or the session is started
  split_ifs with haccepted hbusy
  · refine hkeep rfl rfl rfl rfl (fun _ _ ↦ .rfl) ?_
    rw [TcpServer.admitted, if_pos haccepted]
    rfl
  · refine hkeep rfl rfl rfl rfl (fun _ _ ↦ .rfl) ?_
    rw [TcpServer.admitted, if_neg haccepted, hno]
    rfl
  · refine hkeep rfl rfl rfl rfl (fun id hid ↦ ?_) ?_
    · have hne : id ≠ s.nextId := fun heq ↦ hnew (heq ▸ hid)
      simp [hne]
    · rw [TcpServer.admitted, if_neg haccepted, decide_eq_true (by simp)]
      rfl

theorem stepped_step (h : Sound s) {event : Event} (promised : s.Promised event) :
    Stepped s event (s.step event) := by
  cases event with
  | connection ok arrival =>
    rw [step, onConnection]
    split_ifs with hok
    · rw [hok]
      cases hdown : s.shuttingDown with
      | false => exact (admits_acceptOne h promised hdown).stepped
      | true =>
        rw [acceptOne, if_pos hdown]
        refine ⟨rfl, (Bool.or_false _).symm, ?_, fun _ _ ↦ .rfl⟩
        rw [hdown]
        exact (List.append_nil _).symm
    · rw [Bool.eq_false_iff.mpr hok]
      exact ⟨rfl, (Bool.or_false _).symm, (List.append_nil _).symm, fun _ _ ↦ .rfl⟩
  | session id event =>
    obtain ⟨hconfig, hdown, hmade, hstarted⟩ := runSession_keeps s id (·.step event)
    refine ⟨hconfig, hdown.trans (Bool.or_false _).symm, hmade.trans (List.append_nil _).symm, ?_⟩
    exact fun id' _ ↦ by rw [step, hstarted]
  | handleClosed id handle =>
    obtain ⟨hconfig, hdown, hmade, hstarted⟩ :=
      runSession_keeps (s.closed id handle) id (·.onHandleClosed)
    refine ⟨hconfig, hdown.trans (Bool.or_false _).symm, hmade.trans (List.append_nil _).symm, ?_⟩
    exact fun id' _ ↦ by rw [step, hstarted]; rfl
  | shutdown =>
    rw [step, beginShutdown]
    split_ifs with hdown
    · exact ⟨rfl, hdown.trans (Bool.or_true _).symm, (List.append_nil _).symm, fun _ _ ↦ .rfl⟩
    · obtain ⟨hdown', hmade, hstarted, hconfig⟩ := shuttingDown_closeAll
        (s.sessions.keys.mergeSort (· ≤ ·)) { s with shuttingDown := true }
      refine ⟨hconfig, hdown'.trans (Bool.or_true _).symm, hmade.trans (List.append_nil _).symm, ?_⟩
      exact fun id' _ ↦ by rw [hstarted]

omit [DoubleOps D] in
/-- A session does not come back. -/
theorem lookup_runSession_none {id' : UInt32} {code : TcpSession D → TcpSession D}
    (hnone : s.sessions.lookup id' = none) : (s.runSession id code).sessions.lookup id' = none := by
  by_cases heq : id' = id
  · rw [← heq, runSession_of_none hnone, hnone]
  · rw [lookup_runSession_ne s code heq, hnone]

theorem lookup_closeAll_none {ids : List UInt32} (hnone : s.sessions.lookup id = none) :
    (s.closeAll ids).sessions.lookup id = none := by
  induction ids generalizing s with
  | nil => exact hnone
  | cons id' ids ih => exact ih (lookup_runSession_none hnone)

/-- The sessions are closed once each. -/
theorem lookup_closeAll {ids : List UInt32} (hnodup : ids.Nodup)
    (hlookup : s.sessions.lookup id = some session)
    (hthere : (s.closeAll ids).sessions.lookup id = some session') :
    session' = if id ∈ ids then session.close else session := by
  induction ids generalizing s session with
  | nil => exact Option.some.inj (hthere.symm.trans hlookup)
  | cons id' ids ih =>
    obtain ⟨hnot, hnodup⟩ := List.nodup_cons.mp hnodup
    cases hmid : (s.runSession id' .close).sessions.lookup id with
    | none =>
      have hnever : ((s.runSession id' .close).closeAll ids).sessions.lookup id = none :=
        lookup_closeAll_none hmid
      exact absurd (hthere.symm.trans hnever) (by simp)
    | some between =>
      have hlast := ih hnodup hmid hthere
      by_cases heq : id = id'
      · subst heq
        rw [hlast, if_neg hnot, if_pos List.mem_cons_self]
        exact lookup_runSession_self hlookup hmid
      · rw [lookup_runSession_ne s _ heq, hlookup] at hmid
        rw [hlast, ← Option.some.inj hmid]
        simp [heq]

/-- A new session is none of those that were there. -/
theorem lookup_acceptOne_ne (h : Sound s) {arrival : Arrival} (hfew : s.made.length + 1 < 2 ^ 32)
    (hne : id ≠ s.nextId) :
    (s.acceptOne arrival).sessions.lookup id = s.sessions.lookup id := by
  by_cases hdown : s.shuttingDown = true
  · rw [acceptOne, if_pos hdown]
  have hnot : s.nextId ∉ s.sessions := fun hmem ↦ h.nextId_notMem hfew (h.made _ hmem)
  have hjoin : (s.join arrival).sessions.lookup id = s.sessions.lookup id := by
    rw [join, AList.lookup_insert_ne hne]
  rw [acceptOne_eq (Bool.eq_false_iff.mpr hdown) hnot]
  split_ifs
  all_goals
    rw [lookup_runSession_ne _ _ hne]
    exact hjoin

/-- **What a step does to a session** that is there before and after. -/
theorem lookup_step (h : Sound s) {event : Event} (promised : s.Promised event)
    (hlookup : s.sessions.lookup id = some session)
    (hthere : (s.step event).sessions.lookup id = some session') :
    session' = session.run (called id s.shuttingDown event) := by
  cases event with
  | connection ok arrival =>
    have hne : id ≠ s.nextId := fun heq ↦
      h.nextId_notMem promised (heq ▸ h.made id (mem_of_lookup hlookup))
    rw [step, onConnection] at hthere
    have hsame : s.sessions.lookup id = some session' := by
      split_ifs at hthere
      · rwa [lookup_acceptOne_ne h promised hne] at hthere
      · exact hthere
    exact Option.some.inj (hsame.symm.trans hlookup)
  | session id' event =>
    rw [called]
    split_ifs with heq
    · subst heq
      exact lookup_runSession_self hlookup hthere
    · rw [step, lookup_runSession_ne _ _ (Ne.symm heq)] at hthere
      exact Option.some.inj (hthere.symm.trans hlookup)
  | handleClosed id' handle =>
    have hlookup' : (s.closed id' handle).sessions.lookup id = some session := hlookup
    rw [called]
    split_ifs with heq
    · subst heq
      exact lookup_runSession_self hlookup' hthere
    · rw [step, lookup_runSession_ne _ _ (Ne.symm heq)] at hthere
      exact Option.some.inj (hthere.symm.trans hlookup')
  | shutdown =>
    rw [step, beginShutdown] at hthere
    rw [called]
    split_ifs at hthere ⊢ with hdown
    · exact Option.some.inj (hthere.symm.trans hlookup)
    · have hkeys := List.mergeSort_perm s.sessions.keys (· ≤ ·)
      have hmem := hkeys.mem_iff.mpr (AList.mem_keys.mp (mem_of_lookup hlookup))
      have hlookup' : ({ s with shuttingDown := true } : TcpServer D).sessions.lookup id
        = some session := hlookup
      rw [lookup_closeAll (hkeys.nodup_iff.mpr s.sessions.keys_nodup) hlookup' hthere,
        if_pos hmem]
      rfl

/-- A session that is gone does not come back. -/
theorem notMem_step (h : Sound s) {event : Event} (promised : s.Promised event)
    (hmade : id ∈ s.made) (hnot : id ∉ s.sessions) : id ∉ (s.step event).sessions := by
  have hnone : s.sessions.lookup id = none := AList.lookup_eq_none.mpr hnot
  have hgone : (s.step event).sessions.lookup id = none := by
    cases event with
    | connection ok arrival =>
      have hne : id ≠ s.nextId := fun heq ↦ h.nextId_notMem promised (heq ▸ hmade)
      rw [step, onConnection]
      split_ifs
      · rw [lookup_acceptOne_ne h promised hne, hnone]
      · exact hnone
    | session id' event => exact lookup_runSession_none hnone
    | handleClosed id' handle =>
      have hnone' : (s.closed id' handle).sessions.lookup id = none := hnone
      exact lookup_runSession_none hnone'
    | shutdown =>
      rw [step, beginShutdown]
      split_ifs
      · exact hnone
      · have hnone' : ({ s with shuttingDown := true } : TcpServer D).sessions.lookup id = none :=
          hnone
        exact lookup_closeAll_none hnone'
  exact AList.lookup_eq_none.mp hgone

end Step

/-! ## Every run -/

private theorem arrivals_down (events : List Event) : arrivals true events = [] := by
  induction events with
  | nil => rfl
  | cons event events ih =>
    rw [arrivals, Bool.true_or, ih, List.append_nil]
    cases event with
    | connection ok arrival =>
      rw [arrived, Bool.not_true, Bool.and_false, if_neg Bool.false_ne_true]
    | session id event => rfl
    | handleClosed id handle => rfl
    | shutdown => rfl

section Run

variable {config : ServerConfig} {s : TcpServer D} {id : UInt32} {session session' : TcpSession D}
variable {events : List Event}

theorem sound_run (h : Sound s) (hoffers : ((system D config).under Orderly).Offers s events) :
    Sound ((system D config).run s events) := by
  induction events generalizing s with
  | nil => exact h
  | cons event events ih => exact ih (h.step hoffers.1.1 hoffers.1.2) hoffers.2

/-- A session that was made is started or not, for good. -/
theorem started_run (h : Sound s) (hmade : id ∈ s.made)
    (hoffers : ((system D config).under Orderly).Offers s events) :
    id ∈ ((system D config).run s events).started ↔ id ∈ s.started := by
  induction events generalizing s with
  | nil => exact .rfl
  | cons event events ih =>
    obtain ⟨⟨promised, orderly⟩, hothers⟩ := hoffers
    have hstepped := stepped_step h promised
    have hmade' : id ∈ (s.step event).made := by
      rw [hstepped.made]
      exact List.mem_append_left _ hmade
    exact (ih (h.step promised orderly) hmade' hothers).trans (hstepped.started id hmade)

theorem notMem_run (h : Sound s) (hmade : id ∈ s.made) (hnot : id ∉ s.sessions)
    (hoffers : ((system D config).under Orderly).Offers s events) :
    id ∉ ((system D config).run s events).sessions := by
  induction events generalizing s with
  | nil => exact hnot
  | cons event events ih =>
    obtain ⟨⟨promised, orderly⟩, hothers⟩ := hoffers
    have hmade' : id ∈ (s.step event).made := by
      rw [(stepped_step h promised).made]
      exact List.mem_append_left _ hmade
    exact ih (h.step promised orderly) hmade' (notMem_step h promised hmade hnot) hothers

/-- **A session that is in the map** is called for its own callbacks, and nothing else happens to
it. -/
theorem lookup_run (h : Sound s) (hoffers : ((system D config).under Orderly).Offers s events)
    (hlookup : s.sessions.lookup id = some session)
    (hthere : ((system D config).run s events).sessions.lookup id = some session') :
    session' = session.run (callsOf id s.shuttingDown events) := by
  induction events generalizing s session with
  | nil => exact Option.some.inj (hthere.symm.trans hlookup)
  | cons event events ih =>
    obtain ⟨⟨promised, orderly⟩, hothers⟩ := hoffers
    have hsound := h.step promised orderly
    have hstepped := stepped_step h promised
    have hmade : id ∈ (s.step event).made := by
      rw [hstepped.made]
      exact List.mem_append_left _ (h.made id (mem_of_lookup hlookup))
    cases hmid : (s.step event).sessions.lookup id with
    | none =>
      have hgone := notMem_run hsound hmade (AList.lookup_eq_none.mp hmid) hothers
      exact absurd (mem_of_lookup hthere) hgone
    | some between =>
      rw [ih hsound hothers hmid hthere, lookup_step h promised hlookup hmid, hstepped.shuttingDown,
        callsOf, TcpSession.run, TcpSession.run, TcpSession.run, List.foldl_append]

/-- A session that is made in a step is that of a connection. -/
theorem of_mem_made {event : Event} (hnew : id ∉ s.made) (hstepped : Stepped s event (s.step event))
    (hmade : id ∈ (s.step event).made) :
    id = s.nextId ∧ s.shuttingDown = false ∧ ∃ arrival, event = .connection true arrival := by
  rw [hstepped.made] at hmade
  obtain ⟨arrival, harrived, hid⟩ := List.mem_map.mp ((List.mem_append.mp hmade).resolve_left hnew)
  refine ⟨hid.symm, ?_⟩
  cases event with
  | connection ok arrival' =>
    rw [arrived] at harrived
    split_ifs at harrived with hlet
    · obtain ⟨rfl, hdown⟩ := (Bool.and_eq_true _ _).mp hlet
      exact ⟨by simpa using hdown, arrival', rfl⟩
    · exact absurd harrived List.not_mem_nil
  | session id event => exact absurd harrived List.not_mem_nil
  | handleClosed id handle => exact absurd harrived List.not_mem_nil
  | shutdown => exact absurd harrived List.not_mem_nil

/-- **A session that is made on the way** is called for nothing before. -/
theorem lookup_run_of_notMem (h : Sound s)
    (hoffers : ((system D config).under Orderly).Offers s events) (hnew : id ∉ s.made)
    (hthere : ((system D config).run s events).sessions.lookup id = some session') :
    ∃ k arrival, (arrivals s.shuttingDown events)[k]? = some arrival ∧
      id = UInt32.ofNat (s.made.length + k + 1) ∧
      session' = (admitted s.config id arrival
        (decide (id ∈ ((system D config).run s events).started))).run
          (callsOf id s.shuttingDown events) := by
  induction events generalizing s with
  | nil => exact absurd (h.made id (mem_of_lookup hthere)) hnew
  | cons event events ih =>
    obtain ⟨⟨promised, orderly⟩, hothers⟩ := hoffers
    have hsound := h.step promised orderly
    have hstepped := stepped_step h promised
    have hrun : (system D config).run s (event :: events)
      = (system D config).run (s.step event) events := rfl
    rw [hrun] at hthere ⊢
    -- the session is made in this step, or in a later one
    by_cases hmade : id ∈ (s.step event).made
    · obtain ⟨rfl, running, arrival, rfl⟩ := of_mem_made hnew hstepped hmade
      have hadmits : Admits arrival s (s.step (.connection true arrival)) :=
        admits_acceptOne h promised running
      -- a session that is not in the map after the accept never comes into it
      cases hmid : (s.step (.connection true arrival)).sessions.lookup s.nextId with
      | none =>
        have hgone := notMem_run hsound hmade (AList.lookup_eq_none.mp hmid) hothers
        exact absurd (mem_of_lookup hthere) hgone
      | some between =>
        refine ⟨0, arrival, ?_, h.nextId, ?_⟩
        · rw [running]
          rfl
        · rw [lookup_run hsound hothers hmid hthere, hadmits.admitted between hmid,
            hstepped.shuttingDown]
          exact congrArg (fun started ↦ (admitted s.config s.nextId arrival started).run _)
            (decide_eq_decide.mpr (started_run hsound hmade hothers).symm)
    · obtain ⟨k, arrival, harrival, hid, heq⟩ := ih hsound hothers hmade hthere
      rw [hstepped.shuttingDown] at harrival heq
      have hcalled : called id s.shuttingDown event = [] := by
        cases event with
        | connection ok arrival => rfl
        | session id' event => exact if_neg fun hid : id' = id ↦ hnew (hid ▸ promised.1)
        | handleClosed id' handle => exact if_neg fun hid : id' = id ↦ hnew (hid ▸ promised.1)
        | shutdown =>
          rw [Event.isShutdown, Bool.or_true, arrivals_down] at harrival
          exact absurd harrival (by simp)
      refine ⟨(arrived s.shuttingDown event).length + k, arrival, ?_, ?_, ?_⟩
      · rw [arrivals, List.getElem?_append_right (Nat.le_add_right _ _), Nat.add_sub_cancel_left]
        exact harrival
      · rw [hid, hstepped.made, List.length_append, List.length_map, Nat.add_assoc s.made.length]
      · rw [heq, hstepped.config, callsOf, hcalled, List.nil_append]

/-- There are as many sessions as connections, and fewer than `2 ^ 32`. -/
theorem length_made_run (h : Sound s) (hoffers : ((system D config).under Orderly).Offers s events)
    (hfew : s.made.length < 2 ^ 32) :
    s.made.length + (arrivals s.shuttingDown events).length < 2 ^ 32 := by
  induction events generalizing s with
  | nil => exact hfew
  | cons event events ih =>
    obtain ⟨⟨promised, orderly⟩, hothers⟩ := hoffers
    have hstepped := stepped_step h promised
    have hlength : (s.step event).made.length
        = s.made.length + (arrived s.shuttingDown event).length := by
      rw [hstepped.made, List.length_append, List.length_map]
    have hfew' : (s.step event).made.length < 2 ^ 32 := by
      rw [hlength]
      cases event with
      | connection ok arrival =>
        have hpromised : s.made.length + 1 < 2 ^ 32 := promised
        rw [arrived]
        split_ifs
        · exact hpromised
        · exact hfew
      | session id event => exact hfew
      | handleClosed id handle => exact hfew
      | shutdown => exact hfew
    have hrest := ih (h.step promised orderly) hothers hfew'
    rw [hlength, hstepped.shuttingDown] at hrest
    rw [arrivals, List.length_append, ← Nat.add_assoc]
    exact hrest

end Run

private theorem ofNat_injOn {k k' : ℕ} (hk : k < 2 ^ 32) (hk' : k' < 2 ^ 32)
    (heq : UInt32.ofNat k = UInt32.ofNat k') : k = k' := by
  have hnat := congrArg UInt32.toNat heq
  have hsize : UInt32.size = 2 ^ 32 := rfl
  rwa [UInt32.toNat_ofNat_of_lt' (by omega), UInt32.toNat_ofNat_of_lt' (by omega)] at hnat

/-- An id stands for one connection. -/
theorem arrival_unique {config : ServerConfig} {events : List Event}
    (hoffers : ((system D config).under Orderly).Offers (listening config) events) {k k' : ℕ}
    {arrival arrival' : Arrival} (harrival : (arrivals false events)[k]? = some arrival)
    (harrival' : (arrivals false events)[k']? = some arrival')
    (hid : UInt32.ofNat (k + 1) = UInt32.ofNat (k' + 1)) : arrival = arrival' := by
  have hcount : 0 + (arrivals false events).length < 2 ^ 32 :=
    length_made_run (s := listening config) (.listening config) hoffers (Nat.two_pow_pos 32)
  obtain ⟨hk, -⟩ := List.getElem?_eq_some_iff.mp harrival
  obtain ⟨hk', -⟩ := List.getElem?_eq_some_iff.mp harrival'
  have hsame : k + 1 = k' + 1 := ofNat_injOn (by omega) (by omega) hid
  obtain rfl := Nat.succ.inj hsame
  exact Option.some.inj (harrival.symm.trans harrival')

/-- The sessions of a server that was just started. -/
theorem lookup_run_listening {config : ServerConfig} {events : List Event}
    (hoffers : ((system D config).under Orderly).Offers (listening config) events)
    {id : UInt32} {session : TcpSession D}
    (hthere : ((system D config).run (listening config) events).sessions.lookup id = some session) :
    ∃ k arrival, (arrivals false events)[k]? = some arrival ∧ id = UInt32.ofNat (k + 1) ∧
      session = (admitted config id arrival
        (decide (id ∈ ((system D config).run (listening config) events).started))).run
          (callsOf id false events) := by
  obtain ⟨k, arrival, harrival, hid, heq⟩ :=
    lookup_run_of_notMem (.listening config) hoffers List.not_mem_nil hthere
  refine ⟨k, arrival, harrival, ?_, heq⟩
  rw [hid, show (listening config : TcpServer D).made.length = 0 from rfl, Nat.zero_add]

/-- **The sessions are alone.** After any run of the server, the session of a connection, while it
is in the map, is what the server made of this connection, called for its own callbacks only. -/
theorem alone (config : ServerConfig) {events : List Event}
    (hoffers : ((system D config).under Orderly).Offers (listening config) events) {k : ℕ}
    {arrival : Arrival} (harrival : (arrivals false events)[k]? = some arrival) {id : UInt32}
    (hid : id = UInt32.ofNat (k + 1)) {session : TcpSession D}
    (hthere : ((system D config).run (listening config) events).sessions.lookup id = some session) :
    session = (admitted config id arrival
      (decide (id ∈ ((system D config).run (listening config) events).started))).run
        (callsOf id false events) := by
  obtain ⟨k', arrival', harrival', hid', heq⟩ := lookup_run_listening hoffers hthere
  rw [arrival_unique hoffers harrival harrival' (hid.symm.trans hid')]
  exact heq

/-- **An upload amid others.** A client that was let in uploads a file. However its bytes are cut,
and whatever other clients send, as they come and go, its session has the result at hand and has
answered each frame. -/
theorem served_amid (config : ServerConfig) {events : List Event}
    (hoffers : ((system D config).under Orderly).Offers (listening config) events) {k : ℕ}
    {arrival : Arrival} (harrival : (arrivals false events)[k]? = some arrival)
    (accepted : arrival.accepted = true) (readStarted : arrival.readStarted = true)
    (hwrites : ∀ n, arrival.env.uvWrite.get n = true) {id : UInt32}
    (hid : id = UInt32.ofNat (k + 1))
    (hstarted : id ∈ ((system D config).run (listening config) events).started)
    {session : TcpSession D}
    (hthere : ((system D config).run (listening config) events).sessions.lookup id = some session)
    (version : UInt16) (client name : Bytes) {chunks : List Bytes} (hne : chunks.flatten ≠ [])
    (hsize : chunks.flatten.length < 2 ^ 64) (hchunks : Sendable chunks)
    (hsmooth : ∀ event ∈ callsOf id false events, event.smooth = true)
    (hbytes : (callsOf id false events).flatMap TcpSession.Event.bytes
      = wire (uploadFrames version client name chunks)) :
    AtHand chunks session.conversation ∧ (service D).Answered .awaitHello
      (uploadFrames version client name chunks) (.idle (some chunks))
        (sentFrames session.timeline) := by
  obtain ⟨k', arrival', harrival', hid', heq⟩ := lookup_run_listening hoffers hthere
  rw [← arrival_unique hoffers harrival harrival' (hid.symm.trans hid'), decide_eq_true hstarted,
    admitted_started config _ accepted readStarted] at heq
  rw [heq]
  exact atHand_run _ hwrites version client name hne hsize hchunks hsmooth hbytes

/-- A server for two sessions. -/
def pairConfig : ServerConfig := ⟨2, ascii "1.0.0", 300000, 30000, by decide⟩

/-- Two clients come, and the second sends what is no frame and is gone. -/
def bothCome : List Event :=
  [.connection true (calmArrival true), .connection true (calmArrival true),
    .session 2 (.read (ascii "nonsense")), .session 2 .readEof]

theorem offers_bothCome :
    ((system ℚ pairConfig).under Orderly).Offers (listening pairConfig) bothCome := by
  have hfew : ∀ n : ℕ, n < 5 → n + 1 < 2 ^ 32 ∧ n + 1 < 2 ^ 31 := fun n hn ↦ by omega
  have hopen : ∀ state : HandleState, state = .active → state ≠ .closed :=
    fun state hactive ↦ hactive ▸ by decide
  have htwo : (2 : UInt32) ∈ [(1 : UInt32), 2] := by decide
  exact ⟨⟨(hfew 0 (by decide)).1, (hfew 0 (by decide)).2, final_calmEnv⟩,
    ⟨(hfew 1 (by decide)).1, (hfew 1 (by decide)).2, final_calmEnv⟩,
    ⟨⟨htwo, .tcp, rfl, hopen _ rfl⟩, trivial⟩, ⟨⟨htwo, .tcp, rfl, hopen _ rfl⟩, trivial⟩, trivial⟩

theorem alone_second_client :
    ((system ℚ pairConfig).run (listening pairConfig) bothCome).sessions.lookup 2
      = some ((admitted pairConfig 2 (calmArrival true) true).run
        [.read (ascii "nonsense"), .readEof]) := by
  have hthere : 2 ∈
      ((system ℚ pairConfig).run (listening pairConfig) bothCome).sessions :=
    AList.mem_keys.mpr (by decide)
  have hstarted : 2 ∈
      ((system ℚ pairConfig).run (listening pairConfig) bothCome).started := by decide
  obtain ⟨session, hlookup⟩ := exists_lookup hthere
  have harrival : (arrivals false bothCome)[1]? = some (calmArrival true) := rfl
  have hid : (2 : UInt32) = UInt32.ofNat (1 + 1) := rfl
  have heq := alone pairConfig offers_bothCome harrival hid hlookup
  rw [decide_eq_true hstarted] at heq
  exact hlookup.trans (congrArg some heq)

/-- A client of the server sends something. -/
theorem offers_read {config : ServerConfig} {events : List Event}
    (hoffers : ((system D config).under Orderly).Offers (listening config) events) {id : UInt32}
    (hmem : id ∈ ((system D config).run (listening config) events).sessions)
    (hopen : ((system D config).run (listening config) events).handles id .tcp ≠ .closed)
    (data : Bytes) :
    ((system D config).under Orderly).Offers (listening config)
      (events ++ [.session id (.read data)]) := by
  have hsound := sound_run (.listening config) hoffers
  refine System.offers_append.mpr ⟨hoffers, ?_⟩
  rw [System.run_under]
  exact ⟨⟨⟨hsound.made id hmem, .tcp, rfl, hopen⟩, trivial⟩, trivial⟩

/-- The session of a client that sends something stays. -/
theorem stays_read {config : ServerConfig} {events : List Event}
    (hoffers : ((system D config).under Orderly).Offers (listening config) events) {id : UInt32}
    (hmem : id ∈ ((system D config).run (listening config) events).sessions) (data : Bytes) :
    let s := (system D config).run (listening config) (events ++ [.session id (.read data)])
    id ∈ s.sessions ∧ s.started = ((system D config).run (listening config) events).started := by
  have hsound := sound_run (.listening config) hoffers
  rw [System.run_append]
  refine ⟨AList.mem_keys.mpr ((keys_runSession fun session hlookup ↦ ?_).mem_iff.mpr
    (AList.mem_keys.mp hmem)), (runSession_keeps _ id (·.step (.read data))).2.2.2⟩
  exact ((Retires.refl (hsound.watched id session hlookup).1.alive).step (by simp)).calls

theorem served_amid_second_client :
    let chunks := [ascii "a\nb", ascii "c\n"]
    let frames := uploadFrames 1 (ascii "client") (ascii "log.txt") chunks
    ∃ session, ((system ℚ pairConfig).run (listening pairConfig)
      (bothCome ++ [.session 1 (.read (wire frames))])).sessions.lookup 1 = some session ∧
        AtHand chunks session.conversation := by
  intro chunks frames
  have hmem : 1 ∈ ((system ℚ pairConfig).run (listening pairConfig) bothCome).sessions :=
    AList.mem_keys.mpr (by decide)
  have hopen : ((system ℚ pairConfig).run (listening pairConfig) bothCome).handles 1 .tcp
      ≠ .closed := by decide
  have hstarted : 1 ∈ ((system ℚ pairConfig).run (listening pairConfig) bothCome).started := by
    decide
  obtain ⟨hthere, hsame⟩ := stays_read offers_bothCome hmem (wire frames)
  rw [← hsame] at hstarted
  have hcalls : callsOf 1 false (bothCome ++ [.session 1 (.read (wire frames))])
      = [.read (wire frames)] := rfl
  have harrival : (arrivals false (bothCome ++ [.session 1 (.read (wire frames))]))[0]?
      = some (calmArrival true) := rfl
  have hid : (1 : UInt32) = UInt32.ofNat (0 + 1) := rfl
  obtain ⟨session, hlookup⟩ := exists_lookup hthere
  refine ⟨session, hlookup, ?_⟩
  refine (served_amid pairConfig (offers_read offers_bothCome hmem hopen _) harrival rfl rfl
    (fun _ ↦ rfl) hid hstarted hlookup 1 (ascii "client") (ascii "log.txt") (by decide) (by decide)
    (by decide) ?_ ?_).1
  · rw [hcalls]
    simp [Event.smooth]
  · rw [hcalls]
    exact List.append_nil _

end TcpServer

end LoggerAnalyzer
