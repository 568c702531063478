import LoggerAnalyzer.Session.TcpSession
import LoggerAnalyzer.Stream.System
import Mathlib.Data.List.AList

/-!
# The server and its sessions

A `TcpServer` accepts connections and owns a session for each. A session is in the map from the time
it is made until it says that its handles are closed, and then it is destroyed.

## The outside

What libuv answers when a connection is accepted is in an `Arrival`. What libuv does of its own
accord are the steps of `tcpServer`, and `Promised` says which of them can come next: a callback of
a handle comes only while the handle is there, and the callback of `uv_close` comes once, after
`uv_close`. The initialisation of the handles succeeds, so `init` does not fail. Log output and the
handles of the server itself are left out.

## Records

Four fields of a `TcpServer` are not in the code: the ids of the sessions that were made, started
and erased, in that order of time, and the states of the handles of every session, as libuv knows
them. No function looks at them to decide what to do. Sessions are told apart by their ids, which
are different as long as fewer than `2 ^ 32` connections are accepted.
-/

namespace LoggerAnalyzer

/-- The handles of a session, `idle_timer_` and `tcp_`. -/
inductive Handle where
  | timer
  | tcp
deriving DecidableEq, Repr

/-- What libuv knows of a handle. -/
inductive HandleState where
  | active
  | closing
  | closed
deriving DecidableEq, Repr

/-- The configuration, as `Config::parse` accepts it, and the version of libuv. -/
structure ServerConfig where
  maxSessions : ℤ
  uvVersion : Bytes
  idleTimeoutMs : ℕ
  uploadStallTimeoutMs : ℕ
  inRange : 1 ≤ maxSessions ∧ maxSessions ≤ 1024

/-- What libuv answers to `accept_one`: to `uv_accept`, to `uv_read_start`, and the peer, and then
what it answers to the session. -/
structure Arrival where
  accepted : Bool
  readStarted : Bool
  peer : Bytes
  env : Env

structure TcpServer (D : Type) where
  config : ServerConfig
  shuttingDown : Bool
  nextId : UInt32
  sessions : AList fun _ : UInt32 ↦ TcpSession D
  handles : UInt32 → Handle → HandleState
  made : List UInt32
  started : List UInt32
  erased : List UInt32

/-- `static_cast<int>` of a size. -/
def castInt (size : ℕ) : ℤ := Int.bmod size (2 ^ 32)

namespace TcpSession

variable {D : Type} [DoubleOps D]

/-- A session whose handles are initialised. -/
def init (config : SessionConfig) (env : Env) : TcpSession D :=
  { start config env with timer := none }

/-- `start`. -/
def startReading (readStarted : Bool) (s : TcpSession D) : TcpSession D :=
  if readStarted then s.touchIdle else s.close

/-- `reject`. -/
def reject (code : ErrorCode) (message : Bytes) (s : TcpSession D) : TcpSession D :=
  match s.takeUvWrite with
  | (true, s) =>
    ({ s with writes := s.writes ++ [serializeError code message] }.note
      (.sent .error (errorPayload code message))).flag
  | (false, s) => s.close

/-- How often the session called `on_session_closed`. -/
def closedCalls (s : TcpSession D) : ℕ := s.timeline.count .sessionClosed

end TcpSession

namespace TcpServer

variable {D : Type}

/-- `on_session_closed`. -/
def onSessionClosed (id : UInt32) (s : TcpServer D) : TcpServer D :=
  if id ∈ s.sessions then { s with sessions := s.sessions.erase id, erased := s.erased ++ [id] }
  else s

/-- libuv is told to close the handles of a session. -/
def uvClose (id : UInt32) (before after : TcpSession D) (s : TcpServer D) : TcpServer D :=
  if !before.handlesClosing && after.handlesClosing then
    { s with handles := Function.update s.handles id fun _ ↦ .closing }
  else s

/-- libuv has closed a handle. -/
def closed (id : UInt32) (handle : Handle) (s : TcpServer D) : TcpServer D :=
  { s with
    handles := Function.update s.handles id (Function.update (s.handles id) handle .closed) }

/-- `sessions_.emplace`. -/
def emplace (id : UInt32) (session : TcpSession D) (s : TcpServer D) : TcpServer D :=
  if id ∈ s.sessions then s else { s with sessions := s.sessions.insert id session }

variable [DoubleOps D]

/-- Code of a session in the map runs, and the server is told if the session is done. -/
def runSession (id : UInt32) (code : TcpSession D → TcpSession D) (s : TcpServer D) :
    TcpServer D :=
  match s.sessions.lookup id with
  | none => s
  | some session =>
    let after := code session
    let s := { s with sessions := s.sessions.insert id after }.uvClose id session after
    if session.closedCalls < after.closedCalls then s.onSessionClosed id else s

/-- What `accept_one` makes a session with. -/
def newSession (arrival : Arrival) (s : TcpServer D) : TcpSession D :=
  .init ⟨s.nextId, arrival.peer, s.config.uvVersion, s.config.idleTimeoutMs,
    s.config.uploadStallTimeoutMs⟩ arrival.env

/-- `accept_one`. -/
def acceptOne (arrival : Arrival) (s : TcpServer D) : TcpServer D :=
  if s.shuttingDown then s
  else
    let id := s.nextId
    let session := s.newSession arrival
    let s := { s with nextId := id + 1, made := s.made ++ [id] }
    if !arrival.accepted then (s.uvClose id session session.close).emplace id session.close
    else
      let s := s.emplace id session
      if s.config.maxSessions < castInt s.sessions.keys.length then
        s.runSession id (.reject .serverBusy (ascii "server busy: too many concurrent sessions"))
      else
        { s with started := s.started ++ [id] }.runSession id (.startReading arrival.readStarted)

/-- `on_connection`. -/
def onConnection (ok : Bool) (arrival : Arrival) (s : TcpServer D) : TcpServer D :=
  if ok then s.acceptOne arrival else s

/-- The sessions with these ids are closed, if they are there. -/
def closeAll (ids : List UInt32) (s : TcpServer D) : TcpServer D :=
  ids.foldl (fun s id ↦ s.runSession id .close) s

/-- `begin_shutdown`. -/
def beginShutdown (s : TcpServer D) : TcpServer D :=
  if s.shuttingDown then s
  else { s with shuttingDown := true }.closeAll (s.sessions.keys.mergeSort (· ≤ ·))

/-! ## The system -/

/-- What libuv, and the signals, call the server for. -/
inductive Event where
  | connection (ok : Bool) (arrival : Arrival)
  | session (id : UInt32) (event : TcpSession.Event)
  | handleClosed (id : UInt32) (handle : Handle)
  | shutdown

/-- The handle that a callback of a session belongs to. -/
def handleOf : TcpSession.Event → Option Handle
  | .read _ | .readEof | .readError | .written _ => some .tcp
  | .idleTimeout => some .timer
  | .handleClosed => none

def step (s : TcpServer D) : Event → TcpServer D
  | .connection ok arrival => s.onConnection ok arrival
  | .session id event => s.runSession id (·.step event)
  | .handleClosed id handle => (s.closed id handle).runSession id (·.onHandleClosed)
  | .shutdown => s.beginShutdown

/-- A server that listens. -/
def listening (config : ServerConfig) : TcpServer D :=
  { config := config, shuttingDown := false, nextId := 1, sessions := ∅
    handles := fun _ _ ↦ .active, made := [], started := [], erased := [] }

/-- What libuv promises: no callback of a handle comes after that of `uv_close`, and that comes
once, for a handle that `uv_close` was called for. Fewer than `2 ^ 32` connections are accepted. -/
def Promised (s : TcpServer D) : Event → Prop
  | .connection _ _ => s.made.length + 1 < 2 ^ 32
  | .session id event =>
    id ∈ s.made ∧ ∃ handle, handleOf event = some handle ∧ s.handles id handle ≠ .closed
  | .handleClosed id handle => id ∈ s.made ∧ s.handles id handle = .closing
  | .shutdown => True

/-- The server and what can happen to it. -/
def system (D : Type) [DoubleOps D] (config : ServerConfig) : System (TcpServer D) Event :=
  ⟨listening config, step, Promised⟩

end TcpServer

end LoggerAnalyzer
