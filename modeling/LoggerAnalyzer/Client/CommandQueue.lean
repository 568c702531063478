import LoggerAnalyzer.Client.TransferClient
import LoggerAnalyzer.Stream.System
import Mathlib.Data.List.Nodup
import Mathlib.Data.List.Range

/-!
# The command queue of the C++ client

The UI's thread calls `connect`, `disconnect`, `start_upload` and `request_cancel`, one after
another, and a worker runs the session. Between the two stands the queue `cmds_`. Each is taken
apart into steps that are atomic in the source: an access to `busy_` or `cancel_`, what is done
while `cmd_mu_` is held, a `join`, the start of the thread. `CommandQueue.system` takes these steps
in every order that the places of the two threads allow.

What decides the worker's way but lies outside is a `Reply`: whether `connect`, the handshake and
the reads between two commands succeed. How an upload ends is not left open, it is an end that
`do_upload` can come to. The log and what of the shown state is only copied are left out.

## The log

`timeline` is not in the code. It has the moments that the order of commands is about, and an upload
bears a ticket, which tells it from another upload of the same file. `inOrder` is about every log
that can come about.
-/

open scoped List

namespace LoggerAnalyzer

/-- An upload in the queue, with the number of uploads queued before it. -/
structure QueuedUpload where
  ticket : ℕ
  file : Bytes
deriving DecidableEq, Repr

/-- `Command`. -/
inductive Command where
  | upload (u : QueuedUpload)
  | disconnect
deriving DecidableEq, Repr

/-- `connect` has won `busy_`, the thread of a session is started, `disconnect` has put itself into
the queue, an upload is queued, the worker has taken it, and `do_upload` is called for it. -/
inductive Moment where
  | connecting
  | started
  | disconnected
  | queued (u : QueuedUpload)
  | taken (u : QueuedUpload)
  | executed (u : QueuedUpload)
deriving DecidableEq, Repr

/-- Where the UI's thread is: in no call, at one of the steps of `connect`, or in `start_upload`
with the flag already lowered. -/
inductive UiPlace where
  | free
  | joining
  | lowering
  | clearing
  | resetting
  | spawning
  | pushing (file : Bytes)
deriving DecidableEq, Repr

/-- Where the worker is in `run_session`. -/
inductive WorkerPlace where
  | ended
  | starting
  | connecting
  | handshaking
  | waiting
  | holding (command : Command)
  | uploading (u : QueuedUpload)
  | idling
  | leaving
  | releasing
deriving DecidableEq, Repr

/-- A `TransferClient` with its two threads. -/
structure CommandQueue where
  client : TransferClient
  busy : Bool
  cancel : Bool
  cmds : List Command
  ui : UiPlace
  worker : WorkerPlace
  timeline : List Moment
deriving DecidableEq, Repr

/-- What the UI calls. -/
inductive UiCall where
  | connect
  | disconnect
  | startUpload (file : Bytes)
  | requestCancel
deriving DecidableEq, Repr

/-- What comes of the worker's dealings with the server: whether they went well, the reason if they
did not, and the client after an upload. -/
structure Reply where
  ok : Bool
  why : Bytes
  client : TransferClient
deriving DecidableEq, Repr

/-- The UI calls something, its call goes on, or the worker does. -/
inductive ThreadMove where
  | call (call : UiCall)
  | ui
  | worker (reply : Reply)
deriving DecidableEq, Repr

/-! ## Logs -/

/-- The uploads that were queued. -/
def queuedUploads (timeline : List Moment) : List QueuedUpload :=
  timeline.filterMap fun
    | .queued u => some u
    | _ => none

/-- The uploads that the worker took from the queue. -/
def takenUploads (timeline : List Moment) : List QueuedUpload :=
  timeline.filterMap fun
    | .taken u => some u
    | _ => none

/-- The uploads that `do_upload` was called for. -/
def executedUploads (timeline : List Moment) : List QueuedUpload :=
  timeline.filterMap fun
    | .executed u => some u
    | _ => none

/-- The uploads among commands. -/
def pendingUploads (cmds : List Command) : List QueuedUpload :=
  cmds.filterMap fun
    | .upload u => some u
    | .disconnect => none

private theorem mem_takenUploads {tl : List Moment} {u : QueuedUpload} :
    u ∈ takenUploads tl ↔ .taken u ∈ tl := by
  rw [takenUploads, List.mem_filterMap]
  constructor
  · rintro ⟨m, hm, heq⟩
    cases m with
    | taken v => exact Option.some.inj heq ▸ hm
    | _ => cases heq
  · exact fun h ↦ ⟨_, h, rfl⟩

/-- A moment that is about no upload. -/
theorem uploads_other (tl : List Moment) {m : Moment}
    (h : m = .connecting ∨ m = .started ∨ m = .disconnected) :
    queuedUploads (tl ++ [m]) = queuedUploads tl ∧ takenUploads (tl ++ [m]) = takenUploads tl ∧
      executedUploads (tl ++ [m]) = executedUploads tl := by
  rcases h with rfl | rfl | rfl <;> simp [queuedUploads, takenUploads, executedUploads]

private theorem uploads_queued (tl : List Moment) (u : QueuedUpload) :
    queuedUploads (tl ++ [.queued u]) = queuedUploads tl ++ [u] ∧
      takenUploads (tl ++ [.queued u]) = takenUploads tl ∧
      executedUploads (tl ++ [.queued u]) = executedUploads tl := by
  simp [queuedUploads, takenUploads, executedUploads]

private theorem uploads_taken (tl : List Moment) (u : QueuedUpload) :
    queuedUploads (tl ++ [.taken u]) = queuedUploads tl ∧
      takenUploads (tl ++ [.taken u]) = takenUploads tl ++ [u] ∧
      executedUploads (tl ++ [.taken u]) = executedUploads tl := by
  simp [queuedUploads, takenUploads, executedUploads]

private theorem uploads_executed (tl : List Moment) (u : QueuedUpload) :
    queuedUploads (tl ++ [.executed u]) = queuedUploads tl ∧
      takenUploads (tl ++ [.executed u]) = takenUploads tl ∧
      executedUploads (tl ++ [.executed u]) = executedUploads tl ++ [u] := by
  simp [queuedUploads, takenUploads, executedUploads]

theorem pendingUploads_append (cmds cmds' : List Command) :
    pendingUploads (cmds ++ cmds') = pendingUploads cmds ++ pendingUploads cmds' :=
  List.filterMap_append ..

/-! ## What is shown -/

namespace TransferClient

def setConnected (on : Bool) (c : TransferClient) : TransferClient :=
  { c with state := { c.state with connected := on } }

/-- A HELLO_ACK was read, and the session waits for commands. -/
def greet (c : TransferClient) : TransferClient :=
  ({ c with state := { c.state with helloValid := true } }.setConnected true).setPhase .connected

/-- The end of a session. -/
def leave (c : TransferClient) : TransferClient :=
  let c := c.setConnected false
  if c.state.phase = .failed then c else c.setPhase .idle

/-- Started with `before` shown, `do_upload` of a path may give `kept` and leave `after` to be
shown. -/
def Uploads (path : Bytes) (before : TransferClient) (kept : Bool) (after : TransferClient) :
    Prop :=
  ∃ (σ : Type) (link : Link σ) (fuel : ℕ) (file : LocalFile) (e e' : Endpoint σ TransferClient),
    file.path = path ∧ e.own = before ∧ doUpload link fuel file e = .ok kept e' ∧ e'.own = after

/-- A file that is not there changes nothing about the connection. -/
theorem uploads_missing (path : Bytes) (before : TransferClient) :
    Uploads path before true (before.freshUpload.setPhase .connected) := by
  let link : Link Unit :=
    { flag := fun _ s ↦ (false, s), pauses := fun s ↦ (0, s), send := fun _ s ↦ (.stalled, s)
      recv := fun _ s ↦ (.idle, s), readable := fun s ↦ (false, s), now := fun s ↦ (0, s) }
  let file : LocalFile := ⟨path, path, none, none, Stream'.const ⟨[], none⟩⟩
  exact ⟨Unit, link, 0, file, { outside := (), own := before }, _, rfl, rfl, rfl, rfl⟩

end TransferClient

namespace CommandQueue

/-! ## The steps -/

def new : CommandQueue :=
  { client := ⟨{}, []⟩, busy := false, cancel := false, cmds := [], ui := .free, worker := .ended
    timeline := [] }

def note (m : Moment) (s : CommandQueue) : CommandQueue :=
  { s with timeline := s.timeline ++ [m] }

/-- The first step of a call. `connect` does nothing while `busy_` is set. -/
def call (s : CommandQueue) : UiCall → CommandQueue
  | .connect => if s.busy then s else { s with busy := true, ui := .joining }.note .connecting
  | .disconnect => { s with cmds := [.disconnect] }.note .disconnected
  | .startUpload file => { s with cancel := false, ui := .pushing file }
  | .requestCancel => { s with cancel := true }

/-- The next step of `connect` or of `start_upload`. -/
def uiStep (s : CommandQueue) : CommandQueue :=
  match s.ui with
  | .free => s
  | .joining => { s with ui := .lowering }
  | .lowering => { s with cancel := false, ui := .clearing }
  | .clearing => { s with cmds := [], ui := .resetting }
  | .resetting => { s with client := ⟨{}, []⟩, ui := .spawning }
  | .spawning => { s with worker := .starting, ui := .free }.note .started
  | .pushing file =>
    let u : QueuedUpload := ⟨(queuedUploads s.timeline).length, file⟩
    { s with cmds := s.cmds ++ [Command.upload u], ui := .free }.note (.queued u)

/-- The worker looks for a command. -/
def take (s : CommandQueue) : CommandQueue :=
  match s.cmds with
  | [] => { s with worker := .idling }
  | .disconnect :: cmds => { s with cmds := cmds, worker := .holding .disconnect }
  | .upload u :: cmds => { s with cmds := cmds, worker := .holding (.upload u) }.note (.taken u)

/-- The next step of `run_session`. -/
def workerStep (r : Reply) (s : CommandQueue) : CommandQueue :=
  match s.worker with
  | .ended => s
  | .starting => { s with client := s.client.setPhase .connecting, worker := .connecting }
  | .connecting =>
    if r.ok then { s with client := s.client.setPhase .handshaking, worker := .handshaking }
    else { s with client := s.client.fail r.why, worker := .releasing }
  | .handshaking =>
    if r.ok then { s with client := s.client.greet, worker := .waiting }
    else { s with client := s.client.fail r.why, worker := .releasing }
  | .waiting => s.take
  | .holding .disconnect => { s with worker := .leaving }
  | .holding (.upload u) => { s with worker := .uploading u }.note (.executed u)
  | .uploading _ => { s with client := r.client, worker := if r.ok then .waiting else .leaving }
  | .idling =>
    if r.ok then { s with worker := .waiting }
    else { s with client := s.client.fail r.why, worker := .leaving }
  | .leaving => { s with client := s.client.leave, worker := .releasing }
  | .releasing => { s with busy := false, worker := .ended }

def step (s : CommandQueue) : ThreadMove → CommandQueue
  | .call call => s.call call
  | .ui => s.uiStep
  | .worker reply => s.workerStep reply

/-- The UI calls something when it is in no call, a `join` returns when the worker has ended, and
an upload ends as `do_upload` can. -/
def Offers (s : CommandQueue) : ThreadMove → Prop
  | .call _ => s.ui = .free
  | .ui => s.ui ≠ .free ∧ (s.ui = .joining → s.worker = .ended)
  | .worker reply => s.worker ≠ .ended ∧
      ∀ u, s.worker = .uploading u → TransferClient.Uploads u.file s.client reply.ok reply.client

def system : System CommandQueue ThreadMove := ⟨new, step, Offers⟩

end CommandQueue

/-! ## What a step can do -/

/-- The UI is in `connect`, which has won `busy_`. -/
def UiPlace.inConnect : UiPlace → Bool
  | .joining | .lowering | .clearing | .resetting | .spawning => true
  | .free | .pushing _ => false

/-- `connect` has cleared the queue. -/
def UiPlace.cleared : UiPlace → Bool
  | .resetting | .spawning => true
  | _ => false

/-- The upload in the worker's hand. -/
def WorkerPlace.held : WorkerPlace → List QueuedUpload
  | .holding (.upload u) => [u]
  | _ => []

/-- The worker may come to take another command. -/
def WorkerPlace.goesOn : WorkerPlace → Bool
  | .ended | .holding .disconnect | .leaving | .releasing => false
  | _ => true

/-- A step of the worker from `place` to `next` without a look at the queue. -/
def WorkerPlace.movesTo (place next : WorkerPlace) : Bool :=
  place != .ended && next != .ended && place.held.isEmpty && next.held.isEmpty
    && (!next.goesOn || place.goesOn)

namespace CommandQueue

/-- What a step does to the queue and to the log, and when. -/
inductive Does (s : CommandQueue) : CommandQueue → Prop where
  | shows {client cancel} : Does s { s with client := client, cancel := cancel }
  | wins (free : s.ui = .free) (idle : s.busy = false) :
    Does s ({ s with busy := true, ui := .joining }.note .connecting)
  | disconnects (free : s.ui = .free) : Does s ({ s with cmds := [.disconnect] }.note .disconnected)
  | announces {file} (free : s.ui = .free) : Does s { s with cancel := false, ui := .pushing file }
  | pushes {file u} (ui : s.ui = .pushing file)
    (ticket : u.ticket = (queuedUploads s.timeline).length) :
    Does s ({ s with cmds := s.cmds ++ [Command.upload u], ui := .free }.note (.queued u))
  | connects {place client cancel} (ui : s.ui.inConnect = true) (then' : place.inConnect = true)
    (cleared : place.cleared = s.ui.cleared) :
    Does s { s with client := client, cancel := cancel, ui := place }
  | clears (ui : s.ui = .clearing) : Does s { s with cmds := [], ui := .resetting }
  | spawns (ui : s.ui = .spawning) :
    Does s ({ s with worker := .starting, ui := .free }.note .started)
  | works {place client} (moves : s.worker.movesTo place = true) :
    Does s { s with client := client, worker := place }
  | takesDisconnect {cs} (worker : s.worker = .waiting) (cmds : s.cmds = .disconnect :: cs) :
    Does s { s with cmds := cs, worker := .holding .disconnect }
  | takesUpload {u cs} (worker : s.worker = .waiting) (cmds : s.cmds = .upload u :: cs) :
    Does s ({ s with cmds := cs, worker := .holding (.upload u) }.note (.taken u))
  | executes {u} (worker : s.worker = .holding (.upload u)) :
    Does s ({ s with worker := .uploading u }.note (.executed u))
  | releases (worker : s.worker = .releasing) : Does s { s with busy := false, worker := .ended }

private theorem does_call {s : CommandQueue} (free : s.ui = .free) (c : UiCall) :
    Does s (s.call c) := by
  cases c with
  | connect =>
    rw [call.eq_def]
    dsimp only
    split_ifs with hbusy
    · exact .shows
    · exact .wins free (Bool.eq_false_iff.mpr hbusy)
  | disconnect => exact .disconnects free
  | startUpload file => exact .announces free
  | requestCancel => exact .shows

private theorem does_uiStep {s : CommandQueue} (called : s.ui ≠ .free) : Does s s.uiStep := by
  rw [uiStep]
  split <;> rename_i hui
  · exact absurd hui called
  · exact .connects (by rw [hui]; rfl) rfl (by rw [hui]; rfl)
  · exact .connects (by rw [hui]; rfl) rfl (by rw [hui]; rfl)
  · exact .clears hui
  · exact .connects (by rw [hui]; rfl) rfl (by rw [hui]; rfl)
  · exact .spawns hui
  · exact .pushes hui rfl

/-- The worker goes from one place to another without a look at the queue. -/
theorem does_work {s : CommandQueue} {place next : WorkerPlace} (worker : s.worker = place)
    (moves : place.movesTo next = true) (client : TransferClient) :
    Does s { s with client := client, worker := next } := by
  subst worker
  exact .works moves

private theorem does_take {s : CommandQueue} (worker : s.worker = .waiting) : Does s s.take := by
  rw [take]
  split <;> rename_i hcmds
  · exact does_work worker rfl s.client
  · exact .takesDisconnect worker hcmds
  · exact .takesUpload worker hcmds

private theorem does_workerStep {s : CommandQueue} (running : s.worker ≠ .ended) (r : Reply) :
    Does s (s.workerStep r) := by
  rw [workerStep]
  split <;> rename_i hworker
  · exact absurd hworker running
  · exact does_work hworker rfl _
  · split_ifs
    · exact does_work hworker rfl _
    · exact does_work hworker rfl _
  · split_ifs
    · exact does_work hworker rfl _
    · exact does_work hworker rfl _
  · exact does_take hworker
  · exact does_work hworker rfl s.client
  · exact .executes hworker
  · split_ifs
    · exact does_work hworker rfl _
    · exact does_work hworker rfl _
  · split_ifs
    · exact does_work hworker rfl s.client
    · exact does_work hworker rfl _
  · exact does_work hworker rfl _
  · exact .releases hworker

/-- **What a step can do.** -/
theorem does_step {s : CommandQueue} {move : ThreadMove} (offered : s.Offers move) :
    Does s (s.step move) := by
  cases move with
  | call c => exact does_call offered c
  | ui => exact does_uiStep offered.1
  | worker reply => exact does_workerStep offered.1 reply

/-! ## What always holds -/

/-- While the UI is in `connect`, there is no worker, and nothing has happened since it won
`busy_`. -/
structure Exclusive (s : CommandQueue) : Prop where
  idle : s.busy = false → s.worker = .ended
  worker : s.ui.inConnect = true → s.busy = true ∧ s.worker = .ended
  connecting : s.ui.inConnect = true → ∃ before, s.timeline = before ++ [.connecting]
  cleared : s.ui.cleared = true → s.cmds = []

private theorem inConnect_of_cleared {place : UiPlace} (h : place.cleared = true) :
    place.inConnect = true := by
  cases place <;> first | rfl | cases h

/-- The UI is in no step of `connect`. -/
theorem Exclusive.of_other {s : CommandQueue} (idle : s.busy = false → s.worker = .ended)
    (other : s.ui.inConnect = false) : Exclusive s := by
  have hnot : s.ui.inConnect ≠ true := by simp [other]
  exact ⟨idle, fun h ↦ absurd h hnot, fun h ↦ absurd h hnot,
    fun h ↦ absurd (inConnect_of_cleared h) hnot⟩

theorem running_of_movesTo {place next : WorkerPlace} (h : place.movesTo next = true) :
    place ≠ .ended ∧ next ≠ .ended ∧ place.held = [] ∧ next.held = [] ∧
      (next.goesOn = true → place.goesOn = true) := by
  simpa [WorkerPlace.movesTo, and_assoc, imp_iff_not_or] using h

theorem Exclusive.step {s s' : CommandQueue} (h : Exclusive s) (hd : Does s s') : Exclusive s' := by
  -- a step of the worker shows that the UI is not in `connect`
  have hother : s.worker ≠ .ended → s.ui.inConnect = false := fun hrunning ↦
    Bool.eq_false_iff.mpr fun hin ↦ hrunning (h.worker hin).2
  cases hd with
  | shows => exact ⟨h.idle, h.worker, h.connecting, h.cleared⟩
  | wins _ idle =>
    refine ⟨fun hbusy ↦ ?_, fun _ ↦ ⟨rfl, h.idle idle⟩, fun _ ↦ ⟨_, rfl⟩, fun hcleared ↦ ?_⟩
    · cases hbusy
    · cases hcleared
  | disconnects free => exact .of_other h.idle (congrArg UiPlace.inConnect free)
  | announces => exact .of_other h.idle rfl
  | pushes => exact .of_other h.idle rfl
  | connects ui _ cleared =>
    exact ⟨h.idle, fun _ ↦ h.worker ui, fun _ ↦ h.connecting ui,
      fun hcleared ↦ h.cleared (cleared.symm.trans hcleared)⟩
  | clears ui =>
    have hin : s.ui.inConnect = true := congrArg UiPlace.inConnect ui
    exact ⟨h.idle, fun _ ↦ h.worker hin, fun _ ↦ h.connecting hin, fun _ ↦ rfl⟩
  | spawns ui =>
    have hbusy := (h.worker (congrArg UiPlace.inConnect ui)).1
    exact .of_other (fun hidle ↦ absurd (hbusy.symm.trans hidle) (by decide)) rfl
  | works moves =>
    obtain ⟨hrunning, -⟩ := running_of_movesTo moves
    exact .of_other (fun hidle ↦ absurd (h.idle hidle) hrunning) (hother hrunning)
  | takesDisconnect worker =>
    have hrunning : s.worker ≠ .ended := by simp [worker]
    exact .of_other (fun hidle ↦ absurd (h.idle hidle) hrunning) (hother hrunning)
  | takesUpload worker =>
    have hrunning : s.worker ≠ .ended := by simp [worker]
    exact .of_other (fun hidle ↦ absurd (h.idle hidle) hrunning) (hother hrunning)
  | executes worker =>
    have hrunning : s.worker ≠ .ended := by simp [worker]
    exact .of_other (fun hidle ↦ absurd (h.idle hidle) hrunning) (hother hrunning)
  | releases worker => exact .of_other (fun _ ↦ rfl) (hother (by simp [worker]))

/-- What was taken and what is pending are what was queued, in that order and less what was cleared,
and what was executed is what was taken, less what is held. -/
structure InLine (queued taken executed pending held : List QueuedUpload) : Prop where
  tickets : queued.map QueuedUpload.ticket = List.range queued.length
  order : taken ++ pending <+ queued
  held : taken = executed ++ held

namespace InLine

variable {queued taken executed pending held : List QueuedUpload} {u : QueuedUpload}

theorem nil : InLine [] [] [] [] [] := ⟨rfl, .slnil, rfl⟩

theorem push (h : InLine queued taken executed pending held) (ticket : u.ticket = queued.length) :
    InLine (queued ++ [u]) taken executed (pending ++ [u]) held := by
  refine ⟨?_, ?_, h.held⟩
  · rw [List.map_append, h.tickets, List.length_append, List.map_singleton, ticket,
      List.length_singleton, List.range_succ]
  · rw [← List.append_assoc]
    exact h.order.append (.refl [u])

theorem clear (h : InLine queued taken executed pending held) :
    InLine queued taken executed [] held := by
  refine ⟨h.tickets, ?_, h.held⟩
  rw [List.append_nil]
  exact (List.sublist_append_left ..).trans h.order

theorem take (h : InLine queued taken executed (u :: pending) []) :
    InLine queued (taken ++ [u]) executed pending [u] := by
  refine ⟨h.tickets, ?_, ?_⟩
  · rw [List.append_assoc]
    exact h.order
  · rw [h.held, List.append_nil]

theorem execute (h : InLine queued taken executed pending [u]) :
    InLine queued taken (executed ++ [u]) pending [] :=
  ⟨h.tickets, h.order, h.held.trans (List.append_nil _).symm⟩

end InLine

/-- The queue keeps the uploads in line. -/
def Fifo (s : CommandQueue) : Prop :=
  InLine (queuedUploads s.timeline) (takenUploads s.timeline) (executedUploads s.timeline)
    (pendingUploads s.cmds) s.worker.held

theorem Fifo.step {s s' : CommandQueue} (hx : Exclusive s) (h : Fifo s) (hd : Does s s') :
    Fifo s' := by
  unfold Fifo at h ⊢
  cases hd with
  | shows => exact h
  | wins =>
    obtain ⟨hqueued, htaken, hexecuted⟩ := uploads_other s.timeline (.inl rfl)
    rw [note, hqueued, htaken, hexecuted]
    exact h
  | disconnects =>
    obtain ⟨hqueued, htaken, hexecuted⟩ := uploads_other s.timeline (.inr (.inr rfl))
    rw [note, hqueued, htaken, hexecuted]
    exact h.clear
  | announces => exact h
  | @pushes file u _ ticket =>
    obtain ⟨hqueued, htaken, hexecuted⟩ := uploads_queued s.timeline u
    rw [note, hqueued, htaken, hexecuted]
    dsimp only
    rw [pendingUploads_append]
    exact h.push ticket
  | connects => exact h
  | clears => exact h.clear
  | spawns ui =>
    obtain ⟨hqueued, htaken, hexecuted⟩ := uploads_other s.timeline (.inr (.inl rfl))
    rw [note, hqueued, htaken, hexecuted]
    rw [(hx.worker (congrArg UiPlace.inConnect ui)).2] at h
    exact h
  | works moves =>
    obtain ⟨-, -, hempty, hstays, -⟩ := running_of_movesTo moves
    rw [hempty] at h
    dsimp only
    rw [hstays]
    exact h
  | takesDisconnect worker cmds =>
    rw [worker, cmds] at h
    exact h
  | @takesUpload u cs worker cmds =>
    obtain ⟨hqueued, htaken, hexecuted⟩ := uploads_taken s.timeline u
    rw [note, hqueued, htaken, hexecuted]
    rw [worker, cmds] at h
    exact h.take
  | @executes u worker =>
    obtain ⟨hqueued, htaken, hexecuted⟩ := uploads_executed s.timeline u
    rw [note, hqueued, htaken, hexecuted]
    rw [worker] at h
    exact h.execute
  | releases worker =>
    rw [worker] at h
    exact h

/-! ### Sessions -/

/-- The uploads were queued since the thread of the last session was started, and that was done by
the `connect` that had won `busy_` right before. -/
def Since (timeline : List Moment) (uploads : List QueuedUpload) : Prop :=
  ∃ before since, timeline = before ++ .connecting :: .started :: since ∧ .started ∉ since ∧
    ∀ u ∈ uploads, .queued u ∈ since

namespace Since

variable {tl : List Moment} {uploads others : List QueuedUpload}

theorem mono (h : Since tl uploads) (hsub : ∀ u ∈ others, u ∈ uploads) : Since tl others := by
  obtain ⟨before, since, htl, hstarted, hqueued⟩ := h
  exact ⟨before, since, htl, hstarted, fun u hu ↦ hqueued u (hsub u hu)⟩

theorem note (h : Since tl uploads) {m : Moment} (hm : m ≠ .started) :
    Since (tl ++ [m]) uploads := by
  obtain ⟨before, since, htl, hstarted, hqueued⟩ := h
  refine ⟨before, since ++ [m], ?_, ?_, fun u hu ↦ List.mem_append_left _ (hqueued u hu)⟩
  · rw [htl, List.append_assoc, List.cons_append, List.cons_append]
  · rw [List.mem_append, List.mem_singleton]
    exact fun hmem ↦ hmem.elim hstarted hm.symm

theorem push (h : Since tl uploads) (u : QueuedUpload) :
    Since (tl ++ [.queued u]) (uploads ++ [u]) := by
  obtain ⟨before, since, htl, hstarted, hqueued⟩ := h
  refine ⟨before, since ++ [.queued u], ?_, by simpa using hstarted, fun v hv ↦ ?_⟩
  · rw [htl, List.append_assoc, List.cons_append, List.cons_append]
  · rcases List.mem_append.mp hv with hv | hv
    · exact List.mem_append_left _ (hqueued v hv)
    · rw [List.mem_singleton.mp hv]
      exact List.mem_append_right _ (List.mem_singleton_self _)

theorem start (htl : ∃ before, tl = before ++ [.connecting]) : Since (tl ++ [.started]) [] := by
  obtain ⟨before, rfl⟩ := htl
  refine ⟨before, [], ?_, List.not_mem_nil, fun u hu ↦ absurd hu List.not_mem_nil⟩
  rw [List.append_assoc, List.singleton_append]

end Since

/-- What a session can still execute was queued since it was started. -/
def InSession (s : CommandQueue) : Prop :=
  s.worker ≠ .ended → Since s.timeline (pendingUploads s.cmds ++ s.worker.held)

theorem InSession.step {s s' : CommandQueue} (hx : Exclusive s) (h : InSession s)
    (hd : Does s s') : InSession s' := by
  cases hd with
  | shows => exact h
  | wins => exact fun hrunning ↦ (h hrunning).note (by simp)
  | disconnects =>
    exact fun hrunning ↦ ((h hrunning).note (by simp)).mono fun u hu ↦ List.mem_append_right _ hu
  | announces => exact h
  | @pushes file u _ _ =>
    intro hrunning
    refine ((h hrunning).push u).mono ?_
    intro v hv
    rw [note, pendingUploads_append] at hv
    simp only [List.mem_append] at hv ⊢
    tauto
  | connects => exact h
  | clears => exact fun hrunning ↦ (h hrunning).mono fun u hu ↦ List.mem_append_right _ hu
  | spawns ui =>
    intro _
    have hcmds : s.cmds = [] := hx.cleared (congrArg UiPlace.cleared ui)
    refine (Since.start (hx.connecting (congrArg UiPlace.inConnect ui))).mono ?_
    intro u hu
    rw [note, hcmds] at hu
    exact hu
  | works moves =>
    obtain ⟨hrunning, -, hempty, hstays, -⟩ := running_of_movesTo moves
    intro _
    have hsince := h hrunning
    rw [hempty] at hsince
    dsimp only
    rwa [hstays]
  | takesDisconnect worker cmds =>
    intro _
    have hsince := h (by simp [worker])
    rw [worker, cmds] at hsince
    exact hsince
  | @takesUpload u cs worker cmds =>
    intro _
    have hsince := h (by simp [worker])
    rw [worker, cmds] at hsince
    refine (hsince.note (m := .taken u) (by simp)).mono ?_
    intro v hv
    have hv : v ∈ pendingUploads cs ++ [u] := hv
    have hall : pendingUploads (.upload u :: cs) = u :: pendingUploads cs := rfl
    rw [hall]
    simp only [List.mem_append, List.mem_cons, List.not_mem_nil, or_false] at hv ⊢
    tauto
  | executes worker =>
    intro _
    have hsince := h (by simp [worker])
    exact (hsince.note (by simp)).mono fun v hv ↦ by
      have hv : v ∈ pendingUploads s.cmds ++ [] := hv
      rw [List.append_nil] at hv
      exact List.mem_append_left _ hv
  | releases => exact fun hrunning ↦ absurd rfl hrunning

/-! ### After a disconnect -/

/-- Nothing that was not taken `before` can be executed: a worker that may take another command will
take the `Disconnect`. -/
structure Barred (before mid : List Moment) (s : CommandQueue) : Prop where
  head : s.worker.goesOn = true → s.cmds.head? = some .disconnect
  held : ∀ u ∈ s.worker.held, .taken u ∈ before
  connecting : s.ui.inConnect = true → .connecting ∈ mid

/-- A worker that takes no other command and has none. -/
theorem Barred.of_stopped {before mid : List Moment} {s : CommandQueue}
    (stops : s.worker.goesOn = false) (empty : s.worker.held = [])
    (connecting : s.ui.inConnect = true → .connecting ∈ mid) : Barred before mid s := by
  refine ⟨fun hgoes ↦ ?_, fun u hu ↦ ?_, connecting⟩
  · exact absurd (stops.symm.trans hgoes) (by decide)
  · rw [empty] at hu
    cases hu

/-- Since every `disconnect` a session was started, or nothing can be executed. -/
def Bars (s : CommandQueue) : Prop :=
  ∀ before mid, s.timeline = before ++ .disconnected :: mid →
    [.connecting, .started] <+ mid ∨ Barred before mid s

namespace Bars

variable {s s' : CommandQueue}

theorem keep (h : Bars s) (timeline : s'.timeline = s.timeline)
    (barred : ∀ before mid, Barred before mid s → Barred before mid s') : Bars s' := by
  intro before mid hsplit
  exact (h before mid (timeline.symm.trans hsplit)).imp_right (barred before mid)

theorem note (h : Bars s) {m : Moment} (timeline : s'.timeline = s.timeline ++ [m])
    (barred : ∀ before mid, Barred before mid s →
      [.connecting, .started] <+ mid ++ [m] ∨ Barred before (mid ++ [m]) s')
    (now : m = .disconnected → Barred s.timeline [] s') : Bars s' := by
  intro before mid hsplit
  rw [timeline] at hsplit
  rcases concat_eq_append_cons_iff.mp hsplit with ⟨rfl, hm, rfl⟩ | ⟨rest, rfl, htl⟩
  · exact .inr (now hm)
  · rcases h before rest htl with hsession | hbarred
    · exact .inl (hsession.trans (List.sublist_append_left ..))
    · exact barred before rest hbarred

theorem step (hx : Exclusive s) (hf : Fifo s) (h : Bars s) (hd : Does s s') : Bars s' := by
  cases hd with
  | shows => exact h.keep rfl fun _ _ hb ↦ ⟨hb.head, hb.held, hb.connecting⟩
  | wins =>
    refine h.note rfl (fun _ mid hb ↦ .inr ⟨hb.head, hb.held, fun _ ↦ ?_⟩) (fun hm ↦ by cases hm)
    exact List.mem_append_right _ (List.mem_singleton_self _)
  | disconnects free =>
    have hfree : s.ui.inConnect ≠ true := by simp [free, UiPlace.inConnect]
    refine h.note rfl (fun _ _ hb ↦ .inr ⟨fun _ ↦ rfl, hb.held, fun hin ↦ absurd hin hfree⟩)
      fun _ ↦ ⟨fun _ ↦ rfl, fun u hu ↦ ?_, fun hin ↦ absurd hin hfree⟩
    rw [← mem_takenUploads, hf.held]
    exact List.mem_append_right _ hu
  | announces => exact h.keep rfl fun _ _ hb ↦ ⟨hb.head, hb.held, fun hin ↦ by cases hin⟩
  | pushes =>
    refine h.note rfl (fun _ _ hb ↦ .inr ⟨fun hgoes ↦ ?_, hb.held, fun hin ↦ by cases hin⟩)
      (fun hm ↦ by cases hm)
    show (s.cmds ++ _).head? = _
    rw [List.head?_append, hb.head hgoes]
    rfl
  | connects ui => exact h.keep rfl fun _ _ hb ↦ ⟨hb.head, hb.held, fun _ ↦ hb.connecting ui⟩
  | clears ui =>
    have hin : s.ui.inConnect = true := congrArg UiPlace.inConnect ui
    refine h.keep rfl fun _ _ hb ↦ ⟨fun hgoes ↦ ?_, hb.held, fun _ ↦ hb.connecting hin⟩
    rw [(hx.worker hin).2] at hgoes
    cases hgoes
  | spawns ui =>
    -- the start of a worker is what the command waited for
    refine h.note rfl (fun _ mid hb ↦ .inl ?_) (fun hm ↦ by cases hm)
    have hmem := hb.connecting (congrArg UiPlace.inConnect ui)
    exact (List.singleton_sublist.mpr hmem).append (.refl [Moment.started])
  | works moves =>
    obtain ⟨-, -, -, hstays, hgoes⟩ := running_of_movesTo moves
    refine h.keep rfl fun _ _ hb ↦ ⟨fun hnext ↦ hb.head (hgoes hnext), fun u hu ↦ ?_,
      hb.connecting⟩
    rw [hstays] at hu
    cases hu
  | takesDisconnect =>
    exact h.keep rfl fun _ _ hb ↦ .of_stopped rfl rfl hb.connecting
  | takesUpload worker cmds =>
    refine h.note rfl (fun _ _ hb ↦ ?_) (fun hm ↦ by cases hm)
    -- the command is still at the head of the queue, so no upload is
    have hhead := hb.head (by rw [worker]; rfl)
    rw [cmds] at hhead
    cases hhead
  | executes worker =>
    refine h.note rfl (fun _ _ hb ↦ .inr ⟨fun _ ↦ hb.head (by rw [worker]; rfl), fun u hu ↦ ?_,
      fun hin ↦ List.mem_append_left _ (hb.connecting hin)⟩) (fun hm ↦ by cases hm)
    cases hu
  | releases =>
    exact h.keep rfl fun _ _ hb ↦ .of_stopped rfl rfl hb.connecting

end Bars

/-! ## The claim -/

/-- An upload is executed in its session, and not after a `disconnect` that it was not taken
before. -/
def Rightly (before : List Moment) : Moment → Prop
  | .executed u => Since before [u] ∧ ∀ earlier mid, before = earlier ++ .disconnected :: mid →
      .taken u ∉ earlier → [.connecting, .started] <+ mid
  | _ => True

/-- What always holds. -/
structure Orderly (s : CommandQueue) : Prop where
  exclusive : Exclusive s
  fifo : Fifo s
  inSession : InSession s
  bars : Bars s
  rightly : Justified Rightly s.timeline

private theorem rightly_step {s s' : CommandQueue} (h : Orderly s) (hd : Does s s') :
    Justified Rightly s'.timeline := by
  cases hd with
  | shows => exact h.rightly
  | wins => exact h.rightly.concat trivial
  | disconnects => exact h.rightly.concat trivial
  | announces => exact h.rightly
  | pushes => exact h.rightly.concat trivial
  | connects => exact h.rightly
  | clears => exact h.rightly
  | spawns => exact h.rightly.concat trivial
  | works => exact h.rightly
  | takesDisconnect => exact h.rightly
  | takesUpload => exact h.rightly.concat trivial
  | @executes u worker =>
    have hheld : u ∈ s.worker.held := by
      rw [worker]
      exact List.mem_singleton_self u
    refine h.rightly.concat ⟨?_, fun earlier mid hsplit hnot ↦ ?_⟩
    · refine (h.inSession (by simp [worker])).mono ?_
      intro v hv
      rw [List.mem_singleton.mp hv]
      exact List.mem_append_right _ hheld
    · exact (h.bars earlier mid hsplit).resolve_right fun hb ↦ hnot (hb.held u hheld)
  | releases => exact h.rightly

theorem Orderly.step {s s' : CommandQueue} (h : Orderly s) (hd : Does s s') : Orderly s' :=
  ⟨h.exclusive.step hd, h.fifo.step h.exclusive hd, h.inSession.step h.exclusive hd,
    h.bars.step h.exclusive h.fifo hd, rightly_step h hd⟩

private theorem orderly_of_reaches {s : CommandQueue} (h : system.Reaches s) : Orderly s := by
  refine h.invariant ?_ fun _ hs offered ↦ hs.step (does_step offered)
  refine ⟨.of_other (fun _ ↦ rfl) rfl, .nil, fun hrunning ↦ absurd rfl hrunning, ?_, .nil⟩
  intro before mid hsplit
  exact absurd hsplit (by simp [system, new])

/-- The uploads of a log come in order: each that is queued bears a ticket of its own, and is
executed at most once and in the order queued; one that is still in the queue at a `disconnect`, or
is queued after it, is not executed before a later `connect` has started a session; and a session
executes what was queued after the `connect` that started it. -/
structure InOrder (timeline : List Moment) : Prop where
  tickets : (queuedUploads timeline).map QueuedUpload.ticket
    = List.range (queuedUploads timeline).length
  order : executedUploads timeline <+ queuedUploads timeline
  once : (executedUploads timeline).Nodup
  disconnect : ∀ before mid after u,
    timeline = before ++ .disconnected :: (mid ++ .executed u :: after) → .taken u ∉ before →
      [.connecting, .started] <+ mid
  session : ∀ before after u, timeline = before ++ .executed u :: after →
    ∃ earlier since, before = earlier ++ .connecting :: .started :: since ∧ .started ∉ since ∧
      .queued u ∈ since

/-- **The commands are executed in order**, whatever the UI calls and however its steps and those
of the worker interleave. -/
theorem inOrder {s : CommandQueue} (reaches : system.Reaches s) : InOrder s.timeline := by
  obtain ⟨-, hfifo, -, -, hright⟩ := orderly_of_reaches reaches
  have horder : executedUploads s.timeline <+ queuedUploads s.timeline := by
    have htaken : executedUploads s.timeline <+ takenUploads s.timeline :=
      hfifo.held ▸ List.sublist_append_left ..
    exact (htaken.trans (List.sublist_append_left ..)).trans hfifo.order
  have hqueued : (queuedUploads s.timeline).Nodup := by
    refine List.Nodup.of_map QueuedUpload.ticket ?_
    rw [hfifo.tickets]
    exact List.nodup_range
  refine ⟨hfifo.tickets, horder, hqueued.sublist horder, ?_, ?_⟩
  · intro before mid after u hsplit hnot
    have hbefore : s.timeline = (before ++ .disconnected :: mid) ++ .executed u :: after := by
      rw [hsplit, List.append_assoc, List.cons_append]
    exact (hright _ _ _ hbefore).2 before mid rfl hnot
  · intro before after u hsplit
    obtain ⟨earlier, since, hbefore, hstarted, hall⟩ := (hright _ _ _ hsplit).1
    exact ⟨earlier, since, hbefore, hstarted, hall u (List.mem_singleton_self u)⟩

/-- The client once a session waits for commands. -/
def greeted : TransferClient :=
  ((TransferClient.setPhase .connecting ⟨{}, []⟩).setPhase .handshaking).greet

/-- All goes well, but there is no file to upload. -/
def noFile : Reply := ⟨true, [], greeted.freshUpload.setPhase .connected⟩

/-- The UI connects and queues two uploads, the worker executes the first, the UI disconnects and
queues a third, and the session ends. -/
def disconnecting : List ThreadMove :=
  .call .connect :: List.replicate 5 .ui ++ List.replicate 3 (.worker noFile)
    ++ [.call (.startUpload (ascii "a")), .ui, .call (.startUpload (ascii "b")), .ui]
    ++ List.replicate 2 (.worker noFile)
    ++ [.call .disconnect, .call (.startUpload (ascii "c")), .ui]
    ++ List.replicate 5 (.worker noFile)

theorem inOrder_disconnecting :
    let s := system.run system.start disconnecting
    InOrder s.timeline ∧ executedUploads s.timeline = [⟨0, ascii "a"⟩] ∧ s.worker = .ended := by
  refine ⟨inOrder (System.Reaches.run .start ?_), rfl, rfl⟩
  have hends := TransferClient.uploads_missing (ascii "a") greeted
  rw [greeted] at hends
  simpa [System.Offers, disconnecting, system, Offers, step, new, call, uiStep, workerStep, take,
    note, noFile, greeted] using hends

end CommandQueue

end LoggerAnalyzer
