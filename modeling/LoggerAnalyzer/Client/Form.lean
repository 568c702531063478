import LoggerAnalyzer.Client.Link
import LoggerAnalyzer.Stream.System

/-!
# The window of the C# client

The handlers of `Form1` run on one thread, and give it up where they wait: for a connection, a BYE,
an upload or a message box. Whatever comes meanwhile finds the fields as they were left, and may be
the user who closes the window. `Form` has these fields, and with them what they stand for: the
connections that were made and not given back, the continuations that are to come, the token sources
that were cancelled. A step is all that is done until a handler gives up the thread.

That no two handlers get into each other's way is left to the buttons, which are enabled by
`UpdateUiState` and not by what the handlers check. `sound_reaches` is that it comes out right.
-/

namespace LoggerAnalyzer

inductive LedState where
  | idle
  | connecting
  | connected
  | failed
deriving DecidableEq, Repr

/-- What a handler waits for before it goes on. -/
inductive Await where
  | connect (token : ℕ)
  | bye
  | upload (conn token : ℕ)
  | connectBox
  | uploadBox
deriving DecidableEq, Repr

/-- The fields of the form, and behind them: the handlers that wait, the calls of `Close` that are
posted, and the connections. `touched` is whether a control was used after it was destroyed, and
`lost` are the connections that `_conn` was taken away from; no code looks at these two. -/
structure Form where
  conn : Option ℕ := none
  cts : Option ℕ := none
  uploadCts : Option ℕ := none
  busy : Bool := false
  uploading : Bool := false
  closeRequested : Bool := false
  selectedFile : Bytes := []
  ledState : LedState := .idle
  connectEnabled : Bool := true
  openEnabled : Bool := true
  sendEnabled : Bool := false
  cancelEnabled : Bool := false
  isDisposed : Bool := false
  touched : Bool := false
  awaits : List Await := []
  posted : ℕ := 0
  conns : ℕ := 0
  tokens : ℕ := 0
  live : List ℕ := []
  broken : List ℕ := []
  lost : List ℕ := []
  cancelled : List ℕ := []
deriving DecidableEq, Repr

namespace Form

/-! ## The connections and the tokens -/

/-- `IsConnected`: the connection was not disposed, and nothing went wrong on its socket. -/
def isConnected (f : Form) (c : ℕ) : Bool := c ∈ f.live && c ∉ f.broken

/-- `_conn != null && _conn.IsConnected`. -/
def connected (f : Form) : Bool := f.conn.any f.isConnected

/-- `Dispose` of a connection. -/
def disposeConn (c : ℕ) (f : Form) : Form := { f with live := f.live.filter (· ≠ c) }

/-- `Cancel` of a token source, if there is one. -/
def cancel (token : Option ℕ) (f : Form) : Form :=
  { f with cancelled := token.toList ++ f.cancelled }

def await (a : Await) (f : Form) : Form := { f with awaits := a :: f.awaits }

/-! ## What the handlers use -/

/-- A control is used. -/
def touch (f : Form) : Form := { f with touched := f.touched || f.isDisposed }

def setLed (state : LedState) (f : Form) : Form := { f with ledState := state }.touch

def updateUiState (f : Form) : Form :=
  let idle := !f.busy && !f.uploading
  { f with
    connectEnabled := idle
    openEnabled := idle
    sendEnabled := f.connected && f.selectedFile ≠ [] && idle
    cancelEnabled := f.uploading }.touch

/-- `_conn` is disposed, if there is one. -/
def closeConn (f : Form) : Form :=
  match f.conn with
  | some c => { f.disposeConn c with conn := none }
  | none => f

def dropConnection (f : Form) : Form :=
  let f := { f.closeConn with cts := none }
  if f.isDisposed then f else f.setLed .idle

def markConnectionLost (f : Form) : Form :=
  if f.conn = none then f else (f.touch.dropConnection.setLed .failed).updateUiState

/-! ## The handlers -/

/-- `Btn_SOCKETConnect_Click` up to its await, and `DisconnectAsync` up to its own. -/
def connectClick (valid : Bool) (f : Form) : Form :=
  if f.busy then f
  -- `DisconnectAsync`, whose `IsConnected` is asked right after this one
  else if f.connected then ({ f with busy := true }.updateUiState).await .bye
  else if !valid then f.touch
  else
    ({ ({ f with busy := true }.setLed .connecting).updateUiState with
      cts := some f.tokens, tokens := f.tokens + 1 }).await (.connect f.tokens)

/-- The `finally` of `Btn_SOCKETConnect_Click`. -/
def connectFinally (f : Form) : Form :=
  let f := { f with busy := false }
  if f.isDisposed then f else f.updateUiState

/-- `Btn_SOCKETConnect_Click` with a connection, or an exception. -/
def connectEnd (failure : Option Failure) (f : Form) : Form :=
  match failure with
  | none =>
    -- `_conn` is assigned without a look at what it was
    let c := f.conns
    let f := { f with
      conn := some c, conns := c + 1, live := c :: f.live, lost := f.conn.toList ++ f.lost }
    if f.isDisposed then { f.disposeConn c with conn := none }.connectFinally
    else (f.setLed .connected).connectFinally
  | some .cancelled =>
    let f := f.dropConnection
    if f.isDisposed then f.connectFinally else f.touch.connectFinally
  | some _ =>
    let f := f.dropConnection
    if f.isDisposed then f.connectFinally else (f.setLed .failed).await .connectBox

/-- The `finally` of `DisconnectAsync`. -/
def byeEnd (f : Form) : Form :=
  let f := { f.dropConnection with busy := false }
  if f.isDisposed then f else (f.setLed .idle).updateUiState

/-- `Btn_Open_Click`, with the file that is picked, if one is. -/
def openClick (path : Option Bytes) (f : Form) : Form :=
  match path with
  | none => f
  | some path => { f with selectedFile := path }.updateUiState

/-- `Btn_Send_Click` up to its await. -/
def sendClick (f : Form) : Form :=
  if f.uploading || f.busy then f
  else match f.conn with
    | none => f.touch
    | some c =>
      if !f.isConnected c then f.touch
      else if f.selectedFile = [] then f.touch
      else
        ({ f with
          uploading := true
          uploadCts := some f.tokens
          tokens := f.tokens + 1 }.updateUiState).await (.upload c f.tokens)

/-- The `finally` of `Btn_Send_Click`. -/
def uploadFinally (f : Form) : Form :=
  -- no look at `IsDisposed`: a form that uploads is not closed
  let f := { f with uploading := false, uploadCts := none }.updateUiState
  if f.closeRequested then { f with posted := f.posted + 1 } else f

/-- `Btn_Send_Click` with a result, or an exception. -/
def uploadEnd (failure : Option Failure) (f : Form) : Form :=
  match failure with
  | none => f.touch.await .uploadBox
  -- here and below the connection is taken to be good, and kept
  | some .cancelled => f.touch.uploadFinally
  | some (.localFile _) => f.touch.await .uploadBox
  | some _ => f.touch.markConnectionLost.await .uploadBox

def cancelClick (f : Form) : Form :=
  match f.uploadCts with
  | none => f
  | some token => ({ f with cancelEnabled := false }.touch).cancel (some token)

/-- `Form1_FormClosing`, and the end of the form if it does not object. -/
def formClosing (f : Form) : Form :=
  if f.uploading then ({ f with closeRequested := true }.cancel f.uploadCts).touch
  else { (f.cancel f.cts).dropConnection with isDisposed := true }

def linkTick (dead : Bool) (f : Form) : Form :=
  match f.conn with
  | none => f
  | some c =>
    if f.busy || f.uploading then f
    else if c ∉ f.live || dead then f.touch.markConnectionLost
    else f

/-! ## The steps -/

inductive Event where
  | connectClick (valid : Bool)
  | connected (token : ℕ) (failure : Option Failure)
  | connectBoxClosed
  | byeSent
  | openClick (path : Option Bytes)
  | sendClick
  | reported (conn token : ℕ)
  | uploaded (conn token : ℕ) (failure : Option Failure)
  | uploadBoxClosed
  | cancelClick
  | closeClick
  | postedClose
  | linkTick (dead : Bool)
  | socketBroke (conn : ℕ)
  | connectionGaveUp (conn token : ℕ)
deriving DecidableEq, Repr

def resume (a : Await) (f : Form) : Form := { f with awaits := f.awaits.erase a }

def step (f : Form) : Event → Form
  | .connectClick valid => f.connectClick valid
  | .connected token failure => (f.resume (.connect token)).connectEnd failure
  | .connectBoxClosed => (f.resume .connectBox).connectFinally
  | .byeSent => (f.resume .bye).byeEnd
  | .openClick path => f.openClick path
  | .sendClick => f.sendClick
  | .reported _ _ => f.touch
  | .uploaded conn token failure => (f.resume (.upload conn token)).uploadEnd failure
  | .uploadBoxClosed => (f.resume .uploadBox).uploadFinally
  | .cancelClick => f.cancelClick
  | .closeClick => f.formClosing
  | .postedClose =>
    let f := { f with posted := f.posted - 1 }
    if f.isDisposed then f else f.formClosing
  | .linkTick dead => f.linkTick dead
  | .socketBroke conn => { f with broken := conn :: f.broken }
  | .connectionGaveUp conn _ => f.disposeConn conn

/-- A button is pressed only if it is enabled, the form is there, and no message box is over it. -/
def clickable (f : Form) (enabled : Bool) : Bool :=
  enabled && !f.isDisposed && .connectBox ∉ f.awaits && .uploadBox ∉ f.awaits

/-- What may come. What an upload reports is posted before its end is, and comes before it. -/
def Offered (f : Form) : Event → Prop
  | .connectClick _ => f.clickable f.connectEnabled
  | .connected token _ => .connect token ∈ f.awaits
  | .connectBoxClosed => .connectBox ∈ f.awaits
  | .byeSent => .bye ∈ f.awaits
  | .openClick _ => f.clickable f.openEnabled
  | .sendClick => f.clickable f.sendEnabled
  | .reported conn token => .upload conn token ∈ f.awaits
  | .uploaded conn token _ => .upload conn token ∈ f.awaits
  | .uploadBoxClosed => .uploadBox ∈ f.awaits
  | .cancelClick => f.clickable f.cancelEnabled
  | .closeClick => f.isDisposed = false
  | .postedClose => 0 < f.posted
  | .linkTick _ => f.isDisposed = false
  | .socketBroke conn => conn ∈ f.live
  | .connectionGaveUp conn token => .upload conn token ∈ f.awaits

instance (f : Form) : (event : Event) → Decidable (f.Offered event)
  | .connectClick _ | .openClick _ | .sendClick | .cancelClick =>
    inferInstanceAs (Decidable (_ = true))
  | .connected _ _ | .connectBoxClosed | .byeSent | .reported _ _ | .uploaded _ _ _
  | .uploadBoxClosed | .connectionGaveUp _ _ => inferInstanceAs (Decidable (_ ∈ f.awaits))
  | .closeClick | .linkTick _ => inferInstanceAs (Decidable (f.isDisposed = false))
  | .postedClose => inferInstanceAs (Decidable (0 < f.posted))
  | .socketBroke _ => inferInstanceAs (Decidable (_ ∈ f.live))

/-- The form, and what happens to it. -/
def system : System Form Event := ⟨{}, step, Offered⟩

instance (f : Form) (event : Event) : Decidable (system.offers f event) :=
  inferInstanceAs (Decidable (f.Offered event))

/-! ## On a form that is there, and on one that is not -/

/-- `idle` in `UpdateUiState`. -/
def idle (f : Form) : Bool := !f.busy && !f.uploading

/-- The connections that are left when the one that is held is disposed. -/
def left (f : Form) : List ℕ := f.live.filter fun c ↦ f.conn ≠ some c

variable {f : Form}

theorem touch_of_there (h : f.isDisposed = false) : f.touch = f :=
  congrArg (fun touched ↦ { f with touched := touched }) (by rw [h, Bool.or_false])

theorem setLed_of_there (h : f.isDisposed = false) (state : LedState) :
    f.setLed state = { f with ledState := state } := touch_of_there h

theorem updateUiState_of_there (h : f.isDisposed = false) :
    f.updateUiState = { f with
      connectEnabled := f.idle
      openEnabled := f.idle
      sendEnabled := f.connected && f.selectedFile ≠ [] && f.idle
      cancelEnabled := f.uploading } := touch_of_there h

theorem closeConn_eq (f : Form) : f.closeConn = { f with conn := none, live := f.left } := by
  rw [closeConn, left]
  split
  · rename_i c hconn
    have hleft : f.live.filter (· ≠ c) = f.live.filter fun d ↦ f.conn ≠ some d := by
      simp [hconn, eq_comm]
    exact congrArg (fun live ↦ { f with conn := none, live := live }) hleft
  · rename_i hconn
    have hleft : f.live = f.live.filter fun d ↦ f.conn ≠ some d := by simp [hconn]
    exact congrArg₂ (fun conn live ↦ { f with conn := conn, live := live }) hconn hleft

theorem dropConnection_of_gone (h : f.isDisposed = true) :
    f.dropConnection = { f with conn := none, cts := none, live := f.left } := by
  rw [dropConnection, closeConn_eq]
  exact if_pos h

theorem dropConnection_of_there (h : f.isDisposed = false) : f.dropConnection
    = { f with conn := none, cts := none, live := f.left, ledState := .idle } := by
  rw [dropConnection, closeConn_eq]
  refine (if_neg (by simp [h])).trans ?_
  exact setLed_of_there (f := { f with conn := none, cts := none, live := f.left }) h _

theorem markConnectionLost_of_there (h : f.isDisposed = false) {c : ℕ} (hconn : f.conn = some c) :
    f.markConnectionLost = { f with
      conn := none, cts := none, live := f.left, ledState := .failed
      connectEnabled := f.idle
      openEnabled := f.idle
      sendEnabled := false
      cancelEnabled := f.uploading } := by
  rw [markConnectionLost, if_neg (by simp [hconn]), touch_of_there h, dropConnection_of_there h,
    setLed_of_there, updateUiState_of_there]
  · rfl
  · exact h
  · exact h

theorem mem_left {c : ℕ} : c ∈ f.left ↔ c ∈ f.live ∧ f.conn ≠ some c := by
  rw [left, List.mem_filter, decide_eq_true_eq]

theorem isConnected_iff {c : ℕ} : f.isConnected c = true ↔ c ∈ f.live ∧ c ∉ f.broken := by
  rw [isConnected, Bool.and_eq_true, decide_eq_true_eq, decide_eq_true_eq]

theorem connected_iff :
    f.connected = true ↔ ∃ c, f.conn = some c ∧ f.isConnected c = true := Option.any_eq_true _ _

theorem idle_iff : f.idle = true ↔ f.busy = false ∧ f.uploading = false := by
  rw [idle, Bool.and_eq_true, Bool.not_eq_true', Bool.not_eq_true']

theorem enabled_of_clickable {enabled : Bool} (h : f.clickable enabled = true) :
    enabled = true := by
  rw [clickable, Bool.and_assoc, Bool.and_assoc] at h
  exact (Bool.and_eq_true_iff.mp h).1

/-! ## What is so in every run -/

/-- What goes on, on a form that is there: at most one handler waits, and the fields say which. -/
inductive Doing (f : Form) : Prop where
  | nothing (awaits : f.awaits = []) (busy : f.busy = false) (uploading : f.uploading = false)
  | connecting {token} (awaits : f.awaits = [.connect token]) (busy : f.busy = true)
    (uploading : f.uploading = false) (token : f.cts = some token) (led : f.ledState = .connecting)
    (offline : f.connected = false)
  | failing (awaits : f.awaits = [.connectBox]) (busy : f.busy = true)
    (uploading : f.uploading = false)
  | leaving (awaits : f.awaits = [.bye]) (busy : f.busy = true) (uploading : f.uploading = false)
  | uploading {conn token} (awaits : f.awaits = [.upload conn token]) (busy : f.busy = false)
    (uploading : f.uploading = true) (conn : f.conn = some conn) (token : f.uploadCts = some token)
  | telling (awaits : f.awaits = [.uploadBox]) (busy : f.busy = false)
    (uploading : f.uploading = true)

/-- The buttons are as `UpdateUiState` left them, or still less is enabled. -/
structure Buttons (f : Form) : Prop where
  connect : f.connectEnabled = f.idle
  openFile : f.openEnabled = f.idle
  send : f.sendEnabled = true → f.idle = true
  cancel : f.cancelEnabled = true → f.uploading = true

/-- A form that is there, whatever its buttons are. -/
structure Steady (f : Form) : Prop where
  there : f.isDisposed = false
  doing : f.Doing
  untouched : f.touched = false
  asked : f.closeRequested = true → 0 < f.posted ∨
    f.uploading = true ∧ ∀ conn token, .upload conn token ∈ f.awaits → token ∈ f.cancelled
  led : (∀ token, .connect token ∉ f.awaits) → (f.ledState = .connected ↔ f.conn ≠ none)
  held : ∀ c ∈ f.live, f.conn = some c ∨ c ∈ f.lost ∧ c ∈ f.broken

/-- A form that is there. -/
structure There (f : Form) : Prop extends Steady f where
  buttons : f.Buttons

/-- What may still be waited for when the form is gone: a connect was told to stop. -/
inductive Fading (cancelled : List ℕ) : List Await → Prop where
  | nothing : Fading cancelled []
  | connecting {token} (told : token ∈ cancelled) : Fading cancelled [.connect token]
  | failing : Fading cancelled [.connectBox]
  | leaving : Fading cancelled [.bye]

/-- A form that was closed. -/
structure Gone (f : Form) : Prop where
  gone : f.isDisposed = true
  fading : Fading f.cancelled f.awaits
  untouched : f.touched = false
  conn : f.conn = none
  uploading : f.uploading = false
  held : ∀ c ∈ f.live, c ∈ f.lost ∧ c ∈ f.broken

/-- The form as it is in every run. -/
def Sound (f : Form) : Prop := f.There ∨ f.Gone

/-- What goes on depends on a few of the fields. -/
theorem Doing.of_same {g : Form} (h : f.Doing) (awaits : g.awaits = f.awaits)
    (busy : g.busy = f.busy) (uploading : g.uploading = f.uploading) (conn : g.conn = f.conn)
    (cts : g.cts = f.cts) (uploadCts : g.uploadCts = f.uploadCts) (led : g.ledState = f.ledState)
    (offline : f.connected = false → g.connected = false) : g.Doing := by
  cases h with
  | nothing hawaits hbusy hup => exact .nothing (awaits ▸ hawaits) (busy ▸ hbusy) (uploading ▸ hup)
  | connecting hawaits hbusy hup htoken hled hover =>
    exact .connecting (awaits ▸ hawaits) (busy ▸ hbusy) (uploading ▸ hup) (cts ▸ htoken)
      (led ▸ hled) (offline hover)
  | failing hawaits hbusy hup => exact .failing (awaits ▸ hawaits) (busy ▸ hbusy) (uploading ▸ hup)
  | leaving hawaits hbusy hup => exact .leaving (awaits ▸ hawaits) (busy ▸ hbusy) (uploading ▸ hup)
  | uploading hawaits hbusy hup hconn htoken =>
    exact .uploading (awaits ▸ hawaits) (busy ▸ hbusy) (uploading ▸ hup) (conn ▸ hconn)
      (uploadCts ▸ htoken)
  | telling hawaits hbusy hup => exact .telling (awaits ▸ hawaits) (busy ▸ hbusy) (uploading ▸ hup)

namespace Doing

theorem of_connect (h : f.Doing) {token : ℕ} (hmem : .connect token ∈ f.awaits) :
    f.awaits = [.connect token] ∧ f.busy = true ∧ f.uploading = false ∧ f.cts = some token ∧
      f.connected = false := by
  cases h with
  | connecting awaits busy uploading token _ offline =>
    rw [awaits, List.mem_singleton] at hmem
    rw [Await.connect.inj hmem]
    exact ⟨awaits, busy, uploading, token, offline⟩
  | nothing awaits | failing awaits | leaving awaits | uploading awaits | telling awaits =>
    simp [awaits] at hmem

theorem of_connectBox (h : f.Doing) (hmem : .connectBox ∈ f.awaits) :
    f.awaits = [.connectBox] ∧ f.uploading = false := by
  cases h with
  | failing awaits _ uploading => exact ⟨awaits, uploading⟩
  | nothing awaits | connecting awaits | leaving awaits | uploading awaits | telling awaits =>
    simp [awaits] at hmem

theorem of_bye (h : f.Doing) (hmem : .bye ∈ f.awaits) :
    f.awaits = [.bye] ∧ f.uploading = false := by
  cases h with
  | leaving awaits _ uploading => exact ⟨awaits, uploading⟩
  | nothing awaits | connecting awaits | failing awaits | uploading awaits | telling awaits =>
    simp [awaits] at hmem

theorem of_upload (h : f.Doing) {conn token : ℕ} (hmem : .upload conn token ∈ f.awaits) :
    f.awaits = [.upload conn token] ∧ f.busy = false ∧ f.uploading = true ∧ f.conn = some conn ∧
      f.uploadCts = some token := by
  cases h with
  | uploading awaits busy uploading conn token =>
    rw [awaits, List.mem_singleton] at hmem
    rw [(Await.upload.inj hmem).1, (Await.upload.inj hmem).2]
    exact ⟨awaits, busy, uploading, conn, token⟩
  | nothing awaits | connecting awaits | failing awaits | leaving awaits | telling awaits =>
    simp [awaits] at hmem

theorem of_uploadBox (h : f.Doing) (hmem : .uploadBox ∈ f.awaits) :
    f.awaits = [.uploadBox] ∧ f.busy = false ∧ f.uploading = true := by
  cases h with
  | telling awaits busy uploading => exact ⟨awaits, busy, uploading⟩
  | nothing awaits | connecting awaits | failing awaits | leaving awaits | uploading awaits =>
    simp [awaits] at hmem

end Doing

theorem resume_nil {a : Await} (h : f.awaits = [a]) : (f.resume a).awaits = [] := by
  simp [resume, h]

theorem Steady.update (h : f.Steady) : f.updateUiState.There := by
  rw [updateUiState_of_there h.there]
  refine ⟨⟨h.there, ?_, h.untouched, h.asked, h.led, h.held⟩,
    rfl, rfl, fun hsend ↦ (Bool.and_eq_true_iff.mp hsend).2, id⟩
  exact h.doing.of_same rfl rfl rfl rfl rfl rfl rfl id

/-- A form on which a connect or a disconnect ends. -/
theorem Steady.connectFinally (there : f.isDisposed = false) (awaits : f.awaits = [])
    (uploading : f.uploading = false) (untouched : f.touched = false)
    (posted : f.closeRequested = true → 0 < f.posted)
    (led : f.ledState = .connected ↔ f.conn ≠ none)
    (held : ∀ c ∈ f.live, f.conn = some c ∨ c ∈ f.lost ∧ c ∈ f.broken) :
    f.connectFinally.There := by
  have hupdate : f.connectFinally = { f with busy := false }.updateUiState :=
    if_neg (by simp [there])
  rw [hupdate]
  refine Steady.update (f := { f with busy := false })
    ⟨there, ?_, untouched, fun hasked ↦ .inl (posted hasked), fun _ ↦ led, held⟩
  exact .nothing awaits rfl uploading

/-- A form on which an upload ends. A close that was asked for is posted. -/
theorem Steady.uploadFinally (there : f.isDisposed = false) (awaits : f.awaits = [])
    (busy : f.busy = false) (untouched : f.touched = false)
    (led : f.ledState = .connected ↔ f.conn ≠ none)
    (held : ∀ c ∈ f.live, f.conn = some c ∨ c ∈ f.lost ∧ c ∈ f.broken) : f.uploadFinally.There := by
  cases hasked : f.closeRequested with
  | true =>
    have hposted : f.uploadFinally = { f with
        uploading := false, uploadCts := none, posted := f.posted + 1 }.updateUiState :=
      if_pos hasked
    rw [hposted]
    refine Steady.update ⟨there, ?_, untouched, fun _ ↦ .inl (Nat.succ_pos _), fun _ ↦ led, held⟩
    exact .nothing awaits busy rfl
  | false =>
    have hnothing : f.uploadFinally = { f with
        uploading := false, uploadCts := none }.updateUiState :=
      if_neg (by rw [Bool.not_eq_true]; exact hasked)
    rw [hnothing]
    refine Steady.update ⟨there, ?_, untouched, fun h ↦ absurd (hasked.symm.trans h) (by simp),
      fun _ ↦ led, held⟩
    exact .nothing awaits busy rfl

namespace There

theorem idle_iff (h : f.There) : f.idle = true ↔ f.awaits = [] := by
  rw [Form.idle_iff]
  cases h.doing with
  | nothing awaits busy uploading => simp [awaits, busy, uploading]
  | connecting awaits busy => simp [awaits, busy]
  | failing awaits busy => simp [awaits, busy]
  | leaving awaits busy => simp [awaits, busy]
  | uploading awaits _ uploading => simp [awaits, uploading]
  | telling awaits _ uploading => simp [awaits, uploading]

/-- Nothing is waited for when a button is pressed that is there to begin something. -/
theorem nothing_of_idle (h : f.There) (hidle : f.idle = true) :
    f.awaits = [] ∧ f.busy = false ∧ f.uploading = false :=
  ⟨h.idle_iff.mp hidle, Form.idle_iff.mp hidle⟩

/-- A request to close that nothing is doing anything about is one that is posted. -/
theorem posted_of_asked (h : f.There) (huploading : f.uploading = false)
    (hasked : f.closeRequested = true) : 0 < f.posted :=
  (h.asked hasked).resolve_right fun hup ↦ absurd (hup.1.symm.trans huploading) (by simp)

theorem connectClick (h : f.There) (hidle : f.idle = true) (valid : Bool) :
    (f.connectClick valid).There := by
  obtain ⟨hawaits, hbusy, huploading⟩ := h.nothing_of_idle hidle
  have hled := h.led (by simp [hawaits])
  rw [Form.connectClick, if_neg (by simp [hbusy])]
  split_ifs with hconnected hvalid
  · refine Steady.update (f := { f with busy := true }.await .bye) ⟨h.there, ?_, h.untouched,
      fun hasked ↦ .inl (h.posted_of_asked huploading hasked), fun _ ↦ hled, h.held⟩
    exact .leaving (congrArg _ hawaits) rfl huploading
  · rw [touch_of_there h.there]
    exact h
  · rw [setLed_of_there (f := { f with busy := true }) h.there]
    refine Steady.update (f := { f with
      busy := true, ledState := .connecting, cts := some f.tokens
      tokens := f.tokens + 1 }.await (.connect f.tokens)) ⟨h.there, ?_, h.untouched,
      fun hasked ↦ .inl (h.posted_of_asked huploading hasked), fun hnone ↦ ?_, h.held⟩
    · exact .connecting (congrArg _ hawaits) rfl huploading rfl rfl
        (Bool.not_eq_true _ ▸ hconnected)
    · exact absurd List.mem_cons_self (hnone f.tokens)

theorem sendClick (h : f.There) (hidle : f.idle = true) : f.sendClick.There := by
  obtain ⟨hawaits, hbusy, huploading⟩ := h.nothing_of_idle hidle
  have hled := h.led (by simp [hawaits])
  have hsame : f.touch.There := by
    rw [touch_of_there h.there]
    exact h
  rw [Form.sendClick, if_neg (by simp [hbusy, huploading])]
  split
  · exact hsame
  · rename_i c hconn
    split_ifs
    · exact hsame
    · exact hsame
    refine Steady.update (f := { f with
      uploading := true, uploadCts := some f.tokens
      tokens := f.tokens + 1 }.await (.upload c f.tokens)) ⟨h.there, ?_, h.untouched,
      fun hasked ↦ .inl (h.posted_of_asked huploading hasked), fun _ ↦ hled, h.held⟩
    exact .uploading (congrArg _ hawaits) hbusy rfl hconn rfl

theorem openClick (h : f.There) (hidle : f.idle = true) (path : Option Bytes) :
    (f.openClick path).There := by
  obtain ⟨hawaits, hbusy, huploading⟩ := h.nothing_of_idle hidle
  cases path with
  | none => exact h
  | some path =>
    refine Steady.update (f := { f with selectedFile := path }) ⟨h.there, ?_, h.untouched, h.asked,
      h.led, h.held⟩
    exact .nothing hawaits hbusy huploading

/-- What is left when the connection that is held is disposed was lost before. -/
theorem lost_of_left (h : f.There) {c : ℕ} (hmem : c ∈ f.left) : c ∈ f.lost ∧ c ∈ f.broken :=
  (h.held c (mem_left.mp hmem).1).resolve_left (mem_left.mp hmem).2

/-- The end of a connect, on a form that is there to see it. -/
theorem connectEnd (h : f.There) {token : ℕ} (hmem : .connect token ∈ f.awaits)
    (failure : Option Failure) : ((f.resume (.connect token)).connectEnd failure).There := by
  obtain ⟨hawaits, hbusy, huploading, -, hover⟩ := h.doing.of_connect hmem
  have hnil := resume_nil hawaits
  have hposted := h.posted_of_asked huploading
  have hthere : (f.resume (.connect token)).isDisposed = false := h.there
  rw [Form.connectEnd.eq_def]
  split
  · dsimp only
    rw [if_neg (by simp [hthere])]
    rw [setLed_of_there]
    swap
    · exact h.there
    refine Steady.connectFinally h.there hnil huploading h.untouched hposted
      (iff_of_true rfl (by simp)) fun c hc ↦ ?_
    -- what was held is not connected, so it broke, and is lost now
    obtain rfl | hlive := List.mem_cons.mp hc
    · exact .inl rfl
    · refine .inr ((h.held c hlive).elim (fun hconn ↦ ?_) fun hlost ↦
        ⟨List.mem_append_right _ hlost.1, hlost.2⟩)
      refine ⟨List.mem_append_left _ (Option.mem_toList.mpr hconn), not_not.mp fun hnot ↦ ?_⟩
      have hconnected := connected_iff.mpr ⟨c, hconn, isConnected_iff.mpr ⟨hlive, hnot⟩⟩
      exact absurd (hconnected.symm.trans hover) (by simp)
  · dsimp only
    rw [dropConnection_of_there hthere]
    rw [if_neg (by simp [hthere]), touch_of_there]
    swap
    · exact h.there
    exact Steady.connectFinally h.there hnil huploading h.untouched hposted
      (iff_of_false (by simp) (by simp)) fun c hc ↦ .inr (h.lost_of_left hc)
  · dsimp only
    rw [dropConnection_of_there hthere]
    rw [if_neg (by simp [hthere]), setLed_of_there]
    swap
    · exact h.there
    refine ⟨⟨h.there, ?_, h.untouched, fun hasked ↦ .inl (hposted hasked),
      fun _ ↦ iff_of_false (by simp [await]) (by simp [await]),
      fun c hc ↦ .inr (h.lost_of_left hc)⟩, ?_⟩
    · exact .failing (congrArg _ hnil) hbusy huploading
    · exact ⟨h.buttons.connect, h.buttons.openFile, h.buttons.send, h.buttons.cancel⟩

theorem connectBoxClosed (h : f.There) (hmem : .connectBox ∈ f.awaits) :
    (f.resume .connectBox).connectFinally.There := by
  obtain ⟨hawaits, huploading⟩ := h.doing.of_connectBox hmem
  exact Steady.connectFinally h.there (resume_nil hawaits) huploading h.untouched
    (h.posted_of_asked huploading) (h.led (by simp [hawaits])) h.held

theorem byeEnd (h : f.There) (hmem : .bye ∈ f.awaits) : (f.resume .bye).byeEnd.There := by
  obtain ⟨hawaits, huploading⟩ := h.doing.of_bye hmem
  have hthere : (f.resume .bye).isDisposed = false := h.there
  rw [Form.byeEnd, dropConnection_of_there hthere]
  dsimp only
  rw [if_neg (by simp [hthere]), setLed_of_there]
  swap
  · exact h.there
  refine Steady.update ⟨h.there, ?_, h.untouched,
    fun hasked ↦ .inl (h.posted_of_asked huploading hasked),
    fun _ ↦ iff_of_false (by simp) (by simp),
    fun c hc ↦ .inr (h.lost_of_left hc)⟩
  exact .nothing (resume_nil hawaits) rfl huploading

theorem uploadEnd (h : f.There) {conn token : ℕ} (hmem : .upload conn token ∈ f.awaits)
    (failure : Option Failure) : ((f.resume (.upload conn token)).uploadEnd failure).There := by
  obtain ⟨hawaits, hbusy, huploading, hconn, -⟩ := h.doing.of_upload hmem
  have hnil := resume_nil hawaits
  have hled := h.led (by simp [hawaits])
  have hthere : (f.resume (.upload conn token)).isDisposed = false := h.there
  have hbox : ((f.resume (.upload conn token)).touch.await .uploadBox).There := by
    rw [touch_of_there hthere]
    refine ⟨⟨h.there, .telling (congrArg _ hnil) hbusy huploading, h.untouched, fun _ ↦
      .inr ⟨huploading, by simp [Form.await, hnil]⟩, fun _ ↦ hled, h.held⟩, ?_⟩
    exact ⟨h.buttons.connect, h.buttons.openFile, h.buttons.send, h.buttons.cancel⟩
  rw [Form.uploadEnd.eq_def]
  split
  · exact hbox
  · rw [touch_of_there hthere]
    exact Steady.uploadFinally hthere hnil hbusy h.untouched hled h.held
  · exact hbox
  · rw [touch_of_there hthere, markConnectionLost_of_there hthere hconn]
    refine ⟨⟨h.there, .telling (congrArg _ hnil) hbusy huploading, h.untouched, fun _ ↦
      .inr ⟨huploading, by simp [Form.await, hnil]⟩, fun _ ↦ iff_of_false (by simp [Form.await])
      (by simp [Form.await]), fun c hc ↦ .inr (h.lost_of_left hc)⟩, ?_⟩
    exact ⟨rfl, rfl, by simp [Form.await], id⟩

theorem uploadBoxClosed (h : f.There) (hmem : .uploadBox ∈ f.awaits) :
    (f.resume .uploadBox).uploadFinally.There := by
  obtain ⟨hawaits, hbusy, -⟩ := h.doing.of_uploadBox hmem
  exact Steady.uploadFinally h.there (resume_nil hawaits) hbusy h.untouched
    (h.led (by simp [hawaits])) h.held

theorem cancelClick (h : f.There) : f.cancelClick.There := by
  rw [Form.cancelClick.eq_def]
  split
  · exact h
  · rename_i token htoken
    rw [touch_of_there]
    swap
    · exact h.there
    refine ⟨⟨h.there, h.doing.of_same rfl rfl rfl rfl rfl rfl rfl id, h.untouched, fun hasked ↦
      (h.asked hasked).imp_right fun hup ↦ ⟨hup.1, fun conn t hmem ↦
        List.mem_append_right _ (hup.2 conn t hmem)⟩, h.led, h.held⟩, ?_⟩
    exact ⟨h.buttons.connect, h.buttons.openFile, h.buttons.send, by simp [Form.cancel]⟩

/-- The line is looked after while nothing else goes on. -/
theorem linkTick (h : f.There) (dead : Bool) : (f.linkTick dead).There := by
  rw [Form.linkTick.eq_def]
  split
  · exact h
  · rename_i c hconn
    split_ifs with hidle
    · exact h
    · have hnothing : f.idle = true := by
        rw [Form.idle_iff]
        simpa using hidle
      obtain ⟨hawaits, hbusy, huploading⟩ := h.nothing_of_idle hnothing
      rw [touch_of_there h.there, markConnectionLost_of_there h.there hconn]
      refine ⟨⟨h.there, .nothing hawaits hbusy huploading, h.untouched, h.asked,
        fun _ ↦ iff_of_false (by simp) (by simp),
        fun c hc ↦ .inr (h.lost_of_left hc)⟩, ?_⟩
      exact ⟨rfl, rfl, by simp, id⟩
    · exact h

/-- A connection is disposed, or breaks. -/
theorem fewer (h : f.There) {live broken : List ℕ} (hlive : live ⊆ f.live)
    (hbroken : f.broken ⊆ broken) : { f with live := live, broken := broken }.There := by
  have hconnected : f.connected = false →
      { f with live := live, broken := broken }.connected = false := by
    rw [← Bool.not_eq_true, ← Bool.not_eq_true, not_imp_not, connected_iff, connected_iff]
    rintro ⟨c, hconn, hc⟩
    obtain ⟨hc, hnot⟩ := isConnected_iff.mp hc
    exact ⟨c, hconn, isConnected_iff.mpr ⟨hlive hc, fun hmem ↦ hnot (hbroken hmem)⟩⟩
  refine ⟨⟨h.there, h.doing.of_same rfl rfl rfl rfl rfl rfl rfl hconnected, h.untouched, h.asked,
    h.led, fun c hc ↦ (h.held c (hlive hc)).imp_right fun hlost ↦ ⟨hlost.1, hbroken hlost.2⟩⟩, ?_⟩
  exact ⟨h.buttons.connect, h.buttons.openFile, h.buttons.send, h.buttons.cancel⟩

/-- The window is closed, or the upload is told to stop, whatever else is posted. -/
theorem formClosing (h : f.There) (posted : ℕ) :
    { f with posted := posted }.formClosing.Sound := by
  rw [Form.formClosing]
  split_ifs with huploading
  · -- the answer is no, but the upload is told
    rw [touch_of_there]
    swap
    · exact h.there
    refine .inl ⟨⟨h.there, h.doing.of_same rfl rfl rfl rfl rfl rfl rfl id, h.untouched, fun _ ↦
      .inr ⟨huploading, fun conn token hmem ↦ ?_⟩, h.led, h.held⟩, ?_⟩
    · obtain ⟨-, -, -, -, htoken⟩ := h.doing.of_upload hmem
      exact List.mem_append_left _ (by simp [htoken])
    · exact ⟨h.buttons.connect, h.buttons.openFile, h.buttons.send, h.buttons.cancel⟩
  · rw [dropConnection_of_there]
    swap
    · exact h.there
    refine .inr ⟨rfl, ?_, h.untouched, rfl, Bool.not_eq_true _ ▸ huploading,
      fun c hc ↦ h.lost_of_left hc⟩
    show Fading (f.cts.toList ++ f.cancelled) f.awaits
    cases h.doing with
    | nothing awaits => exact awaits ▸ .nothing
    | connecting awaits _ _ token =>
      rw [awaits, token]
      exact .connecting List.mem_cons_self
    | failing awaits => exact awaits ▸ .failing
    | leaving awaits => exact awaits ▸ .leaving
    | uploading _ _ uploading => exact absurd uploading huploading
    | telling _ _ uploading => exact absurd uploading huploading

end There

/-! ## The form when it is gone -/

namespace Gone

/-- Something goes on after the form was closed. -/
theorem keep {g : Form} (h : f.Gone) (gone : g.isDisposed = true)
    (fading : Fading g.cancelled g.awaits) (touched : g.touched = f.touched) (conn : g.conn = none)
    (uploading : g.uploading = f.uploading) (live : g.live ⊆ f.live) (lost : f.lost ⊆ g.lost)
    (broken : f.broken ⊆ g.broken) : g.Gone :=
  ⟨gone, fading, touched.trans h.untouched, conn, uploading.trans h.uploading,
    fun c hc ↦ (h.held c (live hc)).imp (fun hmem ↦ lost hmem) fun hmem ↦ broken hmem⟩

/-- A handler comes back after the form was closed. -/
theorem rest {g : Form} (h : f.Gone) (gone : g.isDisposed = true) (awaits : g.awaits = [])
    (touched : g.touched = f.touched) (conn : g.conn = none) (uploading : g.uploading = f.uploading)
    (live : g.live ⊆ f.live) (lost : f.lost ⊆ g.lost) (broken : g.broken = f.broken) : g.Gone :=
  h.keep gone (awaits ▸ .nothing) touched conn uploading live lost (broken ▸ List.Subset.refl _)

theorem left_subset : f.left ⊆ f.live := fun _ hmem ↦ (mem_left.mp hmem).1

theorem awaits_eq (h : f.Gone) {a : Await} (hmem : a ∈ f.awaits) :
    f.awaits = [a] ∧ (a = .bye ∨ a = .connectBox ∨ ∃ token, a = .connect token) := by
  have hfading := h.fading
  revert hmem hfading
  generalize f.awaits = awaits
  rintro hmem (_ | _ | _ | _)
  · exact absurd hmem List.not_mem_nil
  all_goals
    obtain rfl := List.mem_singleton.mp hmem
    simp

theorem awaits_nil (h : f.Gone) {a : Await} (hmem : a ∈ f.awaits) : (f.resume a).awaits = [] :=
  resume_nil (h.awaits_eq hmem).1

theorem not_upload (h : f.Gone) {conn token : ℕ} : .upload conn token ∉ f.awaits :=
  fun hmem ↦ absurd (h.awaits_eq hmem).2 (by simp)

theorem not_uploadBox (h : f.Gone) : .uploadBox ∉ f.awaits :=
  fun hmem ↦ absurd (h.awaits_eq hmem).2 (by simp)

theorem connectFinally (h : f.isDisposed = true) :
    f.connectFinally = { f with busy := false } := if_pos h

theorem connectEnd (h : f.Gone) {a : Await} (hmem : a ∈ f.awaits) (failure : Option Failure) :
    ((f.resume a).connectEnd failure).Gone := by
  have hnil := h.awaits_nil hmem
  have hgone : (f.resume a).isDisposed = true := h.gone
  rw [Form.connectEnd.eq_def]
  split
  · dsimp only
    rw [if_pos hgone, connectFinally]
    swap
    · exact hgone
    refine h.rest hgone hnil rfl rfl rfl (fun c hc ↦ ?_) (List.subset_append_right _ _) rfl
    obtain ⟨hc, hne⟩ := List.mem_filter.mp hc
    exact (List.mem_cons.mp hc).resolve_left (by simpa using hne)
  · dsimp only
    rw [dropConnection_of_gone hgone]
    dsimp only
    rw [if_pos hgone, connectFinally]
    swap
    · exact hgone
    exact h.rest hgone hnil rfl rfl rfl left_subset (List.Subset.refl _) rfl
  · dsimp only
    rw [dropConnection_of_gone hgone]
    dsimp only
    rw [if_pos hgone, connectFinally]
    swap
    · exact hgone
    exact h.rest hgone hnil rfl rfl rfl left_subset (List.Subset.refl _) rfl

theorem byeEnd (h : f.Gone) {a : Await} (hmem : a ∈ f.awaits) : (f.resume a).byeEnd.Gone := by
  have hgone : (f.resume a).isDisposed = true := h.gone
  rw [Form.byeEnd, dropConnection_of_gone hgone]
  dsimp only
  rw [if_pos hgone]
  exact h.rest hgone (h.awaits_nil hmem) rfl rfl rfl left_subset (List.Subset.refl _) rfl

theorem step {event : Event} (h : f.Gone) (offered : f.Offered event) : (f.step event).Gone := by
  have hthere : f.isDisposed ≠ false := by simp [h.gone]
  have hunclickable {enabled : Bool} : f.clickable enabled ≠ true := by simp [clickable, h.gone]
  cases event with
  | connectClick valid => exact absurd offered hunclickable
  | connected token failure => exact h.connectEnd offered failure
  | connectBoxClosed =>
    rw [Form.step, connectFinally]
    swap
    · exact h.gone
    exact h.rest h.gone (h.awaits_nil offered) rfl h.conn rfl (List.Subset.refl _)
      (List.Subset.refl _) rfl
  | byeSent => exact h.byeEnd offered
  | openClick path => exact absurd offered hunclickable
  | sendClick => exact absurd offered hunclickable
  | reported conn token => exact absurd offered h.not_upload
  | uploaded conn token failure => exact absurd offered h.not_upload
  | uploadBoxClosed => exact absurd offered h.not_uploadBox
  | cancelClick => exact absurd offered hunclickable
  | closeClick => exact absurd offered hthere
  | postedClose =>
    rw [Form.step]
    dsimp only
    rw [if_pos h.gone]
    exact h.keep h.gone h.fading rfl h.conn rfl (List.Subset.refl _) (List.Subset.refl _)
      (List.Subset.refl _)
  | linkTick dead => exact absurd offered hthere
  | socketBroke c =>
    exact h.keep h.gone h.fading rfl h.conn rfl (List.Subset.refl _) (List.Subset.refl _)
      (List.subset_cons_self _ _)
  | connectionGaveUp c token => exact absurd offered h.not_upload

end Gone

theorem There.step {event : Event} (h : f.There) (offered : f.Offered event) :
    (f.step event).Sound := by
  have hidle {enabled : Bool} (heq : enabled = f.idle) (hclick : f.clickable enabled = true) :
      f.idle = true := heq.symm.trans (enabled_of_clickable hclick)
  cases event with
  | connectClick valid => exact .inl (h.connectClick (hidle h.buttons.connect offered) valid)
  | connected token failure => exact .inl (h.connectEnd offered failure)
  | connectBoxClosed => exact .inl (h.connectBoxClosed offered)
  | byeSent => exact .inl (h.byeEnd offered)
  | openClick path => exact .inl (h.openClick (hidle h.buttons.openFile offered) path)
  | sendClick => exact .inl (h.sendClick (h.buttons.send (enabled_of_clickable offered)))
  | reported conn token =>
    rw [Form.step, touch_of_there h.there]
    exact .inl h
  | uploaded conn token failure => exact .inl (h.uploadEnd offered failure)
  | uploadBoxClosed => exact .inl (h.uploadBoxClosed offered)
  | cancelClick => exact .inl h.cancelClick
  | closeClick => exact h.formClosing f.posted
  | postedClose =>
    rw [Form.step]
    dsimp only
    rw [if_neg (by simp [h.there])]
    exact h.formClosing _
  | linkTick dead => exact .inl (h.linkTick dead)
  | socketBroke c => exact .inl (h.fewer (List.Subset.refl _) (List.subset_cons_self _ _))
  | connectionGaveUp c token =>
    exact .inl (h.fewer (fun _ hmem ↦ List.mem_of_mem_filter hmem) (List.Subset.refl _))

private theorem sound_start : Sound system.start := by
  refine .inl ⟨⟨rfl, .nothing rfl rfl rfl, rfl, ?_, ?_, ?_⟩, rfl, rfl, ?_, ?_⟩
  all_goals simp [system]

/-- **In every run** the form is as it should be. -/
theorem sound_reaches (h : system.Reaches f) : f.Sound := by
  refine h.invariant sound_start fun _ hs offered ↦ ?_
  rcases hs with hthere | hgone
  · exact hthere.step offered
  · exact .inr (hgone.step offered)

/-! ## One thing at a time -/

/-- What those who use the form count on. -/
structure Orderly (f : Form) : Prop where
  single : f.awaits.length ≤ 1
  untouched : f.touched = false
  upload : ∀ conn token, .upload conn token ∈ f.awaits →
    f.conn = some conn ∧ f.uploadCts = some token ∧ f.isDisposed = false
  usable : f.isDisposed = false →
    (f.connectEnabled = true ↔ f.awaits = []) ∧ (f.openEnabled = true ↔ f.awaits = []) ∧
      (f.sendEnabled = true → f.awaits = [])
  stoppable : f.clickable f.cancelEnabled = true →
    ∃ conn token, .upload conn token ∈ f.awaits ∧ f.uploadCts = some token
  lamp : f.isDisposed = false → (∀ token, .connect token ∉ f.awaits) →
    (f.ledState = .connected ↔ f.conn ≠ none)
  closing : f.closeRequested = true → f.isDisposed = true ∨ 0 < f.posted ∨ .uploadBox ∈ f.awaits ∨
    ∃ conn token, .upload conn token ∈ f.awaits ∧ token ∈ f.cancelled
  closed : f.isDisposed = true →
    f.conn = none ∧ ∀ token, .connect token ∈ f.awaits → token ∈ f.cancelled

/-- While an upload is on, it is waited for, or its end is told. -/
theorem Doing.upload_of_uploading (h : f.Doing) (huploading : f.uploading = true) :
    .uploadBox ∈ f.awaits ∨
      ∃ conn token, .upload conn token ∈ f.awaits ∧ f.uploadCts = some token := by
  cases h with
  | uploading awaits _ _ _ token =>
    rw [awaits]
    exact .inr ⟨_, _, List.mem_cons_self, token⟩
  | telling awaits =>
    rw [awaits]
    exact .inl List.mem_cons_self
  | nothing _ _ uploading => exact absurd (uploading.symm.trans huploading) (by simp)
  | connecting _ _ uploading => exact absurd (uploading.symm.trans huploading) (by simp)
  | failing _ _ uploading => exact absurd (uploading.symm.trans huploading) (by simp)
  | leaving _ _ uploading => exact absurd (uploading.symm.trans huploading) (by simp)

theorem Doing.length_le (h : f.Doing) : f.awaits.length ≤ 1 := by
  cases h with
  | nothing awaits | connecting awaits | failing awaits | leaving awaits | uploading awaits
  | telling awaits => simp [awaits]

theorem There.orderly (h : f.There) : f.Orderly where
  single := h.doing.length_le
  untouched := h.untouched
  upload conn token hmem := by
    obtain ⟨-, -, -, hconn, htoken⟩ := h.doing.of_upload hmem
    exact ⟨hconn, htoken, h.there⟩
  usable _ := by
    rw [h.buttons.connect, h.buttons.openFile]
    exact ⟨h.idle_iff, h.idle_iff, fun hsend ↦ h.idle_iff.mp (h.buttons.send hsend)⟩
  stoppable hclick := by
    have hup := h.buttons.cancel (enabled_of_clickable hclick)
    refine (h.doing.upload_of_uploading hup).resolve_left ?_
    intro hbox
    simp [clickable, hbox] at hclick
  lamp _ := h.led
  closing hasked := by
    rcases h.asked hasked with hposted | ⟨hup, htold⟩
    · exact .inr (.inl hposted)
    rcases h.doing.upload_of_uploading hup with hbox | ⟨conn, token, hmem, -⟩
    · exact .inr (.inr (.inl hbox))
    · exact .inr (.inr (.inr ⟨conn, token, hmem, htold conn token hmem⟩))
  closed hgone := absurd (h.there.symm.trans hgone) (by simp)

theorem Gone.orderly (h : f.Gone) : f.Orderly where
  single := by
    cases hawaits : f.awaits with
    | nil => simp
    | cons a awaits =>
      have hmem : a ∈ f.awaits := hawaits ▸ List.mem_cons_self
      rw [← hawaits, (h.awaits_eq hmem).1]
      simp
  untouched := h.untouched
  upload conn token hmem := absurd hmem h.not_upload
  usable hthere := absurd (hthere.symm.trans h.gone) (by simp)
  stoppable hclick := by simp [clickable, h.gone] at hclick
  lamp hthere := absurd (hthere.symm.trans h.gone) (by simp)
  closing _ := .inl h.gone
  closed _ := by
    refine ⟨h.conn, fun token hmem ↦ ?_⟩
    have hfading := h.fading
    rw [(h.awaits_eq hmem).1] at hfading
    cases hfading with
    | connecting told => exact told

/-- **The handlers keep out of each other's way**, whatever is pressed and whenever what they wait
for comes: at most one of them waits, an upload runs on the connection that the form has, nothing
touches a form that is closed, the buttons are never left disabled, and a request to close is not
forgotten. -/
theorem orderly_reaches (h : system.Reaches f) : f.Orderly :=
  (sound_reaches h).elim There.orderly Gone.orderly

/-- The window is closed in the middle of an upload, and the upload finds out. -/
def closedAmid : List Event :=
  [.openClick (some (ascii "a.log")), .connectClick true, .connected 0 none, .sendClick,
    .closeClick, .uploaded 0 1 (some .cancelled), .postedClose]

theorem orderly_reaches_closedAmid :
    (system.run system.start closedAmid).isDisposed = true ∧
      (system.run system.start closedAmid).Orderly :=
  ⟨by decide, orderly_reaches (System.Reaches.start.run (by decide +kernel))⟩

/-! ## While an upload is on -/

/-- What the user does to stop an upload. -/
def Event.stops : Event → Bool
  | .cancelClick | .closeClick | .postedClose => true
  | _ => false

/-- What the end of an upload is, or has to do with. -/
def Event.ends (conn token : ℕ) : Event → Bool
  | .uploaded c t _ | .connectionGaveUp c t => c = conn && t = token
  | _ => false

/-- The upload is waited for, on a connection that is not disposed. -/
structure Uploading (conn token : ℕ) (f : Form) : Prop where
  awaits : .upload conn token ∈ f.awaits
  live : conn ∈ f.live

theorem Uploading.step {conn token : ℕ} (h : f.Uploading conn token) (hsound : f.Sound)
    {event : Event} (offered : f.Offered event) (hends : event.ends conn token = false) :
    (f.step event).Uploading conn token ∧
      (event.stops = false → (f.step event).cancelled = f.cancelled) := by
  obtain ⟨hmem, hlive⟩ := h
  obtain hthere | hgone := hsound
  swap
  · exact absurd hmem hgone.not_upload
  obtain ⟨hawaits, -, huploading, hconn, -⟩ := hthere.doing.of_upload hmem
  have hsame : f.Uploading conn token ∧ (event.stops = false → f.cancelled = f.cancelled) :=
    ⟨⟨hmem, hlive⟩, fun _ ↦ rfl⟩
  -- while a file is uploaded the form waits for nothing else, and its buttons are disabled
  have hbusy : f.idle ≠ true := by simp [idle, huploading]
  have hother {a : Await} (ha : a ∈ f.awaits) : a = .upload conn token :=
    List.mem_singleton.mp (hawaits ▸ ha)
  have hclosing (posted : ℕ) : { f with posted := posted }.formClosing.Uploading conn token := by
    rw [formClosing, if_pos huploading]
    exact ⟨hmem, hlive⟩
  -- only the end of this upload would change what is asked, and it is not the event
  cases event with
  | connectClick valid =>
    exact absurd (hthere.buttons.connect.symm.trans (enabled_of_clickable offered)) hbusy
  | openClick path =>
    exact absurd (hthere.buttons.openFile.symm.trans (enabled_of_clickable offered)) hbusy
  | sendClick => exact absurd (hthere.buttons.send (enabled_of_clickable offered)) hbusy
  | connected token' failure => exact absurd (hother offered) (by simp)
  | connectBoxClosed => exact absurd (hother offered) (by simp)
  | byeSent => exact absurd (hother offered) (by simp)
  | uploadBoxClosed => exact absurd (hother offered) (by simp)
  | uploaded c t failure =>
    obtain ⟨rfl, rfl⟩ := Await.upload.inj (hother offered)
    simp [Event.ends] at hends
  | connectionGaveUp c t =>
    obtain ⟨rfl, rfl⟩ := Await.upload.inj (hother offered)
    simp [Event.ends] at hends
  | reported c t =>
    rw [Form.step, touch_of_there hthere.there]
    exact hsame
  | linkTick dead =>
    rw [Form.step, linkTick, hconn]
    dsimp only
    rw [if_pos (by simp [huploading])]
    exact hsame
  | socketBroke c => exact ⟨⟨hmem, hlive⟩, fun _ ↦ rfl⟩
  | cancelClick =>
    refine ⟨?_, by simp [Event.stops]⟩
    rw [Form.step, cancelClick]
    split
    · exact ⟨hmem, hlive⟩
    · exact ⟨hmem, hlive⟩
  | closeClick => exact ⟨hclosing f.posted, by simp [Event.stops]⟩
  | postedClose =>
    refine ⟨?_, by simp [Event.stops]⟩
    rw [Form.step]
    dsimp only
    rw [if_neg (by simp [hthere.there])]
    exact hclosing _

/-- **While an upload is on**, whatever is pressed and whatever the timer finds, it is waited for
until it ends, the form keeps its connection and does not dispose it, and it is told to stop only by
the user. -/
theorem uploading_run (h : system.Reaches f) {conn token : ℕ} (hup : f.Uploading conn token)
    {events : List Event} (offers : system.Offers f events)
    (hends : ∀ e ∈ events, e.ends conn token = false) :
    (system.run f events).Uploading conn token ∧ (system.run f events).conn = some conn ∧
      ((∀ e ∈ events, e.stops = false) → (system.run f events).cancelled = f.cancelled) := by
  induction events generalizing f with
  | nil =>
    obtain hthere | hgone := sound_reaches h
    · obtain ⟨-, -, -, hconn, -⟩ := hthere.doing.of_upload hup.awaits
      exact ⟨hup, hconn, fun _ ↦ rfl⟩
    · exact absurd hup.awaits hgone.not_upload
  | cons e events ih =>
    rw [List.forall_mem_cons] at hends
    obtain ⟨hstep, hsame⟩ := hup.step (sound_reaches h) offers.1 hends.1
    obtain ⟨hrun, hconn, hrest⟩ := ih (h.step offers.1) hstep offers.2 hends.2
    refine ⟨hrun, hconn, fun hstops ↦ ?_⟩
    rw [List.forall_mem_cons] at hstops
    exact (hrest hstops.2).trans (hsame hstops.1)

/-- An upload over which the line breaks and the window is closed. -/
theorem uploading_run_closing : (system.run (system.run system.start (closedAmid.take 4))
      [.linkTick true, .socketBroke 0, .reported 0 1, .closeClick]).Uploading 0 1 :=
  (uploading_run (System.Reaches.start.run (by decide +kernel))
    ⟨by decide +kernel, by decide +kernel⟩ (by decide +kernel) (by decide)).1

/-! ## What is given back -/

/-- **Every connection that was made and not given back is the one that the form has**, but for
those that broke and were not yet noticed when another took their place. So a form that is closed
has none but these. -/
theorem held_reaches (h : system.Reaches f) :
    (∀ c ∈ f.live, f.conn = some c ∨ c ∈ f.lost ∧ c ∈ f.broken) ∧
      (f.isDisposed = true → ∀ c ∈ f.live, c ∈ f.lost ∧ c ∈ f.broken) := by
  rcases sound_reaches h with hthere | hgone
  · exact ⟨hthere.held, fun hgone ↦ absurd (hthere.there.symm.trans hgone) (by simp)⟩
  · exact ⟨fun c hc ↦ .inr (hgone.held c hc), fun _ ↦ hgone.held⟩

/-- An upload is cancelled on a line that is dead, and Connect is pressed before the timer looks. -/
def reconnected : List Event :=
  [.openClick (some (ascii "a.log")), .connectClick true, .connected 0 none, .sendClick,
    .cancelClick, .socketBroke 0, .uploaded 0 1 (some .cancelled), .connectClick true,
    .connected 2 none, .closeClick]

/-- The first connection is never given back. -/
theorem held_reaches_reconnected : (system.run system.start reconnected).live = [0] ∧
    ∀ c ∈ (system.run system.start reconnected).live,
      c ∈ (system.run system.start reconnected).lost ∧
        c ∈ (system.run system.start reconnected).broken :=
  ⟨by decide +kernel,
    (held_reaches (System.Reaches.start.run (by decide +kernel))).2 (by decide +kernel)⟩

end Form

end LoggerAnalyzer
