import LoggerAnalyzer.Stream.Program
import LoggerAnalyzer.Wire.Payload
import Mathlib.Data.Stream.Init

/-!
# The client's end of a connection

Both clients send and receive through a socket, read a clock, and look at a flag that another thread
sets to cancel. A `Link` is all of this: one function for each thing a client can ask for, over a
state of any type. A call on a socket that would block is made again; `pauses` says how often that
happens before a call goes through, and the flag is looked at each time. The other thread may set
it whenever it likes, so what it does may depend on where the client stands. So every moment at
which the flag can be set, and every way in which sends and receives can be cut, is the behaviour of
some link.

## The record

An `Endpoint` is the state of the link, what a client keeps of its own, and a record of what the
client did: the bytes that the socket took, the frames that were sent to their end, and where the
flag was seen. No function reads the record, and `mark` is only there to say where the client
stands.
-/

namespace LoggerAnalyzer

/-! ## The outside -/

/-- What a call of `send` comes to: the socket takes `more + 1` bytes, or all if there are fewer. -/
inductive SendAnswer where
  | took (more : ℕ)
  | stalled
  | failed (why : Bytes)
deriving DecidableEq, Repr

/-- What a call of `recv` comes to. -/
inductive RecvAnswer where
  | got (first : UInt8) (more : Bytes)
  | closed
  | idle
  | failed (why : Bytes)
deriving DecidableEq, Repr

/-- Where a client stands in an upload. -/
inductive Site where
  | beginSend
  | ackRead
  | chunkTop
  | chunkSend
  | drainRead
  | endSend
  | analysisTop
  | analysisRead
  | resultRead
deriving DecidableEq, Repr

structure Link (σ : Type) where
  flag : Site → σ → Bool × σ
  pauses : σ → ℕ × σ
  send : Bytes → σ → SendAnswer × σ
  recv : ℕ → σ → RecvAnswer × σ
  readable : σ → Bool × σ
  now : σ → ℕ × σ

/-! ## Failures -/

/-- Why a client gives up what it is doing. -/
inductive Failure where
  | cancelled
  | closed (got len : ℕ)
  | idle (ms : ℕ)
  | stalled (ms : ℕ)
  | sendFailed (why : Bytes)
  | recvFailed (why : Bytes)
  | refused (code : UInt16) (message : Bytes)
  | localFile (message : Bytes)
  | disposed
  | spent
deriving DecidableEq, Repr

/-! ## The record -/

/-- The flag was seen, with so many bytes of a frame written that was not sent to its end. -/
structure Notice where
  site : Site
  unfinished : ℕ
deriving DecidableEq, Repr

structure Endpoint (σ κ : Type) where
  outside : σ
  own : κ
  here : Site := .beginSend
  written : Bytes := []
  sent : List (MsgType × Bytes) := []
  noticed : List Notice := []

namespace Endpoint

variable {σ κ : Type}

/-- How many bytes were written that belong to no frame that was sent to its end. -/
def unfinished (e : Endpoint σ κ) : ℕ := e.written.length - (wire e.sent).length

def moveTo (site : Site) (e : Endpoint σ κ) : Endpoint σ κ := { e with here := site }

def notice (e : Endpoint σ κ) : Endpoint σ κ :=
  { e with noticed := e.noticed ++ [⟨e.here, e.unfinished⟩] }

def wrote (data : Bytes) (e : Endpoint σ κ) : Endpoint σ κ :=
  { e with written := e.written ++ data }

def complete (type : MsgType) (payload : Bytes) (e : Endpoint σ κ) : Endpoint σ κ :=
  { e with sent := e.sent ++ [(type, payload)] }

end Endpoint

/-- What a client does. -/
abbrev Act (σ κ : Type) := EStateM Failure (Endpoint σ κ)

namespace Act

variable {σ κ α : Type}

/-- Something is asked of the outside. -/
def ask (f : σ → α × σ) : Act σ κ α :=
  modifyGet fun e ↦ ((f e.outside).1, { e with outside := (f e.outside).2 })

/-- The client keeps something of its own. -/
def keep (f : κ → κ) : Act σ κ Unit := modify fun e ↦ { e with own := f e.own }

def mark (site : Site) : Act σ κ Unit := modify (.moveTo site)

/-- The flag is looked at, from where the client stands. -/
def look (link : Link σ) : Act σ κ Bool :=
  modifyGet fun e ↦
    ((link.flag e.here e.outside).1, { e with outside := (link.flag e.here e.outside).2 })

/-- A load of the flag. -/
def load (link : Link σ) : Act σ κ Bool := do
  let seen ← look link
  if seen then do
    modify .notice
    pure true
  else pure false

/-- A place where a call gives up when the flag is set, unless it ignores the flag. -/
def check (link : Link σ) (heeds : Bool) : Act σ κ Unit :=
  if heeds then do
    let seen ← load link
    if seen then throw .cancelled else pure ()
  else pure ()

/-- The rounds of a call that would block `n` times, up to the call that goes through. -/
def rounds (link : Link σ) (heeds : Bool) : ℕ → Act σ κ Unit
  | 0 => check link heeds
  | n + 1 => do
    check link heeds
    rounds link heeds n

/-- A call is made until it goes through. -/
def pause (link : Link σ) (heeds : Bool) : Act σ κ Unit := do
  let n ← ask link.pauses
  rounds link heeds n

/-! ## Sending -/

/-- The loop of `sendAll`. The fuel is the number of bytes. -/
def sendLoop (link : Link σ) (heeds : Bool) (stallMs : ℕ) : ℕ → Bytes → Act σ κ Unit
  | 0, _ => pure ()
  | fuel + 1, data =>
    if data = [] then pure ()
    else do
      pause link heeds
      let answer ← ask (link.send data)
      match answer with
      | .took more => do
        modify (.wrote (data.take (more + 1)))
        sendLoop link heeds stallMs fuel (data.drop (more + 1))
      | .stalled => throw (.stalled stallMs)
      | .failed why => throw (.sendFailed why)

/-- `send_all`. -/
def sendAll (link : Link σ) (heeds : Bool) (stallMs : ℕ) (data : Bytes) : Act σ κ Unit :=
  sendLoop link heeds stallMs data.length data

/-! ## Receiving -/

/-- The loop of `recvExactly`. The fuel is the number of bytes. -/
def recvLoop (link : Link σ) (heeds : Bool) (idleMs len : ℕ) : ℕ → Bytes → Act σ κ Bytes
  | 0, got => pure got
  | fuel + 1, got =>
    if len ≤ got.length then pure got
    else do
      pause link heeds
      let answer ← ask (link.recv (len - got.length))
      match answer with
      | .got first more =>
        recvLoop link heeds idleMs len fuel (got ++ (first :: more).take (len - got.length))
      | .closed => throw (.closed got.length len)
      | .idle => throw (.idle idleMs)
      | .failed why => throw (.recvFailed why)

/-- `recv_exactly`. -/
def recvExactly (link : Link σ) (heeds : Bool) (idleMs len : ℕ) : Act σ κ Bytes :=
  recvLoop link heeds idleMs len len []

/-- A frame is read: a header, then as many bytes as it says, unless it is refused. -/
def readFrameWith (refuse : FrameHeader → Option Failure)
    (recvHead recvPayload : ℕ → Act σ κ Bytes) : Act σ κ Frame := do
  let head ← recvHead kHeaderSize
  let h := decodeHeader head
  match refuse h with
  | some e => throw e
  | none => do
    let payload ← recvPayload h.payloadLen.toNat
    pure ⟨h, payload⟩

end Act

/-! ## The local file

What a client learns about the file it uploads. The file may change under its hands, so the reads
bring what they bring, and the size is only what it was at one time. -/

/-- What one read of the local file brings: some bytes, and why it failed if it did. -/
structure FileRead where
  bytes : Bytes
  error : Option Bytes

/-- The local file: its size if that can be found out, why it cannot be opened if so, and what reads
of it bring. -/
structure LocalFile where
  path : Bytes
  name : Bytes
  size : Option UInt64
  openError : Option Bytes
  reads : Stream' FileRead

/-- The reads bring `bytes`, `chunkSize` of them at a time, and perhaps more after the last. -/
def Brings (chunkSize : ℕ) (reads : Stream' FileRead) (bytes : Bytes) : Prop :=
  ∀ i, i * chunkSize < bytes.length → (reads.get i).error = none ∧
    (bytes.drop (i * chunkSize)).take chunkSize <+: (reads.get i).bytes

namespace Brings

variable {chunkSize : ℕ} {reads : Stream' FileRead} {bytes : Bytes}

/-- What the first read brings. -/
theorem head (h : Brings chunkSize reads bytes) (hne : bytes ≠ []) : reads.head.error = none ∧
    reads.head.bytes.take (min chunkSize bytes.length) = bytes.take chunkSize := by
  have hfirst := h 0
  rw [Nat.zero_mul, List.drop_zero] at hfirst
  obtain ⟨herror, more, hbytes⟩ := hfirst (List.length_pos_iff.mpr hne)
  refine ⟨herror, ?_⟩
  have hhead : reads.head.bytes = bytes.take chunkSize ++ more := hbytes.symm
  rw [hhead, List.take_left' List.length_take]

/-- What the other reads bring. -/
theorem tail (h : Brings chunkSize reads bytes) :
    Brings chunkSize reads.tail (bytes.drop chunkSize) := by
  intro i hi
  rw [List.length_drop] at hi
  rw [List.drop_drop, Nat.add_comm chunkSize, ← Nat.succ_mul]
  exact h (i + 1) (by rw [Nat.succ_mul]; omega)

end Brings

end LoggerAnalyzer
