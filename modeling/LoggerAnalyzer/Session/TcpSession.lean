import LoggerAnalyzer.Analyze.Upload
import LoggerAnalyzer.Wire.FrameDecoder
import LoggerAnalyzer.Wire.Payload
import Mathlib.Data.Stream.Init

/-!
# The server's session

A `TcpSession` serves one connection. libuv calls it when bytes have arrived, when a write is done,
when a timer fires and when its handles are closed; it calls libuv to write, to arm the timer and to
close. The model has one function for each of these callbacks, and `step` puts them together.

## The outside

What the session asks of its surroundings comes from streams of readings, `Env`: the clock, the
memory in use, the time of day for the result, and whether the next `uv_write` is accepted. A
session takes the head of a stream and goes on with the tail. Log output is left out.

The handles are initialised before the first callback, so `handles_inited_` is true throughout.

## The timeline

`timeline` is the one field the code does not have. It records what the session did in the order it
did it: which frames were dispatched, which pieces went to the splitter, which frames were handed to
`uv_write`, which states were entered and when the session decided to close after flushing. No
function reads it. Statements about the order of things are statements about the timeline.
-/

namespace LoggerAnalyzer

/-- `kServerVersion`. -/
def kServerVersion : Bytes := ascii "0.3.0"

/-- `kAckIntervalBytes`. -/
def kAckIntervalBytes : ℕ := 16 * 1024 * 1024

/-- `kStallTicks`. -/
def kStallTicks : ℕ := 3

/-- The size of the result's chunks. -/
def kResultChunk : ℕ := 64 * 1024

/-- Subtraction of `std::uint64_t`. -/
def sub64 (m n : ℕ) : ℕ := (m + 2 ^ 64 - n) % 2 ^ 64

inductive SessionState where
  | awaitHello
  | ready
  | uploading
  | closing
deriving DecidableEq, Repr

/-- What a session does that can be seen from outside, and what it does with the bytes it gets. -/
inductive Happening where
  | received (header : FrameHeader) (payload : Bytes)
  | fed (piece : Bytes)
  | sent (type : MsgType) (payload : Bytes)
  | entered (state : SessionState)
  | flagged
  | sessionClosed
deriving DecidableEq, Repr

/-- What a session knows from its construction and from `init`. -/
structure SessionConfig where
  id : UInt32
  peer : Bytes
  uvVersion : Bytes
  idleTimeoutMs : ℕ
  uploadStallTimeoutMs : ℕ

/-- The readings still to come. -/
structure Env where
  hrtime : Stream' ℕ
  peakRss : Stream' ℕ
  utcNow : Stream' Bytes
  uvWrite : Stream' Bool

/-- The state of the upload and of its analysis. -/
structure UploadState (D : Type) where
  id : UInt32
  name : Bytes
  declared : ℕ
  received : ℕ
  lastAckAt : ℕ
  startNs : ℕ
  lineOffset : ℕ
  splitter : LineSplitter
  agg : Aggregator D
  resultCsv : Bytes

structure TcpSession (D : Type) where
  config : SessionConfig
  env : Env
  decoder : FrameDecoder
  writes : List Bytes
  clientName : Bytes
  state : SessionState
  closeAfterFlush : Bool
  stallTicks : ℕ
  timer : Option (ℕ × ℕ)
  handlesClosing : Bool
  pendingClose : ℕ
  rxBytes : ℕ
  rxFrames : ℕ
  upload : UploadState D
  timeline : List Happening

namespace UploadState

variable {D : Type} [DoubleOps D]

/-- A piece of the upload goes through the splitter into the aggregator. -/
def feed (piece : Bytes) (u : UploadState D) : UploadState D :=
  let fed := LineSplitter.feed onLine piece (u.splitter, u.agg, u.lineOffset)
  { u with splitter := fed.1, agg := fed.2.1, lineOffset := fed.2.2 }

/-- The last line of the upload and the oversize lines go into the aggregator. -/
def finish (u : UploadState D) : UploadState D :=
  let fed := LineSplitter.finish onLine (u.splitter, u.agg, u.lineOffset)
  { u with splitter := fed.1, agg := fed.2.1.addOversize fed.1.oversize, lineOffset := fed.2.2 }

/-- The result of a complete upload. -/
def build (utcNow : Bytes) (elapsedMs rss : ℕ) (u : UploadState D) : UploadState D :=
  { u with resultCsv := buildResultCsv utcNow u.agg ⟨u.name, u.received, elapsedMs, rss⟩ }

/-- What is left of an upload that the client cancelled. -/
def clear (u : UploadState D) : UploadState D :=
  { u with declared := 0, received := 0, lastAckAt := 0, lineOffset := 0, name := []
           splitter := u.splitter.reset, agg := u.agg.reset, resultCsv := [] }

/-- The payload of an UPLOAD_ACK. -/
def ackPayload (u : UploadState D) : Bytes :=
  PayloadWriter.u64 (UInt64.ofNat u.received)
    ++ PayloadWriter.u64 (UInt64.ofNat u.agg.totalLines)
    ++ PayloadWriter.u64 (UInt64.ofNat u.agg.acceptedLines)
    ++ PayloadWriter.u64 (UInt64.ofNat u.agg.rejectedLines)
    ++ PayloadWriter.u64 (UInt64.ofNat u.agg.spdN)
    ++ PayloadWriter.str16 (snprintf 32 (DoubleOps.fixed 6 u.agg.spdAvg))
    ++ PayloadWriter.u8 (UInt8.ofNat kModuleCount)
    ++ Module.all.flatMap fun m ↦ PayloadWriter.u64 (UInt64.ofNat (u.agg.moduleTotals m))

/-- The payload of an ANALYZE_DONE. -/
def donePayload (elapsedMs rss : ℕ) (u : UploadState D) : Bytes :=
  PayloadWriter.u64 (UInt64.ofNat u.received)
    ++ PayloadWriter.u64 (UInt64.ofNat u.agg.totalLines)
    ++ PayloadWriter.u64 (UInt64.ofNat u.agg.acceptedLines)
    ++ PayloadWriter.u64 (UInt64.ofNat u.agg.rejectedLines)
    ++ PayloadWriter.u64 (UInt64.ofNat u.agg.oversizeLines)
    ++ PayloadWriter.u64 (UInt64.ofNat u.agg.spdN)
    ++ PayloadWriter.str16 (snprintf 32 (DoubleOps.fixed 6 u.agg.spdAvg))
    ++ PayloadWriter.u64 (UInt64.ofNat elapsedMs)
    ++ PayloadWriter.u64 (UInt64.ofNat rss)
    ++ PayloadWriter.u64 (UInt64.ofNat u.resultCsv.length)

end UploadState

namespace TcpSession

variable {D : Type}

/-- Something happens. -/
def note (h : Happening) (s : TcpSession D) : TcpSession D :=
  { s with timeline := s.timeline ++ [h] }

def enter (state : SessionState) (s : TcpSession D) : TcpSession D :=
  { s with state := state }.note (.entered state)

/-- `close_after_flush_` is set. -/
def flag (s : TcpSession D) : TcpSession D := { s with closeAfterFlush := true }.note .flagged

/-! ## Readings -/

def takeHrtime (s : TcpSession D) : ℕ × TcpSession D :=
  (s.env.hrtime.head, { s with env := { s.env with hrtime := s.env.hrtime.tail } })

def takePeakRss (s : TcpSession D) : ℕ × TcpSession D :=
  (s.env.peakRss.head, { s with env := { s.env with peakRss := s.env.peakRss.tail } })

def takeUtcNow (s : TcpSession D) : Bytes × TcpSession D :=
  (s.env.utcNow.head, { s with env := { s.env with utcNow := s.env.utcNow.tail } })

def takeUvWrite (s : TcpSession D) : Bool × TcpSession D :=
  (s.env.uvWrite.head, { s with env := { s.env with uvWrite := s.env.uvWrite.tail } })

variable [DoubleOps D]

/-! ## Closing and sending -/

/-- `report_partial_upload`: the summary of an upload that did not end well. -/
def reportPartialUpload (headline : Bytes) (s : TcpSession D) : Bytes × TcpSession D :=
  let u := s.upload
  let clock := if 0 < u.startNs then s.takeHrtime else (u.startNs, s)
  let elapsedMs := sub64 clock.1 u.startNs / 1000000
  let rss := clock.2.takePeakRss
  let pct : D :=
    if 0 < u.declared then num 100 * num u.received / num u.declared else num 0
  (snprintf 384 (headline ++ ascii " | processed " ++ decimal u.received ++ ascii " / "
      ++ decimal u.declared ++ ascii " bytes (" ++ DoubleOps.fixed 1 pct ++ ascii "%), lines="
      ++ decimal u.agg.totalLines ++ ascii ", accepted=" ++ decimal u.agg.acceptedLines
      ++ ascii ", rejected=" ++ decimal u.agg.rejectedLines ++ ascii ", elapsed="
      ++ decimal elapsedMs ++ ascii " ms, peak RSS=" ++ decimal rss.1 ++ ascii " kB"),
    rss.2)

/-- The two handles are closed, unless they already are. -/
def closeHandles (s : TcpSession D) : TcpSession D :=
  let s := { s with timer := none }
  let s := if s.handlesClosing then s
    else { s with handlesClosing := true, pendingClose := s.pendingClose + 2 }
  if s.pendingClose = 0 then s.note .sessionClosed else s

/-- `close`. -/
def close (s : TcpSession D) : TcpSession D :=
  if s.state = .closing then s
  else
    let closing := s.enter .closing
    let closing :=
      if s.state = .uploading then
        (closing.reportPartialUpload (ascii "connection lost during upload")).2
      else closing
    closing.closeHandles

/-- `send`. -/
def send (type : MsgType) (payload : Bytes) (s : TcpSession D) : TcpSession D :=
  if s.state = .closing then s
  else
    match s.takeUvWrite with
    | (true, s) =>
      { s with writes := s.writes ++ [serializeFrame type payload] }.note (.sent type payload)
    | (false, s) => s.close

/-- `send_error`. -/
def sendError (code : ErrorCode) (message : Bytes) (s : TcpSession D) : TcpSession D :=
  s.send .error (errorPayload code message)

/-- `touch_idle`. -/
def touchIdle (s : TcpSession D) : TcpSession D :=
  if s.state = .closing then s
  else if s.state ≠ .uploading then
    { s with stallTicks := 0, timer := some (s.config.idleTimeoutMs, 0) }
  else
    let slice := s.config.uploadStallTimeoutMs / kStallTicks
    { s with stallTicks := 0, timer := some (slice, slice) }

/-! ## The upload -/

/-- `abort_upload`. -/
def abortUpload (code : ErrorCode) (message : Bytes) (s : TcpSession D) : TcpSession D :=
  let report := s.reportPartialUpload message
  let s := (report.2.enter .ready).sendError code report.1
  if code = .cancelled then { s with upload := s.upload.clear } else s.flag

/-- `IPayloadSink::stream_payload`. -/
def streamPayload (type : MsgType) (length : UInt64) (s : TcpSession D) : Bool :=
  type = .uploadChunk && s.state = .uploading && length.toNat ≤ kDefaultMaxChunk

/-- The acknowledgement that is due every `kAckIntervalBytes`. The clock is read for the log. -/
def acknowledge (s : TcpSession D) : TcpSession D :=
  if kAckIntervalBytes ≤ sub64 s.upload.received s.upload.lastAckAt then
    let s := { s with upload := { s.upload with lastAckAt := s.upload.received } }.takeHrtime.2
    s.send .uploadAck s.upload.ackPayload
  else s

/-- `IPayloadSink::payload_chunk`. -/
def payloadChunk (piece : Bytes) (s : TcpSession D) : TcpSession D :=
  if s.state ≠ .uploading then s
  else
    let received := (s.upload.received + piece.length) % 2 ^ 64
    let s := { s with upload := { s.upload with received := received } }
    if s.upload.declared < s.upload.received then
      s.abortUpload .sizeMismatch (ascii "received more bytes than declared")
    else ({ s with upload := s.upload.feed piece }.note (.fed piece)).acknowledge

/-- The session as the sink of its decoder. -/
def sink : PayloadSink (TcpSession D) where
  streamPayload := streamPayload
  payloadChunk := payloadChunk

/-- The bytes of the result, cut into chunks. -/
def resultChunks : ℕ → Bytes → List Bytes
  | 0, _ => []
  | fuel + 1, csv =>
    if csv = [] then [] else csv.take kResultChunk :: resultChunks fuel (csv.drop kResultChunk)

/-- The payload of a RESULT_BEGIN. -/
def resultBeginPayload (csv : Bytes) : Bytes :=
  PayloadWriter.u64 (UInt64.ofNat csv.length) ++ PayloadWriter.str16 (ascii "result.csv")

/-- `send_result_csv`. -/
def sendResultCsv (s : TcpSession D) : TcpSession D :=
  let csv := s.upload.resultCsv
  let s := s.send .resultBegin (resultBeginPayload csv)
  let s := (resultChunks csv.length csv).foldl (fun s c ↦ s.send .resultChunk c) s
  s.send .resultEnd []

/-! ## Dispatching frames

Each handler gives back, with the session, whether the loop over the read goes on. -/

/-- The payload of a HELLO_ACK. -/
def helloAckPayload (s : TcpSession D) : Bytes :=
  PayloadWriter.u32 s.config.id ++ PayloadWriter.u32 (UInt32.ofNat kDefaultMaxChunk)
    ++ PayloadWriter.str16 s.config.peer
    ++ PayloadWriter.str16 (ascii "Zhenyu_LoggerAnalyzer/" ++ kServerVersion ++ ascii " libuv "
        ++ s.config.uvVersion)

/-- `handle_hello`. -/
def handleHello (s : TcpSession D) : TcpSession D × Bool :=
  let version := (PayloadReader.new s.decoder.payload).u16
  let name := version.2.str16
  match version.1, name.1 with
  | some _, some name =>
    let s := { s with clientName := name }.enter .ready
    (s.send .helloAck s.helloAckPayload, true)
  | _, _ =>
    ((s.sendError .unexpectedType (ascii "malformed HELLO payload")).flag, false)

/-- The payload of an UPLOAD_BEGIN_ACK. -/
def uploadBeginAckPayload (s : TcpSession D) : Bytes :=
  PayloadWriter.u32 s.upload.id ++ PayloadWriter.u32 (UInt32.ofNat kDefaultMaxChunk)
    ++ PayloadWriter.u8 (UInt8.ofNat kModuleCount)
    ++ Module.all.flatMap fun m ↦ PayloadWriter.str16 m.name

/-- An upload of `total` bytes begins. -/
def beginUpload (total : ℕ) (name : Bytes) (s : TcpSession D) : TcpSession D :=
  let clock := s.takeHrtime
  { clock.2 with
    upload :=
      { id := s.config.id, name := name, declared := total, received := 0, lastAckAt := 0
        startNs := clock.1, lineOffset := 0, splitter := s.upload.splitter.reset
        agg := s.upload.agg.reset, resultCsv := [] } }.enter .uploading

/-- `handle_upload_begin`. -/
def handleUploadBegin (s : TcpSession D) : TcpSession D × Bool :=
  let total := (PayloadReader.new s.decoder.payload).u64
  let name := total.2.str16
  match total.1, name.1 with
  | some total, some name =>
    if total.toNat = 0 then
      (s.sendError .sizeMismatch (ascii "upload size must be greater than zero"), true)
    else
      let s := s.beginUpload total.toNat name
      (s.send .uploadBeginAck s.uploadBeginAckPayload, true)
  | _, _ =>
    ((s.sendError .unexpectedType (ascii "malformed UPLOAD_BEGIN payload")).flag, false)

/-- A complete upload is analysed: the time that it took, the memory in use, and the session. -/
def analyze (s : TcpSession D) : ℕ × ℕ × TcpSession D :=
  let clock := s.takeHrtime
  let elapsedMs := sub64 clock.1 s.upload.startNs / 1000000
  let rss := clock.2.takePeakRss
  let utc := rss.2.takeUtcNow
  (elapsedMs, rss.1, { utc.2 with upload := s.upload.finish.build utc.1 elapsedMs rss.1 })

/-- A complete upload is analysed, and the result is sent. -/
def finishUpload (s : TcpSession D) : TcpSession D :=
  let (elapsedMs, rss, s) := s.analyze
  (s.send .analyzeDone (s.upload.donePayload elapsedMs rss)).sendResultCsv.enter .ready

/-- `handle_upload_end`. -/
def handleUploadEnd (s : TcpSession D) : TcpSession D × Bool :=
  match (PayloadReader.new s.decoder.payload).u64.1 with
  | none => (s.abortUpload .unexpectedType (ascii "malformed UPLOAD_END payload"), false)
  | some claimed =>
    if s.upload.received ≠ s.upload.declared ∨ claimed.toNat ≠ s.upload.declared then
      (s.abortUpload .sizeMismatch (ascii "byte count does not match the declared size"), false)
    else (s.finishUpload, true)

/-- `dispatch_frame`. -/
def dispatchFrame (s : TcpSession D) : TcpSession D × Bool :=
  let type := s.decoder.header.type
  let s := s.note (.received s.decoder.header s.decoder.payload)
  match s.state with
  | .awaitHello =>
    if type ≠ .hello then
      ((s.sendError .unexpectedType (ascii "expected HELLO as the first frame")).flag, false)
    else s.handleHello
  | .ready =>
    if type = .bye then (s.close, false)
    else if type = .uploadBegin then s.handleUploadBegin
    else if type = .cancel then (s, true)
    else
      (s.sendError .unexpectedType (ascii "unexpected message while idle: " ++ msgName type), true)
  | .uploading =>
    if type = .uploadChunk then
      if !s.decoder.streaming then
        (s.abortUpload .payloadTooLarge (ascii "upload chunk exceeds the negotiated maximum"),
          false)
      else (s, true)
    else if type = .uploadEnd then s.handleUploadEnd
    else if type = .cancel then (s.abortUpload .cancelled (ascii "cancelled by client"), true)
    else
      (s.abortUpload .unexpectedType (ascii "unexpected message during upload: " ++ msgName type),
        false)
  | .closing => (s, false)

/-! ## The callbacks -/

/-- One round of the loop of `process`: the session, and what is left of the read if the loop goes
on. -/
def turn (data : Bytes) (s : TcpSession D) : TcpSession D × Option Bytes :=
  let fed := s.decoder.feed (some sink) data s
  let s := { fed.sink with decoder := fed.decoder }
  match fed.status with
  | .needMore => (s, none)
  | .failed => ((s.sendError s.decoder.error s.decoder.error.text).flag, none)
  | .ready =>
    let dispatched := { s with rxFrames := s.rxFrames + 1 }.dispatchFrame
    let s := { dispatched.1 with decoder := dispatched.1.decoder.resetFrame }
    (s, if dispatched.2 then some (data.drop fed.consumed) else none)

/-- `process`. The fuel is the length of the read. -/
def process : ℕ → Bytes → TcpSession D → TcpSession D
  | 0, _, s => s
  | fuel + 1, data, s =>
    if data = [] ∨ s.state = .closing then s
    else
      match s.turn data with
      | (s, none) => s
      | (s, some data) => process fuel data s

/-- `on_read`, for a read that brought bytes. -/
def onRead (data : Bytes) (s : TcpSession D) : TcpSession D :=
  (process data.length data { s with rxBytes := s.rxBytes + data.length }).touchIdle

/-- `on_write`. -/
def onWrite (ok : Bool) (s : TcpSession D) : TcpSession D :=
  let s := { s with writes := s.writes.tail }
  if !ok then s.close
  else if s.closeAfterFlush && s.writes.isEmpty then s.close
  else s

/-- `on_idle_timeout`. -/
def onIdleTimeout (s : TcpSession D) : TcpSession D :=
  if s.state = .uploading then
    let s := { s with stallTicks := s.stallTicks + 1 }
    if s.stallTicks < kStallTicks then s
    else
      let report := { s with timer := none }.reportPartialUpload
        (ascii "connection lost during upload (stalled)")
      ((report.2.enter .ready).sendError .idleTimeout report.1).close
  else (s.sendError .idleTimeout (ascii "idle timeout")).flag

/-- `on_handle_closed`. -/
def onHandleClosed (s : TcpSession D) : TcpSession D :=
  let s := { s with pendingClose := s.pendingClose - 1 }
  if 0 < s.pendingClose then s else s.note .sessionClosed

/-! ## Runs -/

/-- What libuv calls the session for. -/
inductive Event where
  | read (data : Bytes)
  | readEof
  | readError
  | written (ok : Bool)
  | idleTimeout
  | handleClosed
deriving DecidableEq, Repr

def step (s : TcpSession D) : Event → TcpSession D
  | .read data => s.onRead data
  | .readEof => s.close
  | .readError => s.close
  | .written ok => s.onWrite ok
  | .idleTimeout => s.onIdleTimeout
  | .handleClosed => s.onHandleClosed

def run (s : TcpSession D) (events : List Event) : TcpSession D := events.foldl step s

/-- A session that was accepted and started. -/
def start (config : SessionConfig) (env : Env) : TcpSession D :=
  { config := config, env := env, decoder := {}, writes := [], clientName := []
    state := .awaitHello, closeAfterFlush := false, stallTicks := 0
    timer := some (config.idleTimeoutMs, 0), handlesClosing := false, pendingClose := 0
    rxBytes := 0, rxFrames := 0
    upload :=
      { id := 0, name := [], declared := 0, received := 0, lastAckAt := 0, startNs := 0
        lineOffset := 0, splitter := LineSplitter.new LineSplitter.kDefaultMaxLine
        agg := Aggregator.empty, resultCsv := [] }
    timeline := [] }

end TcpSession

end LoggerAnalyzer
