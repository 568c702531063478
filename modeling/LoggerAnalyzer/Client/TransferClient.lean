import LoggerAnalyzer.Client.Link
import LoggerAnalyzer.Client.Payload

/-!
# The C++ client

`do_upload` and everything it calls. A function of the source that reports failure by `false` and a
text fails here with a `Failure`, and `Failure.text` is the text. What the client shows to its user
is a `Snapshot`; of it, what depends on floating point or is only copied is left out, and so is the
log.

The loops that end when the other side says so take fuel.
-/

namespace LoggerAnalyzer

/-! ## The local file -/

/-- A `std::ifstream`: no read does anything after one that ran short. -/
structure InputFile where
  reads : Stream' FileRead
  failed : Bool
  bad : Bool

namespace InputFile

def new (file : LocalFile) : InputFile := ⟨file.reads, false, false⟩

/-- `read` and `gcount`. -/
def read (want : ℕ) (f : InputFile) : Bytes × InputFile :=
  if f.failed then ([], f)
  else
    let bytes := f.reads.head.bytes.take want
    (bytes,
      { reads := f.reads.tail
        failed := bytes.length < want || f.reads.head.error.isSome
        bad := f.reads.head.error.isSome })

end InputFile

/-! ## What the client shows -/

/-- `Phase`. -/
inductive TransferPhase where
  | idle
  | connecting
  | handshaking
  | connected
  | uploading
  | waitingAnalysis
  | receivingResult
  | done
  | cancelled
  | failed
deriving DecidableEq, Repr

structure Snapshot where
  phase : TransferPhase := .idle
  connected : Bool := false
  error : Bytes := []
  helloValid : Bool := false
  totalBytes : UInt64 := 0
  bytesSent : UInt64 := 0
  bytesConsumed : UInt64 := 0
  linesParsed : UInt64 := 0
  acceptedLines : UInt64 := 0
  rejectedLines : UInt64 := 0
  spdSamples : UInt64 := 0
  spdAverage : Bytes := []
  moduleNames : List Bytes := []
  moduleCounts : List UInt64 := []
  resultValid : Bool := false
  resultTotalLines : UInt64 := 0
  resultAccepted : UInt64 := 0
  resultRejected : UInt64 := 0
  resultOversize : UInt64 := 0
  resultSpdSamples : UInt64 := 0
  resultSpdAverage : Bytes := []
  resultElapsedMs : UInt64 := 0
  resultPeakRssKb : UInt64 := 0
  csvSize : UInt64 := 0
deriving DecidableEq, Repr

structure TransferClient where
  state : Snapshot
  csv : Bytes
deriving DecidableEq, Repr

/-- The text of an error. -/
def Failure.text : Failure → Bytes
  | cancelled => ascii "cancelled"
  | closed got len => ascii "connection closed by server after " ++ decimal got ++ ascii " of "
      ++ decimal len ++ ascii " bytes"
  | idle ms => ascii "no data from server for " ++ decimal ms ++ ascii " ms"
  | stalled ms => ascii "network write stalled for " ++ decimal ms
      ++ ascii " ms - the connection appears to be down"
  | sendFailed why => ascii "send failed: " ++ why
  | recvFailed why => ascii "recv failed: " ++ why
  | refused _ message => message
  | localFile message => message
  | disposed => []
  | spent => []

namespace TransferClient

def kWriteStallTimeoutMs : ℕ := 20000

def kIdleTimeoutMs : ℕ := 120000

def kCancelAckTimeoutMs : ℕ := 5000

def kMaxCsvBytes : ℕ := 64 * 1024 * 1024

def setPhase (phase : TransferPhase) (c : TransferClient) : TransferClient :=
  { c with state := { c.state with phase := phase } }

def fail (why : Bytes) (c : TransferClient) : TransferClient :=
  { c with state := { c.state with phase := .failed, connected := false, error := why } }

/-! ## Payloads -/

/-- A reader of payloads, run until a field is missing. -/
abbrev Fields := StateT Client.PayloadReader Option

/-- A field that is there. -/
def field {α : Type} (read : Client.PayloadReader → Option α × Client.PayloadReader) : Fields α :=
  fun r ↦ match read r with
    | (some v, r) => some (v, r)
    | (none, _) => none

/-- `server_error_text`. -/
def serverErrorText (payload : Bytes) : Bytes :=
  let fields : Fields (UInt16 × Bytes) := do
    let code ← field Client.PayloadReader.u16
    let message ← field Client.PayloadReader.str16
    pure (code, message)
  match fields (.new payload) with
  | some ((code, message), _) =>
    ascii "server error " ++ decimal code.toNat ++ ascii ": " ++ message
  | none => ascii "malformed ERROR payload"

/-- The loop over the module names of an UPLOAD_BEGIN_ACK. -/
def moduleNamesLoop : ℕ → List Bytes → Client.PayloadReader → List Bytes × Client.PayloadReader
  | 0, names, r => (names, r)
  | count + 1, names, r =>
    match r.str16 with
    | (some name, r) => moduleNamesLoop count (names ++ [name]) r
    | (none, r) => ([], r)

/-- The module names of an UPLOAD_BEGIN_ACK, if there are any. -/
def readModuleNames (r : Client.PayloadReader) : List Bytes × Client.PayloadReader :=
  match r.u8 with
  | (some count, r) =>
    if 0 < count.toNat ∧ count.toNat ≤ 64 then moduleNamesLoop count.toNat [] r else ([], r)
  | (none, r) => ([], r)

/-- The fields of an UPLOAD_BEGIN_ACK: the id, the size of a chunk and the names of the modules. -/
def beginAckFields : Fields (UInt32 × UInt32 × List Bytes) := do
  let uploadId ← field Client.PayloadReader.u32
  let chunkSize ← field Client.PayloadReader.u32
  let names ← fun r ↦ some (readModuleNames r)
  pure (uploadId, chunkSize, names)

/-- The size of a chunk that is used: what is announced, unless it is out of range. -/
def chunkSizeOf (announced : UInt32) : ℕ :=
  if announced.toNat = 0 ∨ 4 * 1024 * 1024 < announced.toNat then 1024 * 1024
  else announced.toNat

/-- The loop over the counts of an UPLOAD_ACK, from index `i` on. -/
def moduleCountsLoop :
    ℕ → ℕ → List UInt64 → Client.PayloadReader → List UInt64 × Client.PayloadReader
  | 0, _, counts, r => (counts, r)
  | left + 1, i, counts, r =>
    match r.u64 with
    | (some c, r) => moduleCountsLoop left (i + 1) (counts.set i c) r
    | (none, r) => (counts, r)

/-- The optional fields of an UPLOAD_ACK are taken as far as they are there. -/
def applyStats (r : Client.PayloadReader) (s : Snapshot) : Snapshot × Client.PayloadReader :=
  let accepted := r.u64
  let rejected := accepted.2.u64
  let spdN := rejected.2.u64
  let avg := spdN.2.str16
  let count := avg.2.u8
  let s :=
    { s with
      acceptedLines := accepted.1.getD s.acceptedLines
      rejectedLines := rejected.1.getD s.rejectedLines
      spdSamples := spdN.1.getD s.spdSamples
      spdAverage := avg.1.getD s.spdAverage }
  match count with
  | (some moduleCount, r) =>
    if 0 < moduleCount.toNat ∧ moduleCount.toNat ≤ 64 then
      let counts :=
        if s.moduleCounts.length ≠ moduleCount.toNat then List.replicate moduleCount.toNat 0
        else s.moduleCounts
      let read := moduleCountsLoop moduleCount.toNat 0 counts r
      ({ s with moduleCounts := read.1 }, read.2)
    else (s, r)
  | (none, r) => (s, r)

/-- The fields of an UPLOAD_ACK, if the first two are there, and the reader at the end. -/
def uploadAckFields (payload : Bytes) (s : Snapshot) : Option (Snapshot × Client.PayloadReader) :=
  let consumed := (Client.PayloadReader.new payload).u64
  let lines := consumed.2.u64
  match consumed.1, lines.1 with
  | some consumed, some parsed =>
    some (applyStats lines.2 { s with bytesConsumed := consumed, linesParsed := parsed })
  | _, _ => none

/-- `apply_upload_ack`. -/
def applyUploadAck (payload : Bytes) (c : TransferClient) : TransferClient :=
  match uploadAckFields payload c.state with
  | some (s, _) => { c with state := s }
  | none => c

/-- The fields of an ANALYZE_DONE. -/
structure AnalyzeDone where
  bytes : UInt64
  lines : UInt64
  accepted : UInt64
  rejected : UInt64
  oversize : UInt64
  spdN : UInt64
  avg : Bytes
  elapsed : UInt64
  rss : UInt64
  csvSize : UInt64
deriving DecidableEq, Repr

def analyzeDoneFields : Fields AnalyzeDone := do
  let bytes ← field Client.PayloadReader.u64
  let lines ← field Client.PayloadReader.u64
  let accepted ← field Client.PayloadReader.u64
  let rejected ← field Client.PayloadReader.u64
  let oversize ← field Client.PayloadReader.u64
  let spdN ← field Client.PayloadReader.u64
  let avg ← field Client.PayloadReader.str16
  let elapsed ← field Client.PayloadReader.u64
  let rss ← field Client.PayloadReader.u64
  let csvSize ← field Client.PayloadReader.u64
  pure ⟨bytes, lines, accepted, rejected, oversize, spdN, avg, elapsed, rss, csvSize⟩

/-- What the client shows once the analysis is done. -/
def applyAnalyzeDone (d : AnalyzeDone) (c : TransferClient) : TransferClient :=
  { c with
    state :=
      { c.state with
        bytesConsumed := d.bytes, resultValid := true, resultTotalLines := d.lines
        resultAccepted := d.accepted, resultRejected := d.rejected, resultOversize := d.oversize
        resultSpdSamples := d.spdN, resultSpdAverage := d.avg, resultElapsedMs := d.elapsed
        resultPeakRssKb := d.rss, linesParsed := d.lines, acceptedLines := d.accepted
        rejectedLines := d.rejected, spdSamples := d.spdN, spdAverage := d.avg } }

/-! ## Frames -/

section Frames

variable {σ : Type} (link : Link σ)

open Act

/-- `send_frame`. -/
def sendFrame (type : MsgType) (payload : Bytes) : Act σ TransferClient Unit := do
  sendAll link true kWriteStallTimeoutMs (encodeHeader (frameHeader type payload))
  if payload ≠ [] then sendAll link true kWriteStallTimeoutMs payload
  modify (.complete type payload)

/-- `send_empty_frame_never_cancel`. -/
def sendEmptyFrameNeverCancel (type : MsgType) : Act σ TransferClient Unit := do
  sendAll link false kWriteStallTimeoutMs (encodeHeader (frameHeader type []))
  modify (.complete type [])

/-- The checks of `read_frame`. -/
def refuse (h : FrameHeader) : Option Failure :=
  if h.magic ≠ kMagic then some (.refused 0 (ascii "bad magic from server"))
  else if h.version ≠ kVersion then
    some (.refused 0
      (ascii "unsupported protocol version from server: " ++ decimal h.version.toNat))
  else if kMaxPayload < h.payloadLen.toNat then
    some (.refused 0 (ascii "payload too large from server: " ++ decimal h.payloadLen.toNat
      ++ ascii " bytes"))
  else none

/-- `read_frame`. -/
def readFrame (idleMs : ℕ) : Act σ TransferClient Frame :=
  readFrameWith refuse (recvExactly link true idleMs) (recvExactly link true idleMs)

/-- The checks of the reader in `send_cancel_and_wait`, which gives no reason. -/
def refuseWhileCancelling (h : FrameHeader) : Option Failure :=
  if h.magic ≠ kMagic ∨ kMaxPayload < h.payloadLen.toNat then some (.refused 0 []) else none

/-- The reader in `send_cancel_and_wait`. -/
def readFrameWhileCancelling (idleMs : ℕ) : Act σ TransferClient Frame :=
  readFrameWith refuseWhileCancelling (recvExactly link false idleMs)
    (recvExactly link false kCancelAckTimeoutMs)

/-! ## Cancelling -/

/-- The loop of `send_cancel_and_wait`. -/
def awaitCancelAck (deadline : ℕ) : ℕ → Act σ TransferClient Unit
  | 0 => throw .spent
  | fuel + 1 => do
    let now ← ask link.now
    if now < deadline then do
      let left ← ask link.now
      let f ← readFrameWhileCancelling link (max (deadline - left) 1)
      if f.header.type = .error then pure () else awaitCancelAck deadline fuel
    else pure ()

/-- A failure is the end of it, unless it is that of the model. -/
def ignoreFailure (e : Failure) : Act σ TransferClient Unit :=
  if e = .spent then throw e else pure ()

/-- `send_cancel_and_wait`. -/
def sendCancelAndWait (fuel : ℕ) : Act σ TransferClient Unit :=
  tryCatch (do
    sendEmptyFrameNeverCancel link .cancel
    let now ← ask link.now
    awaitCancelAck link (now + kCancelAckTimeoutMs) fuel) ignoreFailure

/-- The upload is cancelled by the user. -/
def cancelUpload (fuel : ℕ) : Act σ TransferClient Unit := do
  sendCancelAndWait link fuel
  keep (setPhase .cancelled)

/-! ## The upload -/

/-- The frames that the server sent during the chunks are read without waiting for more. -/
def drain : ℕ → Act σ TransferClient Unit
  | 0 => throw .spent
  | fuel + 1 => do
    let readable ← ask link.readable
    if readable then do
      mark .drainRead
      let f ← readFrame link 5000
      if f.header.type = .uploadAck then keep (applyUploadAck f.payload)
      else if f.header.type = .error then throw (.refused 0 (serverErrorText f.payload))
      drain fuel
    else pure ()

/-- How the loop over the chunks ends: the user cancelled, or there is nothing more to send. -/
inductive ChunksEnd where
  | cancelled
  | ended (sent : ℕ) (bad : Bool)
deriving DecidableEq, Repr

/-- A chunk is sent in one go with its header. It gives whether it was sent; if not, the user
cancelled. -/
def sendChunk (fuel : ℕ) (bytes : Bytes) : Act σ TransferClient Bool :=
  tryCatch (do
    sendAll link true kWriteStallTimeoutMs (serializeFrame .uploadChunk bytes)
    modify (.complete .uploadChunk bytes)
    pure true) fun e ↦ do
      let cancel ← load link
      if cancel then do
        cancelUpload link fuel
        pure false
      else throw e

/-- The loop over the chunks. -/
def chunkLoop (total chunkSize : ℕ) : ℕ → InputFile → ℕ → Act σ TransferClient ChunksEnd
  | 0, _, _ => throw .spent
  | fuel + 1, file, sent => do
    mark .chunkTop
    let cancel ← load link
    if cancel then do
      cancelUpload link fuel
      pure .cancelled
    else if total - sent = 0 then pure (.ended sent file.bad)
    else
      let (bytes, file) := file.read (min chunkSize (total - sent))
      if bytes = [] then pure (.ended sent file.bad)
      else do
        mark .chunkSend
        let done ← sendChunk link fuel bytes
        if done then do
          let sent := sent + bytes.length
          drain link fuel
          keep fun c ↦ { c with state := { c.state with bytesSent := UInt64.ofNat sent } }
          chunkLoop total chunkSize fuel file sent
        else pure .cancelled

/-- The loop that waits for the analysis: the size of the result, or nothing if the user
cancelled. -/
def awaitAnalysis : ℕ → Act σ TransferClient (Option UInt64)
  | 0 => throw .spent
  | fuel + 1 => do
    mark .analysisTop
    let cancel ← load link
    if cancel then do
      cancelUpload link fuel
      pure none
    else do
      mark .analysisRead
      let f ← readFrame link kIdleTimeoutMs
      if f.header.type = .uploadAck then do
        keep (applyUploadAck f.payload)
        awaitAnalysis fuel
      else if f.header.type = .error then throw (.refused 0 (serverErrorText f.payload))
      else if f.header.type = .analyzeDone then
        match analyzeDoneFields (.new f.payload) with
        | none => throw (.refused 0 (ascii "malformed ANALYZE_DONE payload"))
        | some (d, _) => do
          keep (applyAnalyzeDone d)
          pure (some d.csvSize)
      else throw (.refused 0 (ascii "unexpected message while waiting for ANALYZE_DONE: "
        ++ msgName f.header.type))

/-- The loop over the chunks of the result. -/
def receiveChunks (declared : ℕ) : ℕ → Bytes → Act σ TransferClient Bytes
  | 0, _ => throw .spent
  | fuel + 1, csv => do
    let f ← readFrame link kIdleTimeoutMs
    if f.header.type = .resultChunk then
      let csv := csv ++ f.payload
      if declared < csv.length then
        throw (.refused 0 (ascii "result.csv exceeded the declared size"))
      else receiveChunks declared fuel csv
    else if f.header.type = .resultEnd then pure csv
    else if f.header.type = .error then throw (.refused 0 (serverErrorText f.payload))
    else throw (.refused 0 (ascii "unexpected message while receiving result.csv: "
      ++ msgName f.header.type))

/-- `receive_result`. -/
def receiveResult (fuel : ℕ) (expectedSize : UInt64) : Act σ TransferClient Unit := do
  if kMaxCsvBytes < expectedSize.toNat then
    throw (.refused 0 (ascii "result.csv size is out of range: " ++ decimal expectedSize.toNat))
  let begin ← readFrame link kIdleTimeoutMs
  if begin.header.type = .error then throw (.refused 0 (serverErrorText begin.payload))
  if begin.header.type ≠ .resultBegin then
    throw (.refused 0
      (ascii "expected RESULT_BEGIN but received " ++ msgName begin.header.type))
  match (Client.PayloadReader.new begin.payload).u64.1 with
  | none => throw (.refused 0 (ascii "malformed RESULT_BEGIN payload"))
  | some declared => do
    if kMaxCsvBytes < declared.toNat then
      throw (.refused 0 (ascii "result.csv too large: " ++ decimal declared.toNat))
    let csv ← receiveChunks link declared.toNat fuel []
    if csv.length ≠ declared.toNat then
      throw (.refused 0 (ascii "result.csv size mismatch: declared " ++ decimal declared.toNat
        ++ ascii " but received " ++ decimal csv.length))
    keep fun c ↦ { state := { c.state with csvSize := UInt64.ofNat csv.length }, csv := csv }

/-- The payload of an UPLOAD_BEGIN. -/
def beginPayload (total : UInt64) (name : Bytes) : Bytes :=
  Client.PayloadWriter.u64 total ++ Client.PayloadWriter.str16 name

/-- An upload begins: the size of a chunk, and the names of the modules. -/
def beginUpload (total : UInt64) (name : Bytes) : Act σ TransferClient (ℕ × List Bytes) := do
  mark .beginSend
  sendFrame link .uploadBegin (beginPayload total name)
  mark .ackRead
  let ack ← readFrame link kIdleTimeoutMs
  if ack.header.type = .error then throw (.refused 0 (serverErrorText ack.payload))
  if ack.header.type ≠ .uploadBeginAck then
    throw (.refused 0
      (ascii "expected UPLOAD_BEGIN_ACK but received " ++ msgName ack.header.type))
  match beginAckFields (.new ack.payload) with
  | none => throw (.refused 0 (ascii "malformed UPLOAD_BEGIN_ACK payload"))
  | some ((_, chunkSize, names), _) => pure (chunkSizeOf chunkSize, names)

/-- The upload of a file of `total` bytes, from UPLOAD_BEGIN on. It gives whether the connection is
kept. -/
def upload (fuel : ℕ) (file : LocalFile) (total : UInt64) : Act σ TransferClient Bool := do
  let (chunkSize, names) ← beginUpload link total file.name
  keep fun c ↦
    { c with
      state :=
        { c.state with
          totalBytes := total, moduleNames := names
          moduleCounts := List.replicate names.length 0, phase := .uploading } }
  if file.openError.isSome then throw (.localFile (ascii "cannot open file: " ++ file.path))
  match ← chunkLoop link total.toNat chunkSize fuel (.new file) 0 with
  | .cancelled => pure true
  | .ended sent bad =>
    if bad ∨ sent ≠ total.toNat then do
      sendCancelAndWait link fuel
      keep (setPhase .connected)
      pure true
    else do
      mark .endSend
      sendFrame link .uploadEnd (Client.PayloadWriter.u64 (UInt64.ofNat sent))
      keep (setPhase .waitingAnalysis)
      match ← awaitAnalysis link fuel with
      | none => pure true
      | some csvSize => do
        keep (setPhase .receivingResult)
        mark .resultRead
        receiveResult link fuel csvSize
        keep (setPhase .done)
        pure true

/-- What is shown when an upload begins. -/
def freshUpload (c : TransferClient) : TransferClient :=
  ⟨{ helloValid := true, connected := c.state.connected }, []⟩

/-- `do_upload`. It gives whether the connection is kept. -/
def doUpload (fuel : ℕ) (file : LocalFile) : Act σ TransferClient Bool := do
  keep freshUpload
  match file.size with
  | none => do
    keep (setPhase .connected)
    pure true
  | some total =>
    tryCatch (upload link fuel file total) fun e ↦
      if e = .spent then throw e
      else do
        keep (fail e.text)
        pure false

end Frames

end TransferClient

end LoggerAnalyzer
