import LoggerAnalyzer.Analyze.Aggregator
import LoggerAnalyzer.Client.Link
import LoggerAnalyzer.Text.Utf8

/-!
# The C# client

`UploadAsync` and everything it calls. An exception of the source is a `Failure`. A token that is
passed to a write or a read is looked at like the flag of the C++ client; where the source passes
`CancellationToken.None`, it is not. The payload reader is the server's but for strings, which are
decoded.

`ReadFrameOrCancelAsync` lets a read and the token race. The read goes on after a cancel, and what
it has taken from the socket by then is seen by nobody, so here it begins once the race is decided.

The log and the reports of progress are left out.
-/

namespace LoggerAnalyzer

/-- `UploadProgress`. -/
structure UploadProgress where
  totalBytes : Int64 := 0
  bytesSent : Int64 := 0
  bytesConsumed : Int64 := 0
  linesParsed : Int64 := 0
  acceptedLines : Int64 := 0
  rejectedLines : Int64 := 0
  spdSamples : Int64 := 0
  spdAverage : Bytes := []
  moduleNames : List Bytes := []
  moduleCounts : List Int64 := []
  statsRevision : ℕ := 0
deriving DecidableEq, Repr

/-- `AnalyzeResult`. -/
structure AnalyzeResult where
  totalBytes : Int64
  totalLines : Int64
  acceptedLines : Int64
  rejectedLines : Int64
  oversizeLines : Int64
  spdSamples : Int64
  spdAverage : Bytes
  elapsedMs : Int64
  peakRssKb : Int64
  csvSize : Int64
  csv : Bytes := []
deriving DecidableEq, Repr

/-- The connection: the progress of the upload, and whether it was disposed of. -/
structure ServerConnection where
  state : UploadProgress
  disposed : Bool
deriving DecidableEq, Repr

namespace ServerConnection

def cancelAckTimeoutMs : ℕ := 5000

def writeStallTimeoutMs : ℕ := 20000

def syncReadTimeoutMs : ℕ := 5000

def maxCsv : Int64 := 64 * 1024 * 1024

/-- The most bytes that a `MemoryStream` holds. -/
def maxStream : ℕ := 0x7FFFFFFF

/-- A signed number in decimal. -/
def decimalInt (n : Int64) : Bytes :=
  if n < 0 then ascii "-" ++ decimal n.toInt.natAbs else decimal n.toInt.natAbs

/-- The cast of a `ulong` to a `long`. -/
theorem toInt_toInt64 (v : UInt64) :
    v.toInt64.toInt = if v.toNat < 2 ^ 63 then (v.toNat : ℤ) else v.toNat - 2 ^ 64 := by
  change v.toBitVec.toInt = _
  rw [BitVec.toInt_eq_toNat_cond, UInt64.toNat_toBitVec]
  split_ifs <;> omega

theorem lt_zero_or_maxCsv_lt_iff (v : UInt64) :
    v.toInt64 < 0 ∨ maxCsv < v.toInt64 ↔ 64 * 1024 * 1024 < v.toNat := by
  have hlt := v.toNat_lt
  rw [Int64.lt_iff_toInt_lt, Int64.lt_iff_toInt_lt, toInt_toInt64,
    show Int64.toInt 0 = 0 from rfl, show maxCsv.toInt = 64 * 1024 * 1024 from rfl]
  split_ifs <;> omega

theorem eq_toInt64_iff (n : ℕ) (v : UInt64) :
    (n : ℤ) = v.toInt64.toInt ↔ v.toNat < 2 ^ 63 ∧ v.toNat = n := by
  have hlt := v.toNat_lt
  rw [toInt_toInt64]
  split_ifs <;> omega

/-- `Wire.Name`. -/
def wireName (t : MsgType) : Bytes :=
  if msgName t = ascii "UNKNOWN" then
    ascii "0x" ++ [hexDigit (t.byte.toNat / 16), hexDigit (t.byte.toNat % 16)]
  else msgName t

/-! ## Payloads -/

/-- A reader of payloads, run until a field is missing. -/
abbrev Fields := StateT PayloadReader Option

/-- A field that is there. -/
def field {α : Type} (read : PayloadReader → Option α × PayloadReader) : Fields α :=
  fun r ↦ match read r with
    | (some v, r) => some (v, r)
    | (none, _) => none

/-- `Str16`. -/
def str16 (r : PayloadReader) : Option Bytes × PayloadReader :=
  (r.str16.1.map getString, r.str16.2)

/-- The fields of an ERROR. -/
def errorFields : Fields (UInt16 × Bytes) := do
  let code ← field PayloadReader.u16
  let message ← field str16
  pure (code, message)

/-- `ThrowServerError`. -/
def serverError (payload : Bytes) : Failure :=
  match errorFields (.new payload) with
  | some ((code, message), _) =>
    .refused code (ascii "server error " ++ decimal code.toNat ++ ascii ": " ++ message)
  | none => .refused 0 (ascii "malformed ERROR payload")

/-- The loop of `ReadModuleNames`. -/
def moduleNamesLoop : ℕ → List Bytes → PayloadReader → List Bytes × PayloadReader
  | 0, names, r => (names, r)
  | count + 1, names, r =>
    match str16 r with
    | (some name, r) => moduleNamesLoop count (names ++ [name]) r
    | (none, r) => ([], r)

/-- `ReadModuleNames`. -/
def readModuleNames (r : PayloadReader) : List Bytes × PayloadReader :=
  match r.u8 with
  | (some count, r) =>
    if count.toNat = 0 ∨ 64 < count.toNat then ([], r) else moduleNamesLoop count.toNat [] r
  | (none, r) => ([], r)

/-- The fields of an UPLOAD_BEGIN_ACK: the id, the size of a chunk and the names of the modules. -/
def beginAckFields : Fields (UInt32 × UInt32 × List Bytes) := do
  let uploadId ← field PayloadReader.u32
  let chunkSize ← field PayloadReader.u32
  let names ← fun r ↦ some (readModuleNames r)
  pure (uploadId, chunkSize, names)

/-- The size of a chunk that is used: what is announced, unless it is out of range. -/
def chunkSizeOf (announced : UInt32) : ℕ :=
  if announced.toNat = 0 ∨ 4 * 1024 * 1024 < announced.toNat then 1024 * 1024
  else announced.toNat

/-- The loop over the counts of an UPLOAD_ACK, from index `i` on. -/
def moduleCountsLoop : ℕ → ℕ → List Int64 → PayloadReader → List Int64 × PayloadReader
  | 0, _, counts, r => (counts, r)
  | left + 1, i, counts, r =>
    match r.u64 with
    | (some c, r) => moduleCountsLoop left (i + 1) (counts.set i c.toInt64) r
    | (none, r) => (counts, r)

/-- The optional fields of an UPLOAD_ACK are taken as far as they are there. -/
def applyStats (r : PayloadReader) (s : UploadProgress) : UploadProgress × PayloadReader :=
  let accepted := r.u64
  let rejected := accepted.2.u64
  let spdN := rejected.2.u64
  let avg := str16 spdN.2
  let count := avg.2.u8
  let s :=
    { s with
      acceptedLines := (accepted.1.map UInt64.toInt64).getD s.acceptedLines
      rejectedLines := (rejected.1.map UInt64.toInt64).getD s.rejectedLines
      spdSamples := (spdN.1.map UInt64.toInt64).getD s.spdSamples
      spdAverage := avg.1.getD s.spdAverage }
  match count with
  | (some moduleCount, r) =>
    if 0 < moduleCount.toNat ∧ moduleCount.toNat ≤ 64 then
      let counts :=
        if s.moduleCounts.length ≠ moduleCount.toNat then List.replicate moduleCount.toNat 0
        else s.moduleCounts
      let read := moduleCountsLoop moduleCount.toNat 0 counts r
      ({ s with moduleCounts := read.1, statsRevision := s.statsRevision + 1 }, read.2)
    else ({ s with statsRevision := s.statsRevision + 1 }, r)
  | (none, r) => ({ s with statsRevision := s.statsRevision + 1 }, r)

/-- The fields of an UPLOAD_ACK, if the first two are there, and the reader at the end. -/
def uploadAckFields (payload : Bytes) (s : UploadProgress) :
    Option (UploadProgress × PayloadReader) :=
  let consumed := (PayloadReader.new payload).u64
  let lines := consumed.2.u64
  match consumed.1, lines.1 with
  | some consumed, some parsed =>
    some (applyStats lines.2
      { s with bytesConsumed := consumed.toInt64, linesParsed := parsed.toInt64 })
  | _, _ => none

/-- `ApplyUploadAck`. -/
def applyUploadAck (payload : Bytes) (c : ServerConnection) : ServerConnection :=
  match uploadAckFields payload c.state with
  | some (s, _) => { c with state := s }
  | none => c

/-- The fields of an ANALYZE_DONE. -/
def analyzeDoneFields : Fields AnalyzeResult := do
  let bytes ← field PayloadReader.u64
  let lines ← field PayloadReader.u64
  let accepted ← field PayloadReader.u64
  let rejected ← field PayloadReader.u64
  let oversize ← field PayloadReader.u64
  let spdN ← field PayloadReader.u64
  let avg ← field str16
  let elapsed ← field PayloadReader.u64
  let rss ← field PayloadReader.u64
  let csvSize ← field PayloadReader.u64
  pure
    { totalBytes := bytes.toInt64, totalLines := lines.toInt64, acceptedLines := accepted.toInt64
      rejectedLines := rejected.toInt64, oversizeLines := oversize.toInt64
      spdSamples := spdN.toInt64, spdAverage := avg, elapsedMs := elapsed.toInt64
      peakRssKb := rss.toInt64, csvSize := csvSize.toInt64 }

/-- What is shown once the analysis is done. -/
def applyAnalyzeDone (d : AnalyzeResult) (c : ServerConnection) : ServerConnection :=
  { c with
    state :=
      { c.state with
        bytesConsumed := d.totalBytes, linesParsed := d.totalLines
        acceptedLines := d.acceptedLines, rejectedLines := d.rejectedLines
        spdSamples := d.spdSamples, spdAverage := d.spdAverage
        statsRevision := c.state.statsRevision + 1 } }

/-! ## Frames -/

section Frames

variable {σ : Type} (link : Link σ)

open Act

/-- `EnsureUsable`. -/
def ensureUsable : Act σ ServerConnection Unit := do
  let e ← get
  if e.own.disposed then throw .disposed

/-- `SendFrameAsync`. The last look at the token is that of `FlushAsync`. -/
def sendFrameAsync (heeds : Bool) (type : MsgType) (payload : Bytes) :
    Act σ ServerConnection Unit := do
  ensureUsable
  sendAll link heeds writeStallTimeoutMs (encodeHeader (frameHeader type payload))
  if payload ≠ [] then sendAll link heeds writeStallTimeoutMs payload
  check link heeds
  modify (.complete type payload)

/-- The checks of `ReadFrameAsync`. -/
def refuse (h : FrameHeader) : Option Failure :=
  if h.magic ≠ kMagic then
    some (.refused 0 (ascii "bad magic from server: 0x" ++ (storeBe32 h.magic).flatMap fun b ↦
      [hexDigit (b.toNat / 16), hexDigit (b.toNat % 16)]))
  else if h.version ≠ kVersion then
    some (.refused 0
      (ascii "unsupported protocol version from server: " ++ decimal h.version.toNat))
  else if kMaxPayload < h.payloadLen.toNat then
    some (.refused 0 (ascii "payload too large from server: " ++ decimal h.payloadLen.toNat
      ++ ascii " bytes"))
  else none

/-- `ReadFrameAsync`. -/
def readFrameAsync (heeds : Bool) : Act σ ServerConnection Frame := do
  ensureUsable
  readFrameWith refuse (recvExactly link heeds syncReadTimeoutMs)
    (recvExactly link heeds syncReadTimeoutMs)

/-- The checks of `ReadFrameBlocking`. -/
def refuseBlocking (h : FrameHeader) : Option Failure :=
  if h.magic ≠ kMagic then some (.refused 0 (ascii "bad magic from server during upload"))
  else if h.version ≠ kVersion then
    some (.refused 0
      (ascii "unsupported protocol version from server: " ++ decimal h.version.toNat))
  else if kMaxPayload < h.payloadLen.toNat then
    some (.refused 0 (ascii "payload too large from server during upload"))
  else none

/-- `ReadFrameBlocking`. -/
def readFrameBlocking : Act σ ServerConnection Frame :=
  readFrameWith refuseBlocking (recvExactly link false syncReadTimeoutMs)
    (recvExactly link false syncReadTimeoutMs)

/-! ## Cancelling -/

/-- `Dispose`. -/
def dispose : Act σ ServerConnection Unit := keep fun c ↦ { c with disposed := true }

/-- The loop of `CancelAndDrainAsync`. -/
def drainLoop (deadline : ℕ) : ℕ → Act σ ServerConnection Unit
  | 0 => throw .spent
  | fuel + 1 => do
    let now ← ask link.now
    if deadline ≤ now then dispose
    else do
      let f ← readFrameAsync link false
      if f.header.type = .error then pure ()
      else if f.header.type = .resultEnd then pure ()
      else drainLoop deadline fuel

/-- An exception while draining is only logged. A read that goes on waiting runs into the
deadline. -/
def drainFailed (e : Failure) : Act σ ServerConnection Unit :=
  match e with
  | .spent => throw .spent
  | .idle _ => dispose
  | _ => pure ()

/-- `CancelAndDrainAsync`. -/
def cancelAndDrain (fuel : ℕ) : Act σ ServerConnection Unit := do
  let sent ← tryCatch (do
    sendFrameAsync link false .cancel []
    pure true) fun _ ↦ pure false
  if sent then
    tryCatch (do
      let now ← ask link.now
      drainLoop link (now + cancelAckTimeoutMs) fuel) drainFailed

/-- `ReadFrameOrCancelAsync`. -/
def readFrameOrCancel (fuel : ℕ) : Act σ ServerConnection Frame := do
  tryCatch (pause link true) fun e ↦ do
    cancelAndDrain link fuel
    throw e
  readFrameAsync link false

/-- What is done when the local file is not as it was said to be. -/
def abandon {α : Type} (fuel : ℕ) (message : Bytes) : Act σ ServerConnection α := do
  cancelAndDrain link fuel
  throw (.localFile message)

/-! ## The result -/

/-- The loop over the chunks of the result. -/
def receiveChunks : ℕ → Bytes → Act σ ServerConnection Bytes
  | 0, _ => throw .spent
  | fuel + 1, buffer => do
    let f ← readFrameOrCancel link fuel
    if f.header.type = .resultChunk then
      let buffer := buffer ++ f.payload
      if maxStream < buffer.length then throw (.recvFailed (ascii "Stream was too long."))
      else receiveChunks fuel buffer
    else if f.header.type = .resultEnd then pure buffer
    else if f.header.type = .error then throw (serverError f.payload)
    else throw (.refused 0 (ascii "unexpected message while receiving result.csv: "
      ++ wireName f.header.type))

/-- `ReceiveResultAsync`. The size that RESULT_BEGIN declares is compared as a signed number. -/
def receiveResult (fuel : ℕ) (expectedSize : Int64) : Act σ ServerConnection Bytes := do
  if expectedSize < 0 ∨ maxCsv < expectedSize then
    throw (.refused 0 (ascii "result.csv size is out of range: " ++ decimalInt expectedSize))
  let begin ← readFrameOrCancel link fuel
  if begin.header.type = .error then throw (serverError begin.payload)
  if begin.header.type ≠ .resultBegin then
    throw (.refused 0
      (ascii "expected RESULT_BEGIN but received " ++ wireName begin.header.type))
  match (PayloadReader.new begin.payload).u64.1 with
  | none => throw (.refused 0 (ascii "malformed RESULT_BEGIN payload"))
  | some declared => do
    if maxCsv < declared.toInt64 then
      throw (.refused 0 (ascii "result.csv too large: " ++ decimal declared.toNat))
    let buffer ← receiveChunks link fuel []
    if (buffer.length : ℤ) ≠ declared.toInt64.toInt then
      throw (.refused 0 (ascii "result.csv size mismatch: declared " ++ decimal declared.toNat
        ++ ascii " but received " ++ decimal buffer.length))
    pure (getString buffer)

/-! ## The upload -/

/-- `DrainServerMessages`. -/
def drainServerMessages : ℕ → Act σ ServerConnection Unit
  | 0 => throw .spent
  | fuel + 1 => do
    let available ← ask link.readable
    if available then do
      mark .drainRead
      let f ← readFrameBlocking link
      if f.header.type = .uploadAck then keep (applyUploadAck f.payload)
      else if f.header.type = .error then throw (serverError f.payload)
      drainServerMessages fuel
    else pure ()

/-- A chunk is sent, the header first. No token is passed to `WriteWithStallCheckAsync`. -/
def sendChunk (bytes : Bytes) : Act σ ServerConnection Unit := do
  sendAll link false writeStallTimeoutMs (encodeHeader (frameHeader .uploadChunk bytes))
  sendAll link false writeStallTimeoutMs bytes
  modify (.complete .uploadChunk bytes)

/-- The loop over the chunks. It gives how many bytes were sent. -/
def chunkLoop (total chunkSize : ℕ) : ℕ → Stream' FileRead → ℕ → Act σ ServerConnection ℕ
  | 0, _, _ => throw .spent
  | fuel + 1, reads, sent => do
    mark .chunkTop
    let cancel ← load link
    if cancel then do
      cancelAndDrain link fuel
      throw .cancelled
    else if total - sent = 0 then pure sent
    else match reads.head.error with
      | some why => abandon link fuel (ascii "local file read error: " ++ why)
      | none =>
        let bytes := reads.head.bytes.take (min chunkSize (total - sent))
        if bytes = [] then pure sent
        else do
          mark .chunkSend
          sendChunk link bytes
          let sent := sent + bytes.length
          keep fun c ↦ { c with state := { c.state with bytesSent := (UInt64.ofNat sent).toInt64 } }
          drainServerMessages link fuel
          chunkLoop total chunkSize fuel reads.tail sent

/-- The loop that waits for the analysis. -/
def awaitAnalysis : ℕ → Act σ ServerConnection AnalyzeResult
  | 0 => throw .spent
  | fuel + 1 => do
    mark .analysisRead
    let f ← readFrameOrCancel link fuel
    if f.header.type = .uploadAck then do
      keep (applyUploadAck f.payload)
      awaitAnalysis fuel
    else if f.header.type = .error then throw (serverError f.payload)
    else if f.header.type = .analyzeDone then
      match analyzeDoneFields (.new f.payload) with
      | none => throw (.refused 0 (ascii "malformed ANALYZE_DONE payload"))
      | some (d, _) => do
        keep (applyAnalyzeDone d)
        pure d
    else throw (.refused 0 (ascii "unexpected message while waiting for ANALYZE_DONE: "
      ++ wireName f.header.type))

/-- The payload of an UPLOAD_BEGIN. -/
def beginPayload (total : UInt64) (name : Bytes) : Bytes :=
  PayloadWriter.u64 total ++ PayloadWriter.str16 name

/-- An upload begins: the size of a chunk, and the names of the modules. -/
def beginUpload (total : UInt64) (name : Bytes) : Act σ ServerConnection (ℕ × List Bytes) := do
  mark .beginSend
  sendFrameAsync link true .uploadBegin (beginPayload total name)
  mark .ackRead
  let ack ← readFrameAsync link true
  if ack.header.type = .error then throw (serverError ack.payload)
  if ack.header.type ≠ .uploadBeginAck then
    throw (.refused 0
      (ascii "expected UPLOAD_BEGIN_ACK but received " ++ wireName ack.header.type))
  match beginAckFields (.new ack.payload) with
  | none => throw (.refused 0 (ascii "malformed UPLOAD_BEGIN_ACK payload"))
  | some ((_, chunkSize, names), _) => pure (chunkSizeOf chunkSize, names)

/-- The upload of a file of `total` bytes, from UPLOAD_BEGIN on. -/
def upload (fuel : ℕ) (file : LocalFile) (total : UInt64) :
    Act σ ServerConnection AnalyzeResult := do
  let (chunkSize, names) ← beginUpload link total file.name
  keep fun c ↦
    { c with
      state :=
        { totalBytes := total.toInt64, moduleNames := names
          moduleCounts := List.replicate names.length 0 } }
  match file.openError with
  | some why => abandon link fuel (ascii "cannot open file: " ++ why)
  | none => do
    let sent ← chunkLoop link total.toNat chunkSize fuel file.reads 0
    if sent ≠ total.toNat then
      abandon link fuel (ascii "file changed during upload: declared " ++ decimal total.toNat
        ++ ascii " bytes but could only read " ++ decimal sent)
    else do
      mark .endSend
      sendFrameAsync link true .uploadEnd (PayloadWriter.u64 (UInt64.ofNat sent))
      let result ← awaitAnalysis link fuel
      mark .resultRead
      let csv ← receiveResult link fuel result.csvSize
      pure { result with csv := csv }

/-- `UploadAsync`. -/
def uploadAsync (fuel : ℕ) (file : LocalFile) : Act σ ServerConnection AnalyzeResult := do
  ensureUsable
  match file.size with
  | none => throw (.localFile (ascii "file not found: " ++ file.path))
  | some total => upload link fuel file total

end Frames

end ServerConnection

end LoggerAnalyzer
