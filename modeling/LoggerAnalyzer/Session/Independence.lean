import LoggerAnalyzer.Session.Transport

/-!
# A connection's past

What a session did before an upload has no influence on the upload. Two sessions are `Alike` if they
differ only in what no later frame depends on: counters, the client's name, the header the decoder
had last, and, between uploads, all of the upload but the limit of its splitter. Each function of
the session keeps two sessions alike, and makes both send the same frames.

The past may still be on its way to the client. A session that is about to close does so when its
last write is done, so one with more writes pending is open for longer; `not_answers_pending` is a
case of it. So either as many writes are pending in both sessions, or none is done while a session
is about to close.
-/

namespace LoggerAnalyzer

open Conversation

namespace FrameDecoder

/-- The decoders are in the same place. Between two frames the last header does not count. -/
structure Alike (d d' : FrameDecoder) : Prop where
  state : d.state = d'.state
  headRaw : d.headRaw = d'.headRaw
  payload : d.payload = d'.payload
  streaming : d.streaming = d'.streaming
  header : d.state ≠ .header → d.header = d'.header
  payloadGot : d.state = .payload → d.payloadGot = d'.payloadGot

theorem Alike.of_at {d d' : FrameDecoder} (h : At d []) (h' : At d' []) : Alike d d' := by
  have hstart : ∀ {d : FrameDecoder}, At d [] →
      d.state = .header ∧ d.headRaw = [] ∧ d.payload = [] ∧ d.streaming = false := by
    rintro d (⟨-, state, raw, payload, streaming⟩ | full | inside)
    · exact ⟨state, raw, payload, streaming⟩
    · exact absurd full (by decide)
    · exact absurd inside.header_le (by decide)
  obtain ⟨hs, hr, hp, hst⟩ := hstart h
  obtain ⟨hs', hr', hp', hst'⟩ := hstart h'
  exact ⟨hs.trans hs'.symm, hr.trans hr'.symm, hp.trans hp'.symm, hst.trans hst'.symm,
    fun hne ↦ absurd hs hne, fun hp ↦ absurd (hs.symm.trans hp) (by simp)⟩

theorem Alike.resetFrame {d d' : FrameDecoder} : Alike d.resetFrame d'.resetFrame :=
  ⟨rfl, rfl, rfl, rfl, fun h ↦ absurd rfl h, by simp [FrameDecoder.resetFrame]⟩

/-- What one call of `feed` gives, for two decoders. -/
structure AdvancedAlike (r r' : Advanced) : Prop where
  status : r.status = r'.status
  consumed : r.consumed = r'.consumed
  piece : r.piece = r'.piece
  decoder : Alike r.decoder r'.decoder
  error : r.status = .failed → r.decoder.error = r'.decoder.error
  complete : r.status = .ready → r.decoder.state = .complete

theorem Alike.advancePayload {d d' : FrameDecoder} (h : Alike d d') (hstate : d.state = .payload)
    (data : Bytes) (consumed : ℕ) :
    AdvancedAlike (FrameDecoder.advancePayload data consumed d)
      (FrameDecoder.advancePayload data consumed d') := by
  obtain ⟨state, headRaw, header, payload, got, streaming, error⟩ := d
  obtain ⟨state', headRaw', header', payload', got', streaming', error'⟩ := d'
  obtain ⟨rfl, rfl, rfl, rfl, hheader, hgot⟩ := h
  obtain rfl : state = .payload := hstate
  obtain rfl : header = header' := hheader (by simp)
  obtain rfl : got = got' := hgot rfl
  rw [FrameDecoder.advancePayload, FrameDecoder.advancePayload]
  dsimp only
  split_ifs <;>
    exact ⟨rfl, rfl, rfl, ⟨rfl, rfl, rfl, rfl, fun _ ↦ rfl, fun _ ↦ rfl⟩, by simp, by simp⟩

theorem Alike.advance {d d' : FrameDecoder} (h : Alike d d') (answer : MsgType → UInt64 → Bool)
    (data : Bytes) :
    AdvancedAlike (FrameDecoder.advance answer data d) (FrameDecoder.advance answer data d') := by
  rw [FrameDecoder.advance, FrameDecoder.advance, ← h.state]
  cases hstate : d.state with
  | complete => exact ⟨rfl, rfl, rfl, h, by simp, fun _ ↦ hstate⟩
  | payload => exact h.advancePayload hstate data 0
  | header =>
    obtain ⟨state, headRaw, header, payload, got, streaming, error⟩ := d
    obtain ⟨state', headRaw', header', payload', got', streaming', error'⟩ := d'
    obtain ⟨rfl, rfl, rfl, rfl, -⟩ := h
    obtain rfl : state = .header := hstate
    dsimp only
    split
    -- The header is incomplete.
    · exact ⟨rfl, rfl, rfl, ⟨rfl, rfl, rfl, rfl, fun h ↦ absurd rfl h, by simp⟩, by simp, by simp⟩
    split
    · exact ⟨rfl, rfl, rfl, ⟨rfl, rfl, rfl, rfl, fun h ↦ absurd rfl h, by simp⟩, fun _ ↦ rfl,
        by simp⟩
    split
    · exact ⟨rfl, rfl, rfl, ⟨rfl, rfl, rfl, rfl, fun _ ↦ rfl, by simp⟩, by simp, fun _ ↦ rfl⟩
    · refine Alike.advancePayload ?_ rfl _ _
      exact ⟨rfl, rfl, rfl, rfl, fun _ ↦ rfl, fun _ ↦ rfl⟩

end FrameDecoder

namespace TcpSession

variable {D : Type}

/-- What comes from the stream of the client, and not from the timer or from closing. -/
def Event.isStream : Event → Bool
  | .read _ | .readEof | .readError | .written _ => true
  | .idleTimeout | .handleClosed => false

/-- The sessions go on alike. What they sent so far ends with the same frames after `before` and
`before'`, and as many writes are pending if `flushing` holds. -/
structure Alike (flushing : Prop) (before before' : List (MsgType × Bytes)) (s s' : TcpSession D) :
    Prop where
  config : s.config = s'.config
  env : s.env = s'.env
  decoder : FrameDecoder.Alike s.decoder s'.decoder
  state : s.state = s'.state
  closeAfterFlush : s.closeAfterFlush = s'.closeAfterFlush
  upload : s.state = .uploading → s.upload = s'.upload
  maxLine : s.upload.splitter.maxLine = s'.upload.splitter.maxLine
  sent : ∃ after, sentFrames s.timeline = before ++ after ∧
    sentFrames s'.timeline = before' ++ after
  writes : flushing → s.writes.length = s'.writes.length

namespace Alike

variable {flushing : Prop} {before before' : List (MsgType × Bytes)} {s s' : TcpSession D}

theorem note (h : Alike flushing before before' s s') (happening : Happening)
    (hother : ∀ type payload, happening ≠ .sent type payload) :
    Alike flushing before before' (s.note happening) (s'.note happening) := by
  obtain ⟨after, hafter, hafter'⟩ := h.sent
  refine { h with sent := ⟨after, ?_, ?_⟩ }
  · exact (sentFrames_other _ hother).trans hafter
  · exact (sentFrames_other _ hother).trans hafter'

theorem noteSent (h : Alike flushing before before' s s') (type : MsgType) (payload : Bytes) :
    Alike flushing before before' (s.note (.sent type payload)) (s'.note (.sent type payload)) := by
  obtain ⟨after, hafter, hafter'⟩ := h.sent
  refine { h with sent := ⟨after ++ [(type, payload)], ?_, ?_⟩ }
  · rw [TcpSession.note, sentFrames_append, hafter, List.append_assoc]
    rfl
  · rw [TcpSession.note, sentFrames_append, hafter', List.append_assoc]
    rfl

theorem enter (h : Alike flushing before before' s s') (state : SessionState)
    (upload : state = .uploading → s.upload = s'.upload) :
    Alike flushing before before' (s.enter state) (s'.enter state) := by
  have hstate :
    Alike flushing before before' { s with state := state } { s' with state := state } :=
    { h with state := rfl, upload := upload }
  exact hstate.note (.entered state) (by simp)

theorem flag (h : Alike flushing before before' s s') :
    Alike flushing before before' s.flag s'.flag := by
  have hflag : Alike flushing before before' { s with closeAfterFlush := true }
      { s' with closeAfterFlush := true } := { h with closeAfterFlush := rfl }
  exact hflag.note .flagged (by simp)

/-- An upload takes the place of the one there was. -/
theorem setUpload (h : Alike flushing before before' s s') {u u' : UploadState D}
    (upload : s.state = .uploading → u = u') (maxLine : u.splitter.maxLine = u'.splitter.maxLine) :
    Alike flushing before before' { s with upload := u } { s' with upload := u' } :=
  { h with upload := upload, maxLine := maxLine }

/-- A write is pending. -/
theorem queue (h : Alike flushing before before' s s') (frame : Bytes) :
    Alike flushing before before' { s with writes := s.writes ++ [frame] }
      { s' with writes := s'.writes ++ [frame] } :=
  { h with
    writes := fun hflushing ↦ by
      rw [List.length_append, List.length_append, h.writes hflushing] }

/-- A write is done. -/
theorem dequeue (h : Alike flushing before before' s s') :
    Alike flushing before before' { s with writes := s.writes.tail }
      { s' with writes := s'.writes.tail } :=
  { h with
    writes := fun hflushing ↦ by
      rw [List.length_tail, List.length_tail, h.writes hflushing] }

/-! ## Readings -/

theorem takeHrtime (h : Alike flushing before before' s s') :
    s.takeHrtime.1 = s'.takeHrtime.1 ∧
      Alike flushing before before' s.takeHrtime.2 s'.takeHrtime.2 := by
  rw [TcpSession.takeHrtime, TcpSession.takeHrtime, h.env]
  exact ⟨rfl, { h with env := rfl }⟩

theorem takePeakRss (h : Alike flushing before before' s s') :
    s.takePeakRss.1 = s'.takePeakRss.1 ∧
      Alike flushing before before' s.takePeakRss.2 s'.takePeakRss.2 := by
  rw [TcpSession.takePeakRss, TcpSession.takePeakRss, h.env]
  exact ⟨rfl, { h with env := rfl }⟩

theorem takeUtcNow (h : Alike flushing before before' s s') :
    s.takeUtcNow.1 = s'.takeUtcNow.1 ∧
      Alike flushing before before' s.takeUtcNow.2 s'.takeUtcNow.2 := by
  rw [TcpSession.takeUtcNow, TcpSession.takeUtcNow, h.env]
  exact ⟨rfl, { h with env := rfl }⟩

theorem takeUvWrite (h : Alike flushing before before' s s') :
    s.takeUvWrite.1 = s'.takeUvWrite.1 ∧
      Alike flushing before before' s.takeUvWrite.2 s'.takeUvWrite.2 := by
  rw [TcpSession.takeUvWrite, TcpSession.takeUvWrite, h.env]
  exact ⟨rfl, { h with env := rfl }⟩

/-! ## Closing and sending -/

variable [DoubleOps D]

theorem reportPartialUpload (h : Alike flushing before before' s s') (upload : s.upload = s'.upload)
    (headline : Bytes) :
    (s.reportPartialUpload headline).1 = (s'.reportPartialUpload headline).1 ∧
      Alike flushing before before' (s.reportPartialUpload headline).2
        (s'.reportPartialUpload headline).2 := by
  obtain ⟨hclock, hnext⟩ := h.takeHrtime
  rw [TcpSession.reportPartialUpload, TcpSession.reportPartialUpload, upload]
  dsimp only
  split_ifs
  · obtain ⟨hrss, hlast⟩ := hnext.takePeakRss
    rw [hclock, hrss]
    exact ⟨rfl, hlast⟩
  · obtain ⟨hrss, hlast⟩ := h.takePeakRss
    rw [hrss]
    exact ⟨rfl, hlast⟩
  · obtain ⟨hrss, hlast⟩ := hnext.takePeakRss
    rw [hclock, hrss]
    exact ⟨rfl, hlast⟩
  · obtain ⟨hrss, hlast⟩ := h.takePeakRss
    rw [hrss]
    exact ⟨rfl, hlast⟩

omit [DoubleOps D] in
theorem closeHandles (h : Alike flushing before before' s s') :
    Alike flushing before before' s.closeHandles s'.closeHandles := by
  have hclosed : ∀ {t t' : TcpSession D}, Alike flushing before before' t t' →
      Alike flushing before before' (if t.pendingClose = 0 then t.note .sessionClosed else t)
        (if t'.pendingClose = 0 then t'.note .sessionClosed else t') := by
    intro t t' ht
    have hnote : ∀ {t : TcpSession D}, sentFrames (t.note .sessionClosed).timeline
        = sentFrames t.timeline := sentFrames_other _ (by simp)
    obtain ⟨after, hafter, hafter'⟩ := ht.sent
    split_ifs
    · exact ht.note _ (by simp)
    · exact { ht with sent := ⟨after, hnote.trans hafter, hafter'⟩ }
    · exact { ht with sent := ⟨after, hafter, hnote.trans hafter'⟩ }
    · exact ht
  have hhandles : ∀ {t : TcpSession D}, t.closeHandles
      = let t := if t.handlesClosing then { t with timer := none }
          else { t with timer := none, handlesClosing := true, pendingClose := t.pendingClose + 2 }
        if t.pendingClose = 0 then t.note .sessionClosed else t := by
    intro t
    rfl
  rw [hhandles, hhandles]
  apply hclosed
  split_ifs <;> exact { h with }

theorem close (h : Alike flushing before before' s s') :
    Alike flushing before before' s.close s'.close := by
  rw [TcpSession.close, TcpSession.close, ← h.state]
  split_ifs with hclosing hup
  · exact h
  · have hentered := h.enter .closing (by simp)
    exact (hentered.reportPartialUpload (h.upload hup) _).2.closeHandles
  · exact (h.enter .closing (by simp)).closeHandles

theorem send (h : Alike flushing before before' s s') (type : MsgType) (payload : Bytes) :
    Alike flushing before before' (s.send type payload) (s'.send type payload) := by
  obtain ⟨hanswer, hnext⟩ := h.takeUvWrite
  rw [TcpSession.send, TcpSession.send, ← h.state]
  split_ifs
  · exact h
  · rcases hs : s.takeUvWrite with ⟨ok, t⟩
    rcases hs' : s'.takeUvWrite with ⟨ok', t'⟩
    rw [hs, hs'] at hanswer hnext
    obtain rfl : ok = ok' := hanswer
    cases ok with
    | true =>
      exact (hnext.queue _).noteSent type payload
    | false => exact hnext.close

theorem sendError (h : Alike flushing before before' s s') (code : ErrorCode) (message : Bytes) :
    Alike flushing before before' (s.sendError code message) (s'.sendError code message) :=
    h.send ..

omit [DoubleOps D] in
theorem touchIdle (h : Alike flushing before before' s s') :
    Alike flushing before before' s.touchIdle s'.touchIdle := by
  rw [TcpSession.touchIdle, TcpSession.touchIdle, ← h.state]
  split_ifs
  · exact h
  · exact { h with state := rfl }
  · exact { h with state := rfl }

/-! ## The upload -/

theorem abortUpload (h : Alike flushing before before' s s') (upload : s.upload = s'.upload)
    (code : ErrorCode) (message : Bytes) :
    Alike flushing before before' (s.abortUpload code message) (s'.abortUpload code message) := by
  obtain ⟨htext, hreport⟩ := h.reportPartialUpload upload message
  have hsent := (hreport.enter .ready (by simp)).sendError code (s.reportPartialUpload message).1
  rw [TcpSession.abortUpload, TcpSession.abortUpload, ← htext]
  split_ifs
  · refine hsent.setUpload (fun hup ↦ ?_) hsent.maxLine
    exact absurd hup (sends_report code message s).idle
  · exact hsent.flag

theorem acknowledge (h : Alike flushing before before' s s') (upload : s.upload = s'.upload) :
    Alike flushing before before' s.acknowledge s'.acknowledge := by
  rw [TcpSession.acknowledge, TcpSession.acknowledge, ← upload]
  split_ifs
  · have hmark := h.setUpload (u := { s.upload with lastAckAt := s.upload.received })
      (fun _ ↦ rfl) rfl
    exact hmark.takeHrtime.2.send ..
  · exact h

theorem payloadChunk (h : Alike flushing before before' s s') (piece : Bytes) :
    Alike flushing before before' (s.payloadChunk piece) (s'.payloadChunk piece) := by
  rw [TcpSession.payloadChunk, TcpSession.payloadChunk]
  by_cases hup : s.state = .uploading
  · rw [if_neg (not_not.mpr hup), if_neg (not_not.mpr (h.state.symm.trans hup)), ← h.upload hup]
    have hcounted := h.setUpload (u := counted piece s.upload) (fun _ ↦ rfl) rfl
    have hfed := h.setUpload (u := (counted piece s.upload).feed piece) (fun _ ↦ rfl) rfl
    dsimp only
    split_ifs
    · exact hcounted.abortUpload rfl ..
    · exact (hfed.note (.fed piece) (by simp)).acknowledge rfl
  · rw [if_pos hup, if_pos fun hup' ↦ hup (h.state.trans hup')]
    exact h

theorem sendResultCsv (h : Alike flushing before before' s s') (upload : s.upload = s'.upload) :
    Alike flushing before before' s.sendResultCsv s'.sendResultCsv := by
  have hchunks : ∀ (chunks : List Bytes) {t t' : TcpSession D}, Alike flushing before before' t t' →
      Alike flushing before before' (chunks.foldl (fun s c ↦ s.send .resultChunk c) t)
        (chunks.foldl (fun s c ↦ s.send .resultChunk c) t') := by
    intro chunks
    induction chunks with
    | nil => exact fun ht ↦ ht
    | cons chunk chunks ih => exact fun ht ↦ ih (ht.send ..)
  rw [TcpSession.sendResultCsv, TcpSession.sendResultCsv, ← upload]
  exact (hchunks _ (h.send ..)).send ..

/-! ## Dispatching frames -/

omit [DoubleOps D] in
/-- The client's name does not count. -/
theorem setClientName (h : Alike flushing before before' s s') (name : Bytes) :
    Alike flushing before before' { s with clientName := name } { s' with clientName := name } :=
    { h with }

theorem handleHello (h : Alike flushing before before' s s') :
    Alike flushing before before' s.handleHello.1 s'.handleHello.1 ∧
      s.handleHello.2 = s'.handleHello.2 := by
  rw [handleHello_eq, handleHello_eq, ← h.decoder.payload]
  cases helloFields s.decoder.payload with
  | none => exact ⟨(h.sendError ..).flag, rfl⟩
  | some name =>
    have hready := (h.setClientName name).enter .ready (by simp)
    have hsent := hready.send .helloAck (helloAckPayload s)
    refine ⟨?_, rfl⟩
    dsimp only
    rw [show helloAckPayload (TcpSession.enter .ready { s' with clientName := name })
      = helloAckPayload s by rw [helloAckPayload, helloAckPayload, ← hready.config]; rfl]
    exact hsent

theorem beginUpload (h : Alike flushing before before' s s') (total : ℕ) (name : Bytes) :
    Alike flushing before before' (s.beginUpload total name) (s'.beginUpload total name) ∧
      (s.beginUpload total name).upload = (s'.beginUpload total name).upload := by
  obtain ⟨hclock, hnext⟩ := h.takeHrtime
  have hsplitter : s.upload.splitter.reset = s'.upload.splitter.reset := by
    rw [LineSplitter.reset, LineSplitter.reset, h.maxLine]
  rw [TcpSession.beginUpload, TcpSession.beginUpload, ← hclock, ← h.config, ← hsplitter]
  exact ⟨(hnext.setUpload (fun _ ↦ rfl) rfl).enter .uploading fun _ ↦ rfl, rfl⟩

theorem handleUploadBegin (h : Alike flushing before before' s s') :
    Alike flushing before before' s.handleUploadBegin.1 s'.handleUploadBegin.1 ∧
      s.handleUploadBegin.2 = s'.handleUploadBegin.2 := by
  rw [handleUploadBegin_eq, handleUploadBegin_eq, ← h.decoder.payload]
  cases uploadBeginFields s.decoder.payload with
  | none => exact ⟨(h.sendError ..).flag, rfl⟩
  | some fields =>
    obtain ⟨total, name⟩ := fields
    dsimp only
    split_ifs
    · exact ⟨h.sendError .., rfl⟩
    · obtain ⟨hbegun, hupload⟩ := h.beginUpload total name
      refine ⟨?_, rfl⟩
      dsimp only
      rw [uploadBeginAckPayload, uploadBeginAckPayload, ← hupload]
      exact hbegun.send ..

theorem analyze (h : Alike flushing before before' s s') (upload : s.upload = s'.upload) :
    s.analyze.1 = s'.analyze.1 ∧ s.analyze.2.1 = s'.analyze.2.1 ∧
      s.analyze.2.2.upload = s'.analyze.2.2.upload ∧
      Alike flushing before before' s.analyze.2.2 s'.analyze.2.2 := by
  obtain ⟨hclock, hclocked⟩ := h.takeHrtime
  obtain ⟨hrss, hmeasured⟩ := hclocked.takePeakRss
  obtain ⟨hutc, hdated⟩ := hmeasured.takeUtcNow
  rw [TcpSession.analyze, TcpSession.analyze]
  dsimp only
  rw [← hclock, ← hrss, ← hutc, ← upload]
  exact ⟨rfl, rfl, rfl, hdated.setUpload (fun _ ↦ rfl) rfl⟩

theorem finishUpload (h : Alike flushing before before' s s') (upload : s.upload = s'.upload) :
    Alike flushing before before' s.finishUpload s'.finishUpload := by
  obtain ⟨helapsed, hrss, hupload, hanalyzed⟩ := h.analyze upload
  have hkept : ∀ (t : TcpSession D) type payload, (t.send type payload).upload = t.upload :=
    fun t type payload ↦ (sends_send type payload t).kept.upload
  rw [TcpSession.finishUpload, TcpSession.finishUpload]
  rcases hs : s.analyze with ⟨elapsedMs, rss, t⟩
  rcases hs' : s'.analyze with ⟨elapsedMs', rss', t'⟩
  rw [hs, hs'] at helapsed hrss hupload hanalyzed
  obtain rfl : elapsedMs = elapsedMs' := helapsed
  obtain rfl : rss = rss' := hrss
  have hupload : t.upload = t'.upload := hupload
  dsimp only
  rw [← hupload]
  refine ((hanalyzed.send _ _).sendResultCsv ?_).enter .ready (by simp)
  rw [hkept, hkept, hupload]

theorem handleUploadEnd (h : Alike flushing before before' s s') (upload : s.upload = s'.upload) :
    Alike flushing before before' s.handleUploadEnd.1 s'.handleUploadEnd.1 ∧
      s.handleUploadEnd.2 = s'.handleUploadEnd.2 := by
  rw [TcpSession.handleUploadEnd, TcpSession.handleUploadEnd, ← h.decoder.payload, ← upload]
  split
  · refine ⟨?_, rfl⟩
    dsimp only
    exact h.abortUpload upload ..
  · split_ifs
    · refine ⟨?_, rfl⟩
      dsimp only
      exact h.abortUpload upload ..
    · exact ⟨h.finishUpload upload, rfl⟩

theorem dispatchFrame (h : Alike flushing before before' s s')
    (complete : s.decoder.state = .complete) :
    Alike flushing before before' s.dispatchFrame.1 s'.dispatchFrame.1 ∧
      s.dispatchFrame.2 = s'.dispatchFrame.2 := by
  have hheader := h.decoder.header (by rw [complete]; decide)
  have ht := h.note (.received s.decoder.header s.decoder.payload) (by simp)
  rw [TcpSession.dispatchFrame, TcpSession.dispatchFrame, ← hheader, ← h.decoder.payload]
  generalize s.note (.received s.decoder.header s.decoder.payload) = t at ht ⊢
  generalize s'.note (.received s.decoder.header s.decoder.payload) = t' at ht ⊢
  rw [← ht.state, ← ht.decoder.streaming]
  cases hstate : t.state with
  | awaitHello =>
    dsimp only
    split_ifs
    · exact ⟨(ht.sendError ..).flag, rfl⟩
    · exact ht.handleHello
  | ready =>
    dsimp only
    split_ifs
    · exact ⟨ht.close, rfl⟩
    · exact ht.handleUploadBegin
    · exact ⟨ht, rfl⟩
    · exact ⟨ht.sendError .., rfl⟩
  | uploading =>
    have upload := ht.upload hstate
    dsimp only
    split_ifs
    · refine ⟨?_, rfl⟩
      dsimp only
      exact ht.abortUpload upload ..
    · exact ⟨ht, rfl⟩
    · exact ht.handleUploadEnd upload
    · refine ⟨?_, rfl⟩
      dsimp only
      exact ht.abortUpload upload ..
    · refine ⟨?_, rfl⟩
      dsimp only
      exact ht.abortUpload upload ..
  | closing => exact ⟨ht, rfl⟩

/-! ## A read -/

omit [DoubleOps D] in
theorem setDecoder (h : Alike flushing before before' s s') {d d' : FrameDecoder}
    (hd : FrameDecoder.Alike d d') :
    Alike flushing before before' { s with decoder := d } { s' with decoder := d' } :=
  { h with decoder := hd }

omit [DoubleOps D] in
theorem countFrame (h : Alike flushing before before' s s') :
    Alike flushing before before' { s with rxFrames := s.rxFrames + 1 }
      { s' with rxFrames := s'.rxFrames + 1 } := { h with }

omit [DoubleOps D] in
theorem countBytes (h : Alike flushing before before' s s') (data : Bytes) :
    Alike flushing before before' { s with rxBytes := s.rxBytes + data.length }
      { s' with rxBytes := s'.rxBytes + data.length } := { h with }

theorem handOver (h : Alike flushing before before' s s') (piece : Option Bytes) :
    Alike flushing before before' (FrameDecoder.handOver (some sink) piece s)
      (FrameDecoder.handOver (some sink) piece s') := by
  cases piece with
  | none => exact h
  | some piece => exact h.payloadChunk piece

theorem turn (h : Alike flushing before before' s s') (data : Bytes) :
    Alike flushing before before' (s.turn data).1 (s'.turn data).1 ∧
    (s.turn data).2 = (s'.turn data).2 := by
  have hasks : FrameDecoder.asks (some sink) s = FrameDecoder.asks (some sink) s' := by
    funext type length
    change streamPayload type length s = streamPayload type length s'
    rw [streamPayload, streamPayload, h.state]
  obtain ⟨hstatus, hconsumed, hpiece, hdecoder, herror, hcomplete⟩ :=
    h.decoder.advance (FrameDecoder.asks (some sink) s) data
  rw [TcpSession.turn, TcpSession.turn, FrameDecoder.feed_eq, FrameDecoder.feed_eq, ← hasks]
  dsimp only
  rw [← hstatus, ← hconsumed, ← hpiece]
  have hfed := (h.handOver (FrameDecoder.advance (FrameDecoder.asks (some sink) s) data
    s.decoder).piece).setDecoder hdecoder
  cases hst : (FrameDecoder.advance (FrameDecoder.asks (some sink) s) data s.decoder).status with
  | needMore => exact ⟨hfed, rfl⟩
  | failed =>
    refine ⟨?_, rfl⟩
    dsimp only
    rw [← herror hst]
    exact (hfed.sendError ..).flag
  | ready =>
    obtain ⟨hdispatched, hgoesOn⟩ := (hfed.countFrame).dispatchFrame (hcomplete hst)
    dsimp only
    rw [← hgoesOn]
    exact ⟨hdispatched.setDecoder .resetFrame, rfl⟩

theorem process (h : Alike flushing before before' s s') (fuel : ℕ) (data : Bytes) :
    Alike flushing before before' (TcpSession.process fuel data s)
    (TcpSession.process fuel data s') := by
  induction fuel generalizing data s s' with
  | zero => exact h
  | succ fuel ih =>
    obtain ⟨hturn, hleft⟩ := h.turn data
    rw [TcpSession.process, TcpSession.process, ← h.state]
    split_ifs
    · exact h
    · rcases hs : s.turn data with ⟨t, left⟩
      rcases hs' : s'.turn data with ⟨t', left'⟩
      rw [hs, hs'] at hturn hleft
      obtain rfl : left = left' := hleft
      cases left with
      | none => exact hturn
      | some data => exact ih hturn data

theorem onRead (h : Alike flushing before before' s s') (data : Bytes) :
    Alike flushing before before' (s.onRead data) (s'.onRead data) :=
  ((h.countBytes data).process data.length data).touchIdle

/-- A write is done. It counts how many there are only if the sessions are about to close. -/
theorem onWrite (h : Alike flushing before before' s s') {ok : Bool}
    (flushed : flushing ∨ (ok = true → s.closeAfterFlush = false)) :
    Alike flushing before before' (s.onWrite ok) (s'.onWrite ok) := by
  have hdone := h.dequeue
  rw [TcpSession.onWrite, TcpSession.onWrite]
  dsimp only
  cases ok with
  | false =>
    rw [if_pos (by decide), if_pos (by decide)]
    exact hdone.close
  | true =>
    have hcloses : (s.closeAfterFlush && s.writes.tail.isEmpty)
        = (s'.closeAfterFlush && s'.writes.tail.isEmpty) := by
      rw [← h.closeAfterFlush]
      rcases flushed with hflushing | hunflagged
      · have hempty : s.writes.tail.isEmpty = s'.writes.tail.isEmpty := by
          rw [Bool.eq_iff_iff, List.isEmpty_iff_length_eq_zero, List.isEmpty_iff_length_eq_zero,
            hdone.writes hflushing]
        rw [hempty]
      · rw [hunflagged rfl, Bool.false_and, Bool.false_and]
    have hfine : ¬((!true) = true) := by decide
    rw [if_neg hfine, if_neg hfine, hcloses]
    split_ifs
    · exact hdone.close
    · exact hdone

theorem step (h : Alike flushing before before' s s') {event : Event} (stream : event.isStream)
    (flushed : flushing ∨ (event = .written true → s.closeAfterFlush = false)) :
    Alike flushing before before' (s.step event) (s'.step event) := by
  cases event with
  | read data => exact h.onRead data
  | readEof => exact h.close
  | readError => exact h.close
  | written ok => exact h.onWrite (flushed.imp_right fun hflag hok ↦ hflag (congrArg _ hok))
  | idleTimeout => exact absurd stream (by decide)
  | handleClosed => exact absurd stream (by decide)

/-- **What comes from the stream keeps sessions alike.** -/
theorem run (h : Alike flushing before before' s s') {events : List Event}
    (stream : ∀ e ∈ events, e.isStream)
    (flushed : flushing ∨ ∀ earlier later, events = earlier ++ .written true :: later →
      (s.run earlier).closeAfterFlush = false) :
    Alike flushing before before' (s.run events) (s'.run events) := by
  induction events generalizing s s' with
  | nil => exact h
  | cons e events ih =>
    rw [List.forall_mem_cons] at stream
    refine ih (h.step stream.1 (flushed.imp_right fun hflag he ↦ ?_)) stream.2
      (flushed.imp_right fun hflag earlier later heq ↦ ?_)
    · exact hflag [] events (congrArg (· :: events) he)
    · exact hflag (e :: earlier) later (congrArg (e :: ·) heq)

end Alike

variable [DoubleOps D]

/-- The sessions answer what happens with the same frames, and end in the same state. -/
def SameAnswers (s s' : TcpSession D) (events : List Event) : Prop :=
  ∃ answers,
    sentFrames (s.run events).timeline = sentFrames s.timeline ++ answers ∧
    sentFrames (s'.run events).timeline = sentFrames s'.timeline ++ answers ∧
    (s.run events).state = (s'.run events).state ∧
    (s.run events).closeAfterFlush = (s'.run events).closeAfterFlush

/-- **A session's past does not count.** Two sessions of one configuration that are ready, at the
boundary of a frame and not about to close, given the same reads, the same ends of writes in between
and the same readings, send the same frames and end in the same state: if as many writes are pending
in both, or if no write is done while a session is about to close. -/
theorem sameAnswers_of_ready {config config' : SessionConfig} {env env' : Env} {s s' : TcpSession D}
    (reached : Reached config env s) (reached' : Reached config' env' s')
    (same : s.config = s'.config) (readings : s.env = s'.env)
    (ready : s.state = .ready) (ready' : s'.state = .ready)
    (boundary : FrameDecoder.At s.decoder [])
    (boundary' : FrameDecoder.At s'.decoder [])
    (unflagged : s.closeAfterFlush = false) (unflagged' : s'.closeAfterFlush = false)
    {events : List Event} (stream : ∀ e ∈ events, e.isStream)
    (flushed : s.writes.length = s'.writes.length ∨
      ∀ earlier later, events = earlier ++ .written true :: later →
        (s.run earlier).closeAfterFlush = false) : SameAnswers s s' events := by
  have halike : Alike (s.writes.length = s'.writes.length) (sentFrames s.timeline)
      (sentFrames s'.timeline) s s' :=
    { config := same, env := readings, decoder := .of_at boundary boundary'
      state := ready.trans ready'.symm, closeAfterFlush := unflagged.trans unflagged'.symm
      upload := fun hup ↦ absurd (ready.symm.trans hup) (by simp)
      maxLine := reached.analysed.maxLine.trans reached'.analysed.maxLine.symm
      sent := ⟨[], (List.append_nil _).symm, (List.append_nil _).symm⟩, writes := id }
  have hend := halike.run stream flushed
  obtain ⟨answers, hsent, hsent'⟩ := hend.sent
  exact ⟨answers, hsent, hsent', hend.state, hend.closeAfterFlush⟩

/-! ## After an upload that was cancelled -/

/-- A client says hello. -/
def helloRead : Bytes :=
  serializeFrame .hello (PayloadWriter.u16 1 ++ PayloadWriter.str16 (ascii "client"))

/-- An upload of so many bytes begins. -/
def beginRead (total : UInt64) : Bytes :=
  serializeFrame .uploadBegin (PayloadWriter.u64 total ++ PayloadWriter.str16 (ascii "log.txt"))

/-- An UPLOAD_BEGIN with no fields. -/
def malformedRead : Bytes := serializeFrame .uploadBegin []

/-- A client was greeted. -/
def greetedSession : TcpSession ℚ :=
  (start plainConfig calmEnv).run [.read helloRead, .written true]

/-- A client was greeted, and what it does then is answered by frames that are all written. -/
def cancelledSession : TcpSession ℚ :=
  greetedSession.run [.read (beginRead 5 ++ serializeFrame .cancel []), .written true,
    .written true]

/-- A client was greeted, and was told that an upload may not be empty; this is on its way. -/
def rebukedSession : TcpSession ℚ := greetedSession.run [.read (beginRead 0)]

theorem reached_greetedSession (events : List Event) :
    Reached plainConfig calmEnv (greetedSession.run events) := by
  refine ⟨[.read helloRead, .written true] ++ events, .inl ?_⟩
  exact (List.foldl_append (f := TcpSession.step) ..).symm

theorem config_env_greetedSession : greetedSession.config = plainConfig ∧
    greetedSession.env = calmEnv := ⟨rfl, rfl⟩

private theorem config_env_cancelledSession : cancelledSession.config = plainConfig ∧
    cancelledSession.env = calmEnv := ⟨rfl, rfl⟩

private theorem config_env_rebukedSession : rebukedSession.config = plainConfig ∧
    rebukedSession.env = calmEnv := ⟨rfl, rfl⟩

/-- Between two frames the decoder has nothing. -/
theorem at_nil {d : FrameDecoder} (state : d.state = .header) (raw : d.headRaw = [])
    (payload : d.payload = []) (streaming : d.streaming = false) : FrameDecoder.At d [] :=
  .head (by decide) state raw payload streaming

theorem at_greetedSession : FrameDecoder.At greetedSession.decoder [] :=
  at_nil (by decide +kernel) (by decide +kernel) (by decide +kernel) (by decide +kernel)

/-- After a cancelled upload all is as after the hello: another upload, and a frame that is no good,
to the end of the session. -/
theorem sameAnswers_of_ready_cancelled : SameAnswers greetedSession cancelledSession
    [.read (beginRead 7), .written true, .read (serializeFrame .cancel [] ++ malformedRead),
      .written true, .written true] :=
  sameAnswers_of_ready (reached_greetedSession []) (reached_greetedSession _)
    (config_env_greetedSession.1.trans config_env_cancelledSession.1.symm)
    (config_env_greetedSession.2.trans config_env_cancelledSession.2.symm)
    (by decide +kernel) (by decide +kernel) at_greetedSession
    (at_nil (by decide +kernel) (by decide +kernel) (by decide +kernel) (by decide +kernel))
    (by decide +kernel) (by decide +kernel) (by decide) (.inl (by decide +kernel))

/-- A frame that is no good, the end of a write, and another upload. -/
def malformedAmid : List Event := [.read malformedRead, .written true, .read (beginRead 5)]

/-- With a frame of its past on its way, a session outlives the end of a write at which it would
have closed, and answers once more. -/
theorem not_sameAnswers_pending :
    Reached plainConfig calmEnv greetedSession ∧ Reached plainConfig calmEnv rebukedSession ∧
      greetedSession.config = rebukedSession.config ∧ greetedSession.env = rebukedSession.env ∧
      greetedSession.state = .ready ∧ rebukedSession.state = .ready ∧
      FrameDecoder.At greetedSession.decoder [] ∧ FrameDecoder.At rebukedSession.decoder [] ∧
      greetedSession.closeAfterFlush = false ∧ rebukedSession.closeAfterFlush = false ∧
      greetedSession.writes = [] ∧ rebukedSession.writes.length = 1 ∧
      (sentFrames (greetedSession.run malformedAmid).timeline).map Prod.fst
        = [.helloAck, .error] ∧
      (sentFrames (rebukedSession.run malformedAmid).timeline).map Prod.fst
        = [.helloAck, .error, .error, .uploadBeginAck] ∧
      ¬ SameAnswers greetedSession rebukedSession malformedAmid := by
  have hclosing : (greetedSession.run malformedAmid).state = .closing := by decide +kernel
  have huploading : (rebukedSession.run malformedAmid).state = .uploading := by decide +kernel
  refine ⟨reached_greetedSession [], reached_greetedSession _,
    config_env_greetedSession.1.trans config_env_rebukedSession.1.symm,
    config_env_greetedSession.2.trans config_env_rebukedSession.2.symm, by decide +kernel,
    by decide +kernel, at_greetedSession,
    at_nil (by decide +kernel) (by decide +kernel) (by decide +kernel) (by decide +kernel),
    by decide +kernel, by decide +kernel, by decide +kernel, by decide +kernel, by decide +kernel,
    by decide +kernel, ?_⟩
  rintro ⟨answers, -, -, hstate, -⟩
  exact absurd (hclosing.symm.trans (hstate.trans huploading)) (by decide)

end TcpSession

end LoggerAnalyzer
