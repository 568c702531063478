import LoggerAnalyzer.Session.Delivery

/-!
# Transport does not show

A client that uploads a file sends a HELLO, announces the size, sends the file in chunks and ends
the upload. `uploadFrames` are these frames. How the file is cut into chunks, and how the network
cuts the bytes of the frames into reads, does not show in what the server makes of the file:
`upload_transparent`.
-/

namespace LoggerAnalyzer

open Conversation TcpSession

/-- The payload of a HELLO. -/
def helloPayload (version : UInt16) (client : Bytes) : Bytes :=
  PayloadWriter.u16 version ++ PayloadWriter.str16 client

/-- The payload of an UPLOAD_BEGIN. -/
def uploadBeginPayload (total : ℕ) (name : Bytes) : Bytes :=
  PayloadWriter.u64 (UInt64.ofNat total) ++ PayloadWriter.str16 name

/-- The payload of an UPLOAD_END. -/
def uploadEndPayload (total : ℕ) : Bytes := PayloadWriter.u64 (UInt64.ofNat total)

/-- The frames of an upload. -/
def uploadFrames (version : UInt16) (client name : Bytes) (chunks : List Bytes) :
    List (MsgType × Bytes) :=
  (.hello, helloPayload version client)
    :: (.uploadBegin, uploadBeginPayload chunks.flatten.length name)
    :: (chunks.map (fun chunk ↦ (.uploadChunk, chunk))
      ++ [(.uploadEnd, uploadEndPayload chunks.flatten.length)])

/-- The chunks that a client may send. -/
def Sendable (chunks : List Bytes) : Prop :=
  ∀ chunk ∈ chunks, chunk ≠ [] ∧ chunk.length ≤ kDefaultMaxChunk

instance (chunks : List Bytes) : Decidable (Sendable chunks) :=
  inferInstanceAs (Decidable (∀ chunk ∈ chunks, chunk ≠ [] ∧ chunk.length ≤ kDefaultMaxChunk))

theorem length_helloPayload_le (version : UInt16) (client : Bytes) :
    (helloPayload version client).length ≤ kMaxPayload := by
  have hlimit : 2 + 65537 ≤ kMaxPayload := by decide
  have hclient := PayloadWriter.length_str16_le client
  rw [helloPayload, List.length_append, PayloadWriter.length_u16]
  omega

theorem length_uploadBeginPayload_le (total : ℕ) (name : Bytes) :
    (uploadBeginPayload total name).length ≤ kMaxPayload := by
  have hlimit : 8 + 65537 ≤ kMaxPayload := by decide
  have hname := PayloadWriter.length_str16_le name
  rw [uploadBeginPayload, List.length_append, PayloadWriter.length_u64]
  omega

section Machine

variable (D : Type) [DoubleOps D]

theorem run_chunks {chunks : List Bytes} (hchunks : Sendable chunks) {declared : ℕ}
    {before : List Bytes} (hfits : before.flatten.length + chunks.flatten.length ≤ declared) :
    (service D).run (.uploading declared before) (chunks.map fun chunk ↦ (.uploadChunk, chunk))
      = some (.uploading declared (before ++ chunks)) := by
  induction chunks generalizing before with
  | nil => simp [Machine.run]
  | cons chunk chunks ih =>
    rw [Sendable, List.forall_mem_cons] at hchunks
    rw [List.flatten_cons, List.length_append] at hfits
    have hnext : (service D).next (.uploading declared before) (.uploadChunk, chunk)
        = some (.uploading declared (before ++ [chunk])) :=
      Phase.next_of_uploadChunk hchunks.1.1 hchunks.1.2 (by omega)
    have hfits' : (before ++ [chunk]).flatten.length + chunks.flatten.length ≤ declared := by
      rw [List.flatten_append, List.flatten_singleton, List.length_append]
      omega
    rw [List.map_cons, Machine.run_cons _ hnext, ih hchunks.2 hfits', List.append_assoc,
      List.singleton_append]

private theorem run_uploadFrames (version : UInt16) (client name : Bytes) {chunks : List Bytes}
    (hne : chunks.flatten ≠ []) (hsize : chunks.flatten.length < 2 ^ 64)
    (hchunks : Sendable chunks) :
    (service D).run .awaitHello (uploadFrames version client name chunks)
      = some (.idle (some chunks)) := by
  have hpos : chunks.flatten.length ≠ 0 := fun h ↦ hne (List.length_eq_zero_iff.mp h)
  have hhello : (service D).next .awaitHello (.hello, helloPayload version client)
      = some (.idle none) := Phase.next_of_hello (helloFields_of version client)
  have hbegin : (service D).next (.idle none)
      (.uploadBegin, uploadBeginPayload chunks.flatten.length name)
        = some (.uploading chunks.flatten.length []) :=
    Phase.next_of_uploadBegin none (uploadBeginFields_of hsize name) hpos
  have hmany : (service D).run (.uploading chunks.flatten.length [])
      (chunks.map fun chunk ↦ (.uploadChunk, chunk))
        = some (.uploading chunks.flatten.length ([] ++ chunks)) :=
    run_chunks D hchunks (Nat.le_of_eq (Nat.zero_add _))
  have hend : (service D).next (.uploading chunks.flatten.length chunks)
      (.uploadEnd, uploadEndPayload chunks.flatten.length) = some (.idle (some chunks)) :=
    Phase.next_of_uploadEnd (uploadEndFields_of hsize)
  rw [uploadFrames, Machine.run_cons _ hhello, Machine.run_cons _ hbegin,
    Machine.run_append _ hmany, List.nil_append, Machine.run_cons _ hend, Machine.run_nil]

private theorem length_uploadFrames_le (version : UInt16) (client name : Bytes)
    {chunks : List Bytes}
    (hchunks : Sendable chunks) :
    ∀ f ∈ uploadFrames version client name chunks, f.2.length ≤ kMaxPayload := by
  have hmax : kDefaultMaxChunk ≤ kMaxPayload := by decide
  intro f hf
  rw [uploadFrames, List.mem_cons, List.mem_cons, List.mem_append, List.mem_map,
    List.mem_singleton] at hf
  rcases hf with rfl | rfl | ⟨chunk, hchunk, rfl⟩ | rfl
  · exact length_helloPayload_le version client
  · exact length_uploadBeginPayload_le _ name
  · exact (hchunks chunk hchunk).2.trans hmax
  · rw [uploadEndPayload, PayloadWriter.length_u64]
    decide

variable {D}

theorem answers_chunks {declared : ℕ} {before chunks : List Bytes} {phase : Phase}
    {replies : List (MsgType × Bytes)} (h : (service D).Answered (.uploading declared before)
      (chunks.map fun chunk ↦ (.uploadChunk, chunk)) phase replies) :
    ∀ m ∈ replies, m.1 = MsgType.uploadAck := by
  induction chunks generalizing before replies with
  | nil =>
    obtain ⟨-, rfl⟩ := Machine.Answered.nil_iff.mp h
    simp
  | cons chunk chunks ih =>
    obtain ⟨phase₁, reply, replies₁, hnext, hans, h₁, rfl⟩ := h.cons
    have hnext : Phase.next (.uploading declared before) (.uploadChunk, chunk) = some phase₁ :=
      hnext
    rcases Phase.next_uploading hnext with ⟨-, -, -, -, rfl⟩ | ⟨ht, -⟩ | ⟨ht, -⟩
    · cases hans with
      | chunk all => exact fun m hm ↦ (List.mem_append.mp hm).elim (all m) (ih h₁ m)
    · exact absurd ht (by decide)
    · exact absurd ht (by decide)

private theorem phase_of_chunks {declared : ℕ} {before chunks : List Bytes} {phase : Phase}
    {replies : List (MsgType × Bytes)} (h : (service D).Answered (.uploading declared before)
      (chunks.map fun chunk ↦ (.uploadChunk, chunk)) phase replies) :
    ∃ chunks', phase = .uploading declared chunks' := by
  induction chunks generalizing before replies with
  | nil => exact ⟨before, (Machine.Answered.nil_iff.mp h).1⟩
  | cons chunk chunks ih =>
    obtain ⟨phase₁, reply, replies₁, hnext, -, h₁, -⟩ := h.cons
    have hnext : Phase.next (.uploading declared before) (.uploadChunk, chunk) = some phase₁ :=
      hnext
    rcases Phase.next_uploading hnext with ⟨-, -, -, -, rfl⟩ | ⟨ht, -⟩ | ⟨ht, -⟩
    · exact ih h₁
    · exact absurd ht (by decide)
    · exact absurd ht (by decide)

/-- What an idle session takes. -/
theorem type_of_idle {last : Option (List Bytes)} {type : MsgType} {payload : Bytes}
    {frames replies : List (MsgType × Bytes)} {phase : Phase}
    (h : (service D).Answered (.idle last) ((type, payload) :: frames) phase replies) :
    type = .cancel ∨ type = .uploadBegin := by
  obtain ⟨phase₁, reply, replies', hnext, -⟩ := h.cons
  have hnext : Phase.next (.idle last) (type, payload) = some phase₁ := hnext
  exact (Phase.next_idle hnext).imp And.left And.left

/-- All that is sent back for an upload. -/
theorem answered_uploadFrames {version : UInt16} {client name : Bytes} {chunks : List Bytes}
    {phase : Phase} {replies : List (MsgType × Bytes)}
    (h : (service D).Answered .awaitHello (uploadFrames version client name chunks) phase replies) :
    ∃ (hello begin : Bytes) (acks : List (MsgType × Bytes)) (elapsedMs rss : ℕ)
      (u : UploadState D), (∀ m ∈ acks, m.1 = MsgType.uploadAck) ∧
      replies = (.helloAck, hello) :: (.uploadBeginAck, begin)
        :: (acks ++ (.analyzeDone, u.donePayload elapsedMs rss) :: resultFrames u.resultCsv) := by
  rw [uploadFrames] at h
  obtain ⟨phase₁, reply₁, replies₁, hnext₁, hans₁, h₁, rfl⟩ := h.cons
  have hnext₁ : Phase.next .awaitHello (.hello, helloPayload version client) = some phase₁ :=
    hnext₁
  obtain ⟨-, -, rfl⟩ := Phase.next_awaitHello hnext₁
  obtain ⟨phase₂, reply₂, replies₂, hnext₂, hans₂, h₂, rfl⟩ := h₁.cons
  have hnext₂ : Phase.next (.idle none) (.uploadBegin,
    uploadBeginPayload chunks.flatten.length name) = some phase₂ := hnext₂
  obtain ⟨ht, -⟩ | ⟨-, total, name', -, ⟨-, rfl⟩ | ⟨-, rfl⟩⟩ := Phase.next_idle hnext₂
  · exact absurd ht (by decide)
  · cases chunks with
    | nil => exact absurd (type_of_idle h₂) (by decide)
    | cons chunk chunks => exact absurd (type_of_idle h₂) (by decide)
  -- the answers to the chunks, and then that to the UPLOAD_END
  obtain ⟨phase₃, acks, reply₃, h₃, h₄, rfl⟩ := h₂.split
  obtain ⟨chunks', rfl⟩ := phase_of_chunks h₃
  obtain ⟨-, hans₃⟩ := h₄.singleton
  cases hans₁ with
  | greeted =>
    cases hans₂ with
    | begun =>
      cases hans₃ with
      | done csv => exact ⟨_, _, acks, _, _, _, answers_chunks h₃, rfl⟩
    | turnedAway fields =>
      have hbegun := Phase.next_of_empty none fields
      cases hbegun.symm.trans hnext₂

theorem types_resultFrames (csv : Bytes) :
    ∀ m ∈ resultFrames csv, m.1 ≠ .error ∧ m.1 ≠ .analyzeDone := by
  intro m hm
  rw [resultFrames, List.mem_append, List.mem_cons, List.mem_map, List.mem_singleton] at hm
  rcases hm with (rfl | ⟨chunk, -, rfl⟩) | rfl <;> dsimp only <;> decide

/-- The frames that are sent back for an upload are no errors, and one is an ANALYZE_DONE. -/
theorem of_uploadReplies (hello begin : Bytes) {acks : List (MsgType × Bytes)}
    (hacks : ∀ m ∈ acks, m.1 = MsgType.uploadAck) (elapsedMs rss : ℕ) (u : UploadState D) :
    let replies := (.helloAck, hello) :: (.uploadBeginAck, begin)
      :: (acks ++ (.analyzeDone, u.donePayload elapsedMs rss) :: resultFrames u.resultCsv)
    (∀ payload, (MsgType.error, payload) ∉ replies) ∧
      replies.filter (fun m ↦ m.1 = .analyzeDone)
        = [(.analyzeDone, u.donePayload elapsedMs rss)] := by
  have hresult := types_resultFrames u.resultCsv
  refine ⟨fun payload hmem ↦ ?_, ?_⟩
  · simp only [List.mem_cons, List.mem_append, Prod.mk.injEq] at hmem
    rcases hmem with ⟨ht, -⟩ | ⟨ht, -⟩ | hmem | ⟨ht, -⟩ | hmem
    · exact absurd ht (by decide)
    · exact absurd ht (by decide)
    · exact absurd (hacks _ hmem) (by dsimp only; decide)
    · exact absurd ht (by decide)
    · exact (hresult _ hmem).1 rfl
  · have hnone : ∀ ms : List (MsgType × Bytes), (∀ m ∈ ms, m.1 ≠ .analyzeDone) →
        ms.filter (fun m ↦ m.1 = .analyzeDone) = [] := fun ms h ↦
      List.filter_eq_nil_iff.mpr fun m hm ↦ by simpa using h m hm
    have hacks' := hnone acks fun m hm ↦ ne_of_eq_of_ne (hacks m hm) (by decide)
    have hresult' := hnone _ fun m hm ↦ (hresult m hm).2
    have hhello : MsgType.helloAck ≠ .analyzeDone := by decide
    have hbegin : MsgType.uploadBeginAck ≠ .analyzeDone := by decide
    rw [List.filter_cons_of_neg (by simpa using hhello),
      List.filter_cons_of_neg (by simpa using hbegin), List.filter_append, hacks',
      List.filter_cons_of_pos (by simp), hresult', List.nil_append]

end Machine

/-! ## The claim -/

variable {D : Type} [DoubleOps D]

/-- A session that was just started. -/
theorem serving_start (config : SessionConfig) {env : Env} (henv : ∀ n, env.uvWrite.get n = true) :
    Serving .awaitHello [] [] (start (D := D) config env).conversation :=
  ⟨.awaitHello rfl, henv, rfl, rfl⟩

/-- **Uploads end with their result at hand**, however their bytes are cut into reads. -/
theorem atHand_run (config : SessionConfig) {env : Env} (henv : ∀ n, env.uvWrite.get n = true)
    (version : UInt16) (client name : Bytes) {chunks : List Bytes} (hne : chunks.flatten ≠ [])
    (hsize : chunks.flatten.length < 2 ^ 64) (hchunks : Sendable chunks) {events : List Event}
    (hsmooth : ∀ event ∈ events, event.smooth = true)
    (hbytes : events.flatMap Event.bytes = wire (uploadFrames version client name chunks)) :
    let s := (start (D := D) config env).run events
    AtHand chunks s.conversation ∧ (service D).Answered .awaitHello
      (uploadFrames version client name chunks) (.idle (some chunks)) (sentFrames s.timeline) := by
  obtain ⟨replies, hans, hserving, -⟩ := serves_run (length_uploadFrames_le version client name
    hchunks) (run_uploadFrames D version client name hne hsize hchunks) hsmooth hbytes
    FrameDecoder.at_new (serving_start config henv)
  obtain _ | ⟨-, hresult⟩ := hserving.stands
  have hsent : sentFrames ((start (D := D) config env).run events).timeline = replies :=
    hserving.sent
  exact ⟨hresult chunks rfl, hsent ▸ hans⟩

/-- The upload of a file arrived: there was no error and one ANALYZE_DONE, which counts what the
aggregator counts, and the aggregator is where the lines of the file bring it one by one. -/
structure Arrived (file : Bytes) (s : TcpSession D) : Prop where
  noError : ∀ payload, .sent .error payload ∉ s.timeline
  oneDone : ∃ elapsedMs rss, (sentFrames s.timeline).filter (fun m ↦ m.1 = .analyzeDone)
    = [(.analyzeDone, s.upload.donePayload elapsedMs rss)]
  lineByLine : s.upload.agg = (Aggregator.empty : Aggregator D).addLines (fileLines file)
  noOversize : s.upload.agg.oversizeLines = 0

/-- **An upload arrives whole**, however it is cut into chunks and its bytes into reads. -/
theorem upload_arrived (config : SessionConfig) (env : Env)
    (henv : ∀ n, env.uvWrite.get n = true) (version : UInt16) (client name file : Bytes)
    (hne : file ≠ []) (hsize : file.length < 2 ^ 63) (hlines : ShortLines file)
    (chunks : List Bytes) (hfile : chunks.flatten = file) (hchunks : Sendable chunks)
    (events : List Event) (hsmooth : ∀ event ∈ events, event.smooth = true)
    (hbytes : events.flatMap Event.bytes = wire (uploadFrames version client name chunks)) :
    Arrived file ((start (D := D) config env).run events) := by
  subst hfile
  set s := (start (D := D) config env).run events
  obtain ⟨⟨hcut, hcsv, elapsedMs', rss', hdone⟩, hans⟩ := atHand_run (D := D) config henv version
    client name hne (by omega) hchunks hsmooth hbytes
  obtain ⟨hello, begin, acks, elapsedMs, rss, u, hacks, hsent⟩ := answered_uploadFrames hans
  obtain ⟨herror, hfilter⟩ := of_uploadReplies hello begin hacks elapsedMs rss u
  have hdone : (MsgType.analyzeDone, s.upload.donePayload elapsedMs' rss')
    ∈ sentFrames s.timeline := hdone
  have hagg : s.upload.agg = analyzed D (uploadPieces s.timeline) :=
    (Reached.analysed ⟨events, .inl rfl⟩ |>.result hcsv).1
  have hpieces : (uploadPieces s.timeline).flatten = chunks.flatten := hcut.flatten
  rw [hsent] at hdone
  -- no ERROR, one ANALYZE_DONE, and the aggregator of the whole file
  refine ⟨fun payload hmem ↦ ?_, ⟨elapsedMs', rss', ?_⟩, ?_, ?_⟩
  · have hmem := mem_sentFrames.mpr hmem
    rw [hsent] at hmem
    exact herror payload hmem
  · have hmem := List.mem_filter (p := fun m ↦ m.1 = MsgType.analyzeDone).mpr
      ⟨hdone, decide_eq_true rfl⟩
    rw [hfilter, List.mem_singleton] at hmem
    rw [hsent, hfilter, hmem]
  · rw [hagg, analyzed_of_shortLines (hpieces ▸ hlines), hpieces]
  · rw [hagg, analyzed_eq, Aggregator.addOversize_oversizeLines,
      (uploadOversize_eq_zero_iff _).mpr (noOverlongCut_of_shortLines (hpieces ▸ hlines)),
      (Aggregator.addLines_disposed _ _).2.2]
    rfl

/-- Surroundings in which nothing goes wrong. -/
def calmEnv : Env := ⟨Stream'.const 0, Stream'.const 0, Stream'.const [], Stream'.const true⟩

/-- A session as a server sets it up. -/
def plainConfig : SessionConfig := ⟨1, ascii "peer", ascii "1.0.0", 300000, 30000⟩

/-- Two lines in two chunks, with a cut in the first header. -/
theorem upload_arrived_two_chunks :
    let frames := uploadFrames 1 (ascii "client") (ascii "log.txt") [ascii "a\nb", ascii "c\n"]
    Arrived (ascii "a\nbc\n") ((start (D := ℚ) plainConfig calmEnv).run
      [.read ((wire frames).take 7), .written true, .read ((wire frames).drop 7)]) :=
  upload_arrived plainConfig calmEnv (fun _ ↦ rfl) 1 (ascii "client") (ascii "log.txt")
    (ascii "a\nbc\n") (by decide) (by decide) ⟨by decide, by decide⟩ [ascii "a\nb", ascii "c\n"]
    (by decide) (by decide) _ (by simp [Event.smooth]) (by simp [Event.bytes])

/-- The run that uploads `chunks` in one read. -/
def uploadRun (D : Type) [DoubleOps D] (chunks : List Bytes) : TcpSession D :=
  (start plainConfig calmEnv).run
    [.read (wire (uploadFrames 1 (ascii "client") (ascii "log.txt") chunks))]

theorem reached_uploadRun (chunks : List Bytes) :
    Reached plainConfig calmEnv (uploadRun D chunks) := ⟨_, .inl rfl⟩

theorem atHand_uploadRun {chunks : List Bytes} (hne : chunks.flatten ≠ [])
    (hsize : chunks.flatten.length < 2 ^ 64) (hchunks : Sendable chunks) :
    AtHand chunks (uploadRun D chunks).conversation :=
  (atHand_run plainConfig (fun _ ↦ rfl) 1 (ascii "client") (ascii "log.txt") hne hsize hchunks
    (by simp [Event.smooth]) (by simp [Event.bytes])).1

theorem csv_ne_nil {chunks : List Bytes} {s : TcpSession D} (h : AtHand chunks s.conversation) :
    s.upload.resultCsv ≠ [] := h.csv

end LoggerAnalyzer
