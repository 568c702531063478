import LoggerAnalyzer.Client.Resuming

/-!
# Uploads that nobody cancels

A file that can be read to its end is uploaded by either client, and what the client holds then is
the analysis of the bytes of the file. The session is idle again, and another upload may follow.
Nothing is assumed of how the bytes arrive and of when the server reads them, but on a net nothing
takes so long that a timeout is reached.
-/

namespace LoggerAnalyzer

open Program TcpSession Conversation

/-! ## What is reported of a file -/

/-- A result that was made of `bytes`, in whatever pieces they went through the splitter. -/
def Reports (D : Type) [DoubleOps D] (bytes csv : Bytes) : Prop :=
  ∃ pieces utcNow ctx, pieces.flatten = bytes ∧ csv = buildResultCsv utcNow (analyzed D pieces) ctx

/-- A local file that is not empty, that can be opened, and whose reads bring `bytes`. -/
structure LocalFile.Holds (file : LocalFile) (bytes : Bytes) : Prop where
  size : file.size = some (.ofNat bytes.length)
  fits : bytes.length < 2 ^ 64
  nonempty : bytes ≠ []
  opened : file.openError = none
  reads : Brings kDefaultMaxChunk file.reads bytes

theorem LocalFile.Holds.total_eq {file : LocalFile} {bytes : Bytes} (h : file.Holds bytes) :
    (UInt64.ofNat bytes.length).toNat = bytes.length := UInt64.toNat_ofNat_of_lt' h.fits

theorem LocalFile.Holds.total_ne {file : LocalFile} {bytes : Bytes} (h : file.Holds bytes) :
    (UInt64.ofNat bytes.length).toNat ≠ 0 := by
  rw [h.total_eq]
  exact fun hzero ↦ h.nonempty (List.length_eq_zero_iff.mp hzero)

variable {D : Type} [DoubleOps D]

/-- The lines of a file without over-long lines are what is reported. -/
theorem Reports.lineByLine {bytes csv : Bytes} (h : Reports D bytes csv)
    (hshort : ShortLines bytes) :
    ∃ utcNow ctx, csv = buildResultCsv utcNow
      ((Aggregator.empty : Aggregator D).addLines (fileLines bytes)) ctx := by
  obtain ⟨pieces, utcNow, ctx, rfl, rfl⟩ := h
  exact ⟨utcNow, ctx, by rw [analyzed_of_shortLines hshort]⟩

/-- The result that is on its way reports the chunks. -/
theorem Arriving.reports {chunks : List Bytes} {csv : Bytes} {s : Net D} (h : Arriving chunks csv s)
    (hstarted : Started s.session) : Reports D chunks.flatten csv := by
  obtain ⟨hcut, hne, -⟩ := h.atHand
  have hsame := h.csv_eq hstarted
  obtain ⟨config, env, events, -, -, -, hrun⟩ := hstarted
  have hreached : Reached config env s.session := ⟨events, .inl hrun⟩
  obtain ⟨hagg, utcNow, ctx, hcsv⟩ := hreached.analysed.result hne
  refine ⟨_, utcNow, ctx, hcut.flatten, ?_⟩
  calc csv = s.session.upload.resultCsv := hsame
    _ = buildResultCsv utcNow s.session.upload.agg ctx := hcsv
    _ = _ := congrArg (buildResultCsv utcNow · ctx) hagg

/-! ## Between two uploads -/

/-- The session was started and is idle, everything was read, and nobody cancels. -/
structure Steady (s : Net D) : Prop where
  started : Started s.session
  rests : ∃ last, Rests (.idle last) s
  calm : s.cancelAfter = none

/-- What is left of the answers, once the session has read everything. -/
theorem complete_moves {phase₀ : Phase} {s₀ s : Net D} {sent : List (MsgType × Bytes)}
    {received : Bytes} (hrests : Rests phase₀ s₀) (hproper : Proper D phase₀ sent)
    (hmoves : Net.Moves (wire sent) received s₀ s) (hserver : s.toServer = [])
    (hclient : s.toClient = []) :
    ∃ phase replies, (service D).Answered phase₀ sent phase replies ∧ Rests phase s := by
  obtain ⟨phase, replies, hans, hserving, holds, -, -⟩ :=
    (served hrests hproper.small hproper.run hmoves).complete hproper.small hserver
  exact ⟨phase, replies, hans, hserver, hclient, holds, hserving.stands, hserving.writable,
    hserving.unflagged, rfl⟩

/-- Nothing more comes once the session has read everything. -/
theorem Pending.passes {pending : List (MsgType × Bytes)} {s s' : Net D} (h : Pending pending s)
    (hmoves : Net.Moves [] [] s s') : Pending pending s' := by
  obtain ⟨hserver, hclient⟩ := hmoves.given h.toServer
  exact ⟨hserver, hclient.symm.trans h.toClient, h.small⟩

/-- After a whole upload that was read to its end another one may follow. -/
theorem Whole.rests {announcement ending : Bytes} {total : ℕ} {chunks : List Bytes}
    {last : Option (List Bytes)} (h : Whole announcement ending total chunks) {s₀ s : Net D}
    (hrests : Rests (.idle last) s₀) {received : Bytes}
    (hmoves : Net.Moves (wire (uploadWhole announcement ending chunks)) received s₀ s)
    (hserver : s.toServer = []) (hclient : s.toClient = []) : Rests (.idle (some chunks)) s := by
  obtain ⟨phase, replies, hans, hrests'⟩ :=
    complete_moves hrests (h.proper last) hmoves hserver hclient
  obtain ⟨rfl, -⟩ := h.answered hans
  exact hrests'

/-! ## The C++ client -/

namespace TransferClient

variable {e e' : Endpoint (Net D) TransferClient}

/-- The client holds the report of `bytes`, and another upload may follow. -/
structure Uploaded (bytes : Bytes) (e : Endpoint (Net D) TransferClient) : Prop where
  phase : e.own.state.phase = .done
  reports : Reports D bytes e.own.csv
  steady : Steady e.outside

private theorem readable_of_holds {file : LocalFile} {bytes : Bytes} (h : file.Holds bytes) :
    (InputFile.new file).Intact kDefaultMaxChunk bytes.length :=
  InputFile.intact_of_brings rfl rfl h.reads

/-- An upload that is done was read to its end. -/
theorem Kept.uploaded {file : LocalFile} {bytes : Bytes} (hsteady : Steady e.outside)
    (hholds : file.Holds bytes) (h : Kept e file bytes.length e') : Uploaded bytes e' := by
  obtain ⟨hstarted, ⟨last, hrests⟩, hcalm⟩ := hsteady
  cases h with
  | cancelled _ hcancelled =>
    obtain ⟨n, hseen⟩ := hcancelled.seen
    exact absurd hcalm hseen.set
  | changed hchanged => exact absurd (readable_of_holds hholds) hchanged
  | done _ _ hcarried hcontent hdue hreceived hphase =>
    obtain ⟨-, hcsv, hread⟩ := hreceived (hdue.length_le hcarried hstarted hholds.fits)
    obtain ⟨sent, received, s, hmoves, harriving, received', hmoves'⟩ := hdue
    obtain ⟨hends, announcement, read, hunder, ⟨more, hall⟩, -, -⟩ := hcarried
    have hflat := hcontent bytes hholds.reads rfl
    have hreports := harriving.reports (hmoves.started hstarted)
    have hserver := (hmoves'.given harriving.toServer).1
    rw [hflat, ← hcsv] at hreports
    refine ⟨hphase, hreports, hall.started hstarted, ?_, hall.calm hcalm⟩
    cases hends with
    | complete all fields short =>
      exact ⟨_, Whole.rests ⟨hunder, all, fields, short⟩ hrests hall hserver hread⟩

theorem Broken.false_of_holds {file : LocalFile} {bytes : Bytes} (hsteady : Steady e.outside)
    (hholds : file.Holds bytes) (h : Broken e file bytes.length e') : False := by
  cases h with
  | seen _ hseen => exact hseen.set hsteady.calm
  | unopened hunopened => exact hunopened hholds.opened
  | unread hcarried hdue hlarge =>
    exact absurd (hdue.length_le hcarried hsteady.started hholds.fits) (Nat.not_le.mpr hlarge)

/-- **A file that can be read is uploaded**, and the client holds its report. -/
theorem settles_doUpload_holds {file : LocalFile} {bytes : Bytes} (hholds : file.Holds bytes)
    (hsteady : Steady e.outside) {E : Failure → Endpoint (Net D) TransferClient → Prop} :
    Settles (fun fuel ↦ doUpload (Net.link D) fuel file) e
      (fun kept e' ↦ kept = true ∧ Uploaded bytes e') E := by
  obtain ⟨last, hrests⟩ := hsteady.rests
  refine (settles_doUpload hrests hholds.size hholds.total_ne).mono ?_ fun _ _ h ↦ h
  rw [hholds.total_eq]
  rintro kept e' (⟨rfl, hkept⟩ | ⟨rfl, hbroken, -⟩)
  · exact ⟨rfl, hkept.uploaded hsteady hholds⟩
  · exact (hbroken.false_of_holds hsteady hholds).elim

end TransferClient

/-! ## The C# client -/

namespace ServerConnection

variable {e₀ e : Endpoint (Net D) ServerConnection} {last : Option (List Bytes)}
  {chunks : List Bytes} {read : List (MsgType × Bytes)}

/-- A file that can be read is sent to its end. -/
theorem settles_chunkLoop_brings {announcement : Bytes} {total : ℕ}
    (hunder : Underway announcement total chunks) (hrests : Rests (.idle last) e₀.outside)
    (hcalm : e₀.outside.cancelAfter = none) (hread : read ≠ []) (husable : e.own.disposed = false)
    {reads : Stream' FileRead} {bytes : Bytes} (hbrings : Brings kDefaultMaxChunk reads bytes)
    (htotal : chunks.flatten.length + bytes.length = total)
    (h : Along e₀ (uploadStart announcement chunks) read [] e)
    {E : Failure → Endpoint (Net D) ServerConnection → Prop} :
    Settles (fun fuel ↦ chunkLoop (Net.link D) total kDefaultMaxChunk fuel reads
        chunks.flatten.length) e
      (fun all e' ↦ all = total ∧ e'.own.disposed = false ∧ ∃ chunks' read',
        chunks'.flatten = chunks.flatten ++ bytes ∧ Underway announcement total chunks' ∧
        read' ≠ [] ∧ Along e₀ (uploadStart announcement chunks') read' [] e') E := by
  -- by induction on how much the file still brings
  obtain ⟨n, hn⟩ : ∃ n, bytes.length = n := ⟨_, rfl⟩
  induction n using Nat.strong_induction_on generalizing chunks read reads bytes e with
  | _ n ih =>
    subst hn
    refine Settles.succ (fun _ ↦ rfl) ?_
    refine Settles.bind (.of_yields (h.mark .chunkTop)) ?_
    rintro _ e₁ ⟨h₁, hown₁, -, -⟩
    refine Settles.bind (.of_yields h₁.load) ?_
    rintro cancel e₂ ⟨hown₂, -, seen, h₂, ⟨rfl, rfl⟩ | ⟨-, rfl, -⟩⟩
    · have husable₂ : e₂.own.disposed = false := by
        rw [hown₂, hown₁]
        exact husable
      refine Settles.ite (fun hno ↦ absurd hno (by decide)) ?_
      intro _
      -- all is sent, or a chunk is read and sent, and the loop goes on with the rest
      refine Settles.ite (fun hzero ↦ ?_) fun hmore ↦ ?_
      · obtain rfl : bytes = [] := List.length_eq_zero_iff.mp (by omega)
        exact .of_yields (.pure ⟨htotal, husable₂, chunks, read, (List.append_nil _).symm, hunder,
          hread, h₂⟩)
      have hne : bytes ≠ [] := List.length_pos_iff.mp (by omega)
      obtain ⟨herror, hbytes⟩ := hbrings.head hne
      have hchunk : bytes.take kDefaultMaxChunk ≠ [] :=
        mt List.take_eq_nil_iff.mp (not_or.mpr ⟨by decide, hne⟩)
      have hlen : (bytes.take kDefaultMaxChunk).length = min kDefaultMaxChunk bytes.length :=
        List.length_take
      have hpos := List.length_pos_iff.mpr hchunk
      rw [show total - chunks.flatten.length = bytes.length by omega, hbytes, herror]
      refine Settles.ite (fun hnil ↦ absurd hnil hchunk) ?_
      intro _
      refine Settles.bind (.of_yields (h₂.mark .chunkSend)) ?_
      rintro _ e₃ ⟨h₃, hown₃, -, -⟩
      refine Settles.bind (.of_yields (yields_sendChunk h₃ _)) ?_
      rintro _ e₄ ⟨h₄, hown₄⟩
      rw [← uploadStart_snoc] at h₄
      have hflat : (chunks ++ [bytes.take kDefaultMaxChunk]).flatten
          = chunks.flatten ++ bytes.take kDefaultMaxChunk := by
        rw [List.flatten_append, List.flatten_singleton]
      have hflatlen := congrArg List.length hflat
      rw [List.length_append] at hflatlen
      have hunder' : Underway announcement total (chunks ++ [bytes.take kDefaultMaxChunk]) :=
        hunder.snoc hchunk (by omega) (by omega)
      refine Settles.bind (.of_yields (h₄.keep _)) ?_
      rintro _ e₅ ⟨h₅, hown₅, -⟩
      have husable₅ : e₅.own.disposed = false := by
        rw [hown₅, hown₄, hown₃]
        exact husable₂
      refine Settles.bind (settles_drainServerMessages hunder' hrests hread husable₅ h₅) ?_
      rintro _ e₆ ⟨husable₆, read', hread', h₆⟩
      have hleft : (bytes.drop kDefaultMaxChunk).length = bytes.length - kDefaultMaxChunk :=
        List.length_drop
      rw [← hflatlen]
      refine (ih _ (by omega) hunder' hread' husable₆ hbrings.tail (by omega) h₆ rfl).mono ?_
        fun _ _ h ↦ h
      rintro all e' ⟨rfl, husable', chunks', read'', hall, hrest⟩
      refine ⟨rfl, husable', chunks', read'', ?_, hrest⟩
      rw [hall, hflat, List.append_assoc, List.take_append_drop]
    · -- nobody cancels
      exact absurd hcalm (h₂.set (List.cons_ne_nil _ _))

/-! ### The result -/

/-- A frame that is on its way is read. -/
theorem settles_readPending (husable : e.own.disposed = false)
    (hcalm : e.outside.cancelAfter = none) {type : MsgType} {payload : Bytes}
    {pending : List (MsgType × Bytes)} (h : Pending ((type, payload) :: pending) e.outside)
    {E : Failure → Endpoint (Net D) ServerConnection → Prop} :
    Settles (fun fuel ↦ readFrameOrCancel (Net.link D) fuel) e
      (fun f e' ↦ f = ⟨frameHeader type payload, payload⟩ ∧ ∃ bytes s, e' = e.onto s ∧
        Net.Moves [] bytes e.outside s ∧ Pending pending s) E := by
  refine Settles.bind (Q := fun _ e' ↦ Act.Passed Net.Moves e e') ?_ ?_
  · refine Settles.tryCatch (.of_yields (Act.yields_pause Net.laws true e)) ?_
    rintro failure _ ⟨rfl, -, s, hmoves, hset, rfl⟩
    exact absurd ((hmoves.calm hcalm).symm.trans hset) (by simp)
  · rintro _ _ ⟨s, hmoves, rfl⟩
    have hpending : Pending _ (e.onto s).outside := h.passes hmoves
    refine .of_yields ?_
    rw [Yields, readFrameAsync_eq (e := e.onto s) (Net.link D) false husable]
    refine (yields_readPending lenient_refuse false _ _ hpending).mono ?_ ?_
    · rintro f _ ⟨rfl, s', rfl, hmoves', hpending'⟩
      exact ⟨rfl, _, s', rfl, hmoves.trans hmoves', hpending'⟩
    · exact fun failure e' hint ↦ absurd hint.2.1 (by decide)

/-- The chunks of a result that is on its way are read to their end. -/
theorem settles_receiveChunks_pending (husable : e.own.disposed = false)
    (hcalm : e.outside.cancelAfter = none) {buffer : Bytes}
    (h : Pending (chunks.map (fun chunk ↦ (MsgType.resultChunk, chunk)) ++ [(.resultEnd, [])])
      e.outside)
    (hle : buffer.length + chunks.flatten.length ≤ maxStream)
    {E : Failure → Endpoint (Net D) ServerConnection → Prop} :
    Settles (fun fuel ↦ receiveChunks (Net.link D) fuel buffer) e
      (fun all e' ↦ all = buffer ++ chunks.flatten ∧ ∃ bytes s, e' = e.onto s ∧
        Net.Moves [] bytes e.outside s ∧ s.toClient = []) E := by
  induction chunks generalizing buffer e with
  | nil =>
    refine Settles.succ (fun _ ↦ rfl) ?_
    refine Settles.bind (settles_readPending husable hcalm h) ?_
    rintro f _ ⟨rfl, bytes, s, rfl, hmoves, hpending⟩
    refine Settles.ite (fun hchunk ↦ absurd hchunk (by decide)) ?_
    intro _
    refine Settles.ite (fun _ ↦ ?_) fun hno ↦ absurd rfl hno
    exact .of_yields (.pure ⟨by rw [List.flatten_nil, List.append_nil], _, s, rfl, hmoves,
      hpending.toClient⟩)
  | cons chunk chunks ih =>
    rw [List.flatten_cons, List.length_append] at hle
    have hlen : (buffer ++ chunk).length = buffer.length + chunk.length := List.length_append
    refine Settles.succ (fun _ ↦ rfl) ?_
    refine Settles.bind (settles_readPending husable hcalm h) ?_
    rintro f _ ⟨rfl, bytes, s, rfl, hmoves, hpending⟩
    refine Settles.ite (fun _ ↦ ?_) fun hno ↦ absurd rfl hno
    refine Settles.ite (fun hover ↦ ?_) fun _ ↦ ?_
    · have hover : maxStream < (buffer ++ chunk).length := hover
      omega
    have hcalm' : (e.onto s).outside.cancelAfter = none := hmoves.calm hcalm
    have hlen' : (buffer ++ chunk).length + chunks.flatten.length ≤ maxStream := by omega
    refine (ih (e := e.onto s) husable hcalm' hpending hlen').mono ?_ fun _ _ h ↦ h
    rintro _ _ ⟨rfl, bytes', s', rfl, hmoves', hread⟩
    exact ⟨by rw [List.flatten_cons, List.append_assoc], _, s', rfl, hmoves.trans hmoves', hread⟩

/-- **A result that is on its way is received.** -/
theorem settles_receiveResult_pending (husable : e.own.disposed = false)
    (hcalm : e.outside.cancelAfter = none) {csv : Bytes} (hlen : csv.length ≤ 64 * 1024 * 1024)
    (h : Pending (resultFrames csv) e.outside)
    {E : Failure → Endpoint (Net D) ServerConnection → Prop} :
    Settles (fun fuel ↦ receiveResult (Net.link D) fuel (UInt64.ofNat csv.length).toInt64) e
      (fun all e' ↦ all = getString csv ∧ ∃ bytes s, e' = e.onto s ∧
        Net.Moves [] bytes e.outside s ∧ s.toClient = []) E := by
  have hsize : (UInt64.ofNat csv.length).toNat = csv.length :=
    UInt64.toNat_ofNat_of_lt' (Nat.lt_of_le_of_lt hlen (by decide))
  have hrange : ¬ ((UInt64.ofNat csv.length).toInt64 < 0 ∨
      maxCsv < (UInt64.ofNat csv.length).toInt64) := by
    rw [lt_zero_or_maxCsv_lt_iff, hsize]
    exact Nat.not_lt.mpr hlen
  have hdeclared : (PayloadReader.new (resultBeginPayload csv)).u64.1
      = some (.ofNat csv.length) := by
    have hlong : 8 ≤ (resultBeginPayload csv).length := by
      rw [resultBeginPayload, List.length_append, PayloadWriter.length_u64]
      exact Nat.le_add_right ..
    rw [u64_new, if_pos hlong, resultBeginPayload, PayloadWriter.u64, loadBe64_store_append]
  unfold receiveResult
  refine Settles.failIf (fun hbad ↦ absurd hbad hrange) ?_
  intro _
  -- the RESULT_BEGIN, and then the chunks
  refine Settles.bind (settles_readPending husable hcalm h) ?_
  rintro f _ ⟨rfl, bytes, s, rfl, hmoves, hpending⟩
  have hbegin : MsgType.resultBegin ≠ .error := by decide
  refine Settles.failIf (fun herror ↦ absurd herror hbegin) ?_
  intro _
  refine Settles.failIf (fun hother ↦ absurd rfl hother) ?_
  intro _
  simp only [hdeclared]
  refine Settles.failIf (fun hlarge ↦ absurd (.inr hlarge) hrange) ?_
  intro _
  have hall := flatten_resultChunks (Nat.le_refl csv.length)
  have hroom : ([] : Bytes).length + (resultChunks csv.length csv).flatten.length ≤ maxStream := by
    rw [hall, List.length_nil, Nat.zero_add]
    exact hlen.trans (by decide)
  have hpending : Pending _ (e.onto s).outside := hpending
  refine Settles.bind (settles_receiveChunks_pending (e := e.onto s) husable (hmoves.calm hcalm)
    hpending hroom) ?_
  rintro all _ ⟨rfl, bytes', s', rfl, hmoves', hread⟩
  rw [List.nil_append, hall]
  have hsigned : (UInt64.ofNat csv.length).toInt64.toInt = csv.length :=
    toInt_ofNat_of_lt (Nat.lt_of_le_of_lt hlen (by decide))
  refine Settles.failIf (fun hother ↦ absurd hsigned.symm hother) ?_
  intro _
  exact .of_yields (.pure ⟨rfl, _, s', rfl, hmoves.trans hmoves', hread⟩)

/-! ### The upload -/

/-- What a `dispose` would do is not done. -/
theorem disposed_applyAnalyzeDone (d : AnalyzeResult) (c : ServerConnection) :
    (applyAnalyzeDone d c).disposed = c.disposed := rfl

variable [PrintsNumbers D]

/-- **The analysis is done**, and the result is on its way. -/
theorem settles_awaitAnalysis_calm {announcement ending : Bytes} {total : ℕ}
    (hwhole : Whole announcement ending total chunks) (hrests : Rests (.idle last) e₀.outside)
    (hcalm : e₀.outside.cancelAfter = none) (hacked : Acked read) (husable : e.own.disposed = false)
    (h : Along e₀ (uploadWhole announcement ending chunks) read [] e)
    {E : Failure → Endpoint (Net D) ServerConnection → Prop} :
    Settles (fun fuel ↦ awaitAnalysis (Net.link D) fuel) e
      (fun d e' ↦ e'.own.disposed = false ∧ ∃ csv read,
        d.csvSize = (UInt64.ofNat csv.length).toInt64 ∧
        Along e₀ (uploadWhole announcement ending chunks) read [] e' ∧
        Arriving chunks csv e'.outside) E := by
  have hproper := hwhole.proper (D := D) last
  obtain ⟨s, hs⟩ : ∃ s, e.outside = s := ⟨_, rfl⟩
  induction s using Net.wellFounded_shorter.induction generalizing e read with
  | _ s ih =>
    subst hs
    refine Settles.succ (fun _ ↦ rfl) ?_
    refine Settles.bind (.of_yields (h.mark .analysisRead)) ?_
    rintro _ e₁ ⟨h₁, hown₁, -, hsame₁⟩
    have husable₁ : e₁.own.disposed = false := hown₁ ▸ husable
    -- the token is not seen, and there is more to come
    refine Settles.bind (Q := fun f e' ↦ ∃ type payload s, f = ⟨frameHeader type payload, payload⟩ ∧
      e' = e₁.onto s ∧ Talk e₀.outside (uploadWhole announcement ending chunks)
        (read ++ [(type, payload)]) s ∧ s.Shorter e₁.outside) ?_ ?_
    · refine Settles.bind (Q := fun _ e' ↦ Act.Passed Net.Moves e₁ e') ?_ ?_
      · refine Settles.tryCatch (.of_yields (Act.yields_pause Net.laws true e₁)) ?_
        rintro failure _ ⟨rfl, -, s, hmoves, hset, rfl⟩
        exact absurd hcalm (h₁.cancelAfter_ne_none hmoves hset)
      · rintro _ _ ⟨s, hmoves, rfl⟩
        have hpassed := h₁.passes hmoves
        refine .of_yields ?_
        rw [Yields, readFrameAsync_eq (e := e₁.onto s) (Net.link D) false husable₁]
        refine (yields_readFrame lenient_refuse false _ _ hrests hproper.small hproper.run
          hpassed.talk).mono ?_ ?_
        · rintro f _ ⟨type, payload, s', rfl, rfl, htalk, hshort⟩
          exact ⟨type, payload, s', rfl, rfl, htalk, hshort.after hmoves⟩
        · rintro failure e' (hint | ⟨ms, s', rfl, rfl, hpass, hserver, hclient⟩)
          · exact absurd hint.2.1 (by decide)
          · exact absurd hclient
              (hwhole.awaited hrests hacked (hpassed.passes hpass).talk hserver)
    rintro f _ ⟨type, payload, s, rfl, rfl, htalk, hshort⟩
    rcases hwhole.read_next hrests hacked htalk with rfl | ⟨rfl, elapsedMs, rss, u, rfl, hdue⟩
    · refine Settles.ite (fun _ ↦ ?_) fun hother ↦ absurd rfl hother
      refine Settles.bind (.of_yields ((h₁.onto htalk).keep _)) ?_
      rintro _ e₂ ⟨h₂, hown₂, hsame₂⟩
      have husable₂ : e₂.own.disposed = false := by
        rw [hown₂, disposed_applyUploadAck]
        exact husable₁
      refine ih e₂.outside ?_ (hacked.snoc payload) husable₂ h₂ rfl
      rw [hsame₂, ← hsame₁]
      exact hshort
    · obtain ⟨d, r, hfields, hsize⟩ := csvSize_analyzeDone u elapsedMs rss
      have hack : MsgType.analyzeDone ≠ .uploadAck := by decide
      have herror : MsgType.analyzeDone ≠ .error := by decide
      refine Settles.ite (fun hother ↦ absurd hother hack) ?_
      intro _
      refine Settles.ite (fun hother ↦ absurd hother herror) ?_
      intro _
      refine Settles.ite (fun _ ↦ ?_) fun hother ↦ absurd rfl hother
      simp only [hfields]
      refine .of_yields (Yields.bind ((h₁.onto htalk).keep _) ?_)
      rintro _ e₂ ⟨h₂, hown₂, hsame₂⟩
      refine ⟨?_, u.resultCsv, _, hsize, h₂, hsame₂ ▸ hdue⟩
      rw [hown₂, disposed_applyAnalyzeDone]
      exact husable₁

/-- The caller holds the report of `bytes`, and another upload may follow. -/
structure Uploaded (bytes : Bytes) (result : AnalyzeResult)
    (e : Endpoint (Net D) ServerConnection) :
    Prop where
  reports : ∃ csv, Reports D bytes csv ∧ result.csv = getString csv
  usable : e.own.disposed = false
  steady : Steady e.outside

/-- **A file that can be read is uploaded**, and its report is given back. -/
theorem settles_uploadAsync_holds {file : LocalFile} {bytes : Bytes} (hholds : file.Holds bytes)
    (husable : e.own.disposed = false) (hsteady : Steady e.outside)
    {E : Failure → Endpoint (Net D) ServerConnection → Prop} :
    Settles (fun fuel ↦ uploadAsync (Net.link D) fuel file) e
      (fun result e' ↦ Uploaded bytes result e') E := by
  obtain ⟨hstarted, ⟨last, hrests⟩, hcalm⟩ := hsteady
  have hunder := underway_beginPayload hholds.total_ne file.name
  refine Settles.of_eq (fun fuel ↦ uploadAsync_eq _ husable fuel hholds.size) ?_
  -- the announcement and its answer
  refine Settles.bind (.of_yields ((yields_beginUpload hrests hholds.total_ne file.name husable
    (.refl e)).mono (fun _ _ h ↦ h) ?_)) ?_
  · rintro failure e' ⟨-, -, hstopped⟩
    exact absurd hcalm hstopped.set
  rintro ⟨chunkSize, names⟩ e₁ ⟨hsize, husable₁, read, hread, h₁⟩
  obtain rfl : chunkSize = kDefaultMaxChunk := hsize
  refine Settles.bind (.of_yields (h₁.keep _)) ?_
  rintro _ e₂ ⟨h₂, hown₂, -⟩
  have husable₂ : e₂.own.disposed = false := by
    rw [hown₂]
    exact husable₁
  rw [hholds.opened]
  dsimp only
  -- the chunks, which are all of the file
  have hstart : ([] : List Bytes).flatten.length + bytes.length
      = (UInt64.ofNat bytes.length).toNat := (Nat.zero_add _).trans hholds.total_eq.symm
  refine Settles.bind (settles_chunkLoop_brings hunder hrests hcalm hread husable₂ hholds.reads
    hstart h₂) ?_
  rintro sent e₃ ⟨rfl, husable₃, chunks, read₃, hflat, hunder₃, hread₃, h₃⟩
  have hflat : chunks.flatten = bytes := hflat
  have hlen : chunks.flatten.length = (UInt64.ofNat bytes.length).toNat := by
    rw [hflat, hholds.total_eq]
  refine Settles.ite (fun hother ↦ absurd rfl hother) ?_
  intro _
  have hwhole : Whole (beginPayload (.ofNat bytes.length) file.name)
      (PayloadWriter.u64 (.ofNat (UInt64.ofNat bytes.length).toNat))
      (UInt64.ofNat bytes.length).toNat chunks := by
    refine ⟨hunder₃, hlen, ?_, (PayloadWriter.length_u64 _).trans_le (by decide)⟩
    exact uploadEndFields_of (UInt64.toNat_lt _)
  -- the UPLOAD_END
  refine Settles.bind (.of_yields (h₃.mark .endSend)) ?_
  rintro _ e₄ ⟨h₄, hown₄, -, -⟩
  have husable₄ : e₄.own.disposed = false := hown₄ ▸ husable₃
  refine Settles.bind (.of_yields ((yields_sendFrameAsync_true husable₄ h₄ _ _).mono
    (fun _ _ h ↦ h) ?_)) ?_
  · rintro failure e' ⟨-, -, part, hsevered⟩
    exact absurd hcalm hsevered.set
  rintro _ e₅ ⟨h₅, hown₅⟩
  -- the analysis
  have hacked := hunder₃.acked hrests hread₃ h₄.talk
  refine Settles.bind (settles_awaitAnalysis_calm hwhole hrests hcalm hacked
    (hown₅ ▸ husable₄) h₅) ?_
  rintro d e₆ ⟨husable₆, csv, read₆, hcsv, h₆, harriving⟩
  refine Settles.bind (.of_yields (h₆.mark .resultRead)) ?_
  rintro _ e₇ ⟨h₇, hown₇, -, hsame₇⟩
  rw [← hsame₇] at harriving
  -- the result, which is never too large
  have hstarted₇ := h₇.talk.moves.started hstarted
  have hsmall : csv.length < 64 * 1024 * 1024 :=
    harriving.length_lt hstarted₇ (by rw [hflat]; exact hholds.fits)
  rw [hcsv]
  refine Settles.bind (settles_receiveResult_pending (hown₇ ▸ husable₆)
    (h₇.talk.moves.calm hcalm) hsmall.le harriving.toPending) ?_
  rintro text _ ⟨rfl, received, s, rfl, hmoves, hclient⟩
  have hserver := (hmoves.given harriving.toServer).1
  have hall := h₇.talk.moves.trans hmoves
  rw [List.append_nil] at hall
  refine .of_yields (.pure ⟨⟨csv, hflat ▸ harriving.reports hstarted₇, rfl⟩, ?_, ?_⟩)
  · exact hown₇ ▸ husable₆
  · exact ⟨hall.started hstarted, ⟨_, hwhole.rests hrests hall hserver hclient⟩, hall.calm hcalm⟩

end ServerConnection

end LoggerAnalyzer
