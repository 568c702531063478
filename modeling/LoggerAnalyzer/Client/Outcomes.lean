import LoggerAnalyzer.Client.Ending

/-!
# How uploads end on a net

The uploads of both clients, from the UPLOAD_BEGIN on, to a session that waits for an upload. All
the ways in which they end are listed, each with the frames that were sent and with what is known of
the flag.
-/

namespace LoggerAnalyzer

open Program TcpSession Conversation

variable {D : Type} [DoubleOps D] {κ : Type}

/-- How the frames of an upload end: not at all, with a CANCEL, or with an UPLOAD_END if all was
sent. -/
inductive EndsWith (total : ℕ) (chunks : List Bytes) : List (MsgType × Bytes) → Prop where
  | nothing : EndsWith total chunks []
  | cancel : EndsWith total chunks [(.cancel, [])]
  | complete {payload} (all : chunks.flatten.length = total)
    (fields : uploadEndFields payload = some total) (short : payload.length ≤ kMaxPayload) :
    EndsWith total chunks [(.uploadEnd, payload)]

theorem EndsWith.proper {announcement : Bytes} {total : ℕ} {chunks : List Bytes}
    {ending : List (MsgType × Bytes)} (h : EndsWith total chunks ending)
    (hunder : Underway announcement total chunks) (last : Option (List Bytes)) :
    Proper D (.idle last) (uploadStart announcement chunks ++ ending) := by
  cases h with
  | nothing =>
    rw [List.append_nil]
    exact ⟨hunder.length_le, by rw [hunder.run]; rfl⟩
  | cancel => exact hunder.proper_cancel last
  | complete all fields short => exact Whole.proper ⟨hunder, all, fields, short⟩ last

/-- The frames of an upload were sent, as far as they go. -/
structure Carried (e₀ : Endpoint (Net D) κ) (total : ℕ) (chunks : List Bytes)
    (ending : List (MsgType × Bytes)) (e : Endpoint (Net D) κ) : Prop where
  ends : EndsWith total chunks ending
  sent : ∃ announcement read, Underway announcement total chunks ∧
    Over e₀ (uploadStart announcement chunks ++ ending) read e

/-- The client does something of its own. -/
theorem Carried.congr {e₀ e e' : Endpoint (Net D) κ} {total : ℕ} {chunks : List Bytes}
    {ending : List (MsgType × Bytes)} (h : Carried e₀ total chunks ending e)
    (outside : e'.outside = e.outside) (written : e'.written = e.written)
    (complete : e'.sent = e.sent) : Carried e₀ total chunks ending e' := by
  obtain ⟨hends, announcement, read, hunder, hover⟩ := h
  exact ⟨hends, announcement, read, hunder, hover.reads (.congr (.refl e) outside written complete)⟩

/-- At some time between `s₀` and `s'` the result of these chunks was on its way. -/
def Due (s₀ : Net D) (chunks : List Bytes) (csv : Bytes) (s' : Net D) : Prop :=
  ∃ sent bytes s, Net.Moves sent bytes s₀ s ∧ Arriving chunks csv s ∧
    ∃ bytes', Net.Moves [] bytes' s s'

/-! ## The C++ client -/

namespace TransferClient

variable {e₀ e : Endpoint (Net D) TransferClient} {last : Option (List Bytes)}

/-- Where the flag may be seen with no harm done. -/
def Gentle (site : Site) : Prop := site = .chunkTop ∨ site = .chunkSend ∨ site = .analysisTop

/-- How an upload ends after which the connection is kept. -/
inductive Kept (e₀ : Endpoint (Net D) TransferClient) (file : LocalFile) (total : ℕ) :
    Endpoint (Net D) TransferClient → Prop where
  | cancelled {site e} (gentle : Gentle site) (cancelled : Cancelled e₀ site e) :
    Kept e₀ file total e
  | changed {chunks e} (changed : ¬ (InputFile.new file).Intact kDefaultMaxChunk total)
    (carried : Carried e₀ total chunks [(.cancel, [])] e) (unseen : e.noticed = e₀.noticed)
    (phase : e.own.state.phase = .connected) : Kept e₀ file total e
  | done {chunks payload csv e} (opened : file.openError = none)
    (intact : (InputFile.new file).Intact kDefaultMaxChunk total)
    (carried : Carried e₀ total chunks [(.uploadEnd, payload)] e)
    (content : ∀ bytes, Brings kDefaultMaxChunk file.reads bytes → bytes.length = total →
      chunks.flatten = bytes)
    (due : Due e₀.outside chunks csv e.outside)
    (received : csv.length ≤ kMaxCsvBytes →
      e.noticed = e₀.noticed ∧ e.own.csv = csv ∧ e.outside.toClient = [])
    (phase : e.own.state.phase = .done) : Kept e₀ file total e

/-- How an upload ends after which the connection is closed. -/
inductive Broken (e₀ : Endpoint (Net D) TransferClient) (file : LocalFile) (total : ℕ) :
    Endpoint (Net D) TransferClient → Prop where
  | seen {site n e} (rough : ¬ Gentle site) (seen : Seen e₀ ⟨site, n⟩ e) : Broken e₀ file total e
  | unopened {e'} (unopened : file.openError ≠ none) (carried : Carried e₀ total [] [] e')
    (unseen : e'.noticed = e₀.noticed) : Broken e₀ file total e'
  | unread {chunks payload csv e} (carried : Carried e₀ total chunks [(.uploadEnd, payload)] e)
    (due : Due e₀.outside chunks csv e.outside) (large : kMaxCsvBytes < csv.length) :
    Broken e₀ file total e

/-- The result is received, or why not. -/
theorem settles_receiveResult_due {sent read : List (MsgType × Bytes)} {csv : Bytes}
    (h : Along e₀ sent read [] e) (hsite : e.here = .resultRead)
    (hpending : Pending (resultFrames csv) e.outside) :
    Settles (fun fuel ↦ receiveResult (Net.link D) fuel (.ofNat csv.length)) e
      (fun _ e' ↦ Reads e e' ∧ (csv.length ≤ kMaxCsvBytes →
        e'.noticed = e₀.noticed ∧ e'.own.csv = csv ∧ e'.outside.toClient = []))
      fun failure e' ↦ failure ≠ .spent ∧
        ((∃ n, Seen e₀ ⟨.resultRead, n⟩ e') ∨ kMaxCsvBytes < csv.length ∧ Reads e e') := by
  rcases Nat.lt_or_ge kMaxCsvBytes csv.length with hlarge | hlen
  · refine (settles_receiveResult_reads _ e).mono ?_ ?_
    · exact fun _ e' hreads ↦ ⟨hreads, fun hlen ↦ absurd hlarge (Nat.not_lt.mpr hlen)⟩
    · exact fun failure e' hfail ↦ ⟨hfail.1, .inr ⟨hlarge, hfail.2⟩⟩
  · refine (settles_receiveResult hlen hpending).mono ?_ ?_
    · rintro _ e' ⟨hreads, hnoticed, hcsv, hread⟩
      refine ⟨hreads, fun _ ↦ ⟨?_, hcsv, hread⟩⟩
      rw [hnoticed, h.noticed, List.append_nil]
    · intro failure e' hint
      obtain ⟨rfl, -, n, hseen⟩ := h.seen_of_interrupted hint
      exact ⟨by simp, .inl ⟨n, hsite ▸ hseen⟩⟩

/-- **How an upload ends.** -/
theorem settles_upload (hrests : Rests (.idle last) e₀.outside) {total : UInt64}
    (hpos : total.toNat ≠ 0) (file : LocalFile) (h : Along e₀ [] [] [] e) :
    Settles (fun fuel ↦ upload (Net.link D) fuel file total) e
      (fun kept e' ↦ kept = true ∧ Kept e₀ file total.toNat e')
      fun failure e' ↦ failure ≠ .spent ∧ Broken e₀ file total.toNat e' := by
  have hunder := underway_beginPayload hpos file.name
  have hrough : ∀ {site : Site}, site ≠ .chunkTop → site ≠ .chunkSend → site ≠ .analysisTop →
      ¬ Gentle site := fun h₁ h₂ h₃ h ↦ h.elim h₁ (·.elim h₂ h₃)
  -- the announcement and its answer
  refine Settles.bind (.of_yields ((yields_beginUpload hrests hpos file.name h).mono
    (fun _ _ h ↦ h) ?_)) ?_
  · rintro failure e' ⟨rfl, n, hseen | hseen⟩
    · exact ⟨by simp, .seen (hrough (by decide) (by decide) (by decide)) hseen⟩
    · exact ⟨by simp, .seen (hrough (by decide) (by decide) (by decide)) hseen⟩
  rintro ⟨chunkSize, names⟩ e₁ ⟨hsize, read, hread, h₁⟩
  obtain rfl : chunkSize = kDefaultMaxChunk := hsize
  refine Settles.bind (.of_yields (h₁.keep _)) ?_
  rintro _ e₂ ⟨h₂, -, -⟩
  -- the file is opened only when it is announced
  refine Settles.failIf (fun hopen ↦ ⟨by simp, ?_⟩) fun hopen ↦ ?_
  · refine .unopened (by simpa [Option.isSome_iff_ne_none] using hopen)
      ⟨.nothing, _, read, hunder, ?_⟩ ?_
    · rw [List.append_nil]
      exact h₂.over
    · rw [h₂.noticed, List.append_nil]
  have hopened : file.openError = none := by simpa using hopen
  -- the chunks: the loop ends at a cancel, or with what the file brought
  refine Settles.bind ((settles_chunkLoop hunder hrests hread (.new file) h₂).mono
    (fun _ _ h ↦ h) ?_) ?_
  · rintro failure e' ⟨rfl, n, hseen⟩
    exact ⟨by simp, .seen (hrough (by decide) (by decide) (by decide)) hseen⟩
  intro ended e₃ hover
  cases hover with
  | cancelled hsite hcancelled =>
    exact .of_yields (.pure ⟨rfl, .cancelled (hsite.imp_right .inl) hcancelled⟩)
  | @ended chunks read bad _ hunder hread h₃ hall hcontent =>
    refine Settles.ite (fun hshort ↦ ?_) fun hfull ↦ ?_
    · -- the file brought less than it should have
      refine Settles.bind (settles_sendCancelAndWait e₃) ?_
      rintro _ e₅ ⟨e₄, hcancel, -, hwaits⟩
      have h₄ := h₃.sentFrame hcancel
      refine .of_yields (Yields.bind (Yields.modify rfl : Yields _ _ (fun _ e' ↦ e' = _) _) ?_)
      rintro _ _ rfl
      refine ⟨rfl, .changed ?_ ⟨.cancel, _, read, hunder, ?_⟩ ?_ rfl⟩
      · intro hintact
        obtain ⟨hlen, rfl⟩ := hall.mp hintact
        exact hshort.elim (by decide) fun hne ↦ hne hlen
      · exact (h₄.over.reads hwaits.toReads).reads (.congr (.refl e₅) rfl rfl rfl)
      · exact hwaits.noticed.trans (h₄.noticed.trans (List.append_nil _))
    -- all bytes are sent, so the upload is ended
    obtain ⟨hbad, hlen⟩ := not_or.mp hfull
    have hlen : chunks.flatten.length = total.toNat := not_not.mp hlen
    have hintact := hall.mpr ⟨hlen, Bool.eq_false_iff.mpr hbad⟩
    have hwhole : Whole (beginPayload total file.name)
        (Client.PayloadWriter.u64 (.ofNat chunks.flatten.length)) total.toNat chunks := by
      refine ⟨hunder, hlen, ?_, ?_⟩
      · rw [hlen]
        exact uploadEndFields_of total.toNat_lt
      · exact (PayloadWriter.length_u64 _).trans_le (by decide)
    refine Settles.bind (.of_yields (h₃.mark .endSend)) ?_
    rintro _ e₄ ⟨h₄, -, hend, -⟩
    refine Settles.bind (.of_yields ((yields_sendFrame _ _ _).mono (fun _ _ h ↦ h)
      fun failure e' hstop ↦ ?_)) ?_
    · obtain ⟨rfl, -, n, hseen⟩ := h₄.seen_of_sendStopped hstop
      rw [hend] at hseen
      exact ⟨by simp, .seen (hrough (by decide) (by decide) (by decide)) hseen⟩
    rintro _ e₅ ⟨hsent, -⟩
    refine Settles.bind (.of_yields ((h₄.sentFrame hsent).keep _)) ?_
    rintro _ e₆ ⟨h₆, -, -⟩
    -- the analysis, before which there may be a cancel again
    refine Settles.bind ((settles_awaitAnalysis hwhole hrests (hunder.acked hrests hread h₃.talk)
      h₆).mono (fun _ _ h ↦ h) ?_) ?_
    · rintro failure e' ⟨rfl, n, hseen⟩
      exact ⟨by simp, .seen (hrough (by decide) (by decide) (by decide)) hseen⟩
    rintro size e₇ (⟨rfl, hcancelled⟩ | ⟨csv, read', rfl, h₇, harriving⟩)
    · exact .of_yields (.pure ⟨rfl, .cancelled (.inr (.inr rfl)) hcancelled⟩)
    have hends : EndsWith total.toNat chunks
        [(.uploadEnd, Client.PayloadWriter.u64 (.ofNat chunks.flatten.length))] :=
      .complete hlen hwhole.endFields hwhole.short
    refine Settles.bind (.of_yields (h₇.keep _)) ?_
    rintro _ e₈ ⟨h₈, -, hsame₈⟩
    refine Settles.bind (.of_yields (h₈.mark .resultRead)) ?_
    rintro _ e₉ ⟨h₉, -, hresult, hsame₉⟩
    have harriving : Arriving chunks csv e₉.outside := by
      rw [hsame₉, hsame₈]
      exact harriving
    have hdue : ∀ {e'}, Reads e₉ e' → Due e₀.outside chunks csv e'.outside := fun hreads ↦
      ⟨_, _, _, h₉.talk.moves, harriving, hreads.moves⟩
    -- the result, if it is not too large
    refine Settles.bind ((settles_receiveResult_due h₉ hresult harriving.toPending).mono
      (fun _ _ h ↦ h) ?_) ?_
    · rintro failure e' ⟨hne, ⟨n, hseen⟩ | ⟨hlarge, hreads⟩⟩
      · exact ⟨hne, .seen (hrough (by decide) (by decide) (by decide)) hseen⟩
      · exact ⟨hne, .unread ⟨hends, _, read', hunder, h₉.over.reads hreads⟩ (hdue hreads) hlarge⟩
    rintro _ e₁₀ ⟨hreads, hreceived⟩
    refine .of_yields (Yields.bind (Yields.modify rfl : Yields _ _ (fun _ e' ↦ e' = _) _) ?_)
    rintro _ _ rfl
    refine ⟨rfl, .done hopened hintact ⟨hends, _, read', hunder, ?_⟩ ?_
      (hdue (hreads.congr rfl rfl rfl)) hreceived rfl⟩
    · exact h₉.over.reads (hreads.congr rfl rfl rfl)
    · exact fun bytes hbrings htotal ↦ hcontent bytes rfl hbrings ((Nat.zero_add _).trans htotal)

theorem Broken.congr {file : LocalFile} {total : ℕ} {e' : Endpoint (Net D) TransferClient}
    (h : Broken e₀ file total e) (outside : e'.outside = e.outside)
    (written : e'.written = e.written)
    (complete : e'.sent = e.sent) (noticed : e'.noticed = e.noticed) : Broken e₀ file total e' := by
  cases h with
  | seen rough seen => exact .seen rough (seen.onward noticed)
  | unopened unopened carried unseen =>
    exact .unopened unopened (carried.congr outside written complete) (noticed.trans unseen)
  | unread carried due large =>
    exact .unread (carried.congr outside written complete) (outside ▸ due) large

/-- **How `do_upload` ends**: a failure is shown, and the connection is closed. -/
theorem settles_doUpload (hrests : Rests (.idle last) e.outside) {file : LocalFile} {total : UInt64}
    (hsize : file.size = some total) (hpos : total.toNat ≠ 0)
    {E : Failure → Endpoint (Net D) TransferClient → Prop} :
    Settles (fun fuel ↦ doUpload (Net.link D) fuel file) e
      (fun kept e' ↦ kept = true ∧ Kept e file total.toNat e' ∨
        kept = false ∧ Broken e file total.toNat e' ∧ e'.own.state.phase = .failed) E := by
  have h := Along.refl e
  refine Settles.bind (.of_yields (h.keep freshUpload)) ?_
  rintro _ e₁ ⟨h₁, -, -⟩
  rw [hsize]
  refine Settles.tryCatch ((settles_upload hrests hpos file h₁).mono (fun _ _ h ↦ .inl h)
    fun _ _ h ↦ h) ?_
  rintro failure e' ⟨hne, hbroken⟩
  refine Settles.ite (fun hspent ↦ absurd hspent hne) ?_
  intro _
  refine .of_yields (Yields.bind (Yields.modify rfl : Yields _ _ (fun _ e' ↦ e' = _) _) ?_)
  rintro _ _ rfl
  exact .inr ⟨rfl, hbroken.congr rfl rfl rfl rfl, rfl⟩

end TransferClient

/-! ## The C# client -/

namespace ServerConnection

variable {e₀ e : Endpoint (Net D) ServerConnection} {last : Option (List Bytes)}
  {announcement ending : Bytes} {total : ℕ} {chunks : List Bytes}
  {read : List (MsgType × Bytes)}

/-- How an upload ends with an exception. -/
inductive Thrown (e₀ : Endpoint (Net D) ServerConnection) (total : ℕ) :
    Failure → Endpoint (Net D) ServerConnection → Prop where
  | atBegin {announcement e'} (usable : e'.own.disposed = false)
    (announced : ∃ name, uploadBeginFields announcement = some (total, name))
    (small : announcement.length ≤ kMaxPayload) (stopped : BeginStopped e₀ announcement e') :
    Thrown e₀ total .cancelled e'
  | atEnd {announcement ending chunks read part e'} (usable : e'.own.disposed = false)
    (whole : Whole announcement ending total chunks) (acked : Acked read)
    (severed : Severed e₀ (uploadStart announcement chunks) read
      (serializeFrame .uploadEnd ending) part .endSend e') : Thrown e₀ total .cancelled e'
  | atChunk {announcement chunks n e'} (underway : Underway announcement total chunks)
    (drained :
      Drained e₀ (uploadStart announcement chunks ++ [(.cancel, [])]) [⟨.chunkTop, n⟩] e') :
    Thrown e₀ total .cancelled e'
  | atResult {announcement ending chunks site n e'} (whole : Whole announcement ending total chunks)
    (late : site = .analysisRead ∨ site = .resultRead)
    (drained : Drained e₀ (uploadWhole announcement ending chunks ++ [(.cancel, [])])
      [⟨site, n⟩] e') :
    Thrown e₀ total .cancelled e'
  | localFile {announcement chunks message e'} (underway : Underway announcement total chunks)
    (drained : Drained e₀ (uploadStart announcement chunks ++ [(.cancel, [])]) [] e') :
    Thrown e₀ total (.localFile message) e'
  | other {announcement ending chunks read failure e'}
    (whole : Whole announcement ending total chunks)
    (other : failure ≠ .cancelled) (spent : failure ≠ .spent)
    (along : Along e₀ (uploadWhole announcement ending chunks) read [] e') :
    Thrown e₀ total failure e'

theorem Thrown.of_chunksFail {failure : Failure} {e' : Endpoint (Net D) ServerConnection}
    (h : ChunksFail e₀ announcement total failure e') : Thrown e₀ total failure e' := by
  obtain ⟨chunks, seen, hunder, hdrained, ⟨⟨n, rfl⟩, rfl⟩ | ⟨rfl, message, rfl⟩⟩ := h
  · exact .atChunk hunder hdrained
  · exact .localFile hunder hdrained

theorem Thrown.ne_spent {failure : Failure} {e' : Endpoint (Net D) ServerConnection}
    (h : Thrown e₀ total failure e') : failure ≠ .spent := by
  cases h with
  | atBegin | atEnd | atChunk | atResult | localFile => simp
  | other _ _ hspent => exact hspent

theorem Thrown.of_waitFails (hwhole : Whole announcement ending total chunks) {site : Site}
    (hlate : site = .analysisRead ∨ site = .resultRead) {failure : Failure}
    {e' : Endpoint (Net D) ServerConnection}
    (h : WaitFails e₀ (uploadWhole announcement ending chunks) site failure e') :
    Thrown e₀ total failure e' := by
  rcases h with ⟨rfl, n, hdrained⟩ | ⟨hne, hspent, read, halong⟩
  · exact .atResult hwhole hlate hdrained
  · exact .other hwhole hne hspent halong

/-- **How an upload ends.** -/
theorem settles_upload (hrests : Rests (.idle last) e₀.outside)
    (husable : e₀.own.disposed = false) (file : LocalFile) {total : UInt64}
    (hpos : total.toNat ≠ 0) :
    Settles (fun fuel ↦ upload (Net.link D) fuel file total) e₀
      (fun _ e' ↦ ∃ announcement ending chunks read,
        Whole announcement ending total.toNat chunks ∧
          Along e₀ (uploadWhole announcement ending chunks) read [] e')
      (Thrown e₀ total.toNat) := by
  have hunder := underway_beginPayload hpos file.name
  -- the announcement and its answer
  refine Settles.bind (.of_yields ((yields_beginUpload hrests hpos file.name husable
    (.refl e₀)).mono (fun _ _ h ↦ h) ?_)) ?_
  · rintro failure e' ⟨rfl, husable', hstopped⟩
    exact .atBegin husable' hunder.fields hunder.small hstopped
  rintro ⟨chunkSize, names⟩ e₁ ⟨hsize, husable₁, read, hread, h₁⟩
  obtain rfl : chunkSize = kDefaultMaxChunk := hsize
  refine Settles.bind (.of_yields (h₁.keep _)) ?_
  rintro _ e₂ ⟨h₂, hown₂, -⟩
  have husable₂ : e₂.own.disposed = false := by
    rw [hown₂]
    exact husable₁
  -- the file cannot be opened, and the upload is cancelled; or the chunks are sent
  cases file.openError with
  | some why =>
    exact (settles_abandon hunder hrests husable₂ h₂ _).mono (fun _ _ hnever ↦ hnever)
      fun _ _ h ↦ .of_chunksFail h
  | none =>
    dsimp only
    refine Settles.bind ((settles_chunkLoop hunder hrests hread husable₂ file.reads h₂).mono
      (fun _ _ h ↦ h) fun _ _ h ↦ .of_chunksFail h) ?_
    rintro sent e₃ ⟨husable₃, chunks, read₃, rfl, hunder₃, hread₃, h₃⟩
    refine Settles.ite (fun _ ↦ ?_) fun hfull ↦ ?_
    · exact (settles_abandon hunder₃ hrests husable₃ h₃ _).mono (fun _ _ hnever ↦ hnever)
        fun _ _ h ↦ .of_chunksFail h
    -- the file brought all that was declared
    have hlen : chunks.flatten.length = total.toNat := not_not.mp hfull
    have hwhole : Whole (beginPayload total file.name)
        (PayloadWriter.u64 (.ofNat chunks.flatten.length)) total.toNat chunks := by
      refine ⟨hunder₃, hlen, ?_, (PayloadWriter.length_u64 _).trans_le (by decide)⟩
      rw [hlen]
      exact uploadEndFields_of total.toNat_lt
    refine Settles.bind (.of_yields (h₃.mark .endSend)) ?_
    rintro _ e₄ ⟨h₄, hown₄, hend, -⟩
    have husable₄ : e₄.own.disposed = false := hown₄ ▸ husable₃
    refine Settles.bind (.of_yields ((yields_sendFrameAsync_true husable₄ h₄ _ _).mono
      (fun _ _ h ↦ h) ?_)) ?_
    · rintro failure e' ⟨rfl, hown, part, hsevered⟩
      exact .atEnd (hown ▸ husable₄) hwhole (hunder₃.acked hrests hread₃ h₄.talk) (hend ▸ hsevered)
    rintro _ e₅ ⟨h₅, hown₅⟩
    -- the analysis and the result, in either of which the token may be noticed
    have hproper := hwhole.proper (D := D) last
    have hcancel := hwhole.proper_cancel (D := D) last
    refine Settles.bind ((settles_awaitAnalysis hrests hproper hcancel (hown₅ ▸ husable₄) h₅).mono
      (fun _ _ h ↦ h) fun _ _ h ↦ .of_waitFails hwhole (.inl rfl) h) ?_
    rintro result e₆ ⟨husable₆, read₆, h₆⟩
    refine Settles.bind (.of_yields (h₆.mark .resultRead)) ?_
    rintro _ e₇ ⟨h₇, hown₇, hresult, -⟩
    refine Settles.bind ((settles_receiveResult hrests hproper hcancel (hown₇ ▸ husable₆) hresult _
      h₇).mono (fun _ _ h ↦ h) fun _ _ h ↦ .of_waitFails hwhole (.inr rfl) h) ?_
    rintro csv e₈ ⟨read₈, h₈⟩
    exact .of_yields (.pure ⟨_, _, chunks, read₈, hwhole, h₈⟩)

/-- `UploadAsync` is an upload, if the connection may be used and the file is there. -/
theorem uploadAsync_eq {σ : Type} (link : Link σ) {e : Endpoint σ ServerConnection}
    (husable : e.own.disposed = false) (fuel : ℕ) {file : LocalFile} {total : UInt64}
    (hsize : file.size = some total) :
    uploadAsync link fuel file e = upload link fuel file total e := by
  rw [uploadAsync, hsize]
  exact bind_ok (ensureUsable_eq husable)

theorem settles_uploadAsync (hrests : Rests (.idle last) e₀.outside)
    (husable : e₀.own.disposed = false) {file : LocalFile} {total : UInt64}
    (hsize : file.size = some total) (hpos : total.toNat ≠ 0) :
    Settles (fun fuel ↦ uploadAsync (Net.link D) fuel file) e₀
      (fun _ e' ↦ ∃ announcement ending chunks read,
        Whole announcement ending total.toNat chunks ∧
          Along e₀ (uploadWhole announcement ending chunks) read [] e')
      (Thrown e₀ total.toNat) :=
  (settles_upload hrests husable file hpos).of_eq fun fuel ↦ uploadAsync_eq _ husable fuel hsize

/-- All of an upload was sent. -/
theorem carried_of_whole (hwhole : Whole announcement ending total chunks)
    (h : Along e₀ (uploadWhole announcement ending chunks) read [] e) :
    Carried e₀ total chunks [(.uploadEnd, ending)] e :=
  ⟨.complete hwhole.all hwhole.endFields hwhole.short, announcement, read,
    hwhole.toUnderway, h.over⟩

end ServerConnection

end LoggerAnalyzer
