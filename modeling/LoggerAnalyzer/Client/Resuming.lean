import LoggerAnalyzer.Client.Cancelling

/-!
# What a cancelled upload leaves behind

After a cancel the C# client may go on to use the connection. It can do so if the session is idle
again, between two frames, and everything that it had to say was read. A CANCEL brings this about,
whether it comes in time or too late, once the client has read the ERROR or the RESULT_END. Where
the token was passed on to a write or a read, no CANCEL is sent, and the two ends are out of step.
-/

namespace LoggerAnalyzer

open Program Incremental FrameDecoder TcpSession Conversation

variable {D : Type} [DoubleOps D]

/-- Another upload may begin: the session is ready and holds nothing of a frame, nothing is left to
be read, and an UPLOAD_BEGIN is answered by an UPLOAD_BEGIN_ACK and by nothing else. -/
structure ReadyForNext (s : Net D) : Prop where
  ready : s.session.state = .ready
  processed : At s.session.decoder []
  read : s.toClient = []
  next : ∀ announcement total name, uploadBeginFields announcement = some (total, name) →
    total ≠ 0 → announcement.length ≤ kMaxPayload → ∀ bytes s',
    Net.Moves (serializeFrame .uploadBegin announcement) bytes s s' → s'.toServer = [] →
      ∃ reply, bytes ++ s'.toClient = serializeFrame .uploadBeginAck reply

/-- Once the session has read everything that was written, another upload may begin. -/
def LeavesInStep {κ : Type} (e : Endpoint (Net D) κ) : Prop :=
  ∀ s, Net.Moves [] [] e.outside s → s.toServer = [] → ReadyForNext s

theorem Rests.readyForNext {last : Option (List Bytes)} {s : Net D} (h : Rests (.idle last) s) :
    ReadyForNext s where
  ready := by
    obtain _ | ⟨state, -⟩ := h.serving.stands
    exact state
  processed := h.holds
  read := h.toClient
  next := by
    intro announcement total name hfields hpos hsmall bytes s' hmoves hserver
    have hunder : Underway announcement total [] :=
      ⟨⟨name, hfields⟩, hsmall, hpos, fun _ h ↦ absurd h List.not_mem_nil, Nat.zero_le _⟩
    rw [← wire_singleton] at hmoves
    have hserved := served h hunder.length_le (by rw [hunder.run]; rfl) hmoves
    obtain ⟨phase, replies, hans, -, -, hwire, -⟩ := hserved.complete hunder.length_le hserver
    cases hans.singleton.2 with
    | @begun _ _ _ _ reply =>
      rw [wire_singleton] at hwire
      exact ⟨reply, hwire⟩
    | turnedAway fields => exact absurd fields (hunder.fields_ne _)

theorem LeavesInStep.flushed {κ : Type} {e : Endpoint (Net D) κ} (h : LeavesInStep e) :
    ∃ s, Net.Moves [] [] e.outside s ∧ s.toServer = [] ∧ ReadyForNext s :=
  have hserver := Net.toServer_flush (Nat.le_refl e.outside.toServer.length)
  ⟨_, Net.moves_flush _ _, hserver, h _ (Net.moves_flush _ _) hserver⟩

/-! ## Everything is read -/

/-- Once the session has read everything, what is left of its answers is on its way. -/
theorem Along.complete_answers {κ : Type} {e₀ e : Endpoint (Net D) κ} {phase₀ : Phase}
    {sent read : List (MsgType × Bytes)} {seen : List Notice} (h : Along e₀ sent read seen e)
    (hrests : Rests phase₀ e₀.outside) (hproper : Proper D phase₀ sent) {s : Net D}
    (hmoves : Net.Moves [] [] e.outside s) (hserver : s.toServer = []) :
    ∃ phase pending, (service D).Answered phase₀ sent phase (read ++ pending) ∧
      (pending = [] → Rests phase s) := by
  have htalk := (h.passes hmoves).talk
  obtain ⟨phase, replies, hans, hserving, holds, hwire, hsayable⟩ :=
    (served hrests hproper.small hproper.run htalk.moves).complete hproper.small hserver
  obtain ⟨pending, rfl, hpending⟩ :=
    append_of_wire htalk.small (fun f hf ↦ (hsayable f hf).length) hwire
  refine ⟨phase, pending, hans, ?_⟩
  rintro rfl
  exact ⟨hserver, hpending, holds, hserving.stands, hserving.writable, hserving.unflagged, rfl⟩

/-- Nothing was sent, and nothing was read. -/
theorem leavesInStep_of_idle {κ : Type} {e₀ e : Endpoint (Net D) κ} {last : Option (List Bytes)}
    (hrests : Rests (.idle last) e₀.outside) (hmoves : Net.Moves [] [] e₀.outside e.outside) :
    LeavesInStep e := by
  intro s hmoves' hserver
  have hserved : Served (.idle last) e₀.outside [] [] s :=
    served hrests (by simp) rfl (hmoves.trans hmoves')
  obtain ⟨phase, replies, hans, hserving, holds, hwire, -⟩ := hserved.complete (by simp) hserver
  obtain ⟨rfl, rfl⟩ := Machine.Answered.nil_iff.mp hans
  have hstill : Rests (.idle last) s :=
    ⟨hserver, hwire, holds, hserving.stands, hserving.writable, hserving.unflagged, rfl⟩
  exact hstill.readyForNext

/-! ## After a CANCEL -/

/-- ERROR and RESULT_END, after which nothing more comes. -/
def Closing (type : MsgType) : Prop := type = .error ∨ type = .resultEnd

instance (type : MsgType) : Decidable (Closing type) :=
  inferInstanceAs (Decidable (type = .error ∨ type = .resultEnd))

/-- The session becomes idle, and the last of its answers is the only one that is closing. -/
def Closes (D : Type) [DoubleOps D] (last : Option (List Bytes)) (sent : List (MsgType × Bytes)) :
    Prop :=
  ∀ phase replies, (service D).Answered (.idle last) sent phase replies →
    (∃ last', phase = .idle last') ∧
      ∃ front final, replies = front ++ [final] ∧ ∀ f ∈ front, ¬ Closing f.1

theorem Acked.not_closing {frames : List (MsgType × Bytes)} (h : Acked frames) :
    ∀ f ∈ frames, ¬ Closing f.1 := by
  obtain ⟨reply, acks, rfl, hacks⟩ := h
  rw [List.forall_mem_cons]
  refine ⟨(by decide : ¬ Closing .uploadBeginAck), fun f hf ↦ ?_⟩
  rw [hacks f hf]
  decide

/-- A CANCEL in time is answered by an ERROR. -/
theorem Underway.closes {announcement : Bytes} {total : ℕ} {chunks : List Bytes}
    (h : Underway announcement total chunks) (last : Option (List Bytes)) :
    Closes D last (uploadStart announcement chunks ++ [(.cancel, [])]) := by
  intro phase replies hans
  obtain ⟨phase₁, acks, answer, hstart, hend, rfl⟩ := hans.split
  obtain ⟨rfl, hacked⟩ := h.answered hstart
  obtain ⟨hnext, hcancelled⟩ := hend.singleton
  have hidle : (service D).next (.uploading total chunks) (.cancel, []) = some (.idle none) := rfl
  cases hidle.symm.trans hnext
  cases hcancelled with
  | cancelled => exact ⟨⟨none, rfl⟩, acks, _, rfl, hacked.not_closing⟩

/-- A CANCEL that comes too late is not answered, but the result is on its way. -/
theorem Whole.closes {announcement ending : Bytes} {total : ℕ} {chunks : List Bytes}
    (h : Whole announcement ending total chunks) (last : Option (List Bytes)) :
    Closes D last (uploadWhole announcement ending chunks ++ [(.cancel, [])]) := by
  intro phase replies hans
  obtain ⟨phase₁, replies₁, answer, hwhole, hend, rfl⟩ := hans.split
  obtain ⟨rfl, csv, acks, elapsedMs, rss, u, hacked, -, -, rfl⟩ := h.answered hwhole
  obtain ⟨hnext, hnothing⟩ := hend.singleton
  have hidle : (service D).next (.idle (some chunks)) (.cancel, [])
    = some (.idle (some chunks)) := rfl
  cases hidle.symm.trans hnext
  cases hnothing
  refine ⟨⟨some chunks, rfl⟩, acks ++ (.analyzeDone, u.donePayload elapsedMs rss)
    :: (.resultBegin, resultBeginPayload csv)
    :: (resultChunks csv.length csv).map (fun chunk ↦ (.resultChunk, chunk)), (.resultEnd, []),
    by simp [resultFrames], ?_⟩
  rw [List.forall_mem_append, List.forall_mem_cons, List.forall_mem_cons, List.forall_mem_map]
  exact ⟨hacked.not_closing, (by decide : ¬ Closing .analyzeDone),
    (by decide : ¬ Closing .resultBegin), fun _ _ ↦ (by decide : ¬ Closing .resultChunk)⟩

namespace ServerConnection

variable {e₀ e : Endpoint (Net D) ServerConnection} {last : Option (List Bytes)}

/-- **A CANCEL leaves both ends in step**, once the client has read the frame that is closing. -/
theorem Drained.leavesInStep {sent : List (MsgType × Bytes)} {seen : List Notice}
    (h : Drained e₀ sent seen e) (husable : e.own.disposed = false)
    (hrests : Rests (.idle last) e₀.outside) (hproper : Proper D (.idle last) sent)
    (hcloses : Closes D last sent) : LeavesInStep e := by
  intro s hmoves hserver
  obtain ⟨read, halong, hdisposed | ⟨before, type, payload, hread, hclosing⟩⟩ := h
  · exact absurd (husable.symm.trans hdisposed) (by decide)
  obtain ⟨phase, pending, hans, hdone⟩ := halong.complete_answers hrests hproper hmoves hserver
  obtain ⟨⟨last', rfl⟩, front, final, hall, hfront⟩ := hcloses _ _ hans
  refine (hdone ?_).readyForNext
  -- what was read last is closing, so it is the last of the answers
  rcases List.eq_nil_or_concat pending with hnil | ⟨pending, f, rfl⟩
  · exact hnil
  · rw [List.concat_eq_append, ← List.append_assoc] at hall
    have hsame := (List.append_inj' hall rfl).1
    refine absurd hclosing (hfront (type, payload) ?_)
    rw [← hsame, hread]
    simp

end ServerConnection

/-! ## Without a CANCEL -/

/-- The session has read `part` of a frame, and the rest of it never comes. -/
theorem served_part {phase₀ : Phase} {s₀ s : Net D} {sent : List (MsgType × Bytes)}
    {type : MsgType} {payload part more bytes : Bytes} (hrests : Rests phase₀ s₀)
    (hproper : Proper D phase₀ (sent ++ [(type, payload)]))
    (hframe : part ++ more = serializeFrame type payload) (hmore : more ≠ [])
    (hmoves : Net.Moves (wire sent ++ part) bytes s₀ s) (hserver : s.toServer = []) :
    ∃ phase replies q, (service D).Answered phase₀ sent phase replies ∧
      At s.session.decoder part ∧ Stands phase q s.session.conversation := by
  -- the rest of the frame may be on its way without the session noticing
  have hrest : Net.Moves more [] s { s with toServer := more } := by
    refine ⟨⟨[], by simp, fun _ h ↦ absurd h List.not_mem_nil, rfl, ?_⟩,
      ⟨[], (List.append_nil _).symm, List.append_nil _⟩, id, ⟨0, rfl⟩, fun hnil ↦ absurd hnil hmore⟩
    rw [hserver]
    rfl
  have hall := hmoves.trans hrest
  rw [List.append_assoc, hframe, List.append_nil, ← wire_singleton, ← wire_append] at hall
  obtain @⟨done, rest, phase, replies, part', q, p, hframes, hans, hserving, holds, ahead, -⟩ :=
    served hrests hproper.small hproper.run hall
  -- what the session has not taken is the last frame, and `part` of it is held
  obtain rfl | ⟨front, f, rfl⟩ := List.eq_nil_or_concat rest
  · exact absurd (List.append_eq_nil_iff.mp ahead).2 hmore
  rw [List.concat_eq_append] at hframes ahead
  rw [← List.append_assoc] at hframes
  obtain ⟨rfl, hlast⟩ := List.append_inj' hframes rfl
  obtain rfl := List.cons.inj hlast |>.1
  rw [wire_append, wire_singleton, ← hframe, ← List.append_assoc] at ahead
  have hheld := List.append_cancel_right ahead
  obtain _ | ⟨⟨type', payload'⟩, front⟩ := front
  · obtain rfl : p = part := hheld
    rw [List.append_nil]
    exact ⟨phase, replies, q, hans, holds, hserving.stands⟩
  · have hpayload : payload'.length ≤ kMaxPayload := hproper.small (type', payload') (by simp)
    rw [hheld, wire_cons, List.append_assoc] at holds
    exact absurd (nextFrame_serializeFrame hpayload _) holds.next_ne_item

theorem Conversation.Stands.not_ready {total : ℕ} {chunks : List Bytes} {q : Bytes}
    {c : Conversation D} (h : Stands (.uploading total chunks) q c) : c.state ≠ .ready := by
  cases h with
  | uploading state =>
    rw [state]
    decide

namespace ServerConnection

variable {e₀ e : Endpoint (Net D) ServerConnection} {last : Option (List Bytes)}
  {announcement ending : Bytes} {total : ℕ} {chunks : List Bytes}

theorem proper_announcement (hfields : ∃ name, uploadBeginFields announcement = some (total, name))
    (hsmall : announcement.length ≤ kMaxPayload) (last : Option (List Bytes)) :
    Proper D (.idle last) [(.uploadBegin, announcement)] := by
  obtain ⟨name, hfields⟩ := hfields
  refine ⟨by simpa using hsmall, ?_⟩
  by_cases hzero : total = 0
  · rw [hzero] at hfields
    rw [Machine.run_cons _ (Phase.next_of_empty last hfields), Machine.run_nil]
    rfl
  · rw [Machine.run_cons _ (Phase.next_of_uploadBegin last hfields hzero), Machine.run_nil]
    rfl

/-- An UPLOAD_BEGIN was sent, and its answer was not read. -/
theorem not_leavesInStep_of_announced (hrests : Rests (.idle last) e₀.outside)
    (hproper : Proper D (.idle last) [(.uploadBegin, announcement)]) {bytes : Bytes}
    (hbegun : Act.Begun refuse bytes)
    (hmoves : Net.Moves (wire [(.uploadBegin, announcement)]) bytes e₀.outside e.outside) :
    ¬ LeavesInStep e := by
  intro h
  obtain ⟨s, hflush, hserver, hready⟩ := h.flushed
  have hall := hmoves.trans hflush
  rw [List.append_nil, List.append_nil] at hall
  obtain ⟨phase, replies, hans, hserving, -, hwire, hsayable⟩ :=
    (served hrests hproper.small hproper.run hall).complete hproper.small hserver
  obtain ⟨hnext, hanswer⟩ := hans.singleton
  cases hanswer with
  | begun fields pos =>
    obtain rfl := Option.some.inj ((Phase.next_of_uploadBegin last fields pos).symm.trans hnext)
    exact hserving.stands.not_ready hready.ready
  | turnedAway =>
    -- the client would have read all of the ERROR
    rw [hready.read, List.append_nil] at hwire
    rw [hwire] at hbegun
    exact absurd (eq_nil_of_begun (fun f hf ↦ (hsayable f hf).length) hbegun) (List.cons_ne_nil _ _)

/-- An UPLOAD_END was sent, or part of it, and the result was not read. -/
theorem not_leavesInStep_of_ending (hrests : Rests (.idle last) e₀.outside)
    (hwhole : Whole announcement ending total chunks) {read : List (MsgType × Bytes)}
    (hacked : Acked read) {part : Bytes} {site : Site}
    (hsevered : Severed e₀ (uploadStart announcement chunks) read (serializeFrame .uploadEnd ending)
      part site e) : ¬ LeavesInStep e := by
  intro h
  obtain ⟨s, hflush, hserver, hready⟩ := h.flushed
  have hall := hsevered.moves.trans hflush
  rw [List.append_nil, List.append_nil] at hall
  obtain ⟨more, hframe⟩ := hsevered.begins
  have hproper := hwhole.proper (D := D) last
  by_cases hmore : more = []
  · rw [hmore, List.append_nil] at hframe
    rw [hframe, ← wire_singleton, ← wire_append] at hall
    obtain ⟨phase, replies, hans, -, -, hwire, hsayable⟩ :=
      (served hrests hproper.small hproper.run hall).complete hproper.small hserver
    obtain ⟨rest, rfl, hrest⟩ :=
      append_of_wire hsevered.small (fun f hf ↦ (hsayable f hf).length) hwire
    rw [hready.read] at hrest
    rw [wire_eq_nil hrest.symm, List.append_nil] at hans
    obtain ⟨-, csv, acks, elapsedMs, rss, u, -, -, -, hread⟩ := hwhole.answered hans
    refine hacked.ne_analyzeDone (.analyzeDone, u.donePayload elapsedMs rss) ?_ rfl
    rw [hread]
    simp
  · obtain ⟨phase, replies, q, hans, -, hstands⟩ :=
      served_part hrests hproper hframe hmore hall hserver
    obtain ⟨rfl, -⟩ := hwhole.toUnderway.answered hans
    exact hstands.not_ready hready.ready

end ServerConnection

namespace ServerConnection

variable {e₀ e : Endpoint (Net D) ServerConnection} {last : Option (List Bytes)}

/-! ## Every upload -/

/-- The token was first noticed before anything was written, between two chunks, or while the client
waited for a frame after the UPLOAD_END. -/
def SeenInStep (e e' : Endpoint (Net D) ServerConnection) : Prop :=
  ∃ notice more, e'.noticed = e.noticed ++ notice :: more ∧
    (notice = ⟨.beginSend, 0⟩ ∨ notice.site = .chunkTop ∨ notice.site = .analysisRead ∨
      notice.site = .resultRead)

omit [DoubleOps D] in
theorem SeenInStep.of_seen {e' : Endpoint (Net D) ServerConnection} {notice : Notice}
    (h : Seen e notice e') (hseen : SeenInStep e e') :
    notice = ⟨.beginSend, 0⟩ ∨ notice.site = .chunkTop ∨ notice.site = .analysisRead ∨
      notice.site = .resultRead := by
  obtain ⟨notice', more, hnoticed, hin⟩ := hseen
  exact h.eq hnoticed ▸ hin

/-- If no answer came to the UPLOAD_BEGIN, then the two ends are in step only if nothing of it was
written. -/
theorem BeginStopped.leavesInStep_iff {announcement : Bytes}
    {e' : Endpoint (Net D) ServerConnection}
    (h : BeginStopped e announcement e') (hrests : Rests (.idle last) e.outside)
    (hproper : Proper D (.idle last) [(.uploadBegin, announcement)])
    (hstep : e.written.length = (wire e.sent).length) :
    LeavesInStep e' ↔ e'.noticed = e.noticed ∨ SeenInStep e e' := by
  cases h with
  | @sending part _ hsevered =>
    obtain ⟨n, hseen, hn⟩ := hsevered.seen
    obtain rfl := hn hstep
    have hmoves := hsevered.moves
    -- nothing of the announcement is out, or some of it, or all
    by_cases hpart : part = []
    · subst hpart
      obtain ⟨more, hfirst⟩ := hseen.first
      exact iff_of_true (leavesInStep_of_idle hrests hmoves) (.inr ⟨_, more, hfirst, .inl rfl⟩)
    refine iff_of_false ?_ (not_or.mpr ⟨hseen.noticed_ne, fun hin ↦ ?_⟩)
    · obtain ⟨more, hframe⟩ := hsevered.begins
      by_cases hmore : more = []
      · rw [hmore, List.append_nil] at hframe
        rw [hframe, ← wire_singleton] at hmoves
        exact not_leavesInStep_of_announced hrests hproper (.inl (by decide)) hmoves
      · intro hleaves
        obtain ⟨s, hflush, hserver, hready⟩ := hleaves.flushed
        have hall := hmoves.trans hflush
        rw [List.append_nil, List.append_nil] at hall
        obtain ⟨-, -, -, -, holds, -⟩ := served_part hrests hproper hframe hmore hall hserver
        exact hpart (holds.eq_nil hready.processed)
    · have hlen : part.length = 0 := by simpa using SeenInStep.of_seen hseen hin
      exact hpart (List.length_eq_zero_iff.mp hlen)
  | waiting hseen hbegun hmoves =>
    refine iff_of_false (not_leavesInStep_of_announced hrests hproper hbegun hmoves)
      (not_or.mpr ⟨hseen.noticed_ne, fun hin ↦ ?_⟩)
    simpa using SeenInStep.of_seen hseen hin

/-- What is asked of an upload that failed: if it was cancelled, and the client may go on to use the
connection, then the two ends are in step. -/
def CancelInStep (failure : Failure) (e : Endpoint (Net D) ServerConnection) : Prop :=
  failure = .cancelled → e.own.disposed = false → LeavesInStep e

theorem cancelInStep_of_usable (husable : e.own.disposed = false) :
    CancelInStep .cancelled e ↔ LeavesInStep e := ⟨fun h ↦ h rfl husable, fun h _ _ ↦ h⟩

theorem CancelInStep.of_ne {failure : Failure} (hother : failure ≠ .cancelled) :
    CancelInStep failure e := fun h ↦ absurd h hother

/-- How an upload leaves the connection behind. -/
theorem Thrown.leavesInStep_iff {total : ℕ} {failure : Failure}
    {e' : Endpoint (Net D) ServerConnection}
    (h : Thrown e total failure e') (hrests : Rests (.idle last) e.outside)
    (hstep : e.written.length = (wire e.sent).length) :
    CancelInStep failure e' ↔ e'.noticed = e.noticed ∨ SeenInStep e e' := by
  -- where the token was noticed decides what the server still gets
  cases h with
  | atBegin husable hfields hsmall hstopped =>
    rw [cancelInStep_of_usable husable]
    exact hstopped.leavesInStep_iff hrests (proper_announcement hfields hsmall last) hstep
  | atEnd husable hwhole hacked hsevered =>
    obtain ⟨n, hseen, -⟩ := hsevered.seen
    rw [cancelInStep_of_usable husable]
    refine iff_of_false (not_leavesInStep_of_ending hrests hwhole hacked hsevered)
      (not_or.mpr ⟨hseen.noticed_ne, fun hin ↦ ?_⟩)
    simpa using SeenInStep.of_seen hseen hin
  | @atChunk announcement chunks n _ hunder hdrained =>
    refine iff_of_true (fun _ husable ↦ ?_) (.inr ?_)
    · exact hdrained.leavesInStep husable hrests (hunder.proper_cancel last) (hunder.closes last)
    · obtain ⟨read, halong, -⟩ := hdrained
      exact ⟨_, [], halong.noticed, .inr (.inl rfl)⟩
  | @atResult announcement ending chunks site n _ hwhole hlate hdrained =>
    refine iff_of_true (fun _ husable ↦ ?_) (.inr ?_)
    · exact hdrained.leavesInStep husable hrests (hwhole.proper_cancel last) (hwhole.closes last)
    · obtain ⟨read, halong, -⟩ := hdrained
      exact ⟨_, [], halong.noticed, .inr (.inr hlate)⟩
  | localFile _ hdrained =>
    obtain ⟨read, halong, -⟩ := hdrained
    exact iff_of_true (.of_ne (by simp)) (.inl (halong.noticed.trans (List.append_nil _)))
  | other _ hother _ halong =>
    exact iff_of_true (.of_ne hother) (.inl (halong.noticed.trans (List.append_nil _)))

/-! ### An empty file -/

/-- An empty file is turned away, or the flag was seen. -/
theorem yields_beginUpload_empty (hrests : Rests (.idle last) e₀.outside) {total : UInt64}
    (hzero : total.toNat = 0) (name : Bytes) (husable : e.own.disposed = false)
    (h : Along e₀ [] [] [] e) :
    Yields (beginUpload (Net.link D) total name) e (fun _ _ ↦ False)
      fun failure e' ↦ failure ≠ .spent ∧
        (failure = .cancelled ∧ e'.own.disposed = false ∧
            BeginStopped e₀ (beginPayload total name) e' ∨
          failure ≠ .cancelled ∧ e'.noticed = e₀.noticed) := by
  have hfields := beginPayload_fields total name
  have hsmall := length_beginPayload_le total name
  have hproper := proper_announcement (D := D) ⟨_, hfields⟩ hsmall last
  rw [hzero] at hfields
  refine Yields.bind (h.mark .beginSend) ?_
  rintro _ e₁ ⟨h₁, hown₁, hsite₁, -⟩
  have husable₁ : e₁.own.disposed = false := hown₁ ▸ husable
  -- the announcement
  refine Yields.bind ((yields_sendFrameAsync_true husable₁ h₁ _ _).mono (fun _ _ h ↦ h) ?_) ?_
  · rintro failure e' ⟨rfl, hown, part, hsevered⟩
    exact ⟨by simp, .inl ⟨rfl, hown ▸ husable₁, .sending (hsite₁ ▸ hsevered)⟩⟩
  rintro _ e₂ ⟨h₂, hown₂⟩
  refine Yields.bind (h₂.mark .ackRead) ?_
  rintro _ e₃ ⟨h₃, hown₃, hsite₃, -⟩
  have husable₃ : e₃.own.disposed = false := by
    rw [hown₃, hown₂]
    exact husable₁
  refine Yields.bind (Q := ReadNext e₀.outside [(.uploadBegin, beginPayload total name)] [] e₃)
    ?_ ?_
  · rw [Yields, readFrameAsync_eq (Net.link D) true husable₃]
    refine (yields_readFrame lenient_refuse true _ _ hrests hproper.small hproper.run
      h₃.talk).mono (fun _ _ h ↦ h) ?_
    rintro failure e' (hmidway | ⟨ms, s, rfl, rfl, -⟩)
    · obtain ⟨rfl, hown, hstopped⟩ := BeginStopped.of_midway h₃ hsite₃ hmidway
      exact ⟨by simp, .inl ⟨rfl, hown ▸ husable₃, hstopped⟩⟩
    · exact ⟨by simp, .inr ⟨by simp, h₃.noticed.trans (List.append_nil _)⟩⟩
  rintro ack _ ⟨type, payload, s, rfl, rfl, htalk, -⟩
  -- a server answers an empty upload with an ERROR
  obtain rfl := type_of_empty hfields hsmall hrests htalk
  refine Yields.failIf (fun _ ↦ ?_) fun hother ↦ absurd rfl hother
  obtain ⟨hcancelled, hspent⟩ := serverError_ne payload
  exact ⟨hspent, .inr ⟨hcancelled, h₃.noticed.trans (List.append_nil _)⟩⟩

/-! ### Every file -/

/-- **When a cancel leaves both ends in step**: exactly if the token is first noticed before
anything is written, between two chunks or while the client waits for a frame after the UPLOAD_END,
or if it is never noticed. -/
theorem cancelInStep_iff (file : LocalFile) (hrests : Rests (.idle last) e.outside)
    (hstep : e.written.length = (wire e.sent).length) :
    Settles (fun fuel ↦ uploadAsync (Net.link D) fuel file) e (fun _ e' ↦ e'.noticed = e.noticed)
      fun failure e' ↦ failure ≠ .spent ∧
        (CancelInStep failure e' ↔ e'.noticed = e.noticed ∨ SeenInStep e e') := by
  -- a connection that is disposed, a size that is not known, an empty file, and any other
  cases hdisposed : e.own.disposed with
  | true =>
    refine Settles.bind (Q := fun _ _ ↦ False) (.of_yields ?_) fun _ _ hnever ↦ hnever.elim
    rw [Yields, ensureUsable_disposed hdisposed]
    exact ⟨by simp, iff_of_true (.of_ne (by simp)) (.inl rfl)⟩
  | false =>
  cases hsize : file.size with
  | none =>
    refine Settles.bind (Q := fun _ e' ↦ e' = e) (.of_yields ?_) ?_
    · rw [Yields, ensureUsable_eq hdisposed]
      rfl
    · rintro _ _ rfl
      rw [hsize]
      exact .of_yields (.throw ⟨by simp, iff_of_true (.of_ne (by simp)) (.inl rfl)⟩)
  | some total =>
    by_cases hzero : total.toNat = 0
    · refine Settles.of_eq (fun fuel ↦ uploadAsync_eq _ hdisposed fuel hsize) ?_
      refine Settles.bind (.of_yields ((yields_beginUpload_empty hrests hzero file.name hdisposed
        (.refl e)).mono (fun _ _ hnever ↦ hnever) ?_)) fun _ _ hnever ↦ hnever.elim
      rintro failure e' ⟨hspent, ⟨rfl, husable, hstopped⟩ | ⟨hother, hunseen⟩⟩
      · have hproper := proper_announcement (D := D) ⟨_, beginPayload_fields total file.name⟩
          (length_beginPayload_le total file.name) last
        rw [cancelInStep_of_usable husable]
        exact ⟨hspent, hstopped.leavesInStep_iff hrests hproper hstep⟩
      · exact ⟨hspent, iff_of_true (.of_ne hother) (.inl hunseen)⟩
    · refine (settles_uploadAsync hrests hdisposed hsize hzero).mono ?_ ?_
      · rintro _ e' ⟨announcement, ending, chunks, read, -, halong⟩
        exact halong.noticed.trans (List.append_nil _)
      · intro failure e' hthrown
        exact ⟨hthrown.ne_spent, hthrown.leavesInStep_iff hrests hstep⟩

/-! ### A token that is noticed at once -/

/-- A client that has been greeted, and whose token was looked at `n` times before the user cancels.
-/
def tokenAfter (n : ℕ) : Endpoint (Net ℚ) ServerConnection :=
  { outside := { greeted with cancelAfter := some n }, own := ⟨{}, false⟩ }

private theorem rests_tokenAfter (n : ℕ) : Rests (.idle none) (tokenAfter n).outside :=
  TransferClient.rests_cancelledAfter n

theorem cancelInStep_iff_third :
    Settles (fun fuel ↦ uploadAsync (Net.link ℚ) fuel TransferClient.plainFile) (tokenAfter 2)
      (fun _ e' ↦ e'.noticed = (tokenAfter 2).noticed) fun failure e' ↦ failure ≠ .spent ∧
        (CancelInStep failure e' ↔
          e'.noticed = (tokenAfter 2).noticed ∨ SeenInStep (tokenAfter 2) e') :=
  cancelInStep_iff TransferClient.plainFile (rests_tokenAfter 2) rfl

end ServerConnection

end LoggerAnalyzer
