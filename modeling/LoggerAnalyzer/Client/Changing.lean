import LoggerAnalyzer.Client.Outcomes

/-!
# A file that changes while it is uploaded

A client learns the size of a file once and then reads what there is. Whatever the reads bring, the
server is sent an upload of the declared size, or the beginning of one and a CANCEL, or the
beginning of one on a connection that is closed. So a session has nothing to complain about.
-/

namespace LoggerAnalyzer

open Program TcpSession Conversation

variable {D : Type} [DoubleOps D] {κ : Type}

/-- What a session says of frames that break the protocol. -/
def complaints : List ErrorCode := [.sizeMismatch, .payloadTooLarge, .unexpectedType]

/-- The size of a chunk that an UPLOAD_BEGIN_ACK offers. -/
def offeredChunk (reply : Bytes) : ℕ := (loadBe32 (reply.drop 4)).toNat

/-- All that a session has said since `s₀` to an upload in these chunks: it offers chunks of their
size, once it has read everything, and it does not complain. -/
structure Content (s₀ : Net D) (chunks : List Bytes) (s : Net D)
    (replies : List (MsgType × Bytes)) : Prop where
  all : sentFrames s.session.timeline = sentFrames s₀.session.timeline ++ replies
  offered : ∀ reply, (.uploadBeginAck, reply) ∈ replies →
    ∀ chunk ∈ chunks, chunk.length ≤ offeredChunk reply
  begun : s.toServer = [] → ∃ reply, (.uploadBeginAck, reply) ∈ replies
  content : ∀ payload, (.error, payload) ∈ replies →
    ∀ code ∈ complaints, loadBe16 payload ≠ code.toUInt16

/-- Between `e` and `e'` a file of `total` bytes was uploaded, or as much of it as there was. -/
structure Orderly (total : ℕ) (closed : Prop) (e e' : Endpoint (Net D) κ) (announcement : Bytes)
    (chunks : List Bytes) (ending : List (MsgType × Bytes)) : Prop where
  announced : ∃ name, uploadBeginFields announcement = some (total, name)
  written : e'.written = e.written ++ wire (uploadStart announcement chunks ++ ending)
  nonempty : ∀ chunk ∈ chunks, 1 ≤ chunk.length
  fits : chunks.flatten.length ≤ total
  ends : (∃ payload, ending = [(.uploadEnd, payload)]) ∧ chunks.flatten.length = total ∨
    ending = [(.cancel, [])] ∨ ending = [] ∧ closed
  content : ∀ bytes s, Net.Moves [] bytes e'.outside s →
    ∃ replies, Content e.outside chunks s replies

/-! ## What a session says -/

omit [DoubleOps D] in
private theorem offeredChunk_eq (s : TcpSession D) :
    offeredChunk s.uploadBeginAckPayload = kDefaultMaxChunk := by
  rw [offeredChunk, s.uploadBeginAckPayload_eq]
  rw [List.drop_left' (PayloadWriter.length_u32 _), PayloadWriter.u32, loadBe32_store_append]
  decide

private theorem loadBe16_errorPayload (code : ErrorCode) (message : Bytes) :
    loadBe16 (errorPayload code message) = code.toUInt16 := by
  rw [errorPayload, PayloadWriter.u16, loadBe16_store_append]

/-- The only errors that come back for frames in order are those that answer a CANCEL, where no
empty file is announced. -/
theorem errors_answered {phase phase' : Phase} {frames replies : List (MsgType × Bytes)}
    (h : (service D).Answered phase frames phase' replies)
    (hfields : ∀ payload, (.uploadBegin, payload) ∈ frames →
      ∀ name, uploadBeginFields payload ≠ some (0, name)) :
    ∀ payload, (.error, payload) ∈ replies → loadBe16 payload = ErrorCode.cancelled.toUInt16 := by
  induction h with
  | nil => exact fun payload hmem ↦ absurd hmem List.not_mem_nil
  | @snoc frames phase₁ replies f phase₂ reply _ _ answers ih =>
    intro payload hmem
    rcases List.mem_append.mp hmem with hbefore | hreply
    · exact ih (fun payload hf ↦ hfields payload (List.mem_append_left _ hf)) payload hbefore
    · have hother : ∀ {type : MsgType} {payload' : Bytes}, type ≠ .error →
          (MsgType.error, payload) ≠ (type, payload') := fun hne heq ↦
        hne (congrArg Prod.fst heq).symm
      cases answers with
      | greeted => exact absurd (List.mem_singleton.mp hreply) (hother (by decide))
      | begun => exact absurd (List.mem_singleton.mp hreply) (hother (by decide))
      | turnedAway fields =>
        exact absurd fields (hfields _ (List.mem_append_right _ (List.mem_singleton_self _)) _)
      | nothing => exact absurd hreply List.not_mem_nil
      | chunk all =>
        have hack : MsgType.error = .uploadAck := all _ hreply
        exact absurd hack (by decide)
      | @done _ _ _ elapsedMs rss u csv =>
        rcases List.mem_cons.mp hreply with hdone | hresult
        · exact absurd hdone (hother (by decide))
        · exact absurd rfl (types_resultFrames u.resultCsv _ hresult).1
      | cancelled =>
        obtain ⟨-, rfl⟩ := Prod.mk.inj (List.mem_singleton.mp hreply)
        exact loadBe16_errorPayload .cancelled _

/-- The only UPLOAD_BEGIN is the first frame. -/
theorem EndsWith.announced {announcement payload : Bytes} {total : ℕ} {chunks : List Bytes}
    {ending : List (MsgType × Bytes)} (h : EndsWith total chunks ending)
    (hmem : (.uploadBegin, payload) ∈ uploadStart announcement chunks ++ ending) :
    payload = announcement := by
  rcases List.mem_append.mp hmem with hstart | hend
  · rcases List.mem_cons.mp hstart with hfirst | hchunk
    · exact (Prod.mk.inj hfirst).2
    · obtain ⟨chunk, -, heq⟩ := List.mem_map.mp hchunk
      exact absurd (congrArg Prod.fst heq) (by decide : MsgType.uploadChunk ≠ .uploadBegin)
  · cases h with
    | nothing => exact absurd hend List.not_mem_nil
    | cancel =>
      have htype : MsgType.uploadBegin = .cancel := congrArg Prod.fst (List.mem_singleton.mp hend)
      exact absurd htype (by decide)
    | complete =>
      have htype : MsgType.uploadBegin = .uploadEnd :=
        congrArg Prod.fst (List.mem_singleton.mp hend)
      exact absurd htype (by decide)

private theorem cancelled_ne_complaint :
    ∀ code ∈ complaints, ErrorCode.cancelled.toUInt16 ≠ code.toUInt16 := by decide

/-- **A session does not complain** of an upload that was carried as far as it goes. -/
theorem Carried.content {e₀ e : Endpoint (Net D) κ} {last : Option (List Bytes)} {total : ℕ}
    {chunks : List Bytes} {ending : List (MsgType × Bytes)} (h : Carried e₀ total chunks ending e)
    (hrests : Rests (.idle last) e₀.outside) {bytes : Bytes} {s : Net D}
    (hmoves : Net.Moves [] bytes e.outside s) : ∃ replies, Content e₀.outside chunks s replies := by
  obtain ⟨hends, announcement, read, hunder, ⟨more, hall⟩, -, -⟩ := h
  have hproper := hends.proper (D := D) hunder last
  have hall := hall.trans hmoves
  rw [List.append_nil] at hall
  -- what the session took is a run of the service, and the frame it is at
  have hserved := served hrests hproper.small hproper.run hall
  obtain ⟨hframes, hans, hserving, -, -, hfront, -, hsayable⟩ := id hserved
  rename_i done rest phase replies part q p
  have hsent : sentFrames s.session.timeline
      = sentFrames e₀.outside.session.timeline ++ (replies ++ part) :=
    hserving.sent.trans (List.append_assoc ..)
  refine ⟨replies ++ part, hsent, fun reply hmem chunk hchunk ↦ ?_, fun hserver ↦ ?_,
    fun payload hmem code hcode ↦ ?_⟩
  · obtain ⟨t, rfl⟩ := (hsayable _ hmem).beginAck rfl
    rw [offeredChunk_eq]
    exact (hunder.sendable chunk hchunk).2
  · obtain ⟨_, replies', hans', hserving', -, -, -⟩ := hserved.complete hproper.small hserver
    have hsame : replies' = replies ++ part :=
      List.append_cancel_left (hserving'.sent.symm.trans hsent)
    obtain ⟨_, output, others, -, hbegun, -, rfl⟩ := hans'.cons
    cases hbegun with
    | @begun _ _ _ _ reply => exact ⟨reply, hsame ▸ List.mem_cons_self⟩
    | turnedAway fields => exact absurd fields (hunder.fields_ne _)
  · -- no ERROR but that of the CANCEL can be an answer to these frames
    have hcancelled : loadBe16 payload = ErrorCode.cancelled.toUInt16 := by
      rcases List.mem_append.mp hmem with hreply | hpart
      · refine errors_answered hans (fun payload' hbegin ↦ ?_) payload hreply
        have hsent : (.uploadBegin, payload') ∈ uploadStart announcement chunks ++ ending := by
          rw [hframes]
          exact List.mem_append_left _ hbegin
        rw [hends.announced hsent]
        exact hunder.fields_ne
      · have hack : MsgType.error = .uploadAck := hfront.acks _ hpart
        exact absurd hack (by decide)
    rw [hcancelled]
    exact cancelled_ne_complaint code hcode

/-- An upload that was carried as far as it goes is orderly. -/
theorem Carried.orderly {e₀ e : Endpoint (Net D) κ} {last : Option (List Bytes)} {total : ℕ}
    {chunks : List Bytes} {ending : List (MsgType × Bytes)} (h : Carried e₀ total chunks ending e)
    (hrests : Rests (.idle last) e₀.outside) {closed : Prop} (hclosed : ending = [] → closed) :
    ∃ announcement chunks ending, Orderly total closed e₀ e announcement chunks ending := by
  have hcontent := fun bytes s (hmoves : Net.Moves [] bytes e.outside s) ↦ h.content hrests hmoves
  obtain ⟨hends, announcement, read, hunder, hover⟩ := h
  refine ⟨announcement, chunks, ending, hunder.fields, hover.written, fun chunk hchunk ↦ ?_,
    hunder.fits, ?_, hcontent⟩
  · exact List.length_pos_iff.mpr (hunder.sendable chunk hchunk).1
  · cases hends with
    | nothing => exact .inr (.inr ⟨rfl, hclosed rfl⟩)
    | cancel => exact .inr (.inl rfl)
    | complete all => exact .inl ⟨⟨_, rfl⟩, all⟩

/-! ## The clients -/

variable {last : Option (List Bytes)} {file : LocalFile} {total : UInt64}

theorem TransferClient.orderly_doUpload {e : Endpoint (Net D) TransferClient}
    (hrests : Rests (.idle last) e.outside) (hcalm : e.outside.cancelAfter = none)
    (hsize : file.size = some total) (hpos : total.toNat ≠ 0) :
    Settles (fun fuel ↦ doUpload (Net.link D) fuel file) e
      (fun kept e' ↦ ∃ announcement chunks ending,
        Orderly total.toNat (kept = false) e e' announcement chunks ending) fun _ _ ↦ False := by
  refine (settles_doUpload hrests hsize hpos).mono ?_ fun _ _ hnever ↦ hnever
  rintro kept e' (⟨rfl, hkept⟩ | ⟨rfl, hbroken, -⟩)
  · cases hkept with
    | cancelled _ hcancelled =>
      obtain ⟨n, hseen⟩ := hcancelled.seen
      exact absurd hcalm hseen.set
    | changed _ hcarried =>
      exact hcarried.orderly hrests fun hnil ↦ absurd hnil (List.cons_ne_nil _ _)
    | done _ _ hcarried =>
      exact hcarried.orderly hrests fun hnil ↦ absurd hnil (List.cons_ne_nil _ _)
  · cases hbroken with
    | seen _ hseen => exact absurd hcalm hseen.set
    | unopened _ hcarried => exact hcarried.orderly hrests fun _ ↦ rfl
    | unread hcarried => exact hcarried.orderly hrests fun _ ↦ rfl

theorem ServerConnection.orderly_uploadAsync {e : Endpoint (Net D) ServerConnection}
    (hrests : Rests (.idle last) e.outside) (hcalm : e.outside.cancelAfter = none)
    (husable : e.own.disposed = false) (hsize : file.size = some total) (hpos : total.toNat ≠ 0) :
    Settles (fun fuel ↦ uploadAsync (Net.link D) fuel file) e
      (fun _ e' ↦ ∃ announcement chunks ending,
        Orderly total.toNat (e'.own.disposed = true) e e' announcement chunks ending)
      fun failure e' ↦ failure ≠ .spent ∧ ∃ announcement chunks ending,
        Orderly total.toNat (e'.own.disposed = true) e e' announcement chunks ending := by
  refine (settles_uploadAsync hrests husable hsize hpos).mono ?_ ?_
  · rintro _ e' ⟨announcement, ending, chunks, read, hwhole, halong⟩
    exact (carried_of_whole hwhole halong).orderly hrests fun hnil ↦
      absurd hnil (List.cons_ne_nil _ _)
  · intro failure e' hthrown
    cases hthrown with
    | atBegin _ _ _ hstopped => exact absurd hcalm hstopped.set
    | atEnd _ _ _ hsevered => exact absurd hcalm hsevered.set
    | atChunk _ hdrained =>
      obtain ⟨read, halong, -⟩ := hdrained
      exact absurd hcalm (halong.set (List.cons_ne_nil _ _))
    | atResult _ _ hdrained =>
      obtain ⟨read, halong, -⟩ := hdrained
      exact absurd hcalm (halong.set (List.cons_ne_nil _ _))
    | @localFile announcement chunks message _ hunder hdrained =>
      obtain ⟨read, halong, -⟩ := hdrained
      have hcarried : Carried e total.toNat chunks [(.cancel, [])] e' :=
        ⟨.cancel, announcement, read, hunder, halong.over⟩
      exact ⟨by simp, hcarried.orderly hrests fun hnil ↦ absurd hnil (List.cons_ne_nil _ _)⟩
    | other hwhole _ hspent halong =>
      exact ⟨hspent, (carried_of_whole hwhole halong).orderly hrests fun hnil ↦
        absurd hnil (List.cons_ne_nil _ _)⟩

/-- **A changing file never looks like a protocol violation.** Whatever the reads of the file bring,
an upload that is not cancelled by the user is orderly for both clients. -/
theorem changing_file (hsize : file.size = some total) (hpos : 1 ≤ total.toNat) :
    (∀ e : Endpoint (Net D) TransferClient, Rests (.idle last) e.outside →
      e.outside.cancelAfter = none →
      Settles (fun fuel ↦ TransferClient.doUpload (Net.link D) fuel file) e
        (fun kept e' ↦ ∃ announcement chunks ending,
          Orderly total.toNat (kept = false) e e' announcement chunks ending) fun _ _ ↦ False) ∧
    ∀ e : Endpoint (Net D) ServerConnection, Rests (.idle last) e.outside →
      e.outside.cancelAfter = none → e.own.disposed = false →
      Settles (fun fuel ↦ ServerConnection.uploadAsync (Net.link D) fuel file) e
        (fun _ e' ↦ ∃ announcement chunks ending,
          Orderly total.toNat (e'.own.disposed = true) e e' announcement chunks ending)
        fun failure e' ↦ failure ≠ .spent ∧ ∃ announcement chunks ending,
          Orderly total.toNat (e'.own.disposed = true) e e' announcement chunks ending := by
  have hne : total.toNat ≠ 0 := by omega
  constructor
  · intro e hrests hcalm
    exact TransferClient.orderly_doUpload hrests hcalm hsize hne
  · intro e hrests hcalm husable
    exact ServerConnection.orderly_uploadAsync hrests hcalm husable hsize hne

/-- The HELLO of a client. -/
def hello : List (MsgType × Bytes) := [(.hello, helloPayload 1 (ascii "client"))]

/-- A connection on which a client has just been greeted, and the flag is never set. -/
def greeted : Net ℚ :=
  { session := (start plainConfig (stoppedEnv noon)).run [.read (wire hello)]
    toServer := []
    toClient := []
    cancelAfter := none
    moves := Stream'.const [.reads 0]
    waits := Stream'.const 0
    sizes := Stream'.const 9
    arrived := Stream'.const true
    clock := Stream'.const 0 }

theorem rests_greeted : Rests (.idle none) greeted := by
  have hnext : (service ℚ).next .awaitHello (.hello, helloPayload 1 (ascii "client"))
      = some (.idle none) := Phase.next_of_hello (helloFields_of 1 (ascii "client"))
  have hrun : (service ℚ).run .awaitHello hello = some (.idle none) := Machine.run_cons _ hnext []
  have hsmall : ∀ f ∈ hello, f.2.length ≤ kMaxPayload := by decide
  have hsmooth : ∀ event ∈ [Event.read (wire hello)], event.smooth = true := by simp [Event.smooth]
  have hbytes : [Event.read (wire hello)].flatMap Event.bytes = wire hello := by simp [Event.bytes]
  have hcalm : ∀ n, (stoppedEnv noon).uvWrite.get n = true := fun _ ↦ rfl
  obtain ⟨replies, -, hserving, holds⟩ := serves_run hsmall hrun hsmooth hbytes
    FrameDecoder.at_new (serving_start plainConfig hcalm)
  exact ⟨rfl, rfl, holds, hserving.stands, hserving.writable, hserving.unflagged, rfl⟩

/-- A file of which three bytes were announced and two can be read. -/
def shortFile : LocalFile :=
  ⟨ascii "/tmp/log.txt", ascii "log.txt", some 3, none, Stream'.cons ⟨ascii "a\n", none⟩
    (Stream'.const ⟨[], none⟩)⟩

/-- A client that has been greeted and has done nothing since. -/
def idling (own : κ) : Endpoint (Net ℚ) κ := { outside := greeted, own := own }

/-- Both clients upload the short file. -/
theorem changing_file_short :
    Settles (fun fuel ↦ TransferClient.doUpload (Net.link ℚ) fuel shortFile) (idling ⟨{}, []⟩)
        (fun kept e' ↦ ∃ announcement chunks ending,
          Orderly 3 (kept = false) (idling ⟨{}, []⟩) e' announcement chunks ending)
        (fun _ _ ↦ False) ∧
      Settles (fun fuel ↦ ServerConnection.uploadAsync (Net.link ℚ) fuel shortFile)
        (idling ⟨{}, false⟩)
        (fun _ e' ↦ ∃ announcement chunks ending, Orderly 3 (e'.own.disposed = true)
          (idling ⟨{}, false⟩) e' announcement chunks ending)
        fun failure e' ↦ failure ≠ .spent ∧ ∃ announcement chunks ending,
          Orderly 3 (e'.own.disposed = true) (idling ⟨{}, false⟩) e' announcement chunks
            ending := by
  have hsize : shortFile.size = some 3 := rfl
  have hpos : 1 ≤ (3 : UInt64).toNat := by decide
  exact ⟨(changing_file hsize hpos).1 _ rests_greeted rfl,
    (changing_file hsize hpos).2 _ rests_greeted rfl rfl⟩

end LoggerAnalyzer
