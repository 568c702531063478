import LoggerAnalyzer.Client.Result
import LoggerAnalyzer.Client.Uploading

/-!
# The end of an upload on a net

After UPLOAD_END a client reads UPLOAD_ACKs, the ANALYZE_DONE and the result. Up to the ANALYZE_DONE
it may have to wait for the server; from there on all that it will read is on its way.
-/

namespace LoggerAnalyzer

open Program Incremental FrameDecoder TcpSession Conversation

variable {D : Type} [DoubleOps D]

/-! ## What comes back for a whole upload -/

/-- All of a file was sent, and an UPLOAD_END that says so may follow. -/
structure Whole (announcement ending : Bytes) (total : ℕ) (chunks : List Bytes) : Prop
    extends Underway announcement total chunks where
  all : chunks.flatten.length = total
  endFields : uploadEndFields ending = some total
  short : ending.length ≤ kMaxPayload

/-- The frames of a whole upload. -/
def uploadWhole (announcement ending : Bytes) (chunks : List Bytes) : List (MsgType × Bytes) :=
  uploadStart announcement chunks ++ [(.uploadEnd, ending)]

/-- UPLOAD_ACKs after an UPLOAD_BEGIN_ACK. -/
def Acked (frames : List (MsgType × Bytes)) : Prop :=
  ∃ reply acks, frames = (.uploadBeginAck, reply) :: acks ∧ ∀ m ∈ acks, m.1 = MsgType.uploadAck

/-- All that is sent back for a whole upload, with its result. -/
def Finished (D : Type) [DoubleOps D] (csv : Bytes) (replies : List (MsgType × Bytes)) : Prop :=
  ∃ acks elapsedMs rss, ∃ u : UploadState D, Acked acks ∧ u.resultCsv = csv ∧ csv ≠ [] ∧
    replies = acks ++ (.analyzeDone, u.donePayload elapsedMs rss) :: resultFrames csv

theorem Acked.snoc {frames : List (MsgType × Bytes)} (h : Acked frames) (payload : Bytes) :
    Acked (frames ++ [(.uploadAck, payload)]) := by
  obtain ⟨reply, acks, rfl, hacks⟩ := h
  exact ⟨reply, acks ++ [(.uploadAck, payload)], rfl, List.forall_mem_append.mpr ⟨hacks, by simp⟩⟩

theorem Acked.ne_nil {frames : List (MsgType × Bytes)} (h : Acked frames) : frames ≠ [] := by
  obtain ⟨reply, acks, rfl, -⟩ := h
  exact List.cons_ne_nil _ _

/-- What comes after the first one is an UPLOAD_ACK. -/
theorem Acked.next {frames pending : List (MsgType × Bytes)} {type : MsgType} {payload : Bytes}
    (h : Acked (frames ++ (type, payload) :: pending)) (hne : frames ≠ []) : type = .uploadAck := by
  obtain ⟨reply, acks, hcons, hacks⟩ := h
  obtain _ | ⟨f, frames⟩ := frames
  · exact absurd rfl hne
  · refine hacks (type, payload) ?_
    rw [← (List.cons.inj hcons).2]
    simp

theorem Acked.ne_analyzeDone {frames : List (MsgType × Bytes)} (h : Acked frames) :
    ∀ m ∈ frames, m.1 ≠ MsgType.analyzeDone := by
  obtain ⟨reply, acks, rfl, hacks⟩ := h
  rw [List.forall_mem_cons]
  refine ⟨(by decide : MsgType.uploadBeginAck ≠ .analyzeDone), fun m hm ↦ ?_⟩
  rw [hacks m hm]
  decide

/-- The acknowledgements that are sent on the way are UPLOAD_ACKs. -/
theorem Conversation.Front.acks {rest part : List (MsgType × Bytes)} {p q : Bytes}
    {streaming : Bool}
    (h : Front rest p q part streaming) : ∀ m ∈ part, m.1 = MsgType.uploadAck := by
  cases h with
  | nothing => exact fun m hm ↦ absurd hm List.not_mem_nil
  | frame _ acks =>
    unfold AcksOnly at acks
    split_ifs at acks
    · exact acks
    · rw [acks]
      exact fun m hm ↦ absurd hm List.not_mem_nil

/-- What was read of the replies to chunks are acknowledgements. -/
theorem Underway.acked {announcement : Bytes} {total : ℕ} {chunks : List Bytes}
    (h : Underway announcement total chunks) {last : Option (List Bytes)} {s₀ s : Net D}
    (hrests : Rests (.idle last) s₀) {read : List (MsgType × Bytes)} (hread : read ≠ [])
    (htalk : Talk s₀ (uploadStart announcement chunks) read s) : Acked read := by
  obtain ⟨replies, hwire, hsayable, hreplies⟩ := h.replies hrests htalk.moves
  obtain ⟨pending, rfl, -⟩ := append_of_wire htalk.small (fun f hf ↦ (hsayable f hf).length) hwire
  rcases hreplies with ⟨hnil, -⟩ | ⟨reply, acks, hcons, hacks⟩
  · exact absurd (List.append_eq_nil_iff.mp hnil).1 hread
  · obtain _ | ⟨f, read⟩ := read
    · exact absurd rfl hread
    · obtain ⟨rfl, rfl⟩ := List.cons.inj hcons
      exact ⟨reply, read, rfl, fun m hm ↦ hacks m (List.mem_append_left _ hm)⟩

/-- Where the beginning of an upload leads, and what is answered. -/
theorem Underway.answered {announcement : Bytes} {total : ℕ} {chunks : List Bytes}
    (h : Underway announcement total chunks) {last : Option (List Bytes)} {phase : Phase}
    {replies : List (MsgType × Bytes)} (hans : (service D).Answered (.idle last)
      (uploadStart announcement chunks) phase replies) :
    phase = .uploading total chunks ∧ Acked replies := by
  refine ⟨Option.some.inj (hans.run.symm.trans (h.run last)), ?_⟩
  obtain ⟨phase₁, output, acks, hnext, hbegun, hchunks, rfl⟩ := hans.cons
  cases (h.next last).symm.trans hnext
  cases hbegun with
  | turnedAway fields => exact absurd fields (h.fields_ne _)
  | @begun _ _ _ _ reply => exact ⟨reply, acks, rfl, answers_chunks hchunks⟩

/-- The frames `pending` are on their way, and nothing else is. -/
structure Pending (pending : List (MsgType × Bytes)) (s : Net D) : Prop where
  toServer : s.toServer = []
  toClient : s.toClient = wire pending
  small : ∀ f ∈ pending, f.2.length ≤ kMaxPayload

/-- The session has all of an upload and has sent its result, which is on its way. -/
structure Arriving (chunks : List Bytes) (csv : Bytes) (s : Net D) : Prop
    extends Pending (resultFrames csv) s where
  serving : ∃ before payload, Serving (.idle (some chunks)) []
    (before ++ (.analyzeDone, payload) :: resultFrames csv) s.session.conversation

namespace Whole

variable {announcement ending : Bytes} {total : ℕ} {chunks : List Bytes}

theorem next (h : Whole announcement ending total chunks) :
    (service D).next (.uploading total chunks) (.uploadEnd, ending)
      = some (.idle (some chunks)) := by
  obtain ⟨-, rfl, hending, -⟩ := h
  exact Phase.next_of_uploadEnd hending

theorem proper (h : Whole announcement ending total chunks) (last : Option (List Bytes)) :
    Proper D (.idle last) (uploadWhole announcement ending chunks) where
  small := List.forall_mem_append.mpr ⟨h.length_le, by simpa using h.short⟩
  run := by
    rw [uploadWhole, Machine.run_append _ (h.run last), Machine.run_cons _ h.next, Machine.run_nil]
    rfl

/-- A CANCEL that comes too late is in order. -/
theorem proper_cancel (h : Whole announcement ending total chunks) (last : Option (List Bytes)) :
    Proper D (.idle last) (uploadWhole announcement ending chunks ++ [(.cancel, [])]) where
  small := List.forall_mem_append.mpr ⟨(h.proper (D := D) last).small, by simp⟩
  run := by
    have hnext : (service D).next (.idle (some chunks)) (.cancel, [])
      = some (.idle (some chunks)) :=
      rfl
    rw [uploadWhole, List.append_assoc, Machine.run_append _ (h.run last), List.singleton_append,
      Machine.run_cons _ h.next, Machine.run_cons _ hnext, Machine.run_nil]
    rfl

/-- Where a whole upload leads, and what is answered. -/
theorem answered (h : Whole announcement ending total chunks) {last : Option (List Bytes)}
    {phase : Phase} {replies : List (MsgType × Bytes)} (hans : (service D).Answered (.idle last)
      (uploadWhole announcement ending chunks) phase replies) :
    phase = .idle (some chunks) ∧ ∃ csv, Finished D csv replies := by
  obtain ⟨phase₁, acks, replies₂, hstart, hend, rfl⟩ := hans.split
  obtain ⟨rfl, hacked⟩ := h.toUnderway.answered hstart
  obtain ⟨hnext, hdone⟩ := hend.singleton
  cases h.next.symm.trans hnext
  cases hdone with
  | @done _ _ _ elapsedMs rss u csv =>
    exact ⟨rfl, u.resultCsv, acks, elapsedMs, rss, u, hacked, rfl, csv, rfl⟩

/-- Before the UPLOAD_END is taken, only acknowledgements are sent back. -/
theorem acked_of_front (h : Whole announcement ending total chunks) {last : Option (List Bytes)}
    {phase : Phase} {done rest replies part : List (MsgType × Bytes)} {p q : Bytes}
    {streaming : Bool} (hframes : uploadWhole announcement ending chunks = done ++ rest)
    (hrest : rest ≠ []) (hans : (service D).Answered (.idle last) done phase replies)
    (hfront : Front rest p q part streaming) :
    replies ++ part = [] ∨ Acked (replies ++ part) := by
  rcases h.answers hframes hans hfront with ⟨-, hnone⟩ | ⟨reply, done', replies', hleft, rfl, hans'⟩
  · exact .inl hnone
  · obtain ⟨front, final, rfl⟩ : ∃ front final, rest = front ++ [final] :=
      ⟨_, _, (List.dropLast_append_getLast hrest).symm⟩
    rw [← List.append_assoc] at hleft
    have hchunks := (List.append_inj' hleft rfl).1
    obtain ⟨chunks₁, chunks₂, rfl, rfl, rfl⟩ := List.map_eq_append_iff.mp hchunks
    exact .inr ⟨reply, replies' ++ part, rfl,
      List.forall_mem_append.mpr ⟨answers_chunks hans', hfront.acks⟩⟩

section Talking

variable {last : Option (List Bytes)} {s₀ s : Net D} {bytes : Bytes} {read : List (MsgType × Bytes)}

/-- What has come back for a whole upload so far. -/
theorem replies (h : Whole announcement ending total chunks) (hrests : Rests (.idle last) s₀)
    (hmoves : Net.Moves (wire (uploadWhole announcement ending chunks)) bytes s₀ s) :
    ∃ replies, bytes ++ s.toClient = wire replies ∧
    (∀ f ∈ replies, Sayable D s₀.session.config f.1 f.2) ∧
      (s.toServer ≠ [] ∧ (replies = [] ∨ Acked replies) ∨
        s.toServer = [] ∧ (∃ csv, Finished D csv replies) ∧
          Serving (.idle (some chunks)) [] (sentFrames s₀.session.timeline ++ replies)
            s.session.conversation) := by
  have hproper := h.proper (D := D) last
  have hserved := served hrests hproper.small hproper.run hmoves
  by_cases hserver : s.toServer = []
  · obtain ⟨phase, replies, hans, hserving, -, hwire, hsayable⟩ :=
      hserved.complete hproper.small hserver
    obtain ⟨rfl, hfinished⟩ := h.answered hans
    exact ⟨replies, hwire, hsayable, .inr ⟨hserver, hfinished, hserving⟩⟩
  · obtain ⟨hframes, hans, -, -, hahead, hfront, hgiven, hsayable⟩ := hserved
    refine ⟨_, hgiven, hsayable, .inl ⟨hserver, h.acked_of_front hframes ?_ hans hfront⟩⟩
    rintro rfl
    exact hserver (List.append_eq_nil_iff.mp hahead).2

/-- What is read after acknowledgements is one more, or the ANALYZE_DONE. -/
theorem read_next (h : Whole announcement ending total chunks) (hrests : Rests (.idle last) s₀)
    (hacked : Acked read) {type : MsgType} {payload : Bytes}
    (htalk : Talk s₀ (uploadWhole announcement ending chunks) (read ++ [(type, payload)]) s) :
    type = .uploadAck ∨ type = .analyzeDone ∧ ∃ elapsedMs rss, ∃ u : UploadState D,
      payload = u.donePayload elapsedMs rss ∧ Arriving chunks u.resultCsv s := by
  obtain ⟨replies, hwire, hsayable, hreplies⟩ := h.replies hrests htalk.moves
  have hlength := fun f hf ↦ (hsayable f hf).length
  obtain ⟨pending, rfl, hpending⟩ := append_of_wire htalk.small hlength hwire
  rw [List.append_assoc, List.singleton_append] at hreplies
  -- the session has not ended the upload yet, or all its answers are known
  rcases hreplies with ⟨-, hnil | hall⟩ |
    ⟨hserver, ⟨csv, acks, elapsedMs, rss, u, hacks, rfl, -, hall⟩, hserving⟩
  · exact absurd (List.append_eq_nil_iff.mp hnil).1 hacked.ne_nil
  · exact .inl (hall.next hacked.ne_nil)
  have hdone : (type, payload) :: pending
      = (.analyzeDone, u.donePayload elapsedMs rss) :: resultFrames u.resultCsv →
      type = .analyzeDone ∧ ∃ elapsedMs rss, ∃ u : UploadState D,
        payload = u.donePayload elapsedMs rss ∧ Arriving chunks u.resultCsv s := by
    intro hcons
    obtain ⟨hfirst, rfl⟩ := List.cons.inj hcons
    obtain ⟨rfl, rfl⟩ := Prod.mk.inj hfirst
    refine ⟨rfl, elapsedMs, rss, u, rfl, ⟨hserver, hpending, fun f hf ↦ hlength f ?_⟩,
      sentFrames s₀.session.timeline ++ acks, u.donePayload elapsedMs rss, ?_⟩
    · exact List.mem_append_right _ hf
    · rw [hall, ← List.append_assoc] at hserving
      exact hserving
  -- the frame is one of the acknowledgements, or the first behind them
  rcases List.append_eq_append_iff.mp hall with ⟨more, rfl, hmore⟩ | ⟨more, rfl, hmore⟩
  · obtain _ | ⟨f, more⟩ := more
    · exact .inr (hdone hmore)
    · obtain ⟨rfl, -⟩ := List.cons.inj hmore
      exact .inl (hacks.next hacked.ne_nil)
  · obtain _ | ⟨f, more⟩ := more
    · exact .inr (hdone hmore.symm)
    · obtain ⟨rfl, -⟩ := List.cons.inj hmore
      exact absurd rfl (hacked.ne_analyzeDone _ (List.mem_append_right _ List.mem_cons_self))

/-- As long as the client has read acknowledgements only, there is more to come. -/
theorem awaited (h : Whole announcement ending total chunks) (hrests : Rests (.idle last) s₀)
    (hacked : Acked read) (htalk : Talk s₀ (uploadWhole announcement ending chunks) read s)
    (hserver : s.toServer = []) : s.toClient ≠ [] := by
  intro hclient
  obtain ⟨replies, hwire, hsayable, hreplies⟩ := h.replies hrests htalk.moves
  rw [hclient] at hwire
  obtain ⟨pending, rfl, hpending⟩ := append_of_wire htalk.small
    (fun f hf ↦ (hsayable f hf).length) hwire
  obtain rfl := wire_eq_nil hpending.symm
  rcases hreplies with ⟨hne, -⟩ | ⟨-, ⟨csv, acks, elapsedMs, rss, u, -, -, -, hall⟩, -⟩
  · exact hne hserver
  · rw [List.append_nil] at hall
    refine hacked.ne_analyzeDone (.analyzeDone, u.donePayload elapsedMs rss) ?_ rfl
    rw [hall]
    simp

end Talking

end Whole

/-! ## Reading what is on its way -/

/-- Once the server has read everything, the client is given what is on its way. -/
theorem Net.Moves.given {received : Bytes} {s s' : Net D} (h : Net.Moves [] received s s')
    (hserver : s.toServer = []) : s'.toServer = [] ∧ s.toClient = received ++ s'.toClient := by
  obtain ⟨new, -, hnew⟩ := h.answered
  have hlen := congrArg List.length hnew
  rw [List.length_append, List.length_append] at hlen
  rcases h.shorter rfl with hlt | ⟨heq, hle⟩
  · rw [hserver] at hlt
    exact absurd hlt (Nat.not_lt_zero _)
  · rw [hserver] at heq
    have hnone : new = [] := List.length_eq_zero_iff.mp (by omega)
    rw [hnone, List.append_nil] at hnew
    exact ⟨List.length_eq_zero_iff.mp heq, hnew⟩

/-- The next of the frames on their way is read. -/
theorem yields_readPending {κ : Type} {refuse : FrameHeader → Option Failure}
    (hlenient : Lenient refuse) (heeds : Bool) (idleMs idleMs' : ℕ) {type : MsgType}
    {payload : Bytes} {pending : List (MsgType × Bytes)} {e : Endpoint (Net D) κ}
    (h : Pending ((type, payload) :: pending) e.outside) :
    Yields (Act.readFrameWith refuse (Act.recvExactly (Net.link D) heeds idleMs)
        (Act.recvExactly (Net.link D) heeds idleMs')) e
      (fun f e' ↦ f = ⟨frameHeader type payload, payload⟩ ∧ ∃ s, e' = e.onto s ∧
        Net.Moves [] (serializeFrame type payload) e.outside s ∧ Pending pending s)
      (Interrupted heeds e) := by
  obtain ⟨hserver, hclient, hsmall⟩ := h
  -- the call cannot wait for a frame that is there
  have hdown : ∀ {bytes : Bytes} {s : Net D}, Act.Begun refuse bytes →
      Net.Moves [] bytes e.outside s → s.toClient ≠ [] := by
    intro bytes s hbegun hmoves hnil
    have hall := (hmoves.given hserver).2
    rw [hnil, List.append_nil] at hall
    rw [← hall, hclient] at hbegun
    exact absurd (eq_nil_of_begun hsmall hbegun) (List.cons_ne_nil _ _)
  rw [List.forall_mem_cons] at hsmall
  have hpayload : payload.length ≤ kMaxPayload := hsmall.1
  refine (Act.yields_readFrameWith Net.laws refuse heeds idleMs idleMs' e).mono ?_ ?_
  · rintro ⟨header, payload'⟩ _ ⟨head, hhead, hheader, -, hlen, s, hmoves, rfl⟩
    dsimp only at hheader hlen hmoves
    obtain ⟨hserver', hall⟩ := hmoves.given hserver
    rw [hclient, List.append_assoc] at hall
    obtain ⟨type', payload₁, rest, hcons, rfl, hleft⟩ := front_of_wire hhead hall.symm
    obtain ⟨hframe, rfl⟩ := List.cons.inj hcons
    obtain ⟨rfl, rfl⟩ := Prod.mk.inj hframe
    obtain rfl : header = frameHeader type payload := hheader.trans (decodeHeader_encode _)
    rw [frameHeader_payloadLen hpayload] at hlen
    obtain ⟨rfl, hclient'⟩ := List.append_inj hleft hlen
    exact ⟨rfl, s, rfl, hmoves, hserver', hclient', hsmall.2⟩
  · rintro failure _
      (⟨head, hhead, hrefuse, s, hmoves, rfl⟩ | ⟨bytes, hbegun, hheeds, s, hmoves, hends, rfl⟩)
    · have hall := (hmoves.given hserver).2
      rw [hclient] at hall
      obtain ⟨type', payload₁, rest, hcons, rfl, -⟩ := front_of_wire hhead hall.symm
      obtain ⟨rfl, rfl⟩ := Prod.mk.inj (List.cons.inj hcons).1
      rw [decodeHeader_encode, hlenient _ (headerError_frameHeader hpayload)] at hrefuse
      cases hrefuse
    · cases failure with
      | cancelled => exact ⟨rfl, hheeds rfl, bytes, s, rfl, hmoves, hends⟩
      | idle ms => exact absurd hends.2 (hdown hbegun hmoves)
      | closed got len => exact absurd hends.2.1 (hdown hbegun hmoves)
      | stalled | sendFailed | recvFailed | refused | localFile | disposed
      | spent => exact hends.elim

theorem Interrupted.after {κ : Type} {heeds : Bool} {e e' : Endpoint (Net D) κ} {failure : Failure}
    {bytes : Bytes} {s : Net D} (hmoves : Net.Moves [] bytes e.outside s)
    (h : Interrupted heeds (e.onto s) failure e') : Interrupted heeds e failure e' := by
  obtain ⟨hfailure, hheeds, bytes', s', rfl, hmoves', hset⟩ := h
  exact ⟨hfailure, hheeds, _, s', rfl, hmoves.trans hmoves', hset⟩

/-! ## The C++ client -/

namespace TransferClient

variable {e₀ e : Endpoint (Net D) TransferClient} {last : Option (List Bytes)}
  {chunks : List Bytes} {read : List (MsgType × Bytes)}

/-- The chunks of a result that is on its way are read to their end. -/
theorem settles_receiveChunks {declared : ℕ} {csv : Bytes}
    (h : Pending (chunks.map (fun chunk ↦ (MsgType.resultChunk, chunk)) ++ [(.resultEnd, [])])
      e.outside)
    (hle : csv.length + chunks.flatten.length ≤ declared) :
    Settles (fun fuel ↦ receiveChunks (Net.link D) declared fuel csv) e
      (fun all e' ↦ all = csv ++ chunks.flatten ∧ ∃ bytes s, e' = e.onto s ∧
        Net.Moves [] bytes e.outside s ∧ s.toClient = []) (Interrupted true e) := by
  induction chunks generalizing csv e with
  | nil =>
    refine Settles.succ (fun _ ↦ rfl) ?_
    refine Settles.bind (.of_yields (yields_readPending lenient_refuse true _ _ h)) ?_
    rintro f _ ⟨rfl, s, rfl, hmoves, hpending⟩
    refine Settles.ite (fun hchunk ↦ absurd hchunk (by decide)) ?_
    intro _
    refine Settles.ite (fun _ ↦ ?_) fun hno ↦ absurd rfl hno
    exact .of_yields (.pure ⟨by rw [List.flatten_nil, List.append_nil], _, s, rfl, hmoves,
      hpending.toClient⟩)
  | cons chunk chunks ih =>
    rw [List.flatten_cons, List.length_append] at hle
    refine Settles.succ (fun _ ↦ rfl) ?_
    refine Settles.bind (.of_yields (yields_readPending lenient_refuse true _ _ h)) ?_
    rintro f _ ⟨rfl, s, rfl, hmoves, hpending⟩
    refine Settles.ite (fun _ ↦ ?_) fun hno ↦ absurd rfl hno
    have hlen : (csv ++ chunk).length = csv.length + chunk.length := List.length_append
    refine Settles.ite (fun hover ↦ ?_) fun _ ↦ ?_
    · have hover : declared < (csv ++ chunk).length := hover
      omega
    refine (@ih (e.onto s) (csv ++ chunk) hpending (by omega)).mono ?_ fun _ _ h ↦ h.after hmoves
    rintro _ _ ⟨rfl, bytes, s', rfl, hmoves', hread⟩
    exact ⟨by rw [List.flatten_cons, List.append_assoc], _, s', rfl, hmoves.trans hmoves', hread⟩

/-- **A result that is on its way is received**, or the flag is seen. -/
theorem settles_receiveResult {csv : Bytes} (hlen : csv.length ≤ kMaxCsvBytes)
    (h : Pending (resultFrames csv) e.outside) :
    Settles (fun fuel ↦ receiveResult (Net.link D) fuel (.ofNat csv.length)) e
      (fun _ e' ↦ Reads e e' ∧ e'.noticed = e.noticed ∧ e'.own.csv = csv ∧ e'.outside.toClient = [])
      (Interrupted true e) := by
  have hsize : (UInt64.ofNat csv.length).toNat = csv.length :=
    UInt64.toNat_ofNat_of_lt' (Nat.lt_of_le_of_lt hlen (by decide))
  have hdeclared : (Client.PayloadReader.new (resultBeginPayload csv)).u64.1
      = some (.ofNat csv.length) := by
    have hlong : 8 ≤ (resultBeginPayload csv).length := by
      rw [resultBeginPayload, List.length_append, PayloadWriter.length_u64]
      exact Nat.le_add_right ..
    rw [Client.u64_new, if_pos hlong, resultBeginPayload, PayloadWriter.u64, loadBe64_store_append]
  unfold receiveResult
  refine Settles.failIf (fun hlarge ↦ ?_) fun _ ↦ ?_
  · rw [hsize] at hlarge
    omega
  -- the RESULT_BEGIN, and then the chunks
  refine Settles.bind (.of_yields (yields_readPending lenient_refuse true _ _ h)) ?_
  rintro f _ ⟨rfl, s, rfl, hmoves, hpending⟩
  have hbegin : MsgType.resultBegin ≠ .error := by decide
  refine Settles.failIf (fun herror ↦ absurd herror hbegin) ?_
  intro _
  refine Settles.failIf (fun hother ↦ absurd rfl hother) ?_
  intro _
  simp only [hdeclared]
  refine Settles.failIf (fun hlarge ↦ ?_) fun _ ↦ ?_
  · rw [hsize] at hlarge
    omega
  have hall := flatten_resultChunks (Nat.le_refl csv.length)
  have hroom : ([] : Bytes).length + (resultChunks csv.length csv).flatten.length
      ≤ (UInt64.ofNat csv.length).toNat := by
    rw [hall, hsize, List.length_nil, Nat.zero_add]
  have hpending : Pending _ (e.onto s).outside := hpending
  refine Settles.bind ((settles_receiveChunks hpending hroom).mono (fun _ _ h ↦ h) fun _ _ h ↦
    h.after hmoves) ?_
  rintro all _ ⟨rfl, bytes, s', rfl, hmoves', hread⟩
  rw [List.nil_append, hall]
  refine Settles.failIf (fun hother ↦ absurd hsize.symm hother) ?_
  intro _
  exact .of_yields (Yields.modify ⟨⟨⟨_, hmoves.trans hmoves'⟩, rfl, rfl⟩, rfl, rfl, hread⟩)

/-- The loop over the chunks comes to an end, whatever the server sends. -/
theorem settles_receiveChunks_reads (declared : ℕ) (csv : Bytes)
    (e : Endpoint (Net D) TransferClient) :
    Settles (fun fuel ↦ receiveChunks (Net.link D) declared fuel csv) e (fun _ e' ↦ Reads e e')
      fun failure e' ↦ failure ≠ .spent ∧ Reads e e' := by
  obtain ⟨s, hs⟩ : ∃ s, e.outside = s := ⟨_, rfl⟩
  induction s using Net.wellFounded_shorter.induction generalizing e csv with
  | _ s ih =>
    subst hs
    refine Settles.succ (fun _ ↦ rfl) ?_
    refine Settles.bind (.of_yields ((yields_readsFrame refuse_ne_spent true _ _ e).mono
      (fun _ _ h ↦ h) fun _ _ h ↦ ⟨h.1, h.2.1⟩)) ?_
    rintro f e₁ ⟨hwaits, hshort⟩
    have hreads := hwaits.toReads
    refine Settles.ite (fun _ ↦ Settles.ite (fun _ ↦ ?_) fun _ ↦ ?_) fun _ ↦
      Settles.ite (fun _ ↦ ?_) fun _ ↦ Settles.ite (fun _ ↦ ?_) fun _ ↦ ?_
    · exact .of_yields (.throw ⟨by simp, hreads⟩)
    · exact (ih e₁.outside hshort _ e₁ rfl).mono (fun _ _ h ↦ hreads.trans h) fun _ _ h ↦
        ⟨h.1, hreads.trans h.2⟩
    · exact .of_yields (.pure hreads)
    · exact .of_yields (.throw ⟨by simp, hreads⟩)
    · exact .of_yields (.throw ⟨by simp, hreads⟩)

/-- Receiving a result comes to an end, whatever the server sends. -/
theorem settles_receiveResult_reads (csvSize : UInt64) (e : Endpoint (Net D) TransferClient) :
    Settles (fun fuel ↦ receiveResult (Net.link D) fuel csvSize) e (fun _ e' ↦ Reads e e')
      fun failure e' ↦ failure ≠ .spent ∧ Reads e e' := by
  unfold receiveResult
  refine Settles.failIf (fun _ ↦ ⟨by simp, .refl e⟩) ?_
  intro _
  refine Settles.bind (.of_yields ((yields_readsFrame refuse_ne_spent true _ _ e).mono
    (fun _ _ h ↦ h) fun _ _ h ↦ ⟨h.1, h.2.1⟩)) ?_
  rintro begin e₁ ⟨hwaits, -⟩
  have hreads := hwaits.toReads
  refine Settles.failIf (fun _ ↦ ⟨by simp, hreads⟩) ?_
  intro _
  refine Settles.failIf (fun _ ↦ ⟨by simp, hreads⟩) ?_
  intro _
  cases (Client.PayloadReader.new begin.payload).u64.1 with
  | none => exact .of_yields (.throw ⟨by simp, hreads⟩)
  | some declared =>
    dsimp only
    refine Settles.failIf (fun _ ↦ ⟨by simp, hreads⟩) ?_
    intro _
    refine Settles.bind ((settles_receiveChunks_reads declared.toNat [] e₁).mono
      (fun _ _ h ↦ hreads.trans h) fun _ _ h ↦ ⟨h.1, hreads.trans h.2⟩) ?_
    intro csv e₂ hreads₂
    refine Settles.failIf (fun _ ↦ ⟨by simp, hreads₂⟩) ?_
    intro _
    exact .of_yields (Yields.modify (hreads₂.congr rfl rfl rfl))

/-- **The analysis is done**, or the user cancels, or the flag is seen in the middle of a frame. -/
theorem settles_awaitAnalysis {announcement ending : Bytes} {total : ℕ}
    (hwhole : Whole announcement ending total chunks) (hrests : Rests (.idle last) e₀.outside)
    (hacked : Acked read) (h : Along e₀ (uploadWhole announcement ending chunks) read [] e) :
    Settles (fun fuel ↦ awaitAnalysis (Net.link D) fuel) e
      (fun size e' ↦ size = none ∧ Cancelled e₀ .analysisTop e' ∨
        ∃ csv read, size = some (.ofNat csv.length) ∧
          Along e₀ (uploadWhole announcement ending chunks) read [] e' ∧
          Arriving chunks csv e'.outside)
      fun failure e' ↦ failure = .cancelled ∧ ∃ n, Seen e₀ ⟨.analysisRead, n⟩ e' := by
  have hproper := hwhole.proper (D := D) last
  obtain ⟨s, hs⟩ : ∃ s, e.outside = s := ⟨_, rfl⟩
  -- each frame that is read makes the net shorter
  induction s using Net.wellFounded_shorter.induction generalizing e read with
  | _ s ih =>
    subst hs
    refine Settles.succ (fun _ ↦ rfl) ?_
    refine Settles.bind (.of_yields (h.mark .analysisTop)) ?_
    rintro _ e₁ ⟨h₁, -, hsite, hsame₁⟩
    refine Settles.bind (.of_yields h₁.load) ?_
    rintro cancel e₂ ⟨-, hmoves, seen, h₂, ⟨rfl, rfl⟩ | ⟨rfl, rfl, -⟩⟩
    · refine Settles.ite (fun hno ↦ absurd hno (by decide)) ?_
      intro _
      refine Settles.bind (.of_yields (h₂.mark .analysisRead)) ?_
      rintro _ e₃ ⟨h₃, -, hread, hsame₃⟩
      rw [hsame₁, ← hsame₃] at hmoves
      refine Settles.bind (.of_yields ((yields_readFrame lenient_refuse true _ _ hrests
        hproper.small hproper.run h₃.talk).mono (fun _ _ h ↦ h) fun failure e' hnone ↦ ?_)) ?_
      · rcases hnone with hint | ⟨ms, s, rfl, rfl, hpass, hserver, hclient⟩
        · obtain ⟨hfailure, -, n, hseen⟩ := h₃.seen_of_interrupted hint.interrupted
          exact ⟨hfailure, n, hread ▸ hseen⟩
        · exact absurd hclient (hwhole.awaited hrests hacked (h₃.passes hpass).talk hserver)
      rintro f _ ⟨type, payload, s, rfl, rfl, htalk, hshort⟩
      -- an acknowledgement, after which the wait goes on, or the ANALYZE_DONE
      rcases hwhole.read_next hrests hacked htalk with rfl | ⟨rfl, elapsedMs, rss, u, rfl, hdue⟩
      · refine Settles.ite (fun _ ↦ ?_) fun hother ↦ absurd rfl hother
        refine Settles.bind (.of_yields ((h₃.onto htalk).keep _)) ?_
        rintro _ e₄ ⟨h₄, -, hsame₄⟩
        exact ih e₄.outside (hsame₄ ▸ hshort.after hmoves) (hacked.snoc payload) h₄ rfl
      · obtain ⟨d, r, hfields, hsize⟩ := csvSize_analyzeDone u elapsedMs rss
        have hack : MsgType.analyzeDone ≠ .uploadAck := by decide
        have herror : MsgType.analyzeDone ≠ .error := by decide
        refine Settles.ite (fun hother ↦ absurd hother hack) ?_
        intro _
        refine Settles.ite (fun hother ↦ absurd hother herror) ?_
        intro _
        refine Settles.ite (fun _ ↦ ?_) fun hother ↦ absurd rfl hother
        simp only [hfields]
        refine .of_yields (Yields.bind ((h₃.onto htalk).keep _) ?_)
        rintro _ e₄ ⟨h₄, -, hsame₄⟩
        exact .inr ⟨u.resultCsv, _, by rw [hsize], h₄, hsame₄ ▸ hdue⟩
    · refine Settles.ite (fun _ ↦ ?_) fun hno ↦ absurd rfl hno
      rw [hsite] at h₂
      refine Settles.bind (settles_cancelUpload_of_seen h₂) ?_
      intro _ e₃ h₃
      exact .of_yields (.pure (.inl ⟨rfl, h₃⟩))

end TransferClient

/-! ## The C# client -/

namespace ServerConnection

variable {e₀ e : Endpoint (Net D) ServerConnection} {phase : Phase}
  {sent read : List (MsgType × Bytes)}

/-- How waiting for a frame fails: a CANCEL was sent because the flag was seen, or it was not. -/
def WaitFails (e₀ : Endpoint (Net D) ServerConnection) (sent : List (MsgType × Bytes)) (site : Site)
    (failure : Failure) (e : Endpoint (Net D) ServerConnection) : Prop :=
  failure = .cancelled ∧ (∃ n, Drained e₀ (sent ++ [(.cancel, [])]) [⟨site, n⟩] e) ∨
    failure ≠ .cancelled ∧ failure ≠ .spent ∧ ∃ read, Along e₀ sent read [] e

/-- A frame is read. -/
def ReadOne (e₀ : Endpoint (Net D) ServerConnection) (sent read : List (MsgType × Bytes))
    (e : Endpoint (Net D) ServerConnection) (f : Frame) (e' : Endpoint (Net D) ServerConnection) :
    Prop :=
  ∃ s, e' = e.onto s ∧ Along e₀ sent (read ++ [(f.header.type, f.payload)]) [] e' ∧
    s.Shorter e.outside

/-- The next frame is read, or the upload is cancelled. -/
theorem settles_readFrameOrCancel (hrests : Rests phase e₀.outside)
    (hproper : Proper D phase sent) (hcancel : Proper D phase (sent ++ [(.cancel, [])]))
    (husable : e.own.disposed = false) (h : Along e₀ sent read [] e) :
    Settles (fun fuel ↦ readFrameOrCancel (Net.link D) fuel) e (ReadOne e₀ sent read e)
      (WaitFails e₀ sent e.here) := by
  refine Settles.bind (Q := fun _ e' ↦ Act.Passed Net.Moves e e') ?_ ?_
  · refine Settles.tryCatch (.of_yields (Act.yields_pause Net.laws true e)) ?_
    rintro failure _ ⟨rfl, -, s, hmoves, hset, rfl⟩
    refine Settles.bind (settles_cancelAndDrain hrests hcancel (by exact husable)
      (h.notices hmoves hset)) fun _ e' hdrained ↦ ?_
    exact .of_yields (.throw (.inl ⟨rfl, _, hdrained⟩))
  · rintro _ _ ⟨s, hmoves, rfl⟩
    refine .of_yields ((yields_readFrameAsync hrests hproper (by exact husable)
      (h.passes hmoves)).mono ?_ ?_)
    · rintro f _ ⟨type, payload, s', rfl, rfl, htalk, hshort⟩
      exact ⟨s', rfl, (h.passes hmoves).onto htalk, hshort.after hmoves⟩
    · rintro failure e' ⟨⟨ms, rfl⟩, halong⟩
      exact .inr ⟨by simp, by simp, read, halong⟩

theorem serverError_ne (payload : Bytes) :
    serverError payload ≠ .cancelled ∧ serverError payload ≠ .spent := by
  rw [serverError]
  split <;> exact ⟨by simp, by simp⟩

/-- The loop that waits for the analysis comes to an end, whatever the server sends. -/
theorem settles_awaitAnalysis (hrests : Rests phase e₀.outside) (hproper : Proper D phase sent)
    (hcancel : Proper D phase (sent ++ [(.cancel, [])])) (husable : e.own.disposed = false)
    (h : Along e₀ sent read [] e) :
    Settles (fun fuel ↦ awaitAnalysis (Net.link D) fuel) e
      (fun _ e' ↦ e'.own.disposed = false ∧ ∃ read, Along e₀ sent read [] e')
      (WaitFails e₀ sent .analysisRead) := by
  obtain ⟨s, hs⟩ : ∃ s, e.outside = s := ⟨_, rfl⟩
  -- each frame that is read makes the net shorter
  induction s using Net.wellFounded_shorter.induction generalizing e read with
  | _ s ih =>
    subst hs
    refine Settles.succ (fun _ ↦ rfl) ?_
    refine Settles.bind (.of_yields (h.mark .analysisRead)) ?_
    rintro _ e₁ ⟨h₁, hown₁, hsite, hsame₁⟩
    have husable₁ : e₁.own.disposed = false := hown₁ ▸ husable
    refine Settles.bind ((settles_readFrameOrCancel hrests hproper hcancel husable₁ h₁).mono
      (fun _ _ h ↦ h) fun _ _ h ↦ hsite ▸ h) ?_
    rintro f _ ⟨s, rfl, h₂, hshort⟩
    have hother : ∀ {failure}, failure ≠ .cancelled → failure ≠ .spent →
        WaitFails e₀ sent .analysisRead failure (e₁.onto s) := fun hc hs ↦ .inr ⟨hc, hs, _, h₂⟩
    -- an UPLOAD_ACK, an ERROR, an ANALYZE_DONE, or none of these
    refine Settles.ite (fun _ ↦ ?_) fun _ ↦ Settles.ite (fun _ ↦ ?_) fun _ ↦
      Settles.ite (fun _ ↦ ?_) fun _ ↦ .of_yields (.throw (hother (by simp) (by simp)))
    · refine Settles.bind (.of_yields (h₂.keep _)) ?_
      rintro _ e₃ ⟨h₃, hown₃, hsame₃⟩
      refine ih e₃.outside ?_ ?_ h₃ rfl
      · rw [hsame₃, ← hsame₁]
        exact hshort
      · rw [hown₃, disposed_applyUploadAck]
        exact husable₁
    · obtain ⟨hc, hs⟩ := serverError_ne f.payload
      exact .of_yields (.throw (hother hc hs))
    · cases analyzeDoneFields (.new f.payload) with
      | none => exact .of_yields (.throw (hother (by simp) (by simp)))
      | some fields =>
        obtain ⟨d, r⟩ := fields
        refine .of_yields (Yields.bind (h₂.keep _) ?_)
        rintro _ e₃ ⟨h₃, hown₃, -⟩
        refine ⟨?_, _, h₃⟩
        rw [hown₃]
        exact husable₁

theorem settles_receiveChunks (hrests : Rests phase e₀.outside) (hproper : Proper D phase sent)
    (hcancel : Proper D phase (sent ++ [(.cancel, [])])) (husable : e.own.disposed = false)
    (hsite : e.here = .resultRead) (buffer : Bytes) (h : Along e₀ sent read [] e) :
    Settles (fun fuel ↦ receiveChunks (Net.link D) fuel buffer) e
      (fun _ e' ↦ ∃ read, Along e₀ sent read [] e') (WaitFails e₀ sent .resultRead) := by
  obtain ⟨s, hs⟩ : ∃ s, e.outside = s := ⟨_, rfl⟩
  induction s using Net.wellFounded_shorter.induction generalizing e read buffer with
  | _ s ih =>
    subst hs
    refine Settles.succ (fun _ ↦ rfl) ?_
    refine Settles.bind ((settles_readFrameOrCancel hrests hproper hcancel husable h).mono
      (fun _ _ h ↦ h) fun _ _ h ↦ hsite ▸ h) ?_
    rintro f _ ⟨s, rfl, h₁, hshort⟩
    have hother : ∀ {failure}, failure ≠ .cancelled → failure ≠ .spent →
        WaitFails e₀ sent .resultRead failure (e.onto s) := fun hc hs ↦ .inr ⟨hc, hs, _, h₁⟩
    refine Settles.ite (fun _ ↦ Settles.ite (fun _ ↦ ?_) fun _ ↦ ?_) fun _ ↦
      Settles.ite (fun _ ↦ .of_yields (.pure ⟨_, h₁⟩)) fun _ ↦ Settles.ite (fun _ ↦ ?_) fun _ ↦ ?_
    · exact .of_yields (.throw (hother (by simp) (by simp)))
    · exact ih s hshort (by exact husable) (by exact hsite) _ h₁ rfl
    · obtain ⟨hc, hs⟩ := serverError_ne f.payload
      exact .of_yields (.throw (hother hc hs))
    · exact .of_yields (.throw (hother (by simp) (by simp)))

/-- Receiving a result comes to an end, whatever the server sends. -/
theorem settles_receiveResult (hrests : Rests phase e₀.outside) (hproper : Proper D phase sent)
    (hcancel : Proper D phase (sent ++ [(.cancel, [])])) (husable : e.own.disposed = false)
    (hsite : e.here = .resultRead) (expectedSize : Int64) (h : Along e₀ sent read [] e) :
    Settles (fun fuel ↦ receiveResult (Net.link D) fuel expectedSize) e
      (fun _ e' ↦ ∃ read, Along e₀ sent read [] e') (WaitFails e₀ sent .resultRead) := by
  have hother : ∀ {failure read e'}, Along e₀ sent read [] e' → failure ≠ .cancelled →
      failure ≠ .spent → WaitFails e₀ sent .resultRead failure e' := fun h hc hs ↦
    .inr ⟨hc, hs, _, h⟩
  unfold receiveResult
  refine Settles.failIf (fun _ ↦ hother h (by simp) (by simp)) ?_
  intro _
  refine Settles.bind ((settles_readFrameOrCancel hrests hproper hcancel husable h).mono
    (fun _ _ h ↦ h) fun _ _ h ↦ hsite ▸ h) ?_
  rintro begin _ ⟨s, rfl, h₁, -⟩
  obtain ⟨hc, hs⟩ := serverError_ne begin.payload
  refine Settles.failIf (fun _ ↦ hother h₁ hc hs) ?_
  intro _
  refine Settles.failIf (fun _ ↦ hother h₁ (by simp) (by simp)) ?_
  intro _
  cases (PayloadReader.new begin.payload).u64.1 with
  | none => exact .of_yields (.throw (hother h₁ (by simp) (by simp)))
  | some declared =>
    dsimp only
    refine Settles.failIf (fun _ ↦ hother h₁ (by simp) (by simp)) ?_
    intro _
    refine Settles.bind (settles_receiveChunks hrests hproper hcancel (by exact husable)
      (by exact hsite) [] h₁) ?_
    rintro buffer e₂ ⟨read₂, h₂⟩
    exact Settles.failIf (fun _ ↦ hother h₂ (by simp) (by simp)) fun _ ↦
      .of_yields (.pure ⟨read₂, h₂⟩)

end ServerConnection

end LoggerAnalyzer
