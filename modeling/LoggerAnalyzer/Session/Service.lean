import LoggerAnalyzer.Session.Analysis
import LoggerAnalyzer.Stream.Machine

/-!
# What a session is for

To a client that keeps to the protocol a session is a machine that takes whole frames: it waits for
a HELLO, it is idle, or it is in the middle of an upload of which it has some chunks. `Phase.next`
is this machine, and `Answers` says what is sent back for a frame. Neither knows of reads, of a
decoder or of the pieces in which a chunk comes in.

`Serving` says that a session stands at a phase of the machine, and `Serving.reacts` that a whole
frame takes it to the next one. What happens in the middle of a frame is for the module after this
one.
-/

namespace LoggerAnalyzer

open Incremental FrameDecoder

/-! ## The machine -/

/-- Where a session stands between two frames: `last` are the chunks of the upload that the result
at hand belongs to. -/
inductive Phase where
  | awaitHello
  | idle (last : Option (List Bytes))
  | uploading (declared : ℕ) (chunks : List Bytes)
deriving DecidableEq

namespace Phase

/-- The phase after one more frame, if the frame is in order. -/
def next : Phase → MsgType × Bytes → Option Phase
  | awaitHello, (type, payload) =>
    if type = .hello ∧ (helloFields payload).isSome then some (idle none) else none
  | idle last, (type, payload) =>
    if type = .cancel then some (idle last)
    else if type = .uploadBegin then
      match uploadBeginFields payload with
      | some (total, _) => if total = 0 then some (idle last) else some (uploading total [])
      | none => none
    else none
  | uploading declared chunks, (type, payload) =>
    if type = .uploadChunk then
      if payload ≠ [] ∧ payload.length ≤ kDefaultMaxChunk ∧
          chunks.flatten.length + payload.length ≤ declared then
        some (uploading declared (chunks ++ [payload]))
      else none
    else if type = .uploadEnd then
      if uploadEndFields payload = some declared ∧ chunks.flatten.length = declared then
        some (idle (some chunks))
      else none
    else if type = .cancel then some (idle none)
    else none

/-! ### The frames that are in order -/

theorem next_of_hello {payload name : Bytes} (h : helloFields payload = some name) :
    awaitHello.next (.hello, payload) = some (idle none) :=
  if_pos ⟨rfl, by rw [h]; rfl⟩

theorem next_of_uploadBegin (last : Option (List Bytes)) {payload name : Bytes} {total : ℕ}
    (h : uploadBeginFields payload = some (total, name)) (hpos : total ≠ 0) :
    (idle last).next (.uploadBegin, payload) = some (uploading total []) := by
  simp [next, h, hpos, show MsgType.uploadBegin ≠ .cancel by decide]

/-- The announcement of an empty file is not the beginning of an upload. -/
theorem next_of_empty (last : Option (List Bytes)) {payload name : Bytes}
    (h : uploadBeginFields payload = some (0, name)) :
    (idle last).next (.uploadBegin, payload) = some (idle last) := by
  simp [next, h, show MsgType.uploadBegin ≠ .cancel by decide]

theorem next_of_uploadChunk {declared : ℕ} {chunks : List Bytes} {payload : Bytes}
    (hne : payload ≠ []) (hmax : payload.length ≤ kDefaultMaxChunk)
    (hfits : chunks.flatten.length + payload.length ≤ declared) :
    (uploading declared chunks).next (.uploadChunk, payload)
      = some (uploading declared (chunks ++ [payload])) :=
  if_pos ⟨hne, hmax, hfits⟩

theorem next_of_uploadEnd {chunks : List Bytes} {payload : Bytes}
    (h : uploadEndFields payload = some chunks.flatten.length) :
    (uploading chunks.flatten.length chunks).next (.uploadEnd, payload)
      = some (idle (some chunks)) :=
  if_pos ⟨h, rfl⟩


theorem next_awaitHello {type : MsgType} {payload : Bytes} {phase : Phase}
    (h : awaitHello.next (type, payload) = some phase) :
    type = .hello ∧ helloFields payload ≠ none ∧ phase = idle none := by
  rw [next] at h
  split_ifs at h with hok
  cases h
  exact ⟨hok.1, Option.isSome_iff_ne_none.mp hok.2, rfl⟩

theorem next_idle {last : Option (List Bytes)} {type : MsgType} {payload : Bytes} {phase : Phase}
    (h : (idle last).next (type, payload) = some phase) :
    type = .cancel ∧ phase = idle last ∨
      type = .uploadBegin ∧ ∃ total name, uploadBeginFields payload = some (total, name) ∧
        (total = 0 ∧ phase = idle last ∨ total ≠ 0 ∧ phase = uploading total []) := by
  rw [next] at h
  split_ifs at h with hcancel hbegin
  · cases h
    exact .inl ⟨hcancel, rfl⟩
  · cases hfields : uploadBeginFields payload with
    | none => simp [hfields] at h
    | some fields =>
      obtain ⟨total, name⟩ := fields
      rw [hfields] at h
      dsimp only at h
      refine .inr ⟨hbegin, total, name, rfl, ?_⟩
      split_ifs at h with hzero <;> cases h
      · exact .inl ⟨hzero, rfl⟩
      · exact .inr ⟨hzero, rfl⟩

theorem next_uploading {declared : ℕ} {chunks : List Bytes} {type : MsgType} {payload : Bytes}
    {phase : Phase} (h : (uploading declared chunks).next (type, payload) = some phase) :
    (type = .uploadChunk ∧ payload ≠ [] ∧ payload.length ≤ kDefaultMaxChunk ∧
        chunks.flatten.length + payload.length ≤ declared ∧
        phase = uploading declared (chunks ++ [payload])) ∨
      (type = .uploadEnd ∧ uploadEndFields payload = some declared ∧
        chunks.flatten.length = declared ∧ phase = idle (some chunks)) ∨
      (type = .cancel ∧ phase = idle none) := by
  rw [next] at h
  split_ifs at h with hchunk hok hend hok hcancel <;> cases h
  · exact .inl ⟨hchunk, hok.1, hok.2.1, hok.2.2, rfl⟩
  · exact .inr (.inl ⟨hend, hok.1, hok.2, rfl⟩)
  · exact .inr (.inr ⟨hcancel, rfl⟩)

/-- A chunk is in order only during an upload. -/
theorem next_uploadChunk {phase phase' : Phase} {payload : Bytes}
    (h : phase.next (.uploadChunk, payload) = some phase') :
    ∃ declared chunks, phase = uploading declared chunks ∧ payload ≠ [] ∧
      payload.length ≤ kDefaultMaxChunk ∧ chunks.flatten.length + payload.length ≤ declared := by
  cases phase with
  | awaitHello => exact absurd (next_awaitHello h).1 (by decide)
  | idle last =>
    rcases next_idle h with ⟨ht, -⟩ | ⟨ht, -⟩ <;> exact absurd ht (by decide)
  | uploading declared chunks =>
    rcases next_uploading h with ⟨-, hne, hmax, hfits, -⟩ | ⟨ht, -⟩ | ⟨ht, -⟩
    · exact ⟨declared, chunks, rfl, hne, hmax, hfits⟩
    · exact absurd ht (by decide)
    · exact absurd ht (by decide)

end Phase

/-- What is sent back for a frame. -/
inductive Answers (D : Type) [DoubleOps D] :
    Phase → MsgType × Bytes → List (MsgType × Bytes) → Prop where
  | greeted {payload reply} : Answers D .awaitHello (.hello, payload) [(.helloAck, reply)]
  | begun {last payload total name reply} (fields : uploadBeginFields payload = some (total, name))
    (pos : total ≠ 0) : Answers D (.idle last) (.uploadBegin, payload) [(.uploadBeginAck, reply)]
  | turnedAway {last payload name code message}
    (fields : uploadBeginFields payload = some (0, name)) :
    Answers D (.idle last) (.uploadBegin, payload) [(.error, errorPayload code message)]
  | nothing {last payload} : Answers D (.idle last) (.cancel, payload) []
  | chunk {declared chunks payload acks} (all : ∀ m ∈ acks, m.1 = MsgType.uploadAck) :
    Answers D (.uploading declared chunks) (.uploadChunk, payload) acks
  | done {declared chunks payload elapsedMs rss} {u : UploadState D} (csv : u.resultCsv ≠ []) :
    Answers D (.uploading declared chunks) (.uploadEnd, payload)
      ((.analyzeDone, u.donePayload elapsedMs rss) :: Conversation.resultFrames u.resultCsv)
  | cancelled {declared chunks payload message} :
    Answers D (.uploading declared chunks) (.cancel, payload)
      [(.error, errorPayload .cancelled message)]

/-- The machine that a session is for its client. -/
def service (D : Type) [DoubleOps D] : Machine Phase (MsgType × Bytes) (MsgType × Bytes) :=
  ⟨Phase.next, Answers D⟩

/-! ## What was sent -/

/-- The frames that were handed to `uv_write`. -/
def sentFrames (timeline : List Happening) : List (MsgType × Bytes) :=
  timeline.filterMap fun
    | .sent type payload => some (type, payload)
    | _ => none

theorem sentFrames_append (tl tl' : List Happening) :
    sentFrames (tl ++ tl') = sentFrames tl ++ sentFrames tl' := List.filterMap_append ..

theorem sentFrames_other (tl : List Happening) {h : Happening}
    (hsent : ∀ type payload, h ≠ .sent type payload) : sentFrames (tl ++ [h]) = sentFrames tl := by
  rw [sentFrames_append]
  cases h with
  | sent type payload => exact absurd rfl (hsent type payload)
  | _ => exact List.append_nil _

theorem mem_sentFrames {tl : List Happening} {type : MsgType} {payload : Bytes} :
    (type, payload) ∈ sentFrames tl ↔ .sent type payload ∈ tl := by
  rw [sentFrames, List.mem_filterMap]
  constructor
  · rintro ⟨h, hmem, hh⟩
    cases h <;> simp at hh
    rw [← hh.1, ← hh.2]
    exact hmem
  · exact fun h ↦ ⟨_, h, rfl⟩

/-! ## Chunks and pieces -/

/-- The pieces are the chunks, each cut into parts. -/
def Cut (chunks pieces : List Bytes) : Prop :=
  ∃ parts : List (List Bytes), parts.map List.flatten = chunks ∧ parts.flatten = pieces

theorem Cut.nil : Cut [] [] := ⟨[], rfl, rfl⟩

theorem Cut.snoc {chunks pieces parts : List Bytes} (h : Cut chunks pieces) :
    Cut (chunks ++ [parts.flatten]) (pieces ++ parts) := by
  obtain ⟨all, rfl, rfl⟩ := h
  exact ⟨all ++ [parts], by simp, by simp⟩

theorem Cut.flatten {chunks pieces : List Bytes} (h : Cut chunks pieces) :
    pieces.flatten = chunks.flatten := by
  obtain ⟨parts, rfl, rfl⟩ := h
  rw [List.flatten_flatten]

theorem uploadBeginFields_lt {payload name : Bytes} {total : ℕ}
    (h : uploadBeginFields payload = some (total, name)) : total < 2 ^ 64 := by
  rw [uploadBeginFields] at h
  split at h
  · cases h
    exact UInt64.toNat_lt _
  · cases h

/-! ## Payloads that were written -/

theorem str16_take (s : Bytes) : PayloadWriter.str16 s = PayloadWriter.str16 (s.take 0xFFFF) := by
  have hmin : min (min 0xFFFF s.length) 0xFFFF = min s.length 0xFFFF := by omega
  rw [PayloadWriter.str16, PayloadWriter.str16, List.length_take, hmin, List.take_take,
    Nat.min_assoc, Nat.min_self]

theorem helloFields_of (version : UInt16) (name : Bytes) :
    helloFields (PayloadWriter.u16 version ++ PayloadWriter.str16 name)
      = some (name.take 0xFFFF) := by
  obtain ⟨r, hr, hok, hahead⟩ := PayloadReader.u16_of_ahead
    (r := .new (PayloadWriter.u16 version ++ PayloadWriter.str16 name)) rfl rfl
  obtain ⟨r', hr', -, -⟩ := PayloadReader.str16_of_ahead (s := name.take 0xFFFF) hok
    (List.length_take_le _ _) (by rw [hahead, str16_take, List.append_nil])
  rw [helloFields, hr]
  simp only [hr']

theorem uploadBeginFields_of {total : ℕ} (h : total < 2 ^ 64) (name : Bytes) :
    uploadBeginFields (PayloadWriter.u64 (UInt64.ofNat total) ++ PayloadWriter.str16 name)
      = some (total, name.take 0xFFFF) := by
  obtain ⟨r, hr, hok, hahead⟩ := PayloadReader.u64_of_ahead
    (r := .new (PayloadWriter.u64 (UInt64.ofNat total) ++ PayloadWriter.str16 name)) rfl rfl
  obtain ⟨r', hr', -, -⟩ := PayloadReader.str16_of_ahead (s := name.take 0xFFFF) hok
    (List.length_take_le _ _) (by rw [hahead, str16_take, List.append_nil])
  rw [uploadBeginFields, hr]
  simp only [hr', UInt64.toNat_ofNat_of_lt' h]

theorem uploadEndFields_of {total : ℕ} (h : total < 2 ^ 64) :
    uploadEndFields (PayloadWriter.u64 (UInt64.ofNat total)) = some total := by
  obtain ⟨r, hr, -, -⟩ := PayloadReader.u64_of_ahead
    (r := .new (PayloadWriter.u64 (UInt64.ofNat total))) (v := UInt64.ofNat total) rfl
    (List.append_nil _).symm
  rw [uploadEndFields, hr, Option.map_some, UInt64.toNat_ofNat_of_lt' h]

namespace Conversation

variable {D : Type}

/-! ## Writes that succeed -/

/-- Every write still to come is accepted. -/
def Writable (c : Conversation D) : Prop := ∀ n, c.uvWrite.get n = true

theorem Sends.of_writable {type : MsgType} {payload : Bytes} {c c' : Conversation D}
    (h : Sends type payload c c') (opened : c.state ≠ .closing) (writable : c.Writable) :
    c' = { c with uvWrite := c.uvWrite.tail }.note (.sent type payload) ∧ c'.Writable := by
  cases h with
  | dropped closing => exact absurd closing opened
  | accepted => exact ⟨rfl, fun n ↦ writable (n + 1)⟩
  | refused _ refusal => exact absurd (refusal.symm.trans (writable 0)) (by decide)

theorem SendsAll.of_writable {ms : List (MsgType × Bytes)} {c c' : Conversation D}
    (h : SendsAll ms c c') (opened : c.state ≠ .closing) (writable : c.Writable) :
    ∃ uvWrite, c' = { c with
        uvWrite := uvWrite, timeline := c.timeline ++ ms.map fun m ↦ .sent m.1 m.2 } ∧
      c'.Writable := by
  induction h with
  | @nil c => exact ⟨c.uvWrite, by simp, writable⟩
  | cons first others ih =>
    obtain ⟨rfl, hwritable⟩ := first.of_writable opened writable
    obtain ⟨uvWrite, rfl, hwritable'⟩ := ih opened hwritable
    exact ⟨uvWrite, by simp [note], hwritable'⟩

variable [DoubleOps D]

/-! ## Where the session stands -/

/-- The result of an upload in these chunks is there and was announced. -/
structure AtHand (chunks : List Bytes) (c : Conversation D) : Prop where
  cut : Cut chunks (uploadPieces c.timeline)
  csv : c.upload.resultCsv ≠ []
  sent : ∃ elapsedMs rss, (.analyzeDone, c.upload.donePayload elapsedMs rss) ∈ sentFrames c.timeline

/-- The session stands at a phase, with `q` of the next chunk already in. -/
inductive Stands : Phase → Bytes → Conversation D → Prop where
  | awaitHello {c} (state : c.state = .awaitHello) : Stands .awaitHello [] c
  | idle {c last} (state : c.state = .ready)
    (result : ∀ chunks, last = some chunks → AtHand chunks c) : Stands (.idle last) [] c
  | uploading {c declared chunks q old new} (state : c.state = .uploading)
    (declared_eq : c.upload.declared = declared) (declared_lt : declared < 2 ^ 64)
    (received : c.upload.received = chunks.flatten.length + q.length)
    (pieces : uploadPieces c.timeline = old ++ new) (cut : Cut chunks old)
    (flatten : new.flatten = q) (none : q = [] → new = []) :
    Stands (.uploading declared chunks) q c

/-- The session stands at a phase, nothing has gone wrong, and `sent` is what it has sent. -/
structure Serving (phase : Phase) (q : Bytes) (sent : List (MsgType × Bytes))
    (c : Conversation D) : Prop where
  stands : Stands phase q c
  writable : c.Writable
  unflagged : c.closeAfterFlush = false
  sent : sentFrames c.timeline = sent

theorem Stands.congr {phase : Phase} {q : Bytes} {c c' : Conversation D} (h : Stands phase q c)
    (state : c'.state = c.state) (upload : c'.upload = c.upload)
    (pieces : uploadPieces c'.timeline = uploadPieces c.timeline)
    (sent : sentFrames c.timeline ⊆ sentFrames c'.timeline) : Stands phase q c' := by
  cases h with
  | awaitHello state' => exact .awaitHello (state.trans state')
  | idle state' result =>
    refine .idle (state.trans state') ?_
    intro chunks hlast
    obtain ⟨hcut, hcsv, elapsedMs, rss, hsent⟩ := result chunks hlast
    exact ⟨pieces.symm ▸ hcut, upload.symm ▸ hcsv, elapsedMs, rss, sent (upload.symm ▸ hsent)⟩
  | uploading state' declared_eq declared_lt received pieces' cut flatten none =>
    exact .uploading (state.trans state') (upload.symm ▸ declared_eq) declared_lt
      (upload.symm ▸ received) (pieces.trans pieces') cut flatten none

namespace Serving

variable {phase : Phase} {q : Bytes} {sent : List (MsgType × Bytes)} {c c' : Conversation D}

theorem setDecoder (h : Serving phase q sent c) (d : FrameDecoder) :
    Serving phase q sent { c with decoder := d } :=
  ⟨h.stands.congr rfl rfl rfl (List.Subset.refl _), h.writable, h.unflagged, h.sent⟩

theorem receive (h : Serving phase q sent c) : Serving phase q sent c.receive := by
  have hsent : sentFrames c.receive.timeline = sentFrames c.timeline :=
    sentFrames_other _ (by simp)
  exact ⟨h.stands.congr rfl rfl (Quiet.receive c).pieces (hsent.symm ▸ List.Subset.refl _),
    h.writable, h.unflagged, hsent.trans h.sent⟩

/-- A piece of a chunk comes in. -/
theorem takes {declared : ℕ} {chunks : List Bytes} {piece : Bytes}
    (h : Serving (.uploading declared chunks) q sent c) (hpiece : piece ≠ [])
    (fits : chunks.flatten.length + (q ++ piece).length ≤ declared) (ht : Takes piece c c') :
    ∃ acks, (∀ m ∈ acks, m.1 = MsgType.uploadAck) ∧
      Serving (.uploading declared chunks) (q ++ piece) (sent ++ acks) c' := by
  obtain ⟨stands, writable, unflagged, hsent⟩ := h
  cases stands with
  | @uploading _ _ _ _ old new state declared_eq declared_lt received pieces cut flatten =>
    have hlen : (q ++ piece).length = q.length + piece.length := List.length_append
    -- what is declared is below 2^64, so the count does not wrap
    have hreceived : (counted piece c.upload).received
        = chunks.flatten.length + (q ++ piece).length := by
      show (c.upload.received + piece.length) % 2 ^ 64 = _
      rw [received, Nat.mod_eq_of_lt (by omega)]
      omega
    have hpieces : uploadPieces (c.take piece).timeline = old ++ (new ++ [piece]) := by
      rw [← List.append_assoc, ← pieces]
      exact uploadPieces_fed _ _
    have hflatten : (new ++ [piece]).flatten = q ++ piece := by simp [flatten]
    have hnone : q ++ piece = [] → new ++ [piece] = [] := fun hnil ↦
      absurd (List.append_eq_nil_iff.mp hnil).2 hpiece
    have hsent' : sentFrames (c.take piece).timeline = sent :=
      (sentFrames_other _ (by simp)).trans hsent
    -- a piece that fits is not ignored and does not overrun
    cases ht with
    | ignored hstate => exact absurd state hstate
    | overrun _ beyond => rw [hreceived, declared_eq] at beyond; omega
    | fed =>
      refine ⟨[], by simp, ?_⟩
      rw [List.append_nil]
      exact ⟨.uploading state declared_eq declared_lt hreceived hpieces cut hflatten hnone,
        writable, unflagged, hsent'⟩
    | @acknowledged _ payload _ _ sends =>
      refine ⟨[(.uploadAck, payload)], by simp, ?_⟩
      obtain ⟨rfl, hwritable⟩ := sends.of_writable
        (ne_of_eq_of_ne (a := ((c.take piece).setUpload _).state) state (by decide)) writable
      refine ⟨.uploading state declared_eq declared_lt hreceived ?_ cut hflatten hnone,
        hwritable, unflagged, ?_⟩
      · exact (uploadPieces_other _ (by simp) (by simp)).trans hpieces
      · exact (sentFrames_append _ _).trans (congrArg (· ++ _) hsent')

theorem opened (h : Serving phase q sent c) : c.state ≠ .closing := by
  cases h.stands with
  | awaitHello state => exact ne_of_eq_of_ne state (by decide)
  | idle state => exact ne_of_eq_of_ne state (by decide)
  | uploading state => exact ne_of_eq_of_ne state (by decide)

theorem sends (h : Serving phase q sent c) {type : MsgType} {payload : Bytes}
    (hs : Sends type payload c c') : Serving phase q (sent ++ [(type, payload)]) c' := by
  obtain ⟨rfl, hwritable⟩ := hs.of_writable h.opened h.writable
  have hsent : sentFrames (c.timeline ++ [.sent type payload])
      = sentFrames c.timeline ++ [(type, payload)] := sentFrames_append _ _
  refine ⟨h.stands.congr rfl rfl (uploadPieces_other _ (by simp) (by simp)) ?_, hwritable,
    h.unflagged, ?_⟩
  · exact hsent.symm ▸ List.subset_append_left _ _
  · exact hsent.trans (congrArg (· ++ _) h.sent)

/-- The session becomes idle, without a result. -/
theorem enterReady (h : Serving phase q sent c) : Serving (.idle none) [] sent (c.enter .ready) :=
  ⟨.idle rfl (by simp), h.writable, h.unflagged, (sentFrames_other _ (by simp)).trans h.sent⟩

theorem began {last : Option (List Bytes)} (h : Serving (.idle last) q sent c) {total : ℕ}
    (hlt : total < 2 ^ 64) (id : UInt32) (name : Bytes) (startNs : ℕ) :
    Serving (.uploading total []) [] sent
      ((c.setUpload (freshUpload id total name startNs c.upload)).enter .uploading) :=
  have hpieces : uploadPieces ((c.setUpload (freshUpload id total name startNs c.upload)).enter
      .uploading).timeline = [] ++ [] := uploadPieces_uploading _
  ⟨.uploading rfl rfl hlt rfl hpieces .nil rfl fun _ ↦ rfl, h.writable, h.unflagged,
    (sentFrames_other _ (by simp)).trans h.sent⟩

theorem completeChunk {declared : ℕ} {chunks : List Bytes}
    (h : Serving (.uploading declared chunks) q sent c) :
    Serving (.uploading declared (chunks ++ [q])) [] sent c := by
  obtain ⟨stands, writable, unflagged, hsent⟩ := h
  cases stands with
  | @uploading _ _ _ _ old new state declared_eq declared_lt received pieces cut flatten =>
    subst flatten
    have hpieces : uploadPieces c.timeline = (old ++ new) ++ [] := by rw [pieces, List.append_nil]
    exact ⟨.uploading state declared_eq declared_lt (by simpa using received) hpieces cut.snoc rfl
      fun _ ↦ rfl, writable, unflagged, hsent⟩

theorem finished {declared : ℕ} {chunks : List Bytes} {utcNow : Bytes} {elapsedMs rss : ℕ}
    (h : Serving (.uploading declared chunks) [] sent c)
    (hs : SendsAll
      ((.analyzeDone, (c.upload.finish.build utcNow elapsedMs rss).donePayload elapsedMs rss)
        :: resultFrames (c.upload.finish.build utcNow elapsedMs rss).resultCsv)
      (c.setUpload (c.upload.finish.build utcNow elapsedMs rss)) c') :
    Serving (.idle (some chunks)) []
      (sent
        ++ (.analyzeDone, (c.upload.finish.build utcNow elapsedMs rss).donePayload elapsedMs rss)
        :: resultFrames (c.upload.finish.build utcNow elapsedMs rss).resultCsv)
      (c'.enter .ready) := by
  have hquiet := hs.quiet.trans (.enter c' (by decide : SessionState.ready ≠ .uploading))
  obtain ⟨uvWrite, rfl, hwritable⟩ := hs.of_writable
    (ne_of_eq_of_ne (a := (c.setUpload _).state) rfl h.opened) h.writable
  -- nothing but the frames of the result is sent
  have hsent : ∀ ms : List (MsgType × Bytes),
      sentFrames (c.timeline ++ ms.map fun m ↦ .sent m.1 m.2) = sent ++ ms := fun ms ↦ by
    rw [sentFrames_append, h.sent]
    congr 1
    induction ms with
    | nil => rfl
    | cons m ms ih => exact congrArg (m :: ·) ih
  have hall := (sentFrames_other (h := .entered .ready) _ (by simp)).trans (hsent
    ((.analyzeDone, (c.upload.finish.build utcNow elapsedMs rss).donePayload elapsedMs rss)
      :: resultFrames (c.upload.finish.build utcNow elapsedMs rss).resultCsv))
  refine ⟨.idle rfl fun chunks' hlast ↦ ?_, hwritable, h.unflagged, hall⟩
  cases hlast
  refine ⟨?_, buildResultCsv_ne_nil _ _ _, elapsedMs, rss, ?_⟩
  · rw [hquiet.pieces]
    cases h.stands with
    | uploading _ _ _ _ pieces cut _ none =>
      rw [none rfl, List.append_nil] at pieces
      exact pieces.symm ▸ cut
  · exact hall ▸ List.mem_append_right _ (List.mem_cons_self ..)

theorem reacts_awaitHello {payload : Bytes} {goesOn : Bool} (h : Serving .awaitHello [] sent c)
    (type : c.decoder.header.type = .hello) (hpayload : c.decoder.payload = payload)
    (hfields : helloFields payload ≠ none) (hr : Reacts c c' goesOn) :
    goesOn = true ∧ ∃ reply, Answers D .awaitHello (.hello, payload) reply ∧
      Serving (.idle none) [] (sent ++ reply) c' := by
  obtain ⟨state⟩ := h.stands
  cases hr with
  | greeted _ _ _ sends => exact ⟨rfl, _, .greeted, h.enterReady.sends sends⟩
  | refused why =>
    rcases why with ⟨-, hnone⟩ | ⟨hready, -⟩
    · exact absurd (hpayload ▸ hnone type) hfields
    · exact absurd (state.symm.trans hready) (by decide)
  | scolded hs | goodbye hs | nothing hs | began hs | chunk hs | aborted hs | cancelled hs
  | finished hs | closing hs => exact absurd (state.symm.trans hs) (by decide)

/-- A CANCEL that finds nothing to cancel. -/
theorem reacts_nothing {last : Option (List Bytes)} {goesOn : Bool}
    (h : Serving (.idle last) [] sent c) (type : c.decoder.header.type = .cancel)
    (hr : Reacts c c' goesOn) : goesOn = true ∧ c' = c := by
  obtain _ | ⟨state, result⟩ := h.stands
  cases hr with
  | nothing => exact ⟨rfl, rfl⟩
  | began _ ht | goodbye _ ht => exact absurd (type.symm.trans ht) (by decide)
  | refused why =>
    rcases why with ⟨hawait, -⟩ | ⟨-, ht, -⟩
    · exact absurd (state.symm.trans hawait) (by decide)
    · exact absurd (type.symm.trans ht) (by decide)
  | scolded _ why => exact absurd type why.2.1
  | greeted hs | chunk hs | aborted hs | cancelled hs | finished hs | closing hs =>
    exact absurd (state.symm.trans hs) (by decide)

theorem reacts_began {last : Option (List Bytes)} {payload name : Bytes} {total : ℕ}
    {goesOn : Bool} (h : Serving (.idle last) [] sent c)
    (type : c.decoder.header.type = .uploadBegin) (hpayload : c.decoder.payload = payload)
    (hfields : uploadBeginFields payload = some (total, name)) (hpos : total ≠ 0)
    (hr : Reacts c c' goesOn) :
    goesOn = true ∧ ∃ reply, Answers D (.idle last) (.uploadBegin, payload) reply ∧
      Serving (.uploading total []) [] (sent ++ reply) c' := by
  obtain _ | ⟨state, result⟩ := h.stands
  subst hpayload
  cases hr with
  | began _ _ fields pos sends =>
    obtain ⟨rfl, rfl⟩ := Prod.mk.inj (Option.some.inj (hfields.symm.trans fields))
    exact ⟨rfl, _, .begun hfields hpos, (h.began (uploadBeginFields_lt hfields) _ _ _).sends sends⟩
  | nothing _ ht | goodbye _ ht => exact absurd (type.symm.trans ht) (by decide)
  | refused why =>
    rcases why with ⟨hawait, -⟩ | ⟨-, -, hnone⟩
    · exact absurd (state.symm.trans hawait) (by decide)
    · exact absurd (hfields.symm.trans hnone) (by simp)
  | scolded _ why =>
    obtain ⟨name', hzero⟩ := why.2.2 type
    obtain ⟨rfl, -⟩ := Prod.mk.inj (Option.some.inj (hfields.symm.trans hzero))
    exact absurd rfl hpos
  | greeted hs | chunk hs | aborted hs | cancelled hs | finished hs | closing hs =>
    exact absurd (state.symm.trans hs) (by decide)

theorem reacts_turnedAway {last : Option (List Bytes)} {payload name : Bytes} {goesOn : Bool}
    (h : Serving (.idle last) [] sent c) (type : c.decoder.header.type = .uploadBegin)
    (hpayload : c.decoder.payload = payload) (hfields : uploadBeginFields payload = some (0, name))
    (hr : Reacts c c' goesOn) :
    goesOn = true ∧ ∃ reply, Answers D (.idle last) (.uploadBegin, payload) reply ∧
      Serving (.idle last) [] (sent ++ reply) c' := by
  obtain _ | ⟨state, result⟩ := h.stands
  subst hpayload
  cases hr with
  | scolded _ _ sends => exact ⟨rfl, _, .turnedAway hfields, h.sends sends⟩
  | began _ _ fields pos =>
    obtain ⟨rfl, -⟩ := Prod.mk.inj (Option.some.inj (hfields.symm.trans fields))
    exact absurd rfl pos
  | nothing _ ht | goodbye _ ht => exact absurd (type.symm.trans ht) (by decide)
  | refused why =>
    rcases why with ⟨hawait, -⟩ | ⟨-, -, hnone⟩
    · exact absurd (state.symm.trans hawait) (by decide)
    · exact absurd (hfields.symm.trans hnone) (by simp)
  | greeted hs | chunk hs | aborted hs | cancelled hs | finished hs | closing hs =>
    exact absurd (state.symm.trans hs) (by decide)

theorem state_uploading {declared : ℕ} {chunks : List Bytes}
    (h : Serving (.uploading declared chunks) q sent c) :
    c.state = .uploading ∧ c.upload.declared = declared ∧
      c.upload.received = chunks.flatten.length + q.length := by
  cases h.stands with
  | uploading state declared_eq _ received => exact ⟨state, declared_eq, received⟩

theorem reacts_chunk {declared : ℕ} {chunks : List Bytes} {goesOn : Bool}
    (h : Serving (.uploading declared chunks) q sent c)
    (type : c.decoder.header.type = .uploadChunk) (streaming : c.decoder.streaming = true)
    (hr : Reacts c c' goesOn) : goesOn = true ∧ c' = c := by
  have state := h.state_uploading.1
  cases hr with
  | chunk => exact ⟨rfl, rfl⟩
  | aborted _ why =>
    rcases why with ⟨-, hno⟩ | ⟨ht, -⟩ | ⟨ht, -⟩
    · exact absurd (streaming.symm.trans hno) (by decide)
    · exact absurd (type.symm.trans ht) (by decide)
    · exact absurd type ht
  | cancelled _ ht | finished _ ht => exact absurd (type.symm.trans ht) (by decide)
  | refused why =>
    rcases why with ⟨hs, -⟩ | ⟨hs, -⟩ <;> exact absurd (state.symm.trans hs) (by decide)
  | greeted hs | scolded hs | goodbye hs | nothing hs | began hs | closing hs =>
    exact absurd (state.symm.trans hs) (by decide)

theorem reacts_cancelled {declared : ℕ} {chunks : List Bytes} {payload : Bytes} {goesOn : Bool}
    (h : Serving (.uploading declared chunks) q sent c) (type : c.decoder.header.type = .cancel)
    (hr : Reacts c c' goesOn) :
    goesOn = true ∧ ∃ reply, Answers D (.uploading declared chunks) (.cancel, payload) reply ∧
      Serving (.idle none) [] (sent ++ reply) c' := by
  have state := h.state_uploading.1
  cases hr with
  | cancelled _ _ sends =>
    have hidle := h.enterReady.sends sends
    refine ⟨rfl, _, .cancelled, .idle ?_ (by simp), hidle.writable, hidle.unflagged, hidle.sent⟩
    obtain _ | ⟨hready, -⟩ := hidle.stands
    exact hready
  | chunk _ ht | finished _ ht => exact absurd (type.symm.trans ht) (by decide)
  | aborted _ why =>
    rcases why with ⟨ht, -⟩ | ⟨ht, -⟩ | ⟨-, -, ht⟩
    · exact absurd (type.symm.trans ht) (by decide)
    · exact absurd (type.symm.trans ht) (by decide)
    · exact absurd type ht
  | refused why =>
    rcases why with ⟨hs, -⟩ | ⟨hs, -⟩ <;> exact absurd (state.symm.trans hs) (by decide)
  | greeted hs | scolded hs | goodbye hs | nothing hs | began hs | closing hs =>
    exact absurd (state.symm.trans hs) (by decide)

theorem reacts_finished {declared : ℕ} {chunks : List Bytes} {payload : Bytes} {goesOn : Bool}
    (h : Serving (.uploading declared chunks) [] sent c)
    (type : c.decoder.header.type = .uploadEnd) (hpayload : c.decoder.payload = payload)
    (hfields : uploadEndFields payload = some declared) (hall : chunks.flatten.length = declared)
    (hr : Reacts c c' goesOn) :
    goesOn = true ∧ ∃ reply, Answers D (.uploading declared chunks) (.uploadEnd, payload) reply ∧
      Serving (.idle (some chunks)) [] (sent ++ reply) c' := by
  obtain ⟨state, hdeclared, hreceived⟩ := h.state_uploading
  cases hr with
  | finished _ _ _ _ sends =>
    exact ⟨rfl, _, .done (buildResultCsv_ne_nil _ _ _), h.finished sends⟩
  | chunk _ ht | cancelled _ ht => exact absurd (type.symm.trans ht) (by decide)
  | aborted _ why =>
    rcases why with ⟨ht, -⟩ | ⟨-, hwrong⟩ | ⟨-, ht, -⟩
    · exact absurd (type.symm.trans ht) (by decide)
    · refine absurd ?_ (hwrong ?_)
      · rw [hpayload, hdeclared, hfields]
      · rw [hreceived, hdeclared, hall]
        rfl
    · exact absurd type ht
  | refused why =>
    rcases why with ⟨hs, -⟩ | ⟨hs, -⟩ <;> exact absurd (state.symm.trans hs) (by decide)
  | greeted hs | scolded hs | goodbye hs | nothing hs | began hs | closing hs =>
    exact absurd (state.symm.trans hs) (by decide)

/-- **A frame that is in order** is answered, and the loop goes on. -/
theorem reacts {type : MsgType} {payload : Bytes} {phase' : Phase} {goesOn : Bool}
    (h : Serving phase q sent c) (next : phase.next (type, payload) = some phase')
    (inside : q = if type = .uploadChunk then payload else [])
    (htype : c.decoder.header.type = type)
    (hpayload : type ≠ .uploadChunk → c.decoder.payload = payload)
    (streaming : type = .uploadChunk → c.decoder.streaming = true) (hr : Reacts c c' goesOn) :
    goesOn = true ∧
      ∃ reply, Answers D phase (type, payload) reply ∧ Serving phase' [] (sent ++ reply) c' := by
  cases phase with
  | awaitHello =>
    obtain ⟨rfl, hfields, rfl⟩ := Phase.next_awaitHello next
    subst inside
    exact h.reacts_awaitHello htype (hpayload (by decide)) hfields hr
  | idle last =>
    rcases Phase.next_idle next with ⟨rfl, rfl⟩ |
      ⟨rfl, total, name, hfields, ⟨rfl, rfl⟩ | ⟨hpos, rfl⟩⟩
    · subst inside
      obtain ⟨hgoesOn, rfl⟩ := h.reacts_nothing htype hr
      exact ⟨hgoesOn, [], .nothing, (List.append_nil sent).symm ▸ h⟩
    · subst inside
      exact h.reacts_turnedAway htype (hpayload (by decide)) hfields hr
    · subst inside
      exact h.reacts_began htype (hpayload (by decide)) hfields hpos hr
  | uploading declared chunks =>
    rcases Phase.next_uploading next with ⟨rfl, -, -, -, rfl⟩ | ⟨rfl, hfields, hall, rfl⟩ |
      ⟨rfl, rfl⟩
    · obtain ⟨hgoesOn, rfl⟩ := h.reacts_chunk htype (streaming rfl) hr
      rw [if_pos rfl] at inside
      exact ⟨hgoesOn, [], .chunk (by simp), (List.append_nil sent).symm ▸ inside ▸ h.completeChunk⟩
    · subst inside
      exact h.reacts_finished htype (hpayload (by decide)) hfields hall hr
    · exact h.reacts_cancelled htype hr

end Serving

end Conversation

end LoggerAnalyzer
