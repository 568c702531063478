import LoggerAnalyzer.Session.Timeline
import LoggerAnalyzer.Session.Transport

/-!
# The chunks of an upload

The session does not look at the length of a chunk when it dispatches it. It looks at the decoder:
a chunk that was streamed was small enough, and one that was collected was not. `TreatsChunk` says
what is meant by that, and `treatsChunk_iff` when it is so: the decoder streams a payload only if
there is one, so an empty chunk counts as one that is too large. Between the reads of a chunk writes
may be done; only a session that is to close after its last write is changed by that.

`Midway` is the relation between the session before a chunk and the session when a part of it is in.
It does not ask whether the rest of the chunk is more than was declared; only `Grown`, which is what
becomes of a chunk that is not, does.
-/

namespace LoggerAnalyzer

open Incremental FrameDecoder

/-- Neither a change of state nor an error. -/
structure Happening.Steady (h : Happening) : Prop where
  notEntered : ∀ state, h ≠ .entered state
  noError : ∀ payload, h ≠ .sent .error payload

/-- No error that says that something was too large. -/
def Happening.Moderate (h : Happening) : Prop :=
  ∀ message, h ≠ .sent .error (errorPayload .payloadTooLarge message)

theorem Happening.steady_sent {type : MsgType} (payload : Bytes) (h : type ≠ .error) :
    (Happening.sent type payload).Steady := ⟨fun _ ↦ by simp, fun _ ↦ by simp [h]⟩

theorem Happening.moderate_sent {type : MsgType} (payload : Bytes) (h : type ≠ .error) :
    (Happening.sent type payload).Moderate := fun _ ↦ by simp [h]

theorem Happening.moderate_error {code : ErrorCode} (h : code ≠ .payloadTooLarge)
    (message : Bytes) :
    (Happening.sent .error (errorPayload code message)).Moderate := by
  intro message' heq
  injection heq with _ hpayload
  rw [errorPayload, errorPayload] at hpayload
  have hcode :
    PayloadWriter.u16 code.toUInt16 = PayloadWriter.u16 ErrorCode.payloadTooLarge.toUInt16 :=
    List.append_inj_left hpayload rfl
  have hload := congrArg (loadBe16 <| · ++ []) hcode
  simp only [PayloadWriter.u16, loadBe16_store_append] at hload
  cases code <;> first | exact h rfl | exact absurd hload (by decide)

theorem Happening.moderate_flagged : Happening.flagged.Moderate := fun _ ↦ by simp

theorem Happening.moderate_entered (state : SessionState) : (Happening.entered state).Moderate :=
  fun _ ↦ by simp

namespace Conversation

variable {D : Type}

/-- With `q` of a chunk the upload has grown by its length, and the pieces are those of `q`. -/
structure Grown (c₀ : Conversation D) (q : Bytes) (c : Conversation D) : Prop where
  state : c.state = .uploading
  flag : c.closeAfterFlush = c₀.closeAfterFlush
  declared : c.upload.declared = c₀.upload.declared
  received : c.upload.received = c₀.upload.received + q.length
  steady : Appends Happening.Steady c₀ c
  pieces : ∃ pieces, pieces.flatten = q ∧
    uploadPieces c.timeline = uploadPieces c₀.timeline ++ pieces

/-- With `q` of a chunk of `total` bytes the session goes on, and complains of nothing but that more
is sent than was declared. -/
structure Calm (c₀ : Conversation D) (total : ℕ) (q : Bytes) (c : Conversation D) : Prop where
  opened : c.state ≠ .closing
  writable : c.Writable
  moderate : Appends Happening.Moderate c₀ c
  grown : c₀.upload.received + total ≤ c₀.upload.declared → Grown c₀ q c

/-- What is known of a session to which `q` of a chunk of `total` bytes was given, if it has closed
in the meantime or not. -/
structure Settled (c₀ : Conversation D) (total : ℕ) (q : Bytes) (c : Conversation D) : Prop where
  moderate : Appends Happening.Moderate c₀ c
  grown : c₀.upload.received + total ≤ c₀.upload.declared → Grown c₀ q c

/-- A session that closes after its last write was given more than was declared. -/
theorem Settled.closes {c₀ c c' : Conversation D} {total : ℕ} {q : Bytes}
    (h : Settled c₀ total q c) (unflagged : c₀.closeAfterFlush = false)
    (flagged : c.closeAfterFlush = true) (hc : Closes c c') (q' : Bytes) :
    Settled c₀ total q' c' where
  moderate := h.moderate.trans (hc.appends (Happening.moderate_entered _) fun _ ↦ by simp)
  grown hfits :=
    absurd (flagged.symm.trans ((h.grown hfits).flag.trans unflagged)) (by decide)

namespace Grown

variable {c₀ c c' : Conversation D} {q : Bytes}

theorem refl (state : c.state = .uploading) : Grown c [] c :=
  ⟨state, rfl, rfl, rfl, .refl c, [], rfl, (List.append_nil _).symm⟩

/-- What does not change the upload does not matter. -/
theorem congr (h : Grown c₀ q c) (state : c'.state = c.state)
    (flag : c'.closeAfterFlush = c.closeAfterFlush)
    (declared : c'.upload.declared = c.upload.declared)
    (received : c'.upload.received = c.upload.received) (steady : Appends Happening.Steady c c')
    (pieces : uploadPieces c'.timeline = uploadPieces c.timeline) : Grown c₀ q c' := by
  obtain ⟨all, hflatten, hall⟩ := h.pieces
  exact ⟨state.trans h.state, flag.trans h.flag, declared.trans h.declared,
    received.trans h.received, h.steady.trans steady, all, hflatten, pieces.trans hall⟩

end Grown

namespace Calm

variable {c₀ c c' : Conversation D} {total : ℕ} {q : Bytes}

theorem start (state : c.state = .uploading) (writable : c.Writable) : Calm c total [] c :=
  ⟨ne_of_eq_of_ne state (by decide), writable, .refl c, fun _ ↦ .refl state⟩

theorem setDecoder (h : Calm c₀ total q c) (d : FrameDecoder) :
    Calm c₀ total q { c with decoder := d } :=
  ⟨h.opened, h.writable, h.moderate.trans (.of_eq rfl rfl),
    fun hfits ↦ (h.grown hfits).congr rfl rfl rfl rfl (.of_eq rfl rfl) rfl⟩

theorem receive (h : Calm c₀ total q c) : Calm c₀ total q c.receive :=
  ⟨h.opened, h.writable, h.moderate.trans (.note c fun _ ↦ by simp),
    fun hfits ↦ (h.grown hfits).congr rfl rfl rfl rfl
      (.note c ⟨fun _ ↦ by simp, fun _ ↦ by simp⟩) (Quiet.receive c).pieces⟩

/-- A write is accepted, and what is said is no complaint about the size of a frame. -/
theorem appends_sends {type : MsgType} {payload : Bytes} (opened : c.state ≠ .closing)
    (writable : c.Writable) (moderate : Appends Happening.Moderate c₀ c)
    (hsent : (Happening.sent type payload).Moderate) (hs : Sends type payload c c') :
    c'.state = c.state ∧ c'.Writable ∧ Appends Happening.Moderate c₀ c' := by
  obtain ⟨hc', hwritable⟩ := hs.of_writable opened writable
  refine ⟨hc' ▸ rfl, hwritable, moderate.trans ?_⟩
  exact hs.appends (fun _ ↦ hsent) (Happening.moderate_entered _) fun _ ↦ by simp

/-- An acknowledgement. -/
theorem acknowledged (h : Calm c₀ total q c) {payload : Bytes}
    (hs : Sends .uploadAck payload c c') : Calm c₀ total q c' := by
  obtain ⟨hstate, hwritable, hmoderate⟩ := appends_sends h.opened h.writable h.moderate
    (Happening.moderate_sent payload (by decide)) hs
  refine ⟨ne_of_eq_of_ne hstate h.opened, hwritable, hmoderate, fun hfits ↦ ?_⟩
  have hsteady : Appends Happening.Steady c c' := by
    rw [(hs.of_writable h.opened h.writable).1]
    refine ⟨⟨[.sent .uploadAck payload], rfl, ?_⟩, 1, rfl⟩
    rw [List.forall_mem_singleton]
    exact Happening.steady_sent payload (by decide)
  exact (h.grown hfits).congr hstate hs.kept.closeAfterFlush
    (congrArg UploadState.declared hs.quiet.upload)
    (congrArg UploadState.received hs.quiet.upload) hsteady hs.quiet.pieces

variable [DoubleOps D]

theorem take (h : Calm c₀ total q c) (hlt : c₀.upload.declared < 2 ^ 64) {piece : Bytes}
    (hlen : (q ++ piece).length ≤ total) : Calm c₀ total (q ++ piece) (c.take piece) := by
  have happends : ∀ {P : Happening → Prop}, P (.fed piece) → Appends P c (c.take piece) :=
    fun hP ↦ ⟨⟨[.fed piece], rfl, by simpa using hP⟩, 0, rfl⟩
  refine ⟨h.opened, h.writable, h.moderate.trans (happends fun _ ↦ by simp), fun hfits ↦ ?_⟩
  obtain ⟨state, flag, declared, received, steady, pieces, hflatten, hpieces⟩ := h.grown hfits
  have hsteady : Appends Happening.Steady c (c.take piece) :=
    happends ⟨fun _ ↦ by simp, fun _ ↦ by simp⟩
  refine
    ⟨state, flag, declared, ?_, steady.trans hsteady, pieces ++ [piece], by simp [hflatten], ?_⟩
  · show (c.upload.received + piece.length) % 2 ^ 64 = _
    rw [List.length_append] at hlen ⊢
    rw [received, Nat.mod_eq_of_lt (by omega), Nat.add_assoc]
  · have htake : uploadPieces (c.take piece).timeline = uploadPieces c.timeline ++ [piece] :=
      uploadPieces_fed _ _
    rw [htake, hpieces, List.append_assoc]

/-- A piece of the chunk comes in. -/
theorem takes (h : Calm c₀ total q c) (hlt : c₀.upload.declared < 2 ^ 64) {piece : Bytes}
    (hlen : (q ++ piece).length ≤ total) (ht : Takes piece c c') :
    Calm c₀ total (q ++ piece) c' := by
  cases ht with
  | ignored hstate =>
    exact ⟨h.opened, h.writable, h.moderate, fun hfits ↦ absurd (h.grown hfits).state hstate⟩
  | @overrun c₁ message state beyond hs =>
    have hready : Appends Happening.Moderate c₀
        ((c.setUpload (counted piece c.upload)).enter .ready) := by
      refine h.moderate.trans ⟨⟨[.entered .ready], rfl, ?_⟩, 0, rfl⟩
      simpa using Happening.moderate_entered _
    have hopen : ((c.setUpload (counted piece c.upload)).enter .ready).state ≠ .closing := by
      simp [enter, note]
    obtain ⟨hstate, hwritable, hmoderate⟩ := appends_sends hopen h.writable hready
      (Happening.moderate_error (by decide) message) hs
    refine ⟨ne_of_eq_of_ne hstate hopen, hwritable,
      hmoderate.trans (.flag _ Happening.moderate_flagged), fun hfits ↦ ?_⟩
    -- the pieces of a chunk that fits do not run over
    have hgrown := ((h.take hlt hlen).grown hfits).received
    have hover : c.upload.declared < (c.take piece).upload.received := beyond
    rw [hgrown, (h.grown hfits).declared] at hover
    omega
  | fed => exact h.take hlt hlen
  | acknowledged state within hs =>
    obtain ⟨hopen, hwritable, hmoderate, hgrown⟩ := h.take hlt hlen
    have hset : Calm c₀ total (q ++ piece)
        ((c.take piece).setUpload (acked (c.take piece).upload)) :=
      ⟨hopen, hwritable, hmoderate.trans (.of_eq rfl rfl),
        fun hfits ↦ (hgrown hfits).congr rfl rfl rfl rfl (.of_eq rfl rfl) rfl⟩
    exact hset.acknowledged hs

/-- A chunk that was streamed is dispatched. -/
theorem dispatched {s : TcpSession D} (h : Calm c₀ total q s.conversation)
    (type : s.decoder.header.type = .uploadChunk) (streamed : s.decoder.streaming = true) :
    Calm c₀ total q s.dispatchFrame.1.conversation := by
  have hreceive :
    Calm c₀ total q (s.note (.received s.decoder.header s.decoder.payload)).conversation :=
    h.receive
  have hidle : s.state ≠ .uploading → ∀ message : Bytes,
      Calm c₀ total q (((s.note (.received s.decoder.header s.decoder.payload)).sendError
        .unexpectedType message).conversation) := by
    intro hstate message
    obtain ⟨hstate', hwritable, hmoderate⟩ := appends_sends hreceive.opened hreceive.writable
      hreceive.moderate (Happening.moderate_error
        (show ErrorCode.unexpectedType ≠ .payloadTooLarge by decide) message)
      (TcpSession.sends_send _ _ _)
    exact ⟨ne_of_eq_of_ne hstate' hreceive.opened, hwritable, hmoderate,
      fun hfits ↦ absurd (h.grown hfits).state hstate⟩
  rw [TcpSession.dispatchFrame]
  -- outside an upload a chunk is unexpected, in one it was streamed
  split <;> rename_i hstate
  · have hstate : s.state = .awaitHello := hstate
    have hnot : s.state ≠ .uploading := ne_of_eq_of_ne hstate (by decide)
    rw [if_pos (by rw [type]; decide)]
    obtain ⟨hopen, hwritable, hmoderate, -⟩ :=
      hidle hnot (ascii "expected HELLO as the first frame")
    exact ⟨hopen, hwritable, hmoderate.trans (.flag _ Happening.moderate_flagged),
      fun hfits ↦ absurd (h.grown hfits).state hnot⟩
  · have hstate : s.state = .ready := hstate
    simp only [type]
    exact hidle (ne_of_eq_of_ne hstate (by decide)) _
  · rw [if_pos type, if_neg (by simp [TcpSession.note, streamed])]
    exact hreceive
  · exact hreceive

end Calm

/-! ## One frame in any reads -/

variable [DoubleOps D]

/-- The part `p` of a chunk of `total` bytes is in. -/
structure Midway (c₀ : Conversation D) (total : ℕ) (p : Bytes) (c : Conversation D) : Prop where
  calm : Calm c₀ total (p.drop kHeaderSize) c
  before : p.length < kHeaderSize → c.state = .uploading
  streams : kHeaderSize ≤ p.length → c.decoder.streaming = true

section Chunk

variable {bytes p data : Bytes} {f : Frame} (hframe : nextFrame bytes = .item f [])
  (type : f.header.type = .uploadChunk) (pos : 0 < f.payload.length)
  (small : f.payload.length ≤ kDefaultMaxChunk) {c₀ c c' : Conversation D}

omit [DoubleOps D] in
include hframe type pos small in
/-- The payload is streamed as soon as its length is known. -/
theorem Midway.asked (h : Midway c₀ f.payload.length p c) (hpart : p ++ data <+: bytes)
    {streaming : Bool} (hasked : Asked c.streams p data c.decoder.streaming streaming)
    (hlen : kHeaderSize ≤ (p ++ data).length) : streaming = true := by
  rcases Nat.lt_or_ge p.length kHeaderSize with hshort | hlong
  · obtain ⟨hheader, hsize⟩ := nextFrame_item_header hframe
    obtain ⟨-, -, -, -, -, hgood⟩ := nextFrame_item hframe
    have hfirst : decodeHeader ((p ++ data).take kHeaderSize) = f.header := by
      obtain ⟨more, rfl⟩ := hpart
      rw [hheader, List.take_append_of_le_length hlen]
    have htold := hasked.told hshort hlen
    rw [hfirst, ← hsize] at htold
    rw [htold hgood (Nat.ne_of_gt pos), Conversation.streams, ← hsize]
    simp [type, small, h.before hshort]
  · rw [hasked.inside hlong, h.streams hlong]

include hframe type pos small in
/-- What comes in of the payload is taken. -/
theorem Midway.takesPiece (hlt : c₀.upload.declared < 2 ^ 64)
    (h : Midway c₀ f.payload.length p c) (hpart : p ++ data <+: bytes) {streaming : Bool}
    (hasked : Asked c.streams p data c.decoder.streaming streaming)
    (ht : TakesPiece (pieceOf streaming (data.drop (kHeaderSize - p.length))) c c') :
    Calm c₀ f.payload.length ((p ++ data).drop kHeaderSize) c' ∧
      ((p ++ data).length < kHeaderSize → c'.state = .uploading) := by
  have hstreaming := h.asked hframe type pos small hpart hasked
  rw [List.length_append] at hstreaming
  by_cases hnil : data.drop (kHeaderSize - p.length) = []
  · rw [hnil, pieceOf, if_neg (by simp)] at ht
    cases ht
    rw [List.drop_append, hnil, List.append_nil, List.length_append]
    exact ⟨h.calm, fun hshort ↦ h.before (by omega)⟩
  · have hpos := List.length_pos_iff.mpr hnil
    rw [List.length_drop] at hpos
    rw [hstreaming (by omega), pieceOf, if_pos ⟨hnil, rfl⟩] at ht
    obtain ⟨raw, hraw, hlen, -⟩ := nextFrame_item hframe
    obtain ⟨-, hsize⟩ := nextFrame_item_header hframe
    have hfew : (p ++ data).length ≤ kHeaderSize + f.payload.length := by
      rw [hsize, ← hlen, ← List.append_nil raw, ← hraw]
      exact hpart.length_le
    have hdrop : (p.drop kHeaderSize ++ data.drop (kHeaderSize - p.length)).length
        ≤ f.payload.length := by
      rw [← List.drop_append, List.length_drop]
      omega
    cases ht with
    | some takes =>
      rw [List.drop_append, List.length_append]
      exact ⟨h.calm.takes hlt hdrop takes, fun hshort ↦ absurd hshort (by omega)⟩

end Chunk

/-! ## A chunk without -/

/-- The size of an upload is a 64-bit number. -/
def Sizable (c : Conversation D) : Prop := c.upload.declared < 2 ^ 64

namespace Sizable

variable {c c' : Conversation D}

omit [DoubleOps D] in
theorem of_upload (h : Sizable c) (upload : c'.upload = c.upload) : Sizable c' := by
  unfold Sizable
  rw [upload]
  exact h

theorem takesPiece (h : Sizable c) {piece : Option Bytes} (ht : TakesPiece piece c c') :
    Sizable c' := by
  cases ht with
  | none => exact h
  | @some piece _ _ takes =>
    have hcounted : Sizable (c.setUpload (counted piece c.upload)) := h
    have htake : Sizable (c.take piece) := h
    cases takes with
    | ignored => exact h
    | overrun state beyond sends => exact hcounted.of_upload sends.kept.upload
    | fed => exact htake
    | acknowledged state within sends =>
      have hacked : Sizable ((c.take piece).setUpload (acked (c.take piece).upload)) := htake
      exact hacked.of_upload sends.kept.upload

theorem reacts {goesOn : Bool} (h : Sizable c) (hr : Reacts c c' goesOn) : Sizable c' := by
  cases hr with
  | refused why sends => exact h.of_upload sends.kept.upload
  | greeted state type fields sends => exact h.of_upload sends.kept.upload
  | scolded state why sends => exact h.of_upload sends.kept.upload
  | goodbye state type closes => exact h.of_upload closes.kept.upload
  | nothing => exact h
  | @began _ total name id startNs payload state type fields pos sends =>
    have hbegun : Sizable ((c.setUpload (freshUpload id total name startNs c.upload)).enter
        .uploading) := uploadBeginFields_lt fields
    exact hbegun.of_upload sends.kept.upload
  | chunk => exact h
  | aborted state why sends => exact h.of_upload sends.kept.upload
  | cancelled state type sends => exact Nat.two_pow_pos 64
  | @finished _ utcNow elapsedMs rss state type fields complete sends =>
    have hbuilt : Sizable (c.setUpload (c.upload.finish.build utcNow elapsedMs rss)) := h
    exact hbuilt.of_upload sends.kept.upload
  | closing => exact h

theorem turn {p data p' : Bytes} {left : Option Bytes} (h : Sizable c)
    (ht : Turn p data c left p' c') : Sizable c' := by
  cases ht with
  | more next holds asked takes =>
    have htaken := h.takesPiece takes
    exact htaken
  | fail next holds error sends => exact h.of_upload sends.kept.upload
  | @item d f rest c₁ c₂ goesOn next completed asked takes reacts =>
    have htaken := h.takesPiece takes
    have hreceived : Sizable ({ c₁ with decoder := d }.receive) := htaken
    have hreacted := hreceived.reacts reacts
    exact hreacted

omit [DoubleOps D] in
theorem timesOut (h : Sizable c) (ht : TimesOut c c') : Sizable c' := by
  cases ht with
  | waited => exact h
  | gaveUp state sends closes => exact (h.of_upload sends.kept.upload).of_upload closes.kept.upload
  | idle state sends => exact h.of_upload sends.kept.upload

end Sizable

end Conversation

namespace TcpSession

open Conversation

variable {D : Type}

/-! ## The claim -/

variable [DoubleOps D]

end TcpSession

end LoggerAnalyzer
