import LoggerAnalyzer.Session.Accounting

/-!
# What an acknowledgement is made of

While an upload goes on the session sends an UPLOAD_ACK now and then, with the counters of the
analysis as they are. `Acknowledges` says that each one on a timeline is of the pieces that went
through the splitter before it, since the last upload began, and `ToldOf` that one of them is of so
many bytes of this upload. Both are kept by every step, and `Reached.told` puts them together:
during an upload, all but the last 16 MiB that went through the splitter are acknowledged.
-/

namespace LoggerAnalyzer

open FrameDecoder LineSplitter

/-! ## Timelines -/

/-- Anything but an UPLOAD_ACK. -/
def Happening.NoAck (h : Happening) : Prop := ∀ payload, h ≠ .sent .uploadAck payload

theorem Happening.noAck_sent {type : MsgType} (payload : Bytes) (h : type ≠ .uploadAck) :
    (Happening.sent type payload).NoAck := fun _ ↦ by simp [h]

section Timelines

variable {D : Type} [DoubleOps D]

/-- The upload is the analysis of the pieces, and its bytes are counted. -/
structure UploadState.AnalysisOf (pieces : List Bytes) (u : UploadState D) : Prop where
  fed : (u.splitter, u.agg, u.lineOffset) = fed D pieces
  received : u.received = pieces.flatten.length % 2 ^ 64
  resultCsv : u.resultCsv = []

/-- Each UPLOAD_ACK is of the analysis of the pieces before it. -/
def Acknowledges (D : Type) [DoubleOps D] (timeline : List Happening) : Prop :=
  ∀ before payload after, timeline = before ++ .sent .uploadAck payload :: after →
    ∃ u : UploadState D, u.AnalysisOf (uploadPieces before) ∧ payload = u.ackPayload

namespace Acknowledges

variable {tl : List Happening}

theorem nil : Acknowledges D [] := fun _ _ _ h ↦ absurd h.symm (by simp)

/-- What happens next is an UPLOAD_ACK like that, or something else. -/
theorem snoc (h : Acknowledges D tl) {x : Happening} (hx : ∀ payload, x = .sent .uploadAck payload →
    ∃ u : UploadState D, u.AnalysisOf (uploadPieces tl) ∧ payload = u.ackPayload) :
    Acknowledges D (tl ++ [x]) := by
  intro before payload after heq
  rcases List.eq_nil_or_concat after with rfl | ⟨after, y, rfl⟩
  · obtain ⟨rfl, hlast⟩ := List.append_inj' heq rfl
    exact hx payload (List.cons.inj hlast).1
  · rw [List.concat_eq_append, ← List.cons_append, ← List.append_assoc] at heq
    exact h before payload after (List.append_inj_left' heq rfl)

theorem append (h : Acknowledges D tl) {hs : List Happening} (hall : ∀ x ∈ hs, x.NoAck) :
    Acknowledges D (tl ++ hs) := by
  induction hs generalizing tl with
  | nil => rwa [List.append_nil]
  | cons x hs ih =>
    rw [List.forall_mem_cons] at hall
    rw [List.append_cons]
    exact ih (h.snoc fun payload heq ↦ absurd heq (hall.1 payload)) hall.2

end Acknowledges

/-- `count` bytes of this upload are acknowledged, if it is any. -/
def ToldOf (timeline : List Happening) (count : ℕ) : Prop :=
  count = 0 ∨ ∃ before payload after, timeline = before ++ .sent .uploadAck payload :: after ∧
    uploadPieces before <+: uploadPieces timeline ∧
    count = (uploadPieces before).flatten.length % 2 ^ 64

/-- They still are after more of the same upload. -/
theorem ToldOf.append {tl added : List Happening} {count : ℕ} (h : ToldOf tl count)
    (hpieces : uploadPieces tl <+: uploadPieces (tl ++ added)) : ToldOf (tl ++ added) count := by
  rcases h with hzero | ⟨before, payload, after, rfl, hinit, hcount⟩
  · exact .inl hzero
  · refine .inr ⟨before, payload, after ++ added, ?_, hinit.trans hpieces, hcount⟩
    rw [List.append_assoc, List.cons_append]

end Timelines

namespace Conversation

variable {D : Type}

/-! ## What changes neither the upload nor the acknowledgements -/

/-- Nothing is analysed or acknowledged on the way from `c` to `c'`, and no upload begins. -/
structure Still (c c' : Conversation D) : Prop where
  quiet : Quiet c c'
  noAck : Appends Happening.NoAck c c'

theorem Still.enter (c : Conversation D) {state : SessionState} (h : state ≠ .uploading) :
    Still c (c.enter state) := ⟨.enter c h, .enter c fun _ ↦ by simp⟩

theorem Still.flag (c : Conversation D) : Still c c.flag := ⟨.flag c, .flag c fun _ ↦ by simp⟩

theorem Still.note (c : Conversation D) {h : Happening} (hfed : ∀ piece, h ≠ .fed piece)
    (huploading : h ≠ .entered .uploading) (hack : h.NoAck) : Still c (c.note h) :=
  ⟨.note c hfed huploading, .note c hack⟩

theorem Closes.still {c c' : Conversation D} (h : Closes c c') : Still c c' :=
  ⟨h.quiet, h.appends (fun _ ↦ by simp) fun _ ↦ by simp⟩

theorem Sends.still {type : MsgType} {payload : Bytes} {c c' : Conversation D}
    (h : Sends type payload c c') (hack : type ≠ .uploadAck) : Still c c' :=
  ⟨h.quiet, h.appends (fun _ ↦ Happening.noAck_sent payload hack) (fun _ ↦ by simp)
    fun _ ↦ by simp⟩

/-- A result is sent without acknowledgements. -/
theorem type_of_finish {done csv : Bytes} {m : MsgType × Bytes}
    (h : m ∈ (.analyzeDone, done) :: resultFrames csv) : m.1 ≠ .uploadAck := by
  rw [resultFrames, List.mem_cons, List.mem_append, List.mem_cons, List.mem_map,
    List.mem_singleton] at h
  rcases h with rfl | (rfl | ⟨chunk, -, rfl⟩) | rfl <;> dsimp only <;> decide

/-! ## The invariant -/

variable [DoubleOps D]

/-- The upload and the acknowledgements are of the pieces, and the last of them is remembered. -/
structure Truthful (c : Conversation D) : Prop where
  analysed : Analysed c
  during : c.state = .uploading → c.upload.AnalysisOf (uploadPieces c.timeline)
  told : c.state = .uploading → ToldOf c.timeline c.upload.lastAckAt
  acks : Acknowledges D c.timeline

namespace Truthful

variable {c c' : Conversation D}

theorem still (h : Truthful c) (hs : Still c c') : Truthful c' := by
  obtain ⟨added, htimeline, hall⟩ := hs.noAck.timeline
  have hpieces := hs.quiet.pieces
  refine ⟨h.analysed.quiet hs.quiet, fun hup ↦ ?_, fun hup ↦ ?_, ?_⟩
  · rw [hs.quiet.upload, hpieces]
    exact h.during (hs.quiet.state hup)
  · rw [hs.quiet.upload, htimeline]
    rw [htimeline] at hpieces
    exact (h.told (hs.quiet.state hup)).append (hpieces ▸ List.prefix_refl _)
  · rw [htimeline]
    exact h.acks.append hall

/-- A piece goes through the splitter. -/
theorem take (h : Truthful c) (state : c.state = .uploading) (piece : Bytes) :
    Truthful (c.take piece) := by
  have hanalysed := h.analysed.take state piece
  obtain ⟨hfed, hcsv⟩ := hanalysed.during state
  have hpieces : uploadPieces (c.take piece).timeline = uploadPieces c.timeline ++ [piece] :=
    uploadPieces_fed _ _
  refine ⟨hanalysed, fun _ ↦ ⟨hfed, ?_, hcsv⟩, fun _ ↦ ?_, ?_⟩
  · have hcounted : (c.take piece).upload.received
        = (c.upload.received + piece.length) % 2 ^ 64 := rfl
    rw [hpieces, List.flatten_append, List.flatten_singleton, List.length_append, hcounted,
      (h.during state).received, Nat.mod_add_mod]
  · exact (h.told state).append (hpieces ▸ List.prefix_append ..)
  · exact h.acks.snoc fun payload heq ↦ absurd heq (by simp)

/-- An acknowledgement is due. It is of the piece that went through the splitter just now. -/
theorem acknowledged (h : Truthful c) (state : c.state = .uploading)
    (hs : Sends .uploadAck (acked c.upload).ackPayload (c.setUpload (acked c.upload)) c') :
    Truthful c' := by
  have hof : (acked c.upload).AnalysisOf (uploadPieces c.timeline) :=
    ⟨(h.during state).fed, (h.during state).received, (h.during state).resultCsv⟩
  have hquiet := hs.quiet
  have hset : Analysed (c.setUpload (acked c.upload)) :=
    ⟨h.analysed.maxLine, h.analysed.during, h.analysed.result⟩
  refine ⟨hset.quiet hquiet, fun _ ↦ ?_, fun hup ↦ ?_, ?_⟩
  · rw [hquiet.upload, hquiet.pieces]
    exact hof
  · have htimeline : c'.timeline
        = c.timeline ++ [.sent .uploadAck (acked c.upload).ackPayload] := by
      rw [hs.of_opened (ne_of_eq_of_ne hup (by decide))]
      rfl
    refine .inr ⟨c.timeline, _, [], htimeline, ?_, ?_⟩
    · rw [hquiet.pieces]
      exact List.prefix_refl _
    · rw [hquiet.upload]
      exact (h.during state).received
  -- a frame that libuv refuses was not sent, and the session closes
  · cases hs with
    | dropped => exact h.acks
    | accepted =>
      exact h.acks.snoc fun payload heq ↦ ⟨_, hof, (Happening.sent.inj heq).2.symm⟩
    | refused _ _ closes =>
      obtain ⟨added, htimeline, hall⟩ := closes.still.noAck.timeline
      rw [htimeline]
      exact h.acks.append hall

theorem takesPiece {piece : Option Bytes} (h : Truthful c) (ht : TakesPiece piece c c') :
    Truthful c' := by
  cases ht with
  | none => exact h
  | @some piece _ _ takes =>
    have hanalysed := h.analysed.takes takes
    cases takes with
    | ignored => exact h
    | @overrun c₁ _ state beyond sends =>
      -- the session has left the upload when it says why
      have hready : Still c (c.enter .ready) := .enter c (by decide)
      obtain ⟨added, htimeline, hall⟩ := (sends.still (by decide)).noAck.timeline
      have hacks : Acknowledges D c₁.timeline := by
        rw [htimeline]
        exact (h.still hready).acks.append hall
      exact ⟨hanalysed, fun hup ↦ absurd hup sends.idle, fun hup ↦ absurd hup sends.idle,
        hacks.snoc fun payload heq ↦ absurd heq (by simp)⟩
    | fed state => exact h.take state piece
    | acknowledged state within sends due counts =>
      exact (h.take state piece).acknowledged state (counts ▸ sends)

theorem setDecoder (h : Truthful c) (d : FrameDecoder) : Truthful { c with decoder := d } :=
  ⟨⟨h.analysed.maxLine, h.analysed.during, h.analysed.result⟩, h.during, h.told, h.acks⟩

theorem receive (h : Truthful c) : Truthful c.receive :=
  h.still (.note c (by simp) (by simp) fun _ ↦ by simp)

theorem reacts {goesOn : Bool} (h : Truthful c) (hr : Reacts c c' goesOn) : Truthful c' := by
  have hanalysed := h.analysed.reacts hr
  have hready : Truthful (c.enter .ready) := h.still (.enter c (by decide))
  cases hr with
  | refused why sends => exact (h.still (sends.still (by decide))).still (.flag _)
  | greeted state type fields sends => exact hready.still (sends.still (by decide))
  | scolded state why sends => exact h.still (sends.still (by decide))
  | goodbye state type closes => exact h.still closes.still
  | nothing => exact h
  | @began _ total name id startNs payload state type fields pos sends =>
    have hbegun := h.analysed.began id total name startNs
    have hpieces : uploadPieces ((c.setUpload (freshUpload id total name startNs c.upload)).enter
        .uploading).timeline = [] := uploadPieces_uploading _
    have htruth : Truthful
        ((c.setUpload (freshUpload id total name startNs c.upload)).enter .uploading) := by
      -- nothing is acknowledged of this upload, whatever was of the last one
      refine ⟨hbegun, fun _ ↦ ⟨(hbegun.during rfl).1, ?_, rfl⟩, fun _ ↦ .inl rfl, ?_⟩
      · rw [hpieces]
        rfl
      · exact h.acks.snoc fun payload heq ↦ absurd heq (by simp)
    exact htruth.still (sends.still (by decide))
  | chunk => exact h
  | aborted state why sends => exact (hready.still (sends.still (by decide))).still (.flag _)
  | cancelled state type sends =>
    refine ⟨hanalysed, fun hup ↦ absurd hup sends.idle, fun hup ↦ absurd hup sends.idle, ?_⟩
    exact (hready.still (sends.still (by decide))).acks
  | @finished c₁ _ _ _ state type fields complete sends =>
    have hidle : (c₁.enter .ready).state ≠ .uploading :=
      show SessionState.ready ≠ .uploading by decide
    refine ⟨hanalysed, fun hup ↦ absurd hup hidle, fun hup ↦ absurd hup hidle, ?_⟩
    obtain ⟨added, htimeline, hall⟩ := (sends.appends (P := Happening.NoAck)
      (fun m hm ↦ Happening.noAck_sent _ (type_of_finish hm)) (fun _ ↦ by simp)
      fun _ ↦ by simp).timeline
    have hacks : Acknowledges D c₁.timeline := by
      rw [htimeline]
      exact h.acks.append hall
    exact hacks.snoc fun payload heq ↦ absurd heq (by simp)
  | closing => exact h

theorem turn {p data p' : Bytes} {left : Option Bytes} (h : Truthful c)
    (ht : Turn p data c left p' c') : Truthful c' := by
  cases ht with
  | more next holds asked takes => exact (h.takesPiece takes).setDecoder _
  | @fail d e c₁ next holds error sends =>
    exact ((h.setDecoder d).still (sends.still (by decide))).still (.flag _)
  | @item d f left c₁ c₂ goesOn next completed asked takes reacts =>
    exact (((h.takesPiece takes).setDecoder d).receive.reacts reacts).setDecoder _

theorem timesOut (h : Truthful c) (ht : TimesOut c c') : Truthful c' := by
  cases ht with
  | waited => exact h
  | gaveUp state sends closes =>
    have hready : Truthful (c.enter .ready) := h.still (.enter c (by decide))
    exact (hready.still (sends.still (by decide))).still closes.still
  | idle state sends => exact (h.still (sends.still (by decide))).still (.flag _)

end Truthful

theorem truthful_invariant :
    Invariant (fun (_ : Conversation D) _ ↦ True) (fun _ c ↦ Truthful c) where
  turn _ _ _ _ h ht := h.turn ht
  closes h hc := h.still hc.still
  handleClosed h := h.still (.note _ (by simp) (by simp) fun _ ↦ by simp)

end Conversation

namespace TcpSession

open Conversation

variable {D : Type} [DoubleOps D]

theorem Reached.truthful {config : SessionConfig} {env : Env} {s : TcpSession D}
    (h : Reached config env s) : ∃ p, At s.decoder p ∧ Truthful s.conversation := by
  have hidle : (start (D := D) config env).conversation.state ≠ .uploading := by
    simp [conversation, start]
  have hstart : Truthful (start (D := D) config env).conversation :=
    ⟨.of_idle rfl (by simp [conversation, start]) rfl, fun hup ↦ absurd hup hidle,
      fun hup ↦ absurd hup hidle, .nil⟩
  exact truthful_invariant.reached (fun h ht ↦ h.timesOut ht) (sits_start hstart) h

/-- **All but the last 16 MiB are acknowledged** during an upload. -/
theorem Reached.told {config : SessionConfig} {env : Env} {s : TcpSession D}
    (h : Reached config env s) (uploading : s.state = .uploading)
    (bound : s.upload.declared < 2 ^ 63) :
    (uploadPieces s.timeline).flatten.length ≤ s.upload.declared ∧
      ((uploadPieces s.timeline).flatten.length < kAckIntervalBytes ∨
        ∃ before payload after, s.timeline = before ++ .sent .uploadAck payload :: after ∧
          uploadPieces before <+: uploadPieces s.timeline ∧
          (uploadPieces s.timeline).flatten.length
            < (uploadPieces before).flatten.length + kAckIntervalBytes) := by
  have hidle : (start (D := D) config env).state ≠ .uploading := by simp [start]
  have hconsistent : Consistent [] (start (D := D) config env).conversation :=
    ⟨fun h ↦ absurd h (by simp [conversation, start]), fun h ↦ absurd h hidle,
      fun h ↦ absurd h hidle⟩
  obtain ⟨p, -, hend⟩ := consistent_invariant.reached (fun h ht ↦ h.timesOut ht)
    (sits_start hconsistent) h
  obtain ⟨_, -, htruth⟩ := h.truthful
  obtain ⟨hcounted, hsoon⟩ := hend.counted uploading bound
  have hfed : (uploadPieces s.timeline).flatten.length = s.upload.received := hcounted.fed
  have hwithin : s.upload.received ≤ s.upload.declared := hcounted.within
  have hle : s.upload.lastAckAt ≤ s.upload.received := hcounted.lastAckAt
  have hlt : s.upload.received - s.upload.lastAckAt < kAckIntervalBytes := hsoon
  refine ⟨hfed.trans_le hwithin, ?_⟩
  rcases htruth.told uploading with hzero | ⟨before, payload, after, htimeline, hinit, hcount⟩
  · have hzero : s.upload.lastAckAt = 0 := hzero
    exact .inl (by omega)
  -- `lastAckAt` has 64 bits, so it is at most the number of the bytes that were acknowledged
  · have hcount : s.upload.lastAckAt = (uploadPieces before).flatten.length % 2 ^ 64 := hcount
    have hmod := Nat.mod_le (uploadPieces before).flatten.length (2 ^ 64)
    exact .inr ⟨before, payload, after, htimeline, hinit, by omega⟩

end TcpSession

end LoggerAnalyzer
