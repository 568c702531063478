import LoggerAnalyzer.Session.Runs

/-!
# The analysis behind a result

During an upload the splitter, the aggregator and the line offset are where the pieces that went
through the splitter so far bring them, and a result that is at hand was made of all pieces of the
last upload. `Analysed` says this of a conversation, and `Reached.analysed` of every session
reached.

The pieces are read off the timeline. Nothing is said here about how they come about.
-/

namespace LoggerAnalyzer

open FrameDecoder LineSplitter

/-! ## Pieces -/

/-- The pieces that went through the splitter since the last upload began. -/
def uploadPieces (timeline : List Happening) : List Bytes :=
  timeline.foldl (fun pieces h ↦
    match h with
    | .entered .uploading => []
    | .fed piece => pieces ++ [piece]
    | _ => pieces) []

@[simp] theorem uploadPieces_fed (tl : List Happening) (piece : Bytes) :
    uploadPieces (tl ++ [.fed piece]) = uploadPieces tl ++ [piece] := by
  rw [uploadPieces, List.foldl_append]
  rfl

@[simp] theorem uploadPieces_uploading (tl : List Happening) :
    uploadPieces (tl ++ [.entered .uploading]) = [] := by
  rw [uploadPieces, List.foldl_append]
  rfl

/-- What else happens leaves the pieces as they are. -/
theorem uploadPieces_other (tl : List Happening) {h : Happening}
    (hfed : ∀ piece, h ≠ .fed piece) (huploading : h ≠ .entered .uploading) :
    uploadPieces (tl ++ [h]) = uploadPieces tl := by
  rw [uploadPieces, List.foldl_append]
  cases h with
  | fed piece => exact absurd rfl (hfed piece)
  | entered state =>
    cases state with
    | uploading => exact absurd rfl huploading
    | _ => rfl
  | _ => rfl

/-! ### The pieces that are fed -/

section Fed

variable (D : Type) [DoubleOps D]

private theorem fed_nil : fed D [] = (new kDefaultMaxLine, Aggregator.empty, 0) := rfl

private theorem fed_concat (frags : List Bytes) (piece : Bytes) :
    fed D (frags ++ [piece]) = LineSplitter.feed onLine piece (fed D frags) := by
  rw [fed, feeds, List.foldl_append]
  rfl

end Fed

namespace Conversation

variable {D : Type}

/-! ## What does not concern the analysis -/

/-- Nothing is analysed on the way from `c` to `c'`, and no upload begins. -/
structure Quiet (c c' : Conversation D) : Prop where
  upload : c'.upload = c.upload
  pieces : uploadPieces c'.timeline = uploadPieces c.timeline
  state : c'.state = .uploading → c.state = .uploading

namespace Quiet

theorem refl (c : Conversation D) : Quiet c c := ⟨rfl, rfl, id⟩

theorem trans {c c' c'' : Conversation D} (h : Quiet c c') (h' : Quiet c' c'') : Quiet c c'' :=
  ⟨h'.upload.trans h.upload, h'.pieces.trans h.pieces, h.state ∘ h'.state⟩

theorem note (c : Conversation D) {h : Happening} (hfed : ∀ piece, h ≠ .fed piece)
    (huploading : h ≠ .entered .uploading) : Quiet c (c.note h) :=
  ⟨rfl, uploadPieces_other _ hfed huploading, id⟩

theorem enter (c : Conversation D) {state : SessionState} (h : state ≠ .uploading) :
    Quiet c (c.enter state) :=
  ⟨rfl, uploadPieces_other _ (by simp) (by simpa using h), fun h' ↦ absurd h' h⟩

theorem flag (c : Conversation D) : Quiet c c.flag :=
  ⟨rfl, uploadPieces_other _ (by simp) (by simp), id⟩

theorem receive (c : Conversation D) : Quiet c c.receive := note c (by simp) (by simp)

end Quiet

theorem Closes.quiet {c c' : Conversation D} (h : Closes c c') : Quiet c c' := by
  cases h with
  | again => exact .refl c
  | handles => exact .enter c (by decide)
  | nothing => exact (Quiet.enter c (by decide)).trans (.note _ (by simp) (by simp))

theorem Sends.quiet {type : MsgType} {payload : Bytes} {c c' : Conversation D}
    (h : Sends type payload c c') : Quiet c c' := by
  cases h with
  | dropped => exact .refl c
  | accepted =>
    exact ⟨rfl, uploadPieces_other _ (h := .sent type payload) (by simp) (by simp), id⟩
  | refused _ _ closes => exact ⟨closes.quiet.upload, closes.quiet.pieces, closes.quiet.state⟩

/-- The session is ready or closing after it was made ready and something was sent. -/
theorem Sends.idle {type : MsgType} {payload : Bytes} {c c' : Conversation D}
    (h : Sends type payload (c.enter .ready) c') : c'.state ≠ .uploading := by
  intro hup
  have hready : SessionState.ready = .uploading := h.quiet.state hup
  exact absurd hready (by decide)

theorem SendsAll.quiet {ms : List (MsgType × Bytes)} {c c' : Conversation D}
    (h : SendsAll ms c c') : Quiet c c' := by
  induction h with
  | nil => exact .refl _
  | cons first _ ih => exact first.quiet.trans ih

variable [DoubleOps D]

/-! ## The invariant -/

/-- The upload is the analysis of its pieces. -/
structure Analysed (c : Conversation D) : Prop where
  maxLine : c.upload.splitter.maxLine = kDefaultMaxLine
  during : c.state = .uploading → (c.upload.splitter, c.upload.agg, c.upload.lineOffset)
    = fed D (uploadPieces c.timeline) ∧ c.upload.resultCsv = []
  result : c.upload.resultCsv ≠ [] → c.upload.agg = analyzed D (uploadPieces c.timeline) ∧
    ∃ utcNow ctx, c.upload.resultCsv = buildResultCsv utcNow c.upload.agg ctx

namespace Analysed

theorem quiet {c c' : Conversation D} (h : Analysed c) (hq : Quiet c c') : Analysed c' := by
  obtain ⟨hupload, hpieces, hstate⟩ := hq
  refine ⟨?_, fun hs ↦ ?_, fun hr ↦ ?_⟩
  · rw [hupload]
    exact h.maxLine
  · rw [hupload, hpieces]
    exact h.during (hstate hs)
  · rw [hupload] at hr ⊢
    rw [hpieces]
    exact h.result hr

/-- Where there is no result and no upload, only the limit of the splitter counts. -/
theorem of_idle {c : Conversation D} (maxLine : c.upload.splitter.maxLine = kDefaultMaxLine)
    (state : c.state ≠ .uploading) (hcsv : c.upload.resultCsv = []) : Analysed c :=
  ⟨maxLine, fun h ↦ absurd h state, fun h ↦ absurd hcsv h⟩

theorem take {c : Conversation D} (h : Analysed c) (state : c.state = .uploading) (piece : Bytes) :
    Analysed (c.take piece) := by
  obtain ⟨hfed, hcsv⟩ := h.during state
  have hpieces : uploadPieces (c.take piece).timeline = uploadPieces c.timeline ++ [piece] :=
    uploadPieces_fed _ _
  have hnext : ((c.take piece).upload.splitter, (c.take piece).upload.agg,
      (c.take piece).upload.lineOffset) = fed D (uploadPieces (c.take piece).timeline) := by
    rw [hpieces, fed_concat, ← hfed]
    rfl
  refine ⟨?_, fun _ ↦ ⟨hnext, hcsv⟩, fun hr ↦ absurd hcsv hr⟩
  rw [show (c.take piece).upload.splitter = (fed D (uploadPieces (c.take piece).timeline)).1 from
    congrArg Prod.fst hnext, fed_maxLine]

theorem takes {c c' : Conversation D} {piece : Bytes} (h : Analysed c) (ht : Takes piece c c') :
    Analysed c' := by
  cases ht with
  | ignored => exact h
  | overrun state beyond sends =>
    have hidle : Analysed ((c.setUpload (counted piece c.upload)).enter .ready) :=
      of_idle h.maxLine (by simp [Conversation.enter, Conversation.note]) (h.during state).2
    exact (hidle.quiet sends.quiet).quiet (.flag _)
  | fed state => exact h.take state piece
  | acknowledged state within sends =>
    have htake := h.take state piece
    have hacked : Analysed ((c.take piece).setUpload (acked (c.take piece).upload)) :=
      ⟨htake.maxLine, htake.during, htake.result⟩
    exact hacked.quiet sends.quiet

theorem takesPiece {c c' : Conversation D} {piece : Option Bytes} (h : Analysed c)
    (ht : TakesPiece piece c c') : Analysed c' := by
  cases ht with
  | none => exact h
  | some takes => exact h.takes takes

/-- An upload begins. -/
theorem began {c : Conversation D} (h : Analysed c) (id : UInt32) (total : ℕ) (name : Bytes)
    (startNs : ℕ) :
    Analysed ((c.setUpload (freshUpload id total name startNs c.upload)).enter .uploading) := by
  refine ⟨h.maxLine, fun _ ↦ ⟨?_, rfl⟩, fun hr ↦ absurd rfl hr⟩
  have hpieces : uploadPieces ((c.setUpload (freshUpload id total name startNs c.upload)).enter
      .uploading).timeline = [] := uploadPieces_uploading _
  have hreset : c.upload.splitter.reset = new kDefaultMaxLine := by
    rw [new, ← h.maxLine]
    rfl
  rw [hpieces, fed_nil, ← hreset]
  rfl

/-- An upload is complete. -/
theorem finished {c : Conversation D} (h : Analysed c) (state : c.state = .uploading)
    (utcNow : Bytes) (elapsedMs rss : ℕ) {c' : Conversation D}
    (hq : Quiet (c.setUpload (c.upload.finish.build utcNow elapsedMs rss)) c') :
    Analysed (c'.enter .ready) := by
  obtain ⟨hfed, -⟩ := h.during state
  have hupload : (c'.enter .ready).upload = c.upload.finish.build utcNow elapsedMs rss := hq.upload
  have hpieces : uploadPieces (c'.enter .ready).timeline = uploadPieces c.timeline :=
    (Quiet.enter c' (by decide)).pieces.trans hq.pieces
  have hagg : (c.upload.finish.build utcNow elapsedMs rss).agg
      = analyzed D (uploadPieces c.timeline) := by
    rw [analyzed, ← hfed]
    rfl
  refine ⟨?_, fun hs ↦ absurd hs (by simp [Conversation.enter, Conversation.note]), fun _ ↦ ?_⟩
  · rw [hupload]
    exact (finish_maxLine onLine _ _).trans h.maxLine
  · rw [hupload, hpieces]
    exact ⟨hagg, utcNow, _, rfl⟩

theorem reacts {c c' : Conversation D} {goesOn : Bool} (h : Analysed c)
    (hr : Reacts c c' goesOn) : Analysed c' := by
  cases hr with
  | refused why sends => exact (h.quiet sends.quiet).quiet (.flag _)
  | greeted state type fields sends =>
    exact (h.quiet (.enter c (by decide))).quiet sends.quiet
  | scolded state why sends => exact h.quiet sends.quiet
  | goodbye state type closes => exact h.quiet closes.quiet
  | nothing => exact h
  | began state type fields pos sends => exact (h.began _ _ _ _).quiet sends.quiet
  | chunk => exact h
  | aborted state why sends =>
    exact ((h.quiet (.enter c (by decide))).quiet sends.quiet).quiet (.flag _)
  | @cancelled c₁ message state type sends =>
    have hready := (h.quiet (.enter c (by decide))).quiet sends.quiet
    refine of_idle (c := c₁.setUpload c₁.upload.clear) hready.maxLine (fun hs ↦ ?_) rfl
    exact absurd (sends.quiet.state hs) (by simp [Conversation.enter, Conversation.note])
  | finished state type fields complete sends => exact h.finished state _ _ _ sends.quiet
  | closing => exact h

theorem turn {c c' : Conversation D} {p data p' : Bytes} {left : Option Bytes} (h : Analysed c)
    (ht : Turn p data c left p' c') : Analysed c' := by
  cases ht with
  | more next holds asked takes =>
    obtain ⟨hmax, hduring, hresult⟩ := h.takesPiece takes
    exact ⟨hmax, hduring, hresult⟩
  | @fail d e c₁ next holds error sends =>
    have hdecoder : Analysed { c with decoder := d } := ⟨h.maxLine, h.during, h.result⟩
    exact (hdecoder.quiet sends.quiet).quiet (.flag _)
  | @item d f left c₁ c₂ goesOn next completed asked takes reacts =>
    obtain ⟨hmax, hduring, hresult⟩ := h.takesPiece takes
    have hdecoder : Analysed { c₁ with decoder := d } := ⟨hmax, hduring, hresult⟩
    obtain ⟨hmax', hduring', hresult'⟩ := (hdecoder.quiet (.receive _)).reacts reacts
    exact ⟨hmax', hduring', hresult'⟩

theorem timesOut {c c' : Conversation D} (h : Analysed c) (ht : TimesOut c c') : Analysed c' := by
  cases ht with
  | waited => exact h
  | gaveUp state sends closes =>
    exact ((h.quiet (.enter c (by decide))).quiet sends.quiet).quiet closes.quiet
  | idle state sends => exact (h.quiet sends.quiet).quiet (.flag _)

end Analysed

theorem analysed_invariant :
    Invariant (fun (_ : Conversation D) _ ↦ True) (fun _ c ↦ Analysed c) where
  turn _ _ _ _ h ht := h.turn ht
  closes h hc := h.quiet hc.quiet
  handleClosed h := h.quiet (.note _ (by simp) (by simp))

end Conversation

namespace TcpSession

open Conversation

variable {D : Type} [DoubleOps D]

/-- The conversation of a session that was started. -/
theorem sits_start {P : Bytes → Conversation D → Prop} {config : SessionConfig} {env : Env}
    (h : P [] (start (D := D) config env).conversation) :
    Sits P (start (D := D) config env).conversation := ⟨[], at_new, h⟩

/-- **The upload is the analysis of its pieces** in every session reached. -/
theorem Reached.analysed {config : SessionConfig} {env : Env} {s : TcpSession D}
    (h : Reached config env s) : Analysed s.conversation := by
  have hstart : Analysed (start (D := D) config env).conversation :=
    .of_idle rfl (by simp [conversation, start]) rfl
  obtain ⟨_, -, h⟩ := analysed_invariant.reached (fun h ht ↦ h.timesOut ht)
    (sits_start hstart) h
  exact h

end TcpSession

end LoggerAnalyzer
