import LoggerAnalyzer.Session.Earned

/-!
# The result that was sent last

A session holds a result until the next upload begins or is cancelled, and it has sent this result
when it came by it. So if it holds one, the last ANALYZE_DONE that it sent is followed by the frames
of the result that it holds.
-/

namespace LoggerAnalyzer

open FrameDecoder

namespace Conversation

variable {D : Type}

/-- The result that the session holds is the one that it sent last. -/
structure Latest (c : Conversation D) : Prop where
  writable : c.Writable
  result : c.upload.resultCsv ≠ [] → ∃ before payload after, sentFrames c.timeline
      = before ++ (.analyzeDone, payload) :: (resultFrames c.upload.resultCsv ++ after) ∧
    ∀ f ∈ after, f.1 ≠ MsgType.analyzeDone

namespace Latest

variable {c c' : Conversation D}

theorem of_nil (writable : c.Writable) (hnone : c.upload.resultCsv = []) : Latest c :=
  ⟨writable, fun hcsv ↦ absurd hnone hcsv⟩

/-- Other frames are sent, and the result stays. -/
theorem plain (h : Latest c) (happends : Appends Happening.Plain c c')
    (hcsv : c'.upload.resultCsv = c.upload.resultCsv) : Latest c' := by
  refine ⟨happends.writable h.writable, fun hne ↦ ?_⟩
  obtain ⟨hs, htimeline, hplain⟩ := happends.timeline
  rw [hcsv] at hne
  obtain ⟨before, payload, after, hsent, hafter⟩ := h.result hne
  refine ⟨before, payload, after ++ sentFrames hs, ?_, ?_⟩
  · rw [htimeline, sentFrames_append, hsent, hcsv]
    simp
  · refine List.forall_mem_append.mpr ⟨hafter, fun f hf htype ↦ ?_⟩
    obtain ⟨type, payload'⟩ := f
    obtain rfl : type = .analyzeDone := htype
    exact hplain _ (mem_sentFrames.mp hf) payload' rfl

theorem setDecoder (h : Latest c) (d : FrameDecoder) : Latest { c with decoder := d } :=
  h.plain (.of_eq rfl rfl) rfl

theorem enter (h : Latest c) (state : SessionState) : Latest (c.enter state) :=
  h.plain (.enter c (Happening.aside_entered state).plain) rfl

theorem flag (h : Latest c) : Latest c.flag := h.plain (.flag c fun _ ↦ by simp) rfl

theorem sends (h : Latest c) {type : MsgType} {payload : Bytes} (hsends : Sends type payload c c')
    (htype : type ≠ .analyzeDone) : Latest c' :=
  h.plain (hsends.plain htype) (congrArg (·.resultCsv) hsends.kept.upload)

theorem closes (h : Latest c) (hcloses : Closes c c') : Latest c' :=
  h.plain hcloses.plain (congrArg (·.resultCsv) hcloses.kept.upload)

variable [DoubleOps D]

theorem takesPiece (h : Latest c) {piece : Option Bytes} (ht : TakesPiece piece c c') :
    Latest c' := by
  refine h.plain ht.plain ?_
  cases ht with
  | none => rfl
  | some takes =>
    cases takes with
    | ignored => rfl
    | overrun _ _ sends => exact congrArg (·.resultCsv) sends.kept.upload
    | fed => rfl
    | acknowledged _ _ sends => exact congrArg (·.resultCsv) sends.kept.upload

/-- A result is made, and it is sent. -/
theorem finished (h : Latest c) {u : UploadState D} {elapsedMs rss : ℕ}
    (opened : c.state ≠ .closing)
    (sends : SendsAll ((.analyzeDone, u.donePayload elapsedMs rss) :: resultFrames u.resultCsv)
      (c.setUpload u) c') : Latest c' := by
  obtain ⟨uvWrite, rfl, hwritable⟩ := sends.of_writable opened h.writable
  refine ⟨hwritable, fun _ ↦ ⟨sentFrames c.timeline, u.donePayload elapsedMs rss, [], ?_, ?_⟩⟩
  · have hall : ∀ ms : List (MsgType × Bytes),
        sentFrames (ms.map fun m ↦ Happening.sent m.1 m.2) = ms := fun ms ↦ by
      rw [sentFrames, List.filterMap_map]
      exact List.filterMap_some
    rw [sentFrames_append, List.append_nil]
    exact congrArg (sentFrames c.timeline ++ ·) (hall _)
  · exact fun f hf ↦ absurd hf List.not_mem_nil

theorem reacts {goesOn : Bool} (h : Latest c) (hr : Reacts c c' goesOn) : Latest c' := by
  cases hr with
  | refused why sends => exact (h.sends sends (by decide)).flag
  | greeted state type fields sends => exact (h.enter .ready).sends sends (by decide)
  | scolded state why sends => exact h.sends sends (by decide)
  | goodbye state type closes => exact h.closes closes
  | nothing => exact h
  | @began _ total name id startNs payload state type fields pos sends =>
    have hbegun : Latest (c.setUpload (freshUpload id total name startNs c.upload)) :=
      .of_nil h.writable rfl
    exact (hbegun.enter .uploading).sends sends (by decide)
  | chunk => exact h
  | aborted state why sends => exact ((h.enter .ready).sends sends (by decide)).flag
  | cancelled state type sends =>
    exact .of_nil ((h.enter .ready).sends sends (by decide)).writable rfl
  | finished state type fields complete sends =>
    exact (h.finished (by rw [state]; decide) sends).enter .ready
  | closing => exact h

theorem turn {p data p' : Bytes} {left : Option Bytes} (h : Latest c)
    (ht : Turn p data c left p' c') : Latest c' := by
  cases ht with
  | more next holds asked takes => exact (h.takesPiece takes).setDecoder _
  | fail next holds error sends => exact ((h.setDecoder _).sends sends (by decide)).flag
  | @item d f left c₁ c₂ goesOn next completed asked takes reacts =>
    have hreceived : Latest ({ c₁ with decoder := d }.receive) :=
      ((h.takesPiece takes).setDecoder d).plain (.note _ fun _ ↦ by simp) rfl
    exact (hreceived.reacts reacts).setDecoder _

omit [DoubleOps D] in
theorem timesOut (h : Latest c) (ht : TimesOut c c') : Latest c' := by
  cases ht with
  | waited => exact h
  | gaveUp state sends closes => exact ((h.enter .ready).sends sends (by decide)).closes closes
  | idle state sends => exact (h.sends sends (by decide)).flag

end Latest

theorem latest_invariant [DoubleOps D] :
    Invariant (fun _ _ ↦ True) (fun _ (c : Conversation D) ↦ Latest c) where
  turn _ _ _ _ h ht := h.turn ht
  closes h hc := h.closes hc
  handleClosed h := h.plain (.note _ Happening.aside_sessionClosed.plain) rfl

end Conversation

namespace TcpSession

open Conversation

variable {D : Type} [DoubleOps D]

/-- **The result that a session holds is the one that it sent last.** -/
theorem Reached.latest {config : SessionConfig} {env : Env}
    (henv : ∀ n, env.uvWrite.get n = true) {s : TcpSession D} (h : Reached config env s) :
    Latest s.conversation := by
  have hstart : Latest (start (D := D) config env).conversation := .of_nil henv rfl
  obtain ⟨_, -, hlatest⟩ := latest_invariant.reached (fun h ht ↦ h.timesOut ht)
    (sits_start hstart) h
  exact hlatest

end TcpSession

end LoggerAnalyzer
