import LoggerAnalyzer.Client.Recorded
import Mathlib.Algebra.GroupWithZero.Nat

/-!
# The frames on a connection that is kept

The C++ client keeps a connection when an upload ends, unless it fails. The server must then stand
between two frames, so that it understands what comes next. The flag is looked at before each call
of `send`, so a chunk that the socket takes in pieces can be left unfinished, and the client goes on
with a CANCEL all the same. `inStep_iff` says when this happens: exactly if, of what the outside
answered, the flag was seen or a call failed while the socket had taken only a part of a frame.
-/

namespace LoggerAnalyzer

open Program Incremental

variable {σ κ : Type}

/-! ## Lengths of frames -/

/-- A stream has its frames and what is left. -/
theorem length_parseFrames (bs : Bytes) :
    bs.length = ((parseFrames bs).items.map fun f ↦ kHeaderSize + f.payload.length).sum
      + (parseFrames bs).left.length := by
  induction bs using Parser.parse_induction frameParser with
  | more bs h => rw [parseFrames_more h, List.map_nil, List.sum_nil, Nat.zero_add]
  | fail bs e h => rw [parseFrames_fail h, List.map_nil, List.sum_nil, Nat.zero_add]
  | item bs f left h ih =>
    obtain ⟨raw, rfl, hlen, -, hpayload, -⟩ := nextFrame_item h
    have hraw : raw.length = kHeaderSize + f.payload.length := by
      rw [hpayload, List.length_drop, hlen, Nat.add_sub_cancel_left]
    rw [parseFrames_item h, List.map_cons, List.sum_cons, List.length_append, hraw, ih]
    exact (Nat.add_assoc _ _ _).symm

private theorem length_wire (frames : List (MsgType × Bytes)) :
    (wire frames).length = (frames.map fun f ↦ kHeaderSize + f.2.length).sum := by
  rw [wire, List.length_flatMap]
  simp

theorem encodeHeader_ne_nil (h : FrameHeader) : encodeHeader h ≠ [] :=
  List.ne_nil_of_length_pos (by rw [length_encodeHeader]; decide)

private theorem serializeFrame_ne_nil (type : MsgType) (payload : Bytes) :
    serializeFrame type payload ≠ [] := fun h ↦
  encodeHeader_ne_nil _ (List.append_eq_nil_iff.mp h).1

/-! ## A connection between two frames -/

namespace Endpoint

/-- The server, given the bytes in whatever pieces, has taken the frames that were sent one by one,
and stands between two frames. -/
structure InStep (e : Endpoint σ κ) : Prop where
  failure : (parseFrames e.written).failure = none
  left : (parseFrames e.written).left = []
  frames : ((parseFrames e.written).items.map fun f ↦ (f.header.type, f.payload)) = e.sent

theorem InStep.length {e : Endpoint σ κ} (h : InStep e) :
    e.written.length = (wire e.sent).length := by
  rw [length_parseFrames, h.left, length_wire, ← h.frames, List.map_map]
  rfl

/-- A frame was sent to its end. -/
theorem InStep.complete {e : Endpoint σ κ} (h : InStep e) {type : MsgType} {payload : Bytes}
    (hlen : payload.length ≤ kMaxPayload) :
    InStep ((e.wrote (serializeFrame type payload)).complete type payload) := by
  have hone := parseFrames_flatMap_serializeFrame [(type, payload)] (by simpa using hlen)
  rw [List.flatMap_singleton] at hone
  have hall := parseFrames_append h.failure (serializeFrame type payload)
  rw [h.left, List.nil_append, hone] at hall
  refine ⟨?_, ?_, ?_⟩
  · exact congrArg (·.failure) hall
  · exact congrArg (·.left) hall
  · show ((parseFrames (e.written ++ _)).items.map _) = e.sent ++ _
    rw [hall, List.map_append, h.frames]
    rfl

private theorem inStep_recording_iff {e : Endpoint σ κ} {answers : List Answer} :
    InStep (e.recording answers) ↔ InStep e :=
  ⟨fun ⟨failure, left, frames⟩ ↦ ⟨failure, left, frames⟩,
    fun ⟨failure, left, frames⟩ ↦ ⟨failure, left, frames⟩⟩

section Accounts

variable {e e' e'' : Endpoint (σ × List Answer) κ}

/-- What has become of the frames that were sent. -/
def standing (e : Endpoint (σ × List Answer) κ) : Standing :=
  e.outside.2.foldl Standing.after .whole

theorem standing_concat {answer : Answer} (h : e'.outside.2 = e.outside.2 ++ [answer]) :
    e'.standing = e.standing.after answer := by
  rw [standing, h, List.foldl_append]
  rfl

/-- Every frame was taken to its end or has not begun, or there are bytes of one that was not. -/
def Accounted (e : Endpoint (σ × List Answer) κ) : Prop :=
  e.standing = .whole ∧ InStep e ∨ e.standing = .broken ∧ (wire e.sent).length < e.written.length

/-- More was written, and no frame was sent to its end. -/
structure Wrote (part : Bytes) (e e' : Endpoint (σ × List Answer) κ) : Prop where
  written : e'.written = e.written ++ part
  sent : e'.sent = e.sent

theorem Wrote.refl (e : Endpoint (σ × List Answer) κ) : Wrote [] e e :=
  ⟨(List.append_nil _).symm, rfl⟩

theorem Wrote.trans {part part' : Bytes} (h : Wrote part e e') (h' : Wrote part' e' e'') :
    Wrote (part ++ part') e e'' where
  written := by rw [h'.written, h.written, List.append_assoc]
  sent := h'.sent.trans h.sent

theorem Wrote.length {part : Bytes} (h : Wrote part e e') :
    e'.written.length = e.written.length + part.length := by
  rw [h.written, List.length_append]

namespace Accounted

theorem congr (h : Accounted e) (standing : e'.standing = e.standing)
    (written : e'.written = e.written) (sent : e'.sent = e.sent) : Accounted e' := by
  rw [Accounted, standing, written, sent]
  refine h.imp_left fun ⟨hwhole, failure, left, frames⟩ ↦ ⟨hwhole, ?_, ?_, ?_⟩
  · rwa [written]
  · rwa [written]
  · rwa [written, sent]

/-- A frame is given up, and nothing or something of it was written. -/
theorem giveUp (h : Accounted e) {part : Bytes} (hw : Wrote part e e')
    (hstanding : e'.standing = e.standing.givenUp part) : Accounted e' := by
  have hlength := hw.length
  rcases h with ⟨hwhole, hstep⟩ | ⟨hbroken, hlt⟩
  · rw [hwhole, Standing.givenUp] at hstanding
    have haccounted : Accounted e := .inl ⟨hwhole, hstep⟩
    by_cases hpart : part = []
    · have hwritten := hw.written
      rw [hpart, List.append_nil] at hwritten
      rw [if_pos hpart] at hstanding
      exact haccounted.congr (hstanding.trans hwhole.symm) hwritten hw.sent
    · rw [if_neg hpart] at hstanding
      have hpos : 0 < part.length := List.length_pos_iff.mpr hpart
      have hall := hstep.length
      refine .inr ⟨hstanding, ?_⟩
      rw [hw.sent]
      omega
  · refine .inr ⟨by rw [hstanding, hbroken]; rfl, ?_⟩
    rw [hw.sent]
    omega

/-- A frame is sent to its end. -/
theorem complete (h : Accounted e) {type : MsgType} {payload : Bytes}
    (hlen : payload.length ≤ kMaxPayload) (hw : Wrote (serializeFrame type payload) e e')
    (hstanding : e'.standing = e.standing.finished) : Accounted (e'.complete type payload) := by
  have hlength := hw.length
  rcases h with ⟨hwhole, hstep⟩ | ⟨hbroken, hlt⟩
  · rw [hwhole] at hstanding
    have hdone : InStep ((e.wrote (serializeFrame type payload)).complete type payload) :=
      hstep.complete hlen
    refine .inl ⟨hstanding, ?_, ?_, ?_⟩
    · exact (congrArg (fun bs ↦ (parseFrames bs).failure) hw.written).trans hdone.failure
    · exact (congrArg (fun bs ↦ (parseFrames bs).left) hw.written).trans hdone.left
    · show ((parseFrames e'.written).items.map _) = e'.sent ++ _
      rw [hw.written, hw.sent]
      exact hdone.frames
  · refine .inr ⟨?_, ?_⟩
    · exact hstanding.trans (congrArg Standing.finished hbroken)
    · show (wire (e'.sent ++ [(type, payload)])).length < e'.written.length
      have hwire : (wire (e.sent ++ [(type, payload)])).length
          = (wire e.sent).length + (serializeFrame type payload).length := by
        rw [wire, List.flatMap_append, List.length_append, List.flatMap_singleton, wire]
      rw [hw.sent, hwire]
      omega

end Accounted

end Accounts

end Endpoint

open Endpoint

/-! ## Calls -/

section Calls

variable (link : Link σ) (heeds : Bool)

theorem yields_load_recorded (e : Endpoint (σ × List Answer) κ)
    {E : Failure → Endpoint (σ × List Answer) κ → Prop} :
    Yields (Act.load link.recorded) e
      (fun seen e' ↦ Wrote [] e e' ∧ e'.standing = e.standing.after (.flag seen)) E := by
  refine Yields.bind (Q := fun seen e' ↦ Wrote [] e e' ∧
    e'.standing = e.standing.after (.flag seen)) ?_ ?_
  · exact ⟨⟨(List.append_nil _).symm, rfl⟩, standing_concat rfl⟩
  · rintro seen e' ⟨hw, hstanding⟩
    cases seen with
    | false => exact ⟨hw, hstanding⟩
    | true => exact ⟨⟨hw.written, hw.sent⟩, hstanding⟩

theorem yields_check_recorded (e : Endpoint (σ × List Answer) κ) :
    Yields (Act.check link.recorded heeds) e
      (fun _ e' ↦ Wrote [] e e' ∧ e'.standing = e.standing)
      fun _ e' ↦ Wrote [] e e' ∧ e'.standing = e.standing.givenUp [] := by
  refine Yields.ite (fun _ ↦ ?_) fun _ ↦ .pure ⟨.refl e, rfl⟩
  refine Yields.bind (yields_load_recorded link e) ?_
  rintro seen e' ⟨hw, hstanding⟩
  cases seen with
  | false => exact .pure ⟨hw, hstanding.trans (Standing.after_unseen _)⟩
  | true => exact .throw ⟨hw, hstanding.trans (Standing.after_seen _)⟩

theorem yields_pause_recorded (e : Endpoint (σ × List Answer) κ) :
    Yields (Act.pause link.recorded heeds) e
      (fun _ e' ↦ Wrote [] e e' ∧ e'.standing = e.standing)
      fun _ e' ↦ Wrote [] e e' ∧ e'.standing = e.standing.givenUp [] := by
  have hrounds : ∀ (n : ℕ) (e : Endpoint (σ × List Answer) κ),
      Yields (Act.rounds link.recorded heeds n) e
        (fun _ e' ↦ Wrote [] e e' ∧ e'.standing = e.standing)
        fun _ e' ↦ Wrote [] e e' ∧ e'.standing = e.standing.givenUp [] := by
    intro n
    induction n with
    | zero => exact yields_check_recorded link heeds
    | succ n ih =>
      intro e
      refine Yields.bind (yields_check_recorded link heeds e) ?_
      rintro _ e₁ ⟨hw, hstanding⟩
      refine (ih e₁).mono ?_ ?_
      · rintro _ e₂ ⟨hw', hstanding'⟩
        exact ⟨hw.trans hw', hstanding'.trans hstanding⟩
      · rintro _ e₂ ⟨hw', hstanding'⟩
        exact ⟨hw.trans hw', hstanding'.trans (congrArg _ hstanding)⟩
  refine Yields.bind (Q := fun _ e' ↦ Wrote [] e e' ∧ e'.standing = e.standing)
    ⟨⟨(List.append_nil _).symm, rfl⟩, rfl⟩ ?_
  rintro n e₁ ⟨hw, hstanding⟩
  refine (hrounds n e₁).mono ?_ ?_
  · rintro _ e₂ ⟨hw', hstanding'⟩
    exact ⟨hw.trans hw', hstanding'.trans hstanding⟩
  · rintro _ e₂ ⟨hw', hstanding'⟩
    exact ⟨hw.trans hw', hstanding'.trans (congrArg _ hstanding)⟩

omit link heeds in
private theorem sendLoop_nil (link : Link σ) (heeds : Bool) (stallMs fuel : ℕ) :
    (Act.sendLoop link heeds stallMs fuel [] : Act σ κ Unit) = pure () := by
  cases fuel <;> rfl

/-- The rest of a frame is taken, or it is given up. -/
theorem yields_sendLoop_recorded (stallMs : ℕ) {fuel : ℕ} {data : Bytes}
    (hfuel : data.length ≤ fuel) (hdata : data ≠ []) (e : Endpoint (σ × List Answer) κ) :
    Yields (Act.sendLoop link.recorded heeds stallMs fuel data) e
      (fun _ e' ↦ Wrote data e e' ∧ e'.standing = e.standing.finished)
      fun _ e' ↦ ∃ part, Wrote part e e' ∧ e'.standing = e.standing.givenUp part := by
  induction fuel generalizing data e with
  | zero => exact absurd (List.length_eq_zero_iff.mp (Nat.le_zero.mp hfuel)) hdata
  | succ fuel ih =>
    rw [Act.sendLoop, if_neg hdata]
    refine Yields.bind ((yields_pause_recorded link heeds e).mono (fun _ _ h ↦ h) fun _ _ h ↦
      ⟨[], h⟩) ?_
    rintro _ e₁ ⟨hw₁, hstanding₁⟩
    refine Yields.bind (Q := fun answer e₂ ↦ Wrote [] e₁ e₂ ∧
      e₂.standing = e₁.standing.after (answer.toAnswer data))
      ⟨⟨(List.append_nil _).symm, rfl⟩, standing_concat rfl⟩ ?_
    rintro answer e₂ ⟨hw₂, hstanding₂⟩
    rw [hstanding₁] at hstanding₂
    have hw := hw₁.trans hw₂
    cases answer with
    | stalled => exact .throw ⟨[], hw, hstanding₂.trans (Standing.after_refused _)⟩
    | failed why => exact .throw ⟨[], hw, hstanding₂.trans (Standing.after_refused _)⟩
    | took more =>
      refine Yields.bind (Yields.modify rfl : Yields _ _ (fun _ e' ↦ e' = _) _) ?_
      rintro _ _ rfl
      have hw₃ : Wrote (data.take (more + 1)) e (e₂.wrote (data.take (more + 1))) :=
        hw.trans ⟨rfl, rfl⟩
      have hstanding₃ : (e₂.wrote (data.take (more + 1))).standing
          = e.standing.after (.took (decide (data.length ≤ more + 1))) := hstanding₂
      by_cases hall : data.length ≤ more + 1
      -- The socket takes all that is left.
      · rw [decide_eq_true hall, Standing.after_took_all] at hstanding₃
        rw [List.take_of_length_le hall] at hw₃ hstanding₃ ⊢
        rw [List.drop_eq_nil_of_le hall, sendLoop_nil]
        exact .pure ⟨hw₃, hstanding₃⟩
      -- A part is left, and it is not the first.
      · have hpiece : data.take (more + 1) ≠ [] := fun h ↦
          (List.take_eq_nil_iff.mp h).elim (Nat.succ_ne_zero more) hdata
        have hlen : (data.drop (more + 1)).length ≤ fuel := by
          rw [List.length_drop]
          omega
        have hrest : data.drop (more + 1) ≠ [] := fun h ↦ hall (List.drop_eq_nil_iff.mp h)
        rw [decide_eq_false hall] at hstanding₃
        refine (ih hlen hrest (e₂.wrote (data.take (more + 1)))).mono ?_ ?_
        · rintro _ e' ⟨hw', hstanding'⟩
          rw [hstanding₃, Standing.finished_after_took] at hstanding'
          have hwhole := hw₃.trans hw'
          rw [List.take_append_drop] at hwhole
          exact ⟨hwhole, hstanding'⟩
        · rintro _ e' ⟨part, hw', hstanding'⟩
          rw [hstanding₃, Standing.givenUp_after_took _ _ hpiece] at hstanding'
          exact ⟨_, hw₃.trans hw', hstanding'⟩

theorem yields_sendAll_recorded (stallMs : ℕ) {data : Bytes} (hdata : data ≠ [])
    (e : Endpoint (σ × List Answer) κ) :
    Yields (Act.sendAll link.recorded heeds stallMs data) e
      (fun _ e' ↦ Wrote data e e' ∧ e'.standing = e.standing.finished)
      fun _ e' ↦ ∃ part, Wrote part e e' ∧ e'.standing = e.standing.givenUp part :=
  yields_sendLoop_recorded link heeds stallMs (Nat.le_refl _) hdata e

end Calls

/-! ## What keeps the account -/

section Lasting

variable (link : Link σ) (heeds : Bool)

theorem accounted_ask {α : Type} {f : σ × List Answer → α × (σ × List Answer)}
    (hf : ∀ s, (f s).2.2 = s.2) : Preserves (Accounted (κ := κ)) (Act.ask f) :=
  .modifyGet fun e he ↦ he.congr (congrArg (·.foldl Standing.after .whole) (hf e.outside)) rfl rfl

theorem accounted_mark (site : Site) :
    Preserves (Accounted (σ := σ) (κ := κ)) (Act.mark site) :=
  .modify fun _ he ↦ he.congr rfl rfl rfl

theorem accounted_keep (f : κ → κ) : Preserves (Accounted (σ := σ)) (Act.keep f) :=
  .modify fun _ he ↦ he.congr rfl rfl rfl

/-- The flag is looked at between two frames, or where it makes no difference any more. -/
theorem accounted_load : Preserves (Accounted (κ := κ)) (Act.load link.recorded) := by
  intro e he
  refine (yields_load_recorded link e).mono ?_ fun _ _ h ↦ h
  rintro seen e' ⟨hw, hstanding⟩
  refine he.congr ?_ (hw.written.trans (List.append_nil _)) hw.sent
  rw [hstanding]
  rcases he with ⟨hwhole, -⟩ | ⟨hbroken, -⟩
  · rw [hwhole]
    rfl
  · rw [hbroken]
    rfl

theorem accounted_pause : Preserves (Accounted (κ := κ)) (Act.pause link.recorded heeds) := by
  intro e he
  refine (yields_pause_recorded link heeds e).mono ?_ ?_
  · rintro _ e' ⟨hw, hstanding⟩
    exact he.congr hstanding (hw.written.trans (List.append_nil _)) hw.sent
  · rintro _ e' ⟨hw, hstanding⟩
    exact he.giveUp hw hstanding

theorem accounted_recvLoop (idleMs len fuel : ℕ) (got : Bytes) :
    Preserves (Accounted (κ := κ)) (Act.recvLoop link.recorded heeds idleMs len fuel got) := by
  induction fuel generalizing got with
  | zero => exact .pure _
  | succ fuel ih =>
    rw [Act.recvLoop]
    refine .ite (fun _ ↦ .pure _) fun _ ↦ .bind (accounted_pause link heeds) fun _ ↦
      .bind (accounted_ask fun _ ↦ rfl) ?_
    rintro (⟨first, more⟩ | _ | _ | why)
    · exact ih _
    · exact .throw _
    · exact .throw _
    · exact .throw _

theorem accounted_readFrameWith (refuse : FrameHeader → Option Failure) (idleMs idleMs' : ℕ) :
    Preserves (Accounted (κ := κ)) (Act.readFrameWith refuse
      (Act.recvExactly link.recorded heeds idleMs)
      (Act.recvExactly link.recorded heeds idleMs')) := by
  refine .bind (accounted_recvLoop link heeds idleMs kHeaderSize _ []) ?_
  intro head
  dsimp only
  cases refuse (decodeHeader head) with
  | some e => exact .throw _
  | none => exact .bind (accounted_recvLoop link heeds idleMs' _ _ []) fun _ ↦ .pure _

end Lasting

namespace TransferClient

variable (link : Link σ)

/-- A frame is sent, in two calls if it has a payload. If it is given up, the upload fails. -/
theorem accounted_sendFrame {type : MsgType} {payload : Bytes} (hlen : payload.length ≤ kMaxPayload)
    {e : Endpoint (σ × List Answer) TransferClient} (he : Accounted e) :
    Yields (sendFrame link.recorded type payload) e (fun _ ↦ Accounted) fun _ _ ↦ True := by
  rw [sendFrame]
  refine Yields.bind ((yields_sendAll_recorded link true _ (encodeHeader_ne_nil _) e).mono
    (fun _ _ h ↦ h) fun _ _ _ ↦ trivial) ?_
  rintro _ e₁ ⟨hhead, hstanding₁⟩
  dsimp only
  refine Yields.ite (fun hne ↦ ?_) fun hnil ↦ ?_
  · refine Yields.bind ((yields_sendAll_recorded link true _ hne e₁).mono
      (fun _ _ h ↦ h) fun _ _ _ ↦ trivial) ?_
    rintro _ e₂ ⟨hw, hstanding₂⟩
    rw [hstanding₁, Standing.finished_finished] at hstanding₂
    exact he.complete hlen (hhead.trans hw) hstanding₂
  · have hempty : payload = [] := not_not.mp hnil
    subst hempty
    refine he.complete hlen ?_ hstanding₁
    rwa [serializeFrame, List.append_nil]

theorem accounted_sendEmptyFrameNeverCancel (type : MsgType) :
    Preserves Accounted (sendEmptyFrameNeverCancel link.recorded type) := by
  intro e he
  refine Yields.bind ((yields_sendAll_recorded link false _ (encodeHeader_ne_nil _) e).mono
    (fun _ _ h ↦ h) ?_) ?_
  · rintro _ e' ⟨part, hw, hstanding⟩
    exact he.giveUp hw hstanding
  · rintro _ e₁ ⟨hw, hstanding⟩
    refine he.complete (Nat.zero_le _) ?_ hstanding
    rwa [serializeFrame, List.append_nil]

/-! ## Cancelling -/

theorem accounted_sendCancelAndWait (fuel : ℕ) :
    Preserves Accounted (sendCancelAndWait link.recorded fuel) := by
  have hawait : ∀ deadline, Preserves Accounted (awaitCancelAck link.recorded deadline fuel) := by
    intro deadline
    induction fuel with
    | zero => exact .throw _
    | succ fuel ih =>
      refine .bind (accounted_ask fun _ ↦ rfl) fun now ↦ .ite (fun _ ↦ ?_) fun _ ↦ .pure _
      refine .bind (accounted_ask fun _ ↦ rfl) fun left ↦
        .bind (accounted_readFrameWith link false _ _ _) fun f ↦ ?_
      exact .ite (fun _ ↦ .pure _) fun _ ↦ ih
  refine .tryCatch (.bind (accounted_sendEmptyFrameNeverCancel link .cancel) fun _ ↦
    .bind (accounted_ask fun _ ↦ rfl) fun now ↦ hawait _) fun e ↦ ?_
  exact .ite (fun _ ↦ .throw _) fun _ ↦ .pure _

theorem accounted_cancelUpload (fuel : ℕ) :
    Preserves Accounted (cancelUpload link.recorded fuel) :=
  .bind (accounted_sendCancelAndWait link fuel) fun _ ↦ accounted_keep _

/-! ## The upload -/

theorem accounted_drain (fuel : ℕ) : Preserves Accounted (drain link.recorded fuel) := by
  induction fuel with
  | zero => exact .throw _
  | succ fuel ih =>
    refine .bind (accounted_ask fun _ ↦ rfl) fun readable ↦ .ite (fun _ ↦ ?_) fun _ ↦ .pure _
    refine .bind (accounted_mark _) fun _ ↦
      .bind (accounted_readFrameWith link true _ _ _) fun f ↦ ?_
    refine .ite (fun _ ↦ .bind (accounted_keep _) fun _ ↦ ih) ?_
    intro _
    exact .ite (fun _ ↦ .bind (.throw _) fun _ ↦ ih) fun _ ↦ ih

theorem accounted_sendChunk (fuel : ℕ) {bytes : Bytes} (hlen : bytes.length ≤ kMaxPayload) :
    Preserves Accounted (sendChunk link.recorded fuel bytes) := by
  refine .tryCatch (fun e he ↦ ?_) fun _ ↦ .bind (accounted_load link) fun cancel ↦
    .ite (fun _ ↦ .bind (accounted_cancelUpload link fuel) fun _ ↦ .pure _) fun _ ↦ .throw _
  refine Yields.bind ((yields_sendAll_recorded link true _ (serializeFrame_ne_nil _ _) e).mono
    (fun _ _ h ↦ h) ?_) ?_
  · rintro _ e' ⟨part, hw, hstanding⟩
    exact he.giveUp hw hstanding
  · rintro _ e₁ ⟨hw, hstanding⟩
    exact he.complete hlen hw hstanding

omit link in
theorem length_read_le (want : ℕ) (file : InputFile) : (file.read want).1.length ≤ want := by
  rw [InputFile.read]
  split_ifs
  · exact Nat.zero_le _
  · exact List.length_take_le _ _

theorem accounted_chunkLoop (total : ℕ) {chunkSize : ℕ} (hsize : chunkSize ≤ kMaxPayload)
    (fuel : ℕ) (file : InputFile) (sent : ℕ) :
    Preserves Accounted (chunkLoop link.recorded total chunkSize fuel file sent) := by
  induction fuel generalizing file sent with
  | zero => exact .throw _
  | succ fuel ih =>
    refine .bind (accounted_mark _) fun _ ↦ .bind (accounted_load link) fun cancel ↦
      .ite (fun _ ↦ .bind (accounted_cancelUpload link fuel) fun _ ↦ .pure _) fun _ ↦
        .ite (fun _ ↦ .pure _) fun _ ↦ ?_
    have hlen := length_read_le (min chunkSize (total - sent)) file
    generalize file.read (min chunkSize (total - sent)) = r at hlen ⊢
    obtain ⟨bytes, file⟩ := r
    have hbytes : bytes.length ≤ kMaxPayload :=
      (hlen.trans (Nat.min_le_left _ _)).trans hsize
    refine .ite (fun _ ↦ .pure _) fun _ ↦ .bind (accounted_mark _) fun _ ↦
      .bind (accounted_sendChunk link fuel hbytes) fun done ↦ .ite (fun _ ↦ ?_) fun _ ↦ .pure _
    exact .bind (accounted_drain link fuel) fun _ ↦ .bind (accounted_keep _) fun _ ↦ ih _ _

theorem accounted_awaitAnalysis (fuel : ℕ) :
    Preserves Accounted (awaitAnalysis link.recorded fuel) := by
  induction fuel with
  | zero => exact .throw _
  | succ fuel ih =>
    refine .bind (accounted_mark _) fun _ ↦ .bind (accounted_load link) fun cancel ↦
      .ite (fun _ ↦ .bind (accounted_cancelUpload link fuel) fun _ ↦ .pure _) fun _ ↦ ?_
    refine .bind (accounted_mark _) fun _ ↦
      .bind (accounted_readFrameWith link true _ _ _) fun f ↦ ?_
    refine .ite (fun _ ↦ .bind (accounted_keep _) fun _ ↦ ih) fun _ ↦
      .ite (fun _ ↦ .throw _) fun _ ↦ .ite (fun _ ↦ ?_) fun _ ↦ .throw _
    cases analyzeDoneFields (.new f.payload) with
    | none => exact .throw _
    | some d => exact .bind (accounted_keep _) fun _ ↦ .pure _

theorem accounted_receiveChunks (declared fuel : ℕ) (csv : Bytes) :
    Preserves Accounted (receiveChunks link.recorded declared fuel csv) := by
  induction fuel generalizing csv with
  | zero => exact .throw _
  | succ fuel ih =>
    refine .bind (accounted_readFrameWith link true _ _ _) fun f ↦
      .ite (fun _ ↦ .ite (fun _ ↦ .throw _) fun _ ↦ ih _) fun _ ↦ .ite (fun _ ↦ .pure _) fun _ ↦
        .ite (fun _ ↦ .throw _) fun _ ↦ .throw _

theorem accounted_receiveResult (fuel : ℕ) (expectedSize : UInt64) :
    Preserves Accounted (receiveResult link.recorded fuel expectedSize) := by
  rw [receiveResult]
  refine .failIf ?_
  refine .bind (accounted_readFrameWith link true _ _ _) ?_
  intro begin
  refine .failIf ?_
  refine .failIf ?_
  cases (Client.PayloadReader.new begin.payload).u64.1 with
  | none => exact .throw _
  | some declared =>
    refine .failIf ?_
    refine .bind (accounted_receiveChunks link _ fuel []) ?_
    intro csv
    refine .failIf ?_
    exact accounted_keep _

omit link in
private theorem chunkSizeOf_le (announced : UInt32) : chunkSizeOf announced ≤ kMaxPayload := by
  rw [chunkSizeOf, kMaxPayload]
  split_ifs
  · omega
  · omega

theorem accounted_beginUpload (total : UInt64) (name : Bytes)
    {e : Endpoint (σ × List Answer) TransferClient} (he : Accounted e) :
    Yields (beginUpload link.recorded total name) e (fun a e' ↦ a.1 ≤ kMaxPayload ∧ Accounted e')
      fun _ _ ↦ True := by
  have hname : (beginPayload total name).length ≤ kMaxPayload := by
    have hstr := PayloadWriter.length_str16_le name
    rw [beginPayload, List.length_append, Client.PayloadWriter.str16_eq]
    exact (Nat.add_le_add_left hstr 8).trans (by decide)
  refine Yields.bind ((accounted_mark _).yields he) fun _ _ he ↦
    Yields.bind (accounted_sendFrame link hname he) fun _ _ he ↦
    Yields.bind ((accounted_mark _).yields he) fun _ _ he ↦
    Yields.bind ((accounted_readFrameWith link true _ _ _).yields he) fun ack e' he ↦ ?_
  refine Yields.failIf (fun _ ↦ trivial) fun _ ↦ Yields.failIf (fun _ ↦ trivial) fun _ ↦ ?_
  cases beginAckFields (.new ack.payload) with
  | none => exact .throw trivial
  | some fields => exact .pure ⟨chunkSizeOf_le _, he⟩

/-- An upload that does not fail keeps the account. -/
theorem accounted_upload (fuel : ℕ) (file : LocalFile) (total : UInt64)
    {e : Endpoint (σ × List Answer) TransferClient} (he : Accounted e) :
    Yields (upload link.recorded fuel file total) e (fun _ ↦ Accounted) fun _ _ ↦ True := by
  refine Yields.bind (accounted_beginUpload link total file.name he) ?_
  rintro ⟨chunkSize, names⟩ e₁ ⟨hsize, he₁⟩
  refine Yields.bind ((accounted_keep _).yields he₁) fun _ _ he ↦
    Yields.failIf (fun _ ↦ trivial) fun _ ↦
    Yields.bind ((accounted_chunkLoop link _ hsize fuel _ 0).yields he) fun r _ he ↦ ?_
  cases r with
  | cancelled => exact .pure he
  | ended sent bad =>
    refine Yields.ite (fun _ ↦ ?_) fun _ ↦ ?_
    · have hcancels := (accounted_sendCancelAndWait link fuel).bind fun _ ↦
        (accounted_keep (setPhase .connected)).bind fun _ ↦ Preserves.pure true
      exact hcancels.yields he
    have hend : (Client.PayloadWriter.u64 (UInt64.ofNat sent)).length ≤ kMaxPayload :=
      (length_storeBe64 _).trans_le (by decide)
    refine Yields.bind ((accounted_mark _).yields he) fun _ _ he ↦
      Yields.bind (accounted_sendFrame link hend he) fun _ _ he ↦
      Yields.bind ((accounted_keep _).yields he) fun _ _ he ↦
      Yields.bind ((accounted_awaitAnalysis link fuel).yields he) fun r _ he ↦ ?_
    cases r with
    | none => exact .pure he
    | some csvSize =>
      have hresult := (accounted_keep (σ := σ) (setPhase .receivingResult)).bind fun _ ↦
        (accounted_mark .resultRead).bind fun _ ↦
        (accounted_receiveResult link fuel csvSize).bind fun _ ↦
        (accounted_keep (setPhase .done)).bind fun _ ↦ Preserves.pure true
      exact hresult.yields he

/-- What an upload comes to after which the connection is kept. -/
theorem accounted_doUpload (fuel : ℕ) (file : LocalFile)
    {e : Endpoint (σ × List Answer) TransferClient} (he : Accounted e) :
    Yields (doUpload link.recorded fuel file) e (fun kept e' ↦ kept = true → Accounted e')
      fun _ _ ↦ True := by
  refine Yields.bind ((accounted_keep _).yields he) ?_
  intro _ e₁ he₁
  cases file.size with
  | none => exact Yields.bind ((accounted_keep _).yields he₁) fun _ _ he ↦ .pure fun _ ↦ he
  | some total =>
    refine Yields.tryCatch ((accounted_upload link fuel file total he₁).mono
      (fun _ _ h _ ↦ h) fun _ _ h ↦ h) fun f e₂ _ ↦ ?_
    refine Yields.ite (fun _ ↦ .throw trivial) ?_
    intro _
    exact Yields.bind (Yields.modify (Q := fun _ _ ↦ True) trivial) fun _ _ _ ↦ .pure nofun

/-- **A connection that is kept is between two frames** if and only if, of the answers that the
outside gave, each one that took a part of a frame was followed by the rest. -/
theorem inStep_iff (fuel : ℕ) (file : LocalFile) {e e' : Endpoint σ TransferClient}
    (start : InStep e) (kept : doUpload link fuel file e = .ok true e') :
    ∃ answers, doUpload link.recorded fuel file (e.recording [])
        = .ok true (e'.recording answers) ∧ (InStep e' ↔ Unbroken answers) := by
  obtain ⟨answers, hrun⟩ := doUpload_recorded link kept
  refine ⟨answers, hrun, ?_⟩
  have hstart : Accounted (e.recording []) := .inl ⟨rfl, inStep_recording_iff.mpr start⟩
  rcases (accounted_doUpload link fuel file hstart).of_ok hrun rfl with
    ⟨hwhole, hstep⟩ | ⟨hbroken, hlt⟩
  · refine iff_of_true (inStep_recording_iff.mp hstep) ?_
    intro hbroken
    exact absurd (hwhole.symm.trans hbroken) (by decide)
  · refine iff_of_false (fun hstep ↦ ?_) fun hunbroken ↦ hunbroken hbroken
    exact absurd hstep.length (Nat.ne_of_gt hlt)

end TransferClient

/-! ## A chunk in pieces -/

/-- A server that sends some bytes and no more, a socket that takes so many bytes of each send, or
all, and a user who cancels once the flag was looked at `quiet` times. -/
structure Script where
  incoming : Bytes
  takes : List ℕ
  quiet : ℕ

namespace Script

def link : Link Script where
  flag _ s := (decide (s.quiet = 0), { s with quiet := s.quiet - 1 })
  pauses s := (0, s)
  send data s := (.took (s.takes.headD data.length - 1), { s with takes := s.takes.tail })
  recv n s :=
    match s.incoming with
    | [] => (.idle, s)
    | first :: more =>
      (.got first (more.take (n - 1)), { s with incoming := (first :: more).drop n })
  readable s := (decide (s.incoming ≠ []), s)
  now s := (0, s)

/-- The server has answered UPLOAD_BEGIN. -/
def begun (takes : List ℕ) (quiet : ℕ) : Endpoint Script TransferClient where
  outside :=
    ⟨serializeFrame .uploadBeginAck (storeBe32 1 ++ storeBe32 4096 ++ [0]), takes, quiet⟩
  own := ⟨{}, []⟩

private theorem inStep_begun (takes : List ℕ) (quiet : ℕ) : Endpoint.InStep (begun takes quiet) :=
  ⟨rfl, rfl, rfl⟩

/-- A file of two bytes. -/
def smallFile : LocalFile :=
  ⟨ascii "a.txt", ascii "a.txt", some 2, none, Stream'.const ⟨ascii "a\n", none⟩⟩

end Script

namespace TransferClient

theorem yields_cancelled_chunk :
    Yields (doUpload Script.link.recorded 3 Script.smallFile) ((Script.begun [] 5).recording [])
      (fun kept e' ↦ kept = true ∧ e'.sent.map Prod.fst = [.uploadBegin, .cancel] ∧
        Unbroken e'.outside.2) fun _ _ ↦ False := by
  decide +kernel

private theorem kept_cancelled_chunk :
    Yields (doUpload Script.link 3 Script.smallFile) (Script.begun [] 5) (fun kept _ ↦ kept = true)
      fun _ _ ↦ False := by
  decide +kernel

/-- The user cancels before the chunk, of which nothing is written. -/
theorem inStep_cancelled_chunk : ∃ e', doUpload Script.link 3 Script.smallFile (Script.begun [] 5)
    = .ok true e' ∧ e'.sent.map Prod.fst = [.uploadBegin, .cancel] ∧ Endpoint.InStep e' := by
  obtain ⟨_, e', hkept, rfl⟩ := kept_cancelled_chunk.exists_ok
  obtain ⟨answers, hrun, hiff⟩ :=
    inStep_iff Script.link 3 Script.smallFile (Script.inStep_begun [] 5) hkept
  obtain ⟨-, hsent, hunbroken⟩ := yields_cancelled_chunk.of_ok hrun
  exact ⟨e', hkept, hsent, hiff.mpr hunbroken⟩

theorem yields_torn_chunk :
    Yields (doUpload Script.link 3 Script.smallFile) (Script.begun [16, 15, 17] 6)
      (fun kept e' ↦ kept = true ∧ e'.sent.map Prod.fst = [.uploadBegin, .cancel] ∧
        (parseFrames e'.written).items.map (fun f ↦ f.header.type) = [.uploadBegin, .uploadChunk] ∧
        (parseFrames e'.written).left.length = 15) fun _ _ ↦ False := by
  decide +kernel

/-- The socket takes 17 bytes of a chunk of 18, and then the user cancels. The server takes the
first byte of the CANCEL for the last of the chunk, and has 15 bytes left. -/
theorem not_inStep_torn_chunk :
    ∃ e', doUpload Script.link 3 Script.smallFile (Script.begun [16, 15, 17] 6) = .ok true e' ∧
      e'.sent.map Prod.fst = [.uploadBegin, .cancel] ∧
      (parseFrames e'.written).items.map (fun f ↦ f.header.type) = [.uploadBegin, .uploadChunk] ∧
      (parseFrames e'.written).left.length = 15 ∧ ¬ Endpoint.InStep e' := by
  obtain ⟨_, e', hrun, rfl, hsent, htypes, hleft⟩ := yields_torn_chunk.exists_ok
  refine ⟨e', hrun, hsent, htypes, hleft, fun hstep ↦ ?_⟩
  rw [hstep.left] at hleft
  exact absurd hleft (by decide)

end TransferClient

end LoggerAnalyzer
