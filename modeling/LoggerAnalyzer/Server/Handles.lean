import LoggerAnalyzer.Server.TcpServer
import LoggerAnalyzer.Session.Durable
import LoggerAnalyzer.Session.Timeline

/-!
# The handles of a session

Whatever a session is called for, there are two ways for its handles: they stay as they are, or both
are closed. `Retires` says so, and that the session does not say that it is done; only the callback
of the second handle does that.

`Hushed` is about what a session sends. The state `closing` alone does not keep it from sending,
because the end of an upload is answered without looking whether the answer could be sent, and the
session is ready again. It is hushed all the same, if libuv accepts no more writes after it has
refused one.
-/

namespace LoggerAnalyzer

open Incremental FrameDecoder

namespace TcpSession

open Conversation

variable {D : Type}

namespace Durable

variable [DoubleOps D] {P : TcpSession D → Prop} {s : TcpSession D}

theorem startReading (hP : Durable P) (h : P s) (readStarted : Bool) :
    P (s.startReading readStarted) := by
  rw [TcpSession.startReading]
  split_ifs
  · exact hP.touchIdle h
  · exact hP.close h

theorem reject (hP : Durable P) (h : P s) (code : ErrorCode) (message : Bytes) :
    P (s.reject code message) := by
  have hasked : P { s with env := { s.env with uvWrite := s.env.uvWrite.tail } } :=
    hP.congr h rfl rfl rfl rfl rfl rfl
  rw [TcpSession.reject]
  cases hhead : s.env.uvWrite.head with
  | true =>
    simp only [takeUvWrite, hhead]
    exact hP.flag (hP.queued .error (errorPayload code message) hasked)
  | false =>
    simp only [takeUvWrite, hhead]
    exact hP.close hasked

end Durable

/-- The session is as it was, or its handles were closed. -/
structure Retires (s s' : TcpSession D) : Prop where
  alive : s.handlesClosing = true → 0 < s.pendingClose
  calls : s'.closedCalls = s.closedCalls
  handles : s'.handlesClosing = s.handlesClosing ∧ s'.pendingClose = s.pendingClose ∨
    s.handlesClosing = false ∧ s'.handlesClosing = true ∧ s'.pendingClose = s.pendingClose + 2

namespace Retires

variable {s s' s'' : TcpSession D}

theorem refl (alive : s.handlesClosing = true → 0 < s.pendingClose) : Retires s s :=
  ⟨alive, rfl, .inl ⟨rfl, rfl⟩⟩

/-- Something else in the session changes. -/
theorem congr (h : Retires s s') (closing : s''.handlesClosing = s'.handlesClosing)
    (pending : s''.pendingClose = s'.pendingClose) (calls : s''.closedCalls = s'.closedCalls) :
    Retires s s'' :=
  ⟨h.alive, calls.trans h.calls, by rw [closing, pending]; exact h.handles⟩

theorem note (h : Retires s s') {happening : Happening} (hne : happening ≠ .sessionClosed) :
    Retires s (s'.note happening) :=
  h.congr rfl rfl (by simp [closedCalls, TcpSession.note, List.count_append, hne])

theorem enter (h : Retires s s') (state : SessionState) : Retires s (s'.enter state) := by
  have hset : Retires s { s' with state := state } := h.congr rfl rfl rfl
  exact hset.note (by simp)

theorem closeHandles (h : Retires s s') : Retires s s'.closeHandles := by
  obtain ⟨alive, calls, handles⟩ := h
  rw [TcpSession.closeHandles]
  dsimp only
  cases hclosing : s'.handlesClosing with
  | true =>
    have hpending : s'.pendingClose ≠ 0 := by
      rcases handles with ⟨hsame, hpending⟩ | ⟨-, -, hpending⟩
      · have hpos := alive (hsame.symm.trans hclosing)
        omega
      · omega
    simp only [if_true, hpending, if_false]
    exact ⟨alive, calls, hclosing ▸ handles⟩
  | false =>
    simp only [Bool.false_eq_true, if_false, Nat.add_eq_zero_iff, OfNat.ofNat_ne_zero, and_false]
    rcases handles with ⟨hsame, hpending⟩ | ⟨-, hclosed, -⟩
    · exact ⟨alive, calls, .inr ⟨hsame.symm.trans hclosing, rfl, congrArg (· + 2) hpending⟩⟩
    · exact absurd (hclosing.symm.trans hclosed) (by decide)

variable [DoubleOps D]

theorem reportPartialUpload (h : Retires s s') (headline : Bytes) :
    Retires s (s'.reportPartialUpload headline).2 := by
  rw [TcpSession.reportPartialUpload]
  dsimp only
  split_ifs
  · exact h.congr rfl rfl rfl
  · exact h.congr rfl rfl rfl

theorem close (h : Retires s s') : Retires s s'.close := by
  rw [TcpSession.close]
  split_ifs
  · exact h
  · exact ((h.enter .closing).reportPartialUpload _).closeHandles
  · exact (h.enter .closing).closeHandles

theorem durable (s : TcpSession D) : Durable (Retires s) where
  congr h _ timeline _ _ closing pending :=
    h.congr closing pending (congrArg (fun tl ↦ tl.count .sessionClosed) timeline)
  note h _ hne := h.note hne
  enter h _ := h.enter _
  named h _ := h.congr rfl rfl rfl
  queued {s'} type payload h := by
    have hwritten : Retires s { s' with writes := s'.writes ++ [serializeFrame type payload] } :=
      h.congr rfl rfl rfl
    exact hwritten.note (by simp)
  close h := h.close

/-- **A callback of a session**, but for those of `uv_close`. -/
theorem step (h : Retires s s') {event : Event} (hevent : event ≠ .handleClosed) :
    Retires s (s'.step event) :=
  (durable s).step h (fun _ _ ↦ h.congr rfl rfl rfl) fun heq ↦ absurd heq hevent

theorem startReading (h : Retires s s') (readStarted : Bool) :
    Retires s (s'.startReading readStarted) := (durable s).startReading h readStarted

theorem reject (h : Retires s s') (code : ErrorCode) (message : Bytes) :
    Retires s (s'.reject code message) := (durable s).reject h code message

end Retires

end TcpSession

/-! ## What is sent after closing -/

/-- libuv accepts no more writes after it has refused one. -/
def Final (writes : Stream' Bool) : Prop := ∀ n, writes.get n = false → writes.get (n + 1) = false

theorem Final.all {writes : Stream' Bool} (h : Final writes) (refusal : writes.head = false)
    (n : ℕ) :
    writes.get n = false := by
  induction n with
  | zero => exact refusal
  | succ n ih => exact h n ih

/-- Once the session has entered `closing`, it sends nothing. -/
def SilentAfterClosing (timeline : List Happening) : Prop :=
  timeline.Pairwise fun earlier later ↦
    earlier = .entered .closing → ∀ type payload, later ≠ .sent type payload

namespace Conversation

variable {D : Type}

/-- Nothing was sent after the session entered `closing`, and nothing will be. -/
structure Hushed (c : Conversation D) : Prop where
  final : Final c.uvWrite
  silent : SilentAfterClosing c.timeline
  closed : .entered .closing ∈ c.timeline →
    c.state = .closing ∨ ∀ n, c.uvWrite.get n = false

namespace Hushed

variable {c c' : Conversation D}

/-- What does not change the state and the timeline does not matter. -/
theorem congr (h : Hushed c) (uvWrite : c'.uvWrite = c.uvWrite)
    (timeline : c'.timeline = c.timeline)
    (state : c'.state = c.state) : Hushed c' :=
  ⟨uvWrite ▸ h.final, timeline ▸ h.silent, by rw [uvWrite, timeline, state]; exact h.closed⟩

theorem silent_concat (h : SilentAfterClosing c.timeline) {happening : Happening}
    (hsent : .entered .closing ∈ c.timeline → ∀ type payload, happening ≠ .sent type payload) :
    SilentAfterClosing (c.timeline ++ [happening]) := by
  refine List.pairwise_append.mpr
    ⟨h, List.pairwise_singleton _ _, fun earlier hmem later hlater ↦ ?_⟩
  rw [List.mem_singleton.mp hlater]
  exact fun heq ↦ hsent (heq ▸ hmem)

theorem note (h : Hushed c) {happening : Happening}
    (hsent : ∀ type payload, happening ≠ .sent type payload)
    (hclosing : happening ≠ .entered .closing) : Hushed (c.note happening) := by
  refine ⟨h.final, silent_concat h.silent fun _ ↦ hsent, fun hmem ↦ ?_⟩
  rcases List.mem_append.mp hmem with hmem | hmem
  · exact h.closed hmem
  · exact absurd (List.mem_singleton.mp hmem).symm hclosing

theorem flag (h : Hushed c) : Hushed c.flag := by
  have hset : Hushed { c with closeAfterFlush := true } := h.congr rfl rfl rfl
  exact hset.note (by simp) (by simp)

/-- Another state is entered, not from `closing` unless no write is accepted any more. -/
theorem enter (h : Hushed c) (state : SessionState)
    (left : c.state = .closing → ∀ n, c.uvWrite.get n = false) : Hushed (c.enter state) := by
  refine ⟨h.final, silent_concat h.silent fun _ ↦ by simp, fun hmem ↦ ?_⟩
  rcases List.mem_append.mp hmem with hmem | hmem
  · exact .inr ((h.closed hmem).elim left id)
  · injection List.mem_singleton.mp hmem with hstate
    exact .inl hstate.symm

theorem closes (h : Hushed c) (hc : Closes c c') : Hushed c' := by
  cases hc with
  | again => exact h
  | handles opened => exact h.enter _ fun hstate ↦ absurd hstate opened
  | nothing opened => exact (h.enter _ fun hstate ↦ absurd hstate opened).note (by simp) (by simp)

/-- Only a refusal makes a session enter `closing` that sends. -/
theorem sends (h : Hushed c) {type : MsgType} {payload : Bytes} (hs : Sends type payload c c') :
    Hushed c' ∧ (c.state ≠ .closing → c'.state = .closing → ∀ n, c'.uvWrite.get n = false) := by
  cases hs with
  | dropped closing => exact ⟨h, fun opened ↦ absurd closing opened⟩
  | accepted opened ok =>
    have hnever : .entered .closing ∉ c.timeline := fun hmem ↦ by
      rcases h.closed hmem with hstate | hall
      · exact opened hstate
      · exact absurd (ok.symm.trans (hall 0)) (by decide)
    refine ⟨⟨fun n ↦ h.final (n + 1), silent_concat h.silent fun hmem ↦ absurd hmem hnever,
      fun hmem ↦ ?_⟩, fun _ hstate ↦ absurd hstate opened⟩
    rcases List.mem_append.mp hmem with hmem | hmem
    · exact absurd hmem hnever
    · exact absurd (List.mem_singleton.mp hmem) (by simp)
  | refused opened refusal hcloses =>
    have hall := h.final.all refusal
    have htail : Hushed { c with uvWrite := c.uvWrite.tail } :=
      ⟨fun n ↦ h.final (n + 1), h.silent, fun _ ↦ .inr fun n ↦ hall (n + 1)⟩
    refine ⟨htail.closes hcloses, fun _ _ n ↦ ?_⟩
    cases hcloses with
    | again => exact hall (n + 1)
    | handles => exact hall (n + 1)
    | nothing => exact hall (n + 1)

theorem sendsAll {ms : List (MsgType × Bytes)} (h : Hushed c) (hs : SendsAll ms c c') :
    Hushed c' ∧ ((c.state = .closing → ∀ n, c.uvWrite.get n = false) → c'.state = .closing →
      ∀ n, c'.uvWrite.get n = false) := by
  induction hs with
  | nil => exact ⟨h, id⟩
  | @cons m ms c c₁ c' first others ih =>
    obtain ⟨hfirst, hrefused⟩ := h.sends first
    obtain ⟨hothers, hlast⟩ := ih hfirst
    refine ⟨hothers, fun hbefore ↦ hlast fun hstate ↦ ?_⟩
    by_cases hclosing : c.state = .closing
    · cases first with
      | dropped => exact hbefore hclosing
      | accepted opened => exact absurd hclosing opened
      | refused opened => exact absurd hclosing opened
    · exact hrefused hclosing hstate

variable [DoubleOps D]

theorem take (h : Hushed c) (piece : Bytes) : Hushed (c.take piece) := by
  have hset : Hushed (c.setUpload ((counted piece c.upload).feed piece)) := h.congr rfl rfl rfl
  exact hset.note (by simp) (by simp)

theorem takesPiece (h : Hushed c) {piece : Option Bytes} (ht : TakesPiece piece c c') :
    Hushed c' := by
  cases ht with
  | none => exact h
  | @some piece _ _ takes =>
    cases takes with
    | ignored => exact h
    | overrun state beyond hs =>
      have hcounted : Hushed (c.setUpload (counted piece c.upload)) := h.congr rfl rfl rfl
      have hready := hcounted.enter .ready fun hstate ↦ absurd (state.symm.trans hstate) (by decide)
      exact (hready.sends hs).1.flag
    | fed => exact h.take piece
    | acknowledged state within hs =>
      have hacked : Hushed ((c.take piece).setUpload (acked (c.take piece).upload)) :=
        (h.take piece).congr rfl rfl rfl
      exact (hacked.sends hs).1

theorem reacts {goesOn : Bool} (h : Hushed c) (hr : Reacts c c' goesOn) : Hushed c' := by
  have hleft : ∀ {state : SessionState}, c.state = state → state ≠ .closing →
      c.state = .closing → ∀ n, c.uvWrite.get n = false :=
    fun heq hne hstate ↦ absurd (heq.symm.trans hstate) hne
  cases hr with
  | refused why hs => exact (h.sends hs).1.flag
  | greeted state type fields hs => exact ((h.enter _ (hleft state (by decide))).sends hs).1
  | scolded state why hs => exact (h.sends hs).1
  | goodbye state type hc => exact h.closes hc
  | nothing => exact h
  | @began _ total name id startNs payload state type fields pos hs =>
    have hset : Hushed (c.setUpload (freshUpload id total name startNs c.upload)) :=
      h.congr rfl rfl rfl
    exact ((hset.enter _ (hleft state (by decide))).sends hs).1
  | chunk => exact h
  | aborted state why hs => exact ((h.enter _ (hleft state (by decide))).sends hs).1.flag
  | cancelled state type hs =>
    exact congr ((h.enter _ (hleft state (by decide))).sends hs).1 rfl rfl rfl
  | @finished _ utcNow elapsedMs rss state type fields complete hs =>
    have hbuilt : Hushed (c.setUpload (c.upload.finish.build utcNow elapsedMs rss)) :=
      h.congr rfl rfl rfl
    -- the session gets ready again even if it has entered `closing` on the way
    obtain ⟨hsent, hlast⟩ := hbuilt.sendsAll hs
    exact hsent.enter _ (hlast (hleft state (by decide)))
  | closing => exact h

theorem turn {p data p' : Bytes} {left : Option Bytes} (h : Hushed c)
    (ht : Turn p data c left p' c') : Hushed c' := by
  cases ht with
  | more next holds asked takes => exact (h.takesPiece takes).congr rfl rfl rfl
  | @fail d e c₁ next holds error hs =>
    have hdecoder : Hushed { c with decoder := d } := h.congr rfl rfl rfl
    exact (hdecoder.sends hs).1.flag
  | @item d f rest c₁ c₂ goesOn next completed asked takes reacts =>
    have hdecoder : Hushed { c₁ with decoder := d } := (h.takesPiece takes).congr rfl rfl rfl
    have hreceived : Hushed ({ c₁ with decoder := d }.receive) := hdecoder.note (by simp) (by simp)
    exact (hreceived.reacts reacts).congr rfl rfl rfl

omit [DoubleOps D] in
theorem timesOut (h : Hushed c) (ht : TimesOut c c') : Hushed c' := by
  cases ht with
  | waited => exact h
  | gaveUp state hs hc =>
    have hready := h.enter .ready fun hstate ↦ absurd (state.symm.trans hstate) (by decide)
    exact (hready.sends hs).1.closes hc
  | idle state hs => exact (h.sends hs).1.flag

end Hushed

theorem hushed_invariant [DoubleOps D] :
    Invariant (fun _ _ ↦ True) (fun _ (c : Conversation D) ↦ Hushed c) where
  turn _ _ _ _ h ht := h.turn ht
  closes h hc := h.closes hc
  handleClosed h := h.note (by simp) (by simp)

end Conversation

namespace TcpSession

open Conversation

variable {D : Type} [DoubleOps D]

/-- A session that is hushed, with a decoder that holds what it says. -/
def IsHushed (s : TcpSession D) : Prop := Sits (fun _ c ↦ Hushed c) s.conversation

namespace IsHushed

variable {s : TcpSession D}

omit [DoubleOps D] in
/-- Nothing but the conversation matters. -/
theorem of_conversation (h : IsHushed s) {c : Conversation D} (decoder : c.decoder = s.decoder)
    (hushed : Hushed s.conversation → Hushed c) {s' : TcpSession D} (hs' : s'.conversation = c) :
    IsHushed s' := by
  obtain ⟨p, holds, hc⟩ := h
  exact ⟨p, hs' ▸ decoder ▸ holds, hs' ▸ hushed hc⟩

theorem init (config : SessionConfig) {env : Env} (final : Final env.uvWrite) :
    IsHushed (init (D := D) config env) :=
  ⟨[], at_new, final, List.Pairwise.nil, fun hmem ↦ absurd hmem List.not_mem_nil⟩

theorem step (h : IsHushed s) (event : Event) : IsHushed (s.step event) :=
  hushed_invariant.step (fun _ _ _ _ hc ht ↦ hc.timesOut ht) h fun _ _ ↦ trivial

theorem close (h : IsHushed s) : IsHushed s.close :=
  h.of_conversation s.closes_close.kept.decoder (fun hc ↦ hc.closes s.closes_close) rfl

theorem startReading (h : IsHushed s) (readStarted : Bool) :
    IsHushed (s.startReading readStarted) := by
  rw [TcpSession.startReading]
  split_ifs
  · exact h.of_conversation rfl id (conversation_touchIdle s)
  · exact h.close

/-- A session that is told to reject its client is one that was just made. -/
theorem reject (h : IsHushed s) (opened : s.state ≠ .closing) (code : ErrorCode) (message : Bytes) :
    IsHushed (s.reject code message) := by
  rw [TcpSession.reject]
  cases hhead : s.env.uvWrite.head with
  | true =>
    simp only [takeUvWrite, hhead]
    have hsends : Sends .error (errorPayload code message) s.conversation _ :=
      .accepted opened hhead
    exact h.of_conversation rfl (fun hc ↦ (hc.sends hsends).1.flag) rfl
  | false =>
    simp only [takeUvWrite, hhead]
    have hsends : Sends .error (errorPayload code message) s.conversation _ := .refused opened hhead
      (closes_close { s with env := { s.env with uvWrite := s.env.uvWrite.tail } })
    exact h.of_conversation hsends.kept.decoder (fun hc ↦ (hc.sends hsends).1) rfl

end IsHushed

end TcpSession

end LoggerAnalyzer
