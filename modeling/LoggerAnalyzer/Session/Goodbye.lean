import LoggerAnalyzer.Session.Delivery
import LoggerAnalyzer.Session.Fatal

/-!
# The end of a conversation that went well

A client that is done sends a BYE. In whatever reads the bytes of it arrive, a session that is idle
closes once it has them all, and it sends nothing more.
-/

namespace LoggerAnalyzer

open Incremental FrameDecoder

namespace Conversation

variable {D : Type} [DoubleOps D]

/-- Nothing is sent beyond `sent`, and the session is closing, or it is idle, `p` of a BYE is in and
`ahead` is still to come. -/
structure Leaving (sent : List (MsgType × Bytes)) (ahead p : Bytes) (c : Conversation D) :
    Prop where
  sent : sentFrames c.timeline = sent
  stands : c.state = .closing ∨
    c.state = .ready ∧ c.closeAfterFlush = false ∧ p ++ ahead = serializeFrame .bye []

omit [DoubleOps D] in
theorem Closes.sentFrames_eq {c c' : Conversation D} (h : Closes c c') :
    sentFrames c'.timeline = sentFrames c.timeline := by
  have henter : sentFrames (c.enter .closing).timeline = sentFrames c.timeline :=
    sentFrames_other _ (by simp)
  cases h with
  | again => rfl
  | handles => exact henter
  | nothing => exact (sentFrames_other _ (by simp)).trans henter

/-- An idle session that gets a BYE closes. -/
theorem Reacts.closes_of_bye {c c' : Conversation D} {goesOn : Bool} (h : Reacts c c' goesOn)
    (hstate : c.state = .ready) (htype : c.decoder.header.type = .bye) :
    Closes c c' ∧ goesOn = false := by
  cases h with
  | goodbye _ _ closes => exact ⟨closes, rfl⟩
  | scolded _ why => exact absurd htype why.1
  | nothing _ type => exact absurd (htype.symm.trans type) (by decide)
  | began _ type => exact absurd (htype.symm.trans type) (by decide)
  | refused why =>
    rcases why with ⟨state, -⟩ | ⟨-, type, -⟩
    · exact absurd (hstate.symm.trans state) (by decide)
    · exact absurd (htype.symm.trans type) (by decide)
  | greeted state | chunk state | aborted state | cancelled state | finished state
  | closing state => exact absurd (hstate.symm.trans state) (by decide)

namespace Leaving

variable {sent : List (MsgType × Bytes)} {ahead p : Bytes} {c c' : Conversation D}

omit [DoubleOps D] in
theorem closes (h : Leaving sent ahead p c) (hc : Closes c c') (ahead' p' : Bytes) :
    Leaving sent ahead' p' c' :=
  ⟨hc.sentFrames_eq.trans h.sent, .inl hc.state⟩

/-- **One round of the loop** takes in more of the BYE, or closes the session. -/
theorem turn {data p' more : Bytes} {left : Option Bytes} (h : Leaving sent (data ++ more) p c)
    (hopen : c.state ≠ .closing) (ht : Turn p data c left p' c') :
    Leaving sent (left.getD [] ++ more) p' c' := by
  obtain ⟨hsent, hclosing | ⟨hready, hunflagged, hbytes⟩⟩ := h
  · exact absurd hclosing hopen
  have hidle : c.state ≠ .uploading := by
    rw [hready]
    decide
  have happ : (p ++ data) ++ more = serializeFrame .bye [] ++ [] := by
    rw [List.append_assoc, hbytes, List.append_nil]
  have hfront := nextFrame_front (Nat.zero_le _) happ
  cases ht with
  | more next holds asked takes =>
    obtain rfl := takes.of_idle hidle
    exact ⟨hsent, .inr ⟨hready, hunflagged, by rw [List.append_assoc]; exact hbytes⟩⟩
  | fail next =>
    rcases hfront with ⟨hmore, -⟩ | ⟨left, hitem, -⟩
    · exact absurd (next.symm.trans hmore) (by simp)
    · exact absurd (next.symm.trans hitem) (by simp)
  | @item d f rest c₁ c₂ goesOn next completed asked takes reacts =>
    rcases hfront with ⟨hmore, -⟩ | ⟨left', hitem, -⟩
    · exact absurd (next.symm.trans hmore) (by simp)
    · obtain ⟨rfl, -⟩ := Outcome.item.inj (next.symm.trans hitem)
      obtain rfl : c₁ = c := takes.of_idle hidle
      obtain ⟨hcloses, rfl⟩ :=
        reacts.closes_of_bye hready (congrArg FrameHeader.type completed.header)
      have hreceive : sentFrames (receive { c₁ with decoder := d }).timeline
          = sentFrames c₁.timeline := sentFrames_other _ (by simp)
      have hsame : sentFrames c₂.timeline = sent :=
        calc sentFrames c₂.timeline
          _ = sentFrames (receive { c₁ with decoder := d }).timeline := hcloses.sentFrames_eq
          _ = sentFrames c₁.timeline := hreceive
          _ = sent := hsent
      exact ⟨hsame, .inl hcloses.state⟩

omit [DoubleOps D] in
/-- When nothing is still to come, the session is closing. -/
theorem closing (holds : At c.decoder p) (h : Leaving sent [] p c) : c.state = .closing := by
  rcases h.stands with hclosing | ⟨-, -, hbytes⟩
  · exact hclosing
  · have hitem : nextFrame (serializeFrame .bye [] ++ []) = _ :=
      nextFrame_serializeFrame (Nat.zero_le _) []
    rw [List.append_nil, ← hbytes, List.append_nil] at hitem
    exact absurd hitem holds.next_ne_item

end Leaving

end Conversation

namespace TcpSession

open Conversation

variable {D : Type} [DoubleOps D] {sent : List (MsgType × Bytes)}

/-- The loop over a read. -/
theorem leaving_process {more : Bytes} {fuel : ℕ} {data : Bytes} (hfuel : data.length ≤ fuel)
    {s : TcpSession D} {p : Bytes} (holds : At s.decoder p)
    (h : Leaving sent (data ++ more) p s.conversation) :
    Sits (Leaving sent more) (s.process fuel data).conversation := by
  induction fuel generalizing data s p with
  | zero =>
    rw [List.length_eq_zero_iff.mp (Nat.le_zero.mp hfuel), List.nil_append] at h
    exact ⟨p, holds, h⟩
  | succ fuel ih =>
    rw [process]
    split_ifs with hstop
    · rcases hstop with hnil | hclosing
      · rw [hnil, List.nil_append] at h
        exact ⟨p, holds, h⟩
      · exact ⟨p, holds, h.sent, .inl hclosing⟩
    rw [not_or] at hstop
    obtain ⟨p', hturn⟩ := s.turn_turn holds data
    have hnext := h.turn hstop.2 hturn
    have hholds : At (s.turn data).1.decoder p' := hturn.holds
    generalize s.turn data = r at hturn hnext hholds ⊢
    obtain ⟨s', _ | left⟩ := r
    · exact ⟨p', hholds, hnext⟩
    · have hlt := hturn.length_lt holds
      exact ih (by omega) hholds hnext

private theorem leaving_step {event : Event} (hsmooth : event.smooth = true) {more : Bytes}
    {s : TcpSession D} (h : Sits (Leaving sent (event.bytes ++ more)) s.conversation) :
    Sits (Leaving sent more) (s.step event).conversation := by
  obtain ⟨p, holds, hp⟩ := h
  cases event with
  | read data =>
    have hread :=
      leaving_process (s := { s with rxBytes := s.rxBytes + data.length }) le_rfl holds hp
    rwa [← conversation_touchIdle] at hread
  | written ok =>
    rcases s.onWrite_cases ok with hsame | hcloses
    · exact ⟨p, hsame ▸ holds, hsame ▸ hp⟩
    · exact ⟨p, hcloses.kept.decoder ▸ holds, hp.closes hcloses more p⟩
  | readEof | readError | idleTimeout | handleClosed => cases hsmooth

/-- **A BYE is understood**, in whatever reads its bytes arrive: an idle session is closing once it
has them all, and it has sent nothing more. -/
theorem closing_of_bye {last : Option (List Bytes)} {events : List Event}
    (hsmooth : ∀ event ∈ events, event.smooth = true)
    (hbytes : events.flatMap Event.bytes = serializeFrame .bye []) {s : TcpSession D}
    (holds : At s.decoder []) (h : Serving (.idle last) [] sent s.conversation) :
    (s.run events).state = .closing ∧ sentFrames (s.run events).timeline = sent := by
  have hready : s.conversation.state = .ready := by
    cases h.stands with
    | idle state => exact state
  have hrun : ∀ {events : List Event} (_ : ∀ event ∈ events, event.smooth = true)
      {s : TcpSession D},
      Sits (Leaving sent (events.flatMap Event.bytes ++ [])) s.conversation →
        Sits (Leaving sent []) (s.run events).conversation := by
    intro events hsmooth
    induction events with
    | nil => exact fun h ↦ h
    | cons event events ih =>
      intro s hsits
      rw [List.forall_mem_cons] at hsmooth
      rw [List.flatMap_cons, List.append_assoc] at hsits
      exact ih hsmooth.2 (leaving_step hsmooth.1 hsits)
  have hstart : Leaving sent (events.flatMap Event.bytes ++ []) [] s.conversation :=
    ⟨h.sent, .inr ⟨hready, h.unflagged, by rw [List.nil_append, List.append_nil, hbytes]⟩⟩
  obtain ⟨p, holds', hend⟩ := hrun hsmooth ⟨[], holds, hstart⟩
  exact ⟨hend.closing holds', hend.sent⟩

end TcpSession

end LoggerAnalyzer
