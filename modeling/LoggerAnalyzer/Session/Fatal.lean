import LoggerAnalyzer.Session.Timeline
import LoggerAnalyzer.Session.Transport

/-!
# The end of a conversation

After a fatal error the session sets `close_after_flush_` and waits for the error to be written. It
goes on reading while it waits, and only the loop over the read that held the mistake is left.
`EndsConversation` says that nothing comes of it: the session sends nothing any more, and enters no
state but `closing`.

It does come to something, so there is a condition, `Careful`, on each round of the loop. A round
is at most one frame, and the condition says what the session may get to see of it once the flag is
set, or if the flag is set in the middle of it.
-/

namespace LoggerAnalyzer

open Incremental FrameDecoder

/-- What may still happen after a fatal error. -/
def Happening.harmless : Happening → Bool
  | .sent _ _ => false
  | .entered state => state = .closing
  | _ => true

/-- Once the session has decided to close, it sends nothing and enters no state but `closing`. -/
def EndsConversation (timeline : List Happening) : Prop :=
  timeline.Pairwise fun earlier later ↦ earlier = .flagged → later.harmless = true

instance (timeline : List Happening) : Decidable (EndsConversation timeline) :=
  inferInstanceAs (Decidable (timeline.Pairwise _))

theorem endsConversation_append {timeline : List Happening} (h : EndsConversation timeline)
    {hs : List Happening} (hharmless : ∀ h ∈ hs, h.harmless = true) :
    EndsConversation (timeline ++ hs) := by
  rw [EndsConversation, List.pairwise_append]
  refine ⟨h, ?_, fun _ _ h hmem _ ↦ hharmless h hmem⟩
  exact List.Pairwise.imp_of_mem (fun _ hmem _ _ ↦ hharmless _ hmem)
    (List.pairwise_of_forall (R := fun _ _ ↦ True) fun _ _ ↦ trivial)

theorem endsConversation_of_notMem {timeline : List Happening} (h : .flagged ∉ timeline) :
    EndsConversation timeline := by
  refine List.Pairwise.imp_of_mem (fun hmem _ _ heq ↦ ?_)
    (List.pairwise_of_forall (R := fun _ _ ↦ True) fun _ _ ↦ trivial)
  exact absurd (heq ▸ hmem) h

namespace Conversation

variable {D : Type}

/-! ## The condition -/

/-- A frame that the session answers with nothing, or only with an error that cannot be written. -/
inductive Unanswered (type : MsgType) (payload : Bytes) (c : Conversation D) : Prop where
  | quiet (state : c.state = .ready) (type_eq : type = .bye ∨ type = .cancel)
  | greeting (refusal : c.uvWrite.head = false) (state : c.state = .awaitHello)
    (malformed : type = .hello → helloFields payload = none)
  | request (refusal : c.uvWrite.head = false) (state : c.state = .ready)
    (malformed : type = .uploadBegin →
      ∀ total name, uploadBeginFields payload = some (total, name) → total = 0)

/-- The part of a chunk that this round brings is more than was declared. -/
structure Overruns (p : Bytes) (f : Frame) (c : Conversation D) : Prop where
  state : c.state = .uploading
  type : f.header.type = .uploadChunk
  small : f.header.payloadLen.toNat ≤ kDefaultMaxChunk
  beyond : c.upload.declared
    < (c.upload.received + (f.payload.drop (p.length - kHeaderSize)).length) % 2 ^ 64

/-- Where the decoder holds `p` and `data` is read, the session is not led to speak after a fatal
error. -/
def CarefulAt (p data : Bytes) (c : Conversation D) : Prop :=
  match nextFrame (p ++ data) with
  | .more => True
  -- the error is found again in every read
  | .fail _ => c.closeAfterFlush = true → c.uvWrite.head = false
  | .item f _ =>
    if c.closeAfterFlush then c.Unanswered f.header.type f.payload
    -- the chunk is found too long, and then found to be a chunk outside an upload
    else c.Overruns p f → c.uvWrite.head = false ∨ c.uvWrite.tail.head = false

/-- What a round must keep to. -/
def Careful (c : Conversation D) (data : Bytes) : Prop :=
  ∀ p, At c.decoder p → c.CarefulAt p data

/-- Between two frames, a round is careful that completes none or comes before any error. -/
theorem careful_of_header {c : Conversation D} {data : Bytes} (hstate : c.decoder.state = .header)
    (h : nextFrame (c.decoder.headRaw ++ data) = .more ∨
      c.closeAfterFlush = false ∧ c.state ≠ .uploading) : Careful c data := by
  intro p holds
  have hp : c.decoder.headRaw = p := holds.headRaw hstate
  rw [hp] at h
  unfold CarefulAt
  rcases h with h | ⟨hflag, hidle⟩
  · simp only [h]
  · cases nextFrame (p ++ data) with
    | more => trivial
    | fail e => exact fun h ↦ absurd (h.symm.trans hflag) (by decide)
    | item f left =>
      rw [hflag]
      exact fun h ↦ absurd h.state hidle

/-! ## Before the flag is set -/

/-- The flag is not set and was never set. -/
structure Unflagged (c : Conversation D) : Prop where
  timeline : .flagged ∉ c.timeline
  closeAfterFlush : c.closeAfterFlush = false

namespace Unflagged

variable {c c' : Conversation D}

theorem appends (h : Unflagged c) (happends : Appends (· ≠ .flagged) c c')
    (hflag : c'.closeAfterFlush = c.closeAfterFlush) : Unflagged c' := by
  obtain ⟨hs, hhs, hall⟩ := happends.timeline
  refine ⟨?_, hflag.trans h.closeAfterFlush⟩
  rw [hhs, List.mem_append]
  rintro (hmem | hmem)
  · exact h.timeline hmem
  · exact hall _ hmem rfl

theorem note (h : Unflagged c) {happening : Happening} (hne : happening ≠ .flagged) :
    Unflagged (c.note happening) := h.appends (.note c hne) rfl

theorem enter (h : Unflagged c) (state : SessionState) : Unflagged (c.enter state) :=
  h.appends (.enter c (by simp)) rfl

theorem closes (h : Unflagged c) (hc : Closes c c') : Unflagged c' :=
  h.appends (hc.appends (by simp) (by simp)) hc.kept.closeAfterFlush

theorem sends {type : MsgType} {payload : Bytes} (h : Unflagged c)
    (hs : Sends type payload c c') : Unflagged c' :=
  h.appends (hs.appends (by simp) (by simp) (by simp)) hs.kept.closeAfterFlush

theorem sendsAll {ms : List (MsgType × Bytes)} (h : Unflagged c) (hs : SendsAll ms c c') :
    Unflagged c' :=
  h.appends (hs.appends (by simp) (by simp) (by simp)) hs.kept.closeAfterFlush

theorem setUpload (h : Unflagged c) (upload : UploadState D) : Unflagged (c.setUpload upload) :=
  h.appends (.of_eq rfl rfl) rfl

theorem setDecoder (h : Unflagged c) (d : FrameDecoder) : Unflagged { c with decoder := d } :=
  h.appends (.of_eq rfl rfl) rfl

theorem take [DoubleOps D] (h : Unflagged c) (piece : Bytes) : Unflagged (c.take piece) :=
  (h.setUpload _).note (by simp)

end Unflagged

/-! ## After the flag is set -/

/-- From `c` to `c'` nothing happened but what may happen after a fatal error. -/
structure Mute (c c' : Conversation D) : Prop where
  appends : Appends (·.harmless = true) c c'
  closeAfterFlush : c.closeAfterFlush = true → c'.closeAfterFlush = true
  state : c'.state = c.state ∨ c'.state = .closing

namespace Mute

variable {c c' c'' : Conversation D}

theorem refl (c : Conversation D) : Mute c c := ⟨.refl c, id, .inl rfl⟩

theorem trans (h : Mute c c') (h' : Mute c' c'') : Mute c c'' := by
  refine ⟨h.appends.trans h'.appends, h'.closeAfterFlush ∘ h.closeAfterFlush, ?_⟩
  rcases h'.state with heq | heq
  · exact heq ▸ h.state
  · exact .inr heq

theorem note (c : Conversation D) {h : Happening} (hharmless : h.harmless = true) :
    Mute c (c.note h) := ⟨.note c hharmless, id, .inl rfl⟩

theorem flag (c : Conversation D) : Mute c c.flag := ⟨.flag c rfl, fun _ ↦ rfl, .inl rfl⟩

theorem setDecoder (c : Conversation D) (d : FrameDecoder) : Mute c { c with decoder := d } :=
  ⟨.of_eq rfl rfl, id, .inl rfl⟩

theorem closes (h : Closes c c') : Mute c c' :=
  ⟨h.appends rfl rfl, fun hflag ↦ h.kept.closeAfterFlush.trans hflag, .inr h.state⟩

/-- What cannot be written closes the session. -/
theorem sends {type : MsgType} {payload : Bytes} (h : Sends type payload c c')
    (hrefusal : c.uvWrite.head = false) : Mute c c' := by
  refine ⟨h.appends (fun ok ↦ absurd (ok.symm.trans hrefusal) (by decide)) rfl rfl,
    fun hflag ↦ h.kept.closeAfterFlush.trans hflag, ?_⟩
  cases h with
  | dropped => exact .inl rfl
  | accepted => exact .inl rfl
  | refused _ _ closes => exact .inr closes.state

end Mute

/-- The flag is set, and nothing has come of it so far. During an upload this is so only because the
decoder stands on a header that failed. -/
structure Flagged (p : Bytes) (c : Conversation D) : Prop where
  closeAfterFlush : c.closeAfterFlush = true
  ends : EndsConversation c.timeline
  stuck : c.state = .uploading → ∃ e, nextFrame p = .fail e

theorem Unflagged.flag {p : Bytes} {c : Conversation D} (h : Unflagged c)
    (stuck : c.state = .uploading → ∃ e, nextFrame p = .fail e) : Flagged p c.flag :=
  ⟨rfl, endsConversation_append (endsConversation_of_notMem h.timeline)
    (by simp [Happening.harmless]), stuck⟩

theorem Flagged.mute {p p' : Bytes} {c c' : Conversation D} (h : Flagged p c) (hm : Mute c c')
    (stuck : c.state = .uploading → ∃ e, nextFrame p' = .fail e) : Flagged p' c' := by
  obtain ⟨hs, hhs, hall⟩ := hm.appends.timeline
  refine ⟨hm.closeAfterFlush h.closeAfterFlush, hhs ▸ endsConversation_append h.ends hall,
    fun hup ↦ ?_⟩
  rcases hm.state with heq | heq
  · exact stuck (heq ▸ hup)
  · exact absurd (heq.symm.trans hup) (by decide)

/-! ## Frames -/

variable [DoubleOps D]

/-- What the session does about a frame before the flag is set; if it sets it, then last. -/
theorem Reacts.unflagged {c c' : Conversation D} {goesOn : Bool} (hr : Reacts c c' goesOn)
    (h : Unflagged c) :
    Unflagged c' ∨ ∃ c₁, c' = c₁.flag ∧ Unflagged c₁ ∧ c₁.state ≠ .uploading := by
  cases hr with
  | @refused c₁ code message why sends =>
    refine .inr ⟨c₁, rfl, h.sends sends, fun hup ↦ ?_⟩
    have hstate := sends.quiet.state hup
    rcases why with ⟨heq, -⟩ | ⟨heq, -⟩ <;> exact absurd (heq.symm.trans hstate) (by decide)
  | greeted state type fields sends => exact .inl ((h.enter _).sends sends)
  | scolded state why sends => exact .inl (h.sends sends)
  | goodbye state type closes => exact .inl (h.closes closes)
  | nothing => exact .inl h
  | began state type fields pos sends => exact .inl (((h.setUpload _).enter _).sends sends)
  | chunk => exact .inl h
  | @aborted c₁ code message state why sends =>
    exact .inr ⟨c₁, rfl, (h.enter _).sends sends, sends.idle⟩
  | cancelled state type sends => exact .inl (((h.enter _).sends sends).setUpload _)
  | finished state type fields complete sends =>
    exact .inl (((h.setUpload _).sendsAll sends).enter _)
  | closing => exact .inl h

/-- What the session does about a frame that it does not answer. -/
theorem Reacts.mute {c c' : Conversation D} {goesOn : Bool} (hr : Reacts c c' goesOn)
    (h : c.state = .closing ∨ c.Unanswered c.decoder.header.type c.decoder.payload) :
    Mute c c' := by
  have hidle : c.state ≠ .uploading := by
    rcases h with h | ⟨h, -⟩ | ⟨-, h, -⟩ | ⟨-, h, -⟩ <;> simp [h]
  -- each answer needs what `h` excludes: a state, a payload, or a write that is accepted
  cases hr with
  | refused why sends =>
    rcases h with h | ⟨h, htype⟩ | ⟨hrefusal, -⟩ | ⟨hrefusal, -⟩
    · rcases why with ⟨heq, -⟩ | ⟨heq, -⟩ <;> exact absurd (heq.symm.trans h) (by decide)
    · rcases why with ⟨heq, -⟩ | ⟨-, heq, -⟩
      · exact absurd (heq.symm.trans h) (by decide)
      · rw [heq] at htype
        exact absurd htype (by decide)
    · exact (Mute.sends sends hrefusal).trans (.flag _)
    · exact (Mute.sends sends hrefusal).trans (.flag _)
  | greeted state type fields sends =>
    rcases h with h | ⟨h, -⟩ | ⟨-, -, hnone⟩ | ⟨-, h, -⟩
    · exact absurd (state.symm.trans h) (by decide)
    · exact absurd (state.symm.trans h) (by decide)
    · exact absurd (fields.symm.trans (hnone type)) (by simp)
    · exact absurd (state.symm.trans h) (by decide)
  | scolded state why sends =>
    rcases h with h | ⟨-, htype⟩ | ⟨hrefusal, -⟩ | ⟨hrefusal, -⟩
    · exact absurd (state.symm.trans h) (by decide)
    · exact absurd htype (not_or.mpr ⟨why.1, why.2.1⟩)
    · exact .sends sends hrefusal
    · exact .sends sends hrefusal
  | goodbye state type closes => exact .closes closes
  | nothing => exact .refl c
  | began state type fields pos sends =>
    rcases h with h | ⟨-, htype⟩ | ⟨-, h, -⟩ | ⟨-, -, hzero⟩
    · exact absurd (state.symm.trans h) (by decide)
    · rw [type] at htype
      exact absurd htype (by decide)
    · exact absurd (state.symm.trans h) (by decide)
    · exact absurd (hzero type _ _ fields) pos
  | chunk state => exact absurd state hidle
  | aborted state => exact absurd state hidle
  | cancelled state => exact absurd state hidle
  | finished state => exact absurd state hidle
  | closing => exact .refl c

omit [DoubleOps D] in
/-- A frame is in the decoder as it was in the read, unless it was streamed, and then it is a
chunk. -/
theorem Unanswered.completed {c : Conversation D} {d : FrameDecoder} {f : Frame}
    (h : c.Unanswered f.header.type f.payload) (hd : Completed d f)
    (hchunk : d.streaming = true → f.header.type = .uploadChunk) :
    c.Unanswered d.header.type d.payload := by
  rw [hd.header, hd.payload]
  split_ifs with hstreaming
  · have htype := hchunk hstreaming
    cases h with
    | quiet state type_eq => exact .quiet state type_eq
    | greeting refusal state =>
      exact .greeting refusal state fun h ↦ absurd (htype.symm.trans h) (by decide)
    | request refusal state =>
      exact .request refusal state fun h ↦ absurd (htype.symm.trans h) (by decide)
  · exact h

/-! ## Rounds -/

theorem TakesPiece.of_idle {piece : Option Bytes} {c c' : Conversation D}
    (ht : TakesPiece piece c c') (h : c.state ≠ .uploading) : c' = c := by
  cases ht with
  | none => rfl
  | some takes =>
    cases takes with
    | ignored => rfl
    | overrun state => exact absurd state h
    | fed state => exact absurd state h
    | acknowledged state => exact absurd state h

/-- The flag is not set by a piece, unless the piece is too much. -/
theorem TakesPiece.unflagged {piece : Option Bytes} {c c' : Conversation D}
    (ht : TakesPiece piece c c') (h : Unflagged c) :
    Unflagged c' ∨ ∃ (xs payload : Bytes) (c₁ : Conversation D),
      piece = .some xs ∧ c.state = .uploading ∧
      c.upload.declared < (counted xs c.upload).received ∧ c' = c₁.flag ∧
      Sends .error payload ((c.setUpload (counted xs c.upload)).enter .ready) c₁ := by
  cases ht with
  | none => exact .inl h
  | some takes =>
    cases takes with
    | ignored => exact .inl h
    | overrun state beyond sends => exact .inr ⟨_, _, _, rfl, state, beyond, rfl, sends⟩
    | fed => exact .inl (h.take _)
    | acknowledged state within sends => exact .inl (((h.take _).setUpload _).sends sends)

/-- What a run keeps to. -/
def Ended (p : Bytes) (c : Conversation D) : Prop := Streamed p c ∧ (Unflagged c ∨ Flagged p c)

section Round

variable {p data p' : Bytes} {c c' : Conversation D} {left : Option Bytes}

/-- A round after the flag was set. -/
theorem Flagged.turn (h : Flagged p c) (hstreamed : Streamed p c) (careful : c.CarefulAt p data)
    (ht : Turn p data c left p' c') : Flagged p' c' := by
  -- a frame cannot come of a header that failed
  have hidle : (∀ e, nextFrame (p ++ data) ≠ .fail e) → c.state ≠ .uploading := by
    intro hnext hup
    obtain ⟨e, hfail⟩ := h.stuck hup
    exact hnext e (frameParser.fail_append hfail data)
  unfold CarefulAt at careful
  cases ht with
  | @more d c₁ next holds asked takes =>
    have hstate := hidle (by simp [next])
    obtain rfl := takes.of_idle hstate
    exact ⟨h.closeAfterFlush, h.ends, fun hup ↦ absurd hup hstate⟩
  | @fail d e c₁ next holds error sends =>
    simp only [next] at careful
    have hmute : Mute c c₁ := (Mute.setDecoder c d).trans (.sends sends (careful h.closeAfterFlush))
    exact h.mute (hmute.trans (.flag _)) fun _ ↦ ⟨e, (nextFrame_fail next).2⟩
  | @item d f left c₁ c₂ goesOn next completed asked takes reacts =>
    have hstate := hidle (by simp [next])
    simp only [next, h.closeAfterFlush, if_true] at careful
    obtain rfl := takes.of_idle hstate
    have hunanswered := careful.completed completed fun hs ↦ by
      rw [(nextFrame_item_header next).1]
      exact (hstreamed.asked asked hs).1
    have hreacts : Mute ({ c₁ with decoder := d }.receive) c₂ := by
      refine reacts.mute (.inr ?_)
      cases hunanswered with
      | quiet state type_eq => exact .quiet state type_eq
      | greeting refusal state malformed => exact .greeting refusal state malformed
      | request refusal state malformed => exact .request refusal state malformed
    have hreceived : Mute c₁ ({ c₁ with decoder := d }.receive) :=
      (Mute.setDecoder c₁ d).trans (.note _ rfl)
    have hmute := (hreceived.trans hreacts).trans (.setDecoder c₂ c₂.decoder.resetFrame)
    exact h.mute hmute fun hup ↦ absurd hup hstate

/-- A round before the flag was set. -/
theorem Unflagged.turn (h : Unflagged c) (hstreamed : Streamed p c)
    (careful : c.CarefulAt p data) (ht : Turn p data c left p' c') :
    Unflagged c' ∨ Flagged p' c' := by
  unfold CarefulAt at careful
  cases ht with
  | @more d c₁ next holds asked takes =>
    rcases takes.unflagged h with hc₁ | ⟨xs, payload, c₂, -, -, -, rfl, sends⟩
    · exact .inl (hc₁.setDecoder d)
    · have hc₂ : Unflagged c₂ := ((h.setUpload _).enter _).sends sends
      exact .inr ((hc₂.setDecoder d).flag fun hup ↦ absurd hup sends.idle)
  | @fail d e c₁ next holds error sends =>
    have hc₁ : Unflagged c₁ := (h.setDecoder d).sends sends
    exact .inr (hc₁.flag fun _ ↦ ⟨e, (nextFrame_fail next).2⟩)
  | @item d f left c₁ c₂ goesOn next completed asked takes reacts =>
    simp only [next, h.closeAfterFlush, Bool.false_eq_true, if_false] at careful
    rcases takes.unflagged h with hc₁ | ⟨xs, payload, c₃, hpiece, hup, hbeyond, rfl, sends⟩
    · have hreceive : Unflagged ({ c₁ with decoder := d }.receive) :=
        (hc₁.setDecoder d).note (by simp)
      rcases reacts.unflagged hreceive with hc₂ | ⟨c₄, rfl, hc₄, hidle⟩
      · exact .inl (hc₂.setDecoder _)
      · exact .inr ((hc₄.setDecoder _).flag fun hup ↦ absurd hup hidle)
    · -- the end of the chunk is what is too much, and the chunk is dispatched after that
      have hd : d.streaming = true ∧ f.payload.drop (p.length - kHeaderSize) = xs := by
        rw [pieceOf] at hpiece
        split_ifs at hpiece with hwanted
        exact ⟨hwanted.2, Option.some.inj hpiece⟩
      obtain ⟨htype, hsmall⟩ := hstreamed.asked asked hd.1
      rw [← (nextFrame_item_header next).1] at htype hsmall
      have hrefusals := careful ⟨hup, htype, hsmall, hd.2 ▸ hbeyond⟩
      have hc₃ : Unflagged c₃ := ((h.setUpload _).enter _).sends sends
      have hidle : c₃.state ≠ .uploading := sends.idle
      have hafter : c₃.state = .closing ∨ c₃.state = .ready ∧ c₃.uvWrite.head = false := by
        cases sends with
        | dropped closing =>
          exact absurd (show SessionState.ready = .closing from closing) (by decide)
        | accepted opened ok =>
          have hhead : c.uvWrite.head = true := ok
          refine .inr ⟨rfl, hrefusals.resolve_left fun hrefusal ↦ ?_⟩
          exact absurd (hhead.symm.trans hrefusal) (by decide)
        | refused opened refusal closes => exact .inl closes.state
      have hflagged : Flagged [] c₃.flag := hc₃.flag fun hup ↦ absurd hup hidle
      have htype' : d.header.type = .uploadChunk := by rw [completed.header, htype]
      have hreacts : Mute ({ c₃.flag with decoder := d }.receive) c₂ :=
        reacts.mute (hafter.imp id fun hready ↦
          .request hready.2 hready.1 fun hbegin ↦ absurd (htype'.symm.trans hbegin) (by decide))
      have hreceived : Mute c₃.flag ({ c₃.flag with decoder := d }.receive) :=
        (Mute.setDecoder c₃.flag d).trans (.note _ rfl)
      have hmute := (hreceived.trans hreacts).trans (.setDecoder c₂ c₂.decoder.resetFrame)
      exact .inr (hflagged.mute hmute fun hup ↦ absurd hup hidle)

end Round

theorem ended_invariant : Invariant (fun c data ↦ c.Careful data) (Ended (D := D)) where
  turn := by
    rintro p data p' c c' left holds - - careful ⟨hstreamed, h⟩ ht
    refine ⟨hstreamed.turn ht, ?_⟩
    rcases h with h | h
    · exact h.turn hstreamed (careful p holds) ht
    · exact .inr (h.turn hstreamed (careful p holds) ht)
  closes := by
    rintro p c c' ⟨hstreamed, h⟩ hc
    constructor
    · unfold Streamed
      rwa [hc.kept.decoder]
    · rcases h with h | h
      · exact .inl (h.closes hc)
      · exact .inr (h.mute (.closes hc) h.stuck)
  handleClosed := by
    rintro p c ⟨hstreamed, h⟩
    refine ⟨hstreamed, ?_⟩
    rcases h with h | h
    · exact .inl (h.note (by simp))
    · exact .inr (h.mute (.note c rfl) h.stuck)

end Conversation

namespace TcpSession

open Conversation

variable {D : Type} [DoubleOps D]

/-- **A fatal error ends the conversation** in every run whose rounds are careful. -/
theorem endsConversation_run (config : SessionConfig) (env : Env) {events : List Event}
    (htimer : .idleTimeout ∉ events)
    (careful : ∀ r ∈ (start (D := D) config env).runRounds events,
      Careful r.1.conversation r.2) :
    EndsConversation ((start (D := D) config env).run events).timeline := by
  have hstart : Ended [] (start (D := D) config env).conversation :=
    ⟨fun h ↦ absurd h (by simp [conversation, start]), .inl ⟨by simp [conversation, start], rfl⟩⟩
  obtain ⟨p, -, -, h⟩ := ended_invariant.run (fun hmem ↦ absurd hmem htimer)
    (sits_start hstart) careful
  rcases h with h | h
  · exact endsConversation_of_notMem h.timeline
  · exact h.ends

/-- A first frame that is no HELLO, and a part of a second one. -/
theorem endsConversation_bye_first :
    EndsConversation ((start (D := ℚ) plainConfig calmEnv).run
      [.read (serializeFrame .bye []), .read [1, 2, 3]]).timeline := by
  refine endsConversation_run plainConfig calmEnv (by decide) ?_
  intro r hr
  have hrounds : ∀ r ∈ (start (D := ℚ) plainConfig calmEnv).runRounds
      [.read (serializeFrame .bye []), .read [1, 2, 3]], r.1.decoder.state = .header ∧
        (nextFrame (r.1.decoder.headRaw ++ r.2) = .more ∨
          r.1.closeAfterFlush = false ∧ r.1.state ≠ .uploading) := by
    decide +kernel
  exact careful_of_header (hrounds r hr).1 (hrounds r hr).2

/-- The header that fails is found again when the next byte comes. -/
theorem not_endsConversation_bad_header :
    ¬ EndsConversation ((start (D := ℚ) plainConfig calmEnv).run
      [.read (List.replicate 16 0), .read [0]]).timeline := by
  decide +kernel

end TcpSession

end LoggerAnalyzer
