import LoggerAnalyzer.Client.Layouts
import LoggerAnalyzer.Server.Handles
import LoggerAnalyzer.Session.Goodbye

/-!
# What a client can hear

The frames that a session sends follow a grammar, whatever its client sends and however the
callbacks of libuv interleave: `Voice.next` reads one frame after another, and `heard` is where it
gets to. An upload is announced, acknowledged and then analysed or given up; a result has the size
that the ANALYZE_DONE and the RESULT_BEGIN say, counted as the clients count, in 64 bits.

## The invariant

Between two rounds the voice is that of the state, with three exceptions: a session that is closing
says nothing more, nor does one to which libuv refused a write, and one whose decoder has failed
only repeats that. `Spoken` is the invariant. The last exception is why it is about the bytes that
the decoder holds as well.
-/

namespace LoggerAnalyzer

open Incremental FrameDecoder TcpSession

/-- A bad header is bad by itself. -/
theorem nextFrame_take_of_fail {bs : Bytes} {e : ErrorCode} (h : nextFrame bs = .fail e) :
    nextFrame (bs.take kHeaderSize) = .fail e := by
  rw [nextFrame] at h
  split_ifs at h with hshort
  have hlen : (bs.take kHeaderSize).length = kHeaderSize := by
    rw [List.length_take]
    omega
  cases herror : headerError (decodeHeader (bs.take kHeaderSize)) with
  | none =>
    simp only [herror] at h
    split_ifs at h
  | some e' =>
    simp only [herror] at h
    obtain rfl := Outcome.fail.inj h
    exact nextFrame_bad hlen.ge (by rwa [List.take_take, Nat.min_self])

/-! ## The grammar -/

/-- What a client waits for: to be greeted, to begin an upload, to hear of its upload, the beginning
of a result, or the rest of one. -/
inductive Voice where
  | greeting
  | listening
  | receiving
  | announcing (size : UInt64)
  | delivering (left : UInt64)
deriving DecidableEq, Repr

namespace Voice

/-- What comes after a frame, if the frame may come. -/
def next : Voice → MsgType × Bytes → Option Voice
  | greeting, (type, _) =>
    if type = .helloAck then some listening else if type = .error then some greeting else none
  | listening, (type, _) =>
    if type = .uploadBeginAck then some receiving
    else if type = .error then some listening
    else none
  | receiving, (type, payload) =>
    if type = .uploadAck then some receiving
    else if type = .error then some listening
    else if type = .analyzeDone then
      (TransferClient.analyzeDoneFields (.new payload)).map fun d ↦ announcing d.1.csvSize
    else none
  | announcing size, (type, payload) =>
    if type = .resultBegin ∧ (PayloadReader.new payload).u64.1 = some size then
      some (delivering size)
    else none
  | delivering left, (type, payload) =>
    if type = .resultChunk ∧ payload ≠ [] ∧ payload.length ≤ kResultChunk then
      some (delivering (left - .ofNat payload.length))
    else if type = .resultEnd ∧ payload = [] ∧ left = 0 then some listening
    else none

/-- What a client of a session in this state waits for. -/
def ofState : SessionState → Option Voice
  | .awaitHello => some greeting
  | .ready => some listening
  | .uploading => some receiving
  | .closing => none

/-- An ERROR may come at any time but in the middle of a result. -/
theorem next_error {voice : Voice} (h : voice = greeting ∨ voice = listening) (payload : Bytes) :
    voice.next (.error, payload) = some voice := by
  rcases h with rfl | rfl <;> rfl

end Voice

/-- Where a client gets to that hears these frames, if all of them may come. -/
def heard (frames : List (MsgType × Bytes)) : Option Voice := frames.foldlM Voice.next .greeting

private theorem heard_append {frames : List (MsgType × Bytes)} {voice : Voice}
    (h : heard frames = some voice)
    (more : List (MsgType × Bytes)) : heard (frames ++ more) = more.foldlM Voice.next voice := by
  rw [heard, List.foldlM_append]
  exact congrArg (· >>= more.foldlM Voice.next) h

/-! ### A result -/

/-- The chunks of a result bring as many bytes as were announced. -/
theorem foldlM_resultChunks {fuel : ℕ} {csv : Bytes} (hfuel : csv.length ≤ fuel) :
    ((resultChunks fuel csv).map fun chunk ↦ (MsgType.resultChunk, chunk)).foldlM Voice.next
      (.delivering (.ofNat csv.length)) = some (.delivering 0) := by
  induction fuel generalizing csv with
  | zero =>
    obtain rfl := List.length_eq_zero_iff.mp (Nat.le_zero.mp hfuel)
    rfl
  | succ fuel ih =>
    rw [resultChunks]
    split_ifs with hnil
    · rw [hnil]
      rfl
    · have hpos := List.length_pos_iff.mpr hnil
      have hchunk : 0 < kResultChunk := by decide
      have hlen : (csv.take kResultChunk).length = min kResultChunk csv.length := List.length_take
      have hnext :
          Voice.next (.delivering (.ofNat csv.length)) (.resultChunk, csv.take kResultChunk)
          = some (.delivering (.ofNat (csv.drop kResultChunk).length)) := by
        rw [Voice.next, if_pos ⟨rfl, List.length_pos_iff.mp (by omega), by omega⟩, hlen,
          ← UInt64.ofNat_sub (Nat.min_le_right _ _), List.length_drop,
          show csv.length - min kResultChunk csv.length = csv.length - kResultChunk by omega]
      rw [List.map_cons, List.foldlM_cons, hnext]
      refine ih ?_
      rw [List.length_drop]
      omega

/-- The size in a RESULT_BEGIN. -/
theorem u64_resultBegin (csv : Bytes) :
    (PayloadReader.new (resultBeginPayload csv)).u64.1 = some (.ofNat csv.length) := by
  obtain ⟨r, hr, -⟩ := PayloadReader.u64_of_ahead (r := .new (resultBeginPayload csv))
    (v := .ofNat csv.length) rfl rfl
  rw [hr]

variable {D : Type} [DoubleOps D]

/-- **A result is heard to its end.** -/
theorem foldlM_result (u : UploadState D) (elapsedMs rss : ℕ) :
    ((.analyzeDone, u.donePayload elapsedMs rss)
        :: Conversation.resultFrames u.resultCsv).foldlM Voice.next .receiving
      = some .listening := by
  obtain ⟨d, r, hfields, hsize⟩ := TransferClient.csvSize_analyzeDone u elapsedMs rss
  have hdone : Voice.next .receiving (.analyzeDone, u.donePayload elapsedMs rss)
      = some (.announcing (.ofNat u.resultCsv.length)) := by
    rw [Voice.next, if_neg (by decide), if_neg (by decide), if_pos rfl, hfields, ← hsize]
    rfl
  have hbegin : Voice.next (.announcing (.ofNat u.resultCsv.length))
      (.resultBegin, resultBeginPayload u.resultCsv)
      = some (.delivering (.ofNat u.resultCsv.length)) := if_pos ⟨rfl, u64_resultBegin _⟩
  rw [List.foldlM_cons, hdone]
  show List.foldlM Voice.next _ (Conversation.resultFrames u.resultCsv) = _
  rw [Conversation.resultFrames, List.cons_append, List.foldlM_cons, hbegin]
  show List.foldlM Voice.next _ (_ ++ _) = _
  rw [List.foldlM_append, foldlM_resultChunks (Nat.le_refl _)]
  rfl

namespace Conversation

variable {c c' : Conversation D} {voice voice' : Voice} {ms : List (MsgType × Bytes)}

/-- libuv accepts no write any more. -/
def Muted (c : Conversation D) : Prop := ∀ n, c.uvWrite.get n = false

omit [DoubleOps D] in
theorem Closes.uvWrite (h : Closes c c') : c'.uvWrite = c.uvWrite := by
  cases h <;> rfl

omit [DoubleOps D] in
theorem SendsAll.of_closing (h : SendsAll ms c c') (hclosing : c.state = .closing) : c' = c := by
  induction h with
  | nil => rfl
  | cons first _ ih =>
    cases first with
    | dropped => exact ih hclosing
    | accepted opened | refused opened => exact absurd hclosing opened

omit [DoubleOps D] in
theorem SendsAll.muted (h : SendsAll ms c c') (hmuted : c.Muted) : c'.Muted := by
  induction h with
  | nil => exact hmuted
  | cons first _ ih =>
    refine ih ?_
    cases first with
    | dropped => exact hmuted
    | accepted _ ok => exact absurd (ok.symm.trans (hmuted 0)) (by decide)
    | refused _ _ closes =>
      intro n
      rw [closes.uvWrite]
      exact hmuted (n + 1)

omit [DoubleOps D] in
/-- **What is heard of frames that are sent**: all of them, or some of them and then nothing more.
-/
theorem SendsAll.heard (hfinal : Final c.uvWrite)
    (hheard : heard (sentFrames c.timeline) = some voice) (hopen : c.state ≠ .closing)
    (hnext : c.Muted ∨ ms.foldlM Voice.next voice = some voice') (hs : SendsAll ms c c') :
    Final c'.uvWrite ∧ ∃ voice'', LoggerAnalyzer.heard (sentFrames c'.timeline) = some voice'' ∧
      (c'.Muted ∨ voice'' = voice' ∧ c'.state = c.state) := by
  induction hs generalizing voice with
  | nil => exact ⟨hfinal, voice, hheard, hnext.imp_right fun h ↦ ⟨Option.some.inj h, rfl⟩⟩
  | @cons m ms c c₁ c' first others ih =>
    cases first with
    | dropped closing => exact absurd closing hopen
    | accepted _ ok =>
      have hword : (m :: ms).foldlM Voice.next voice = some voice' :=
        hnext.resolve_left fun hmuted ↦ absurd (ok.symm.trans (hmuted 0)) (by decide)
      rw [List.foldlM_cons] at hword
      obtain ⟨voice₁, hfirst, hrest⟩ := Option.bind_eq_some_iff.mp hword
      have hsent : sentFrames (c.timeline ++ [Happening.sent m.1 m.2])
          = sentFrames c.timeline ++ [m] := sentFrames_append _ _
      refine ih (fun n ↦ hfinal (n + 1)) ?_ hopen (.inr hrest)
      show LoggerAnalyzer.heard (sentFrames (c.timeline ++ [Happening.sent m.1 m.2])) = some voice₁
      rw [hsent, heard_append hheard, List.foldlM_cons, hfirst]
      rfl
    | refused _ refusal closes =>
      -- nothing is accepted any more, so the others are not heard
      have hall := hfinal.all refusal
      have hmuted : c₁.Muted := fun n ↦ by
        rw [closes.uvWrite]
        exact hall (n + 1)
      have hdropped : c' = c₁ := others.of_closing closes.state
      refine ⟨fun n _ ↦ ?_, voice, ?_, .inl (hdropped ▸ hmuted)⟩
      · rw [hdropped]
        exact hmuted (n + 1)
      · rw [hdropped, closes.sentFrames_eq]
        exact hheard

/-- Where the voice of a session is. -/
inductive Follows (p : Bytes) (c : Conversation D) (voice : Voice) : Prop where
  | closing (closing : c.state = .closing)
  | muted (muted : c.Muted)
  | state (state : Voice.ofState c.state = some voice)
  | failed {e} (failed : nextFrame p = .fail e) (idle : voice = .greeting ∨ voice = .listening)

/-- What was sent was heard, and so will be what is still to be sent. -/
structure Spoken (p : Bytes) (c : Conversation D) : Prop where
  final : Final c.uvWrite
  heard : ∃ voice, heard (sentFrames c.timeline) = some voice ∧ Follows p c voice

namespace Spoken

variable {p p' : Bytes}

omit [DoubleOps D] in
/-- Something happens that is not heard. -/
theorem congr (h : Spoken p c) (uvWrite : c'.uvWrite = c.uvWrite)
    (sent : sentFrames c'.timeline = sentFrames c.timeline) (state : c'.state = c.state) :
    Spoken p c' := by
  obtain ⟨hfinal, voice, hheard, hfollows⟩ := h
  refine ⟨uvWrite ▸ hfinal, voice, sent ▸ hheard, ?_⟩
  cases hfollows with
  | closing closing => exact .closing (state.trans closing)
  | muted muted => exact .muted fun n ↦ by rw [uvWrite, muted n]
  | state same => exact .state (state ▸ same)
  | failed failed idle => exact .failed failed idle

omit [DoubleOps D] in
theorem note (h : Spoken p c) {happening : Happening}
    (hsent : ∀ type payload, happening ≠ .sent type payload) : Spoken p (c.note happening) :=
  h.congr rfl (sentFrames_other _ hsent) rfl

omit [DoubleOps D] in
theorem flag (h : Spoken p c) : Spoken p c.flag := h.congr rfl (sentFrames_other _ (by simp)) rfl

omit [DoubleOps D] in
theorem closes (h : Spoken p c) (hc : Closes c c') (p' : Bytes) : Spoken p' c' := by
  obtain ⟨hfinal, voice, hheard, -⟩ := h
  exact ⟨hc.uvWrite ▸ hfinal, voice, hc.sentFrames_eq ▸ hheard, .closing hc.state⟩

omit [DoubleOps D] in
/-- Where the voice is while nothing has gone wrong. -/
theorem voice_eq (h : Spoken p c) (hmore : nextFrame p = .more)
    (hstate : Voice.ofState c.state = some voice) :
    ∃ voice', LoggerAnalyzer.heard (sentFrames c.timeline) = some voice' ∧
      (c.Muted ∨ voice' = voice) := by
  obtain ⟨-, voice', hheard, hfollows⟩ := h
  refine ⟨voice', hheard, ?_⟩
  cases hfollows with
  | closing closing =>
    rw [closing] at hstate
    cases hstate
  | muted muted => exact .inl muted
  | state state => exact .inr (Option.some.inj (state.symm.trans hstate))
  | failed failed => exact absurd (hmore.symm.trans failed) (by simp)

omit [DoubleOps D] in
/-- **Frames are sent that may come**, from a state that is entered for it. -/
theorem sends {c₁ c₂ : Conversation D} (h : Spoken p c) (hs : SendsAll ms c₁ c₂)
    (hmore : nextFrame p = .more) (hstate : Voice.ofState c.state = some voice)
    (hword : ms.foldlM Voice.next voice = some voice') (uvWrite : c₁.uvWrite = c.uvWrite)
    (sent : sentFrames c₁.timeline = sentFrames c.timeline) (hopen : c₁.state ≠ .closing) :
    Final c₂.uvWrite ∧ ∃ voice, LoggerAnalyzer.heard (sentFrames c₂.timeline) = some voice ∧
      (c₂.Muted ∨ voice = voice' ∧ c₂.state = c₁.state) := by
  obtain ⟨voice₀, hheard, hmuted | rfl⟩ := h.voice_eq hmore hstate
  · exact hs.heard (uvWrite ▸ h.final) (sent ▸ hheard) hopen
      (.inl fun n ↦ by rw [uvWrite, hmuted n])
  · exact hs.heard (uvWrite ▸ h.final) (sent ▸ hheard) hopen (.inr hword)

omit [DoubleOps D] in
/-- Frames are sent, and what was entered is what a client takes them for. -/
theorem answers {c₁ c₂ : Conversation D} (h : Spoken p c) (hs : SendsAll ms c₁ c₂)
    (hmore : nextFrame p = .more) (hstate : Voice.ofState c.state = some voice)
    (hword : ms.foldlM Voice.next voice = some voice') (uvWrite : c₁.uvWrite = c.uvWrite)
    (sent : sentFrames c₁.timeline = sentFrames c.timeline)
    (hentered : Voice.ofState c₁.state = some voice') : Spoken p c₂ := by
  have hopen : c₁.state ≠ .closing := fun hclosing ↦ by
    rw [hclosing] at hentered
    cases hentered
  obtain ⟨hfinal, voice, hheard, hmuted | ⟨rfl, hsame⟩⟩ :=
    h.sends hs hmore hstate hword uvWrite sent hopen
  · exact ⟨hfinal, voice, hheard, .muted hmuted⟩
  · exact ⟨hfinal, voice, hheard, .state (hsame ▸ hentered)⟩

end Spoken

omit [DoubleOps D] in
theorem Sends.all {type : MsgType} {payload : Bytes} (h : Sends type payload c c') :
    SendsAll [(type, payload)] c c' := .cons h .nil

omit [DoubleOps D] in
/-- A state is entered. -/
theorem sentFrames_enter (state : SessionState) (c : Conversation D) :
    sentFrames (c.enter state).timeline = sentFrames c.timeline := sentFrames_other _ (by simp)

/-! ## What a session does -/

namespace Spoken

variable {p : Bytes}

/-- A piece of a chunk is taken. -/
theorem takesPiece {piece : Option Bytes} (h : Spoken p c) (hmore : nextFrame p = .more)
    (ht : TakesPiece piece c c') : Spoken p c' := by
  cases ht with
  | none => exact h
  | some takes =>
    cases takes with
    | ignored => exact h
    | overrun state beyond sends =>
      exact (h.answers sends.all hmore (congrArg Voice.ofState state) rfl rfl (sentFrames_enter _ _)
        rfl).flag
    | fed => exact h.congr rfl (sentFrames_other _ (by simp)) rfl
    | acknowledged state within sends due =>
      exact h.answers sends.all hmore (congrArg Voice.ofState state) rfl rfl
        (sentFrames_other _ (by simp)) (congrArg Voice.ofState state)

/-- A frame is answered. -/
theorem reacts {goesOn : Bool} (h : Spoken [] c) (hr : Reacts c c' goesOn) : Spoken [] c' := by
  have hmore : nextFrame [] = .more := nextFrame_short (by decide)
  cases hr with
  | refused why sends =>
    rcases why with ⟨state, -⟩ | ⟨state, -, -⟩
    · exact (h.answers sends.all hmore (congrArg Voice.ofState state) rfl rfl rfl
        (congrArg Voice.ofState state)).flag
    · exact (h.answers sends.all hmore (congrArg Voice.ofState state) rfl rfl rfl
        (congrArg Voice.ofState state)).flag
  | greeted state type fields sends =>
    exact h.answers sends.all hmore (congrArg Voice.ofState state) rfl rfl
      (sentFrames_enter _ _) rfl
  | scolded state why sends =>
    exact h.answers sends.all hmore (congrArg Voice.ofState state) rfl rfl rfl
      (congrArg Voice.ofState state)
  | goodbye state type closes => exact h.closes closes []
  | nothing => exact h
  | began state type fields pos sends =>
    exact h.answers sends.all hmore (congrArg Voice.ofState state) rfl rfl
      (sentFrames_enter _ _) rfl
  | chunk => exact h
  | aborted state why sends =>
    exact (h.answers sends.all hmore (congrArg Voice.ofState state) rfl rfl (sentFrames_enter _ _)
      rfl).flag
  | cancelled state type sends =>
    have hsent := h.answers sends.all hmore (congrArg Voice.ofState state) rfl rfl
      (sentFrames_enter _ _) rfl
    exact hsent.congr rfl rfl rfl
  | finished state type fields complete sends =>
    -- the state is entered after the result was sent, also if not all of it was
    obtain ⟨hfinal, voice, hheard, hmuted | ⟨rfl, -⟩⟩ := h.sends sends hmore
      (congrArg Voice.ofState state) (foldlM_result _ _ _) rfl rfl (by simp [setUpload, state])
    · exact ⟨hfinal, voice, (sentFrames_enter _ _).symm ▸ hheard, .muted hmuted⟩
    · exact ⟨hfinal, _, (sentFrames_enter _ _).symm ▸ hheard, .state rfl⟩
  | closing => exact h

omit [DoubleOps D] in
/-- An ERROR is sent, whatever a client waits for. -/
theorem errs {c₁ c₂ : Conversation D} {payload : Bytes} (h : Spoken p c)
    (hs : Sends .error payload c₁ c₂) (hopen : c.state ≠ .closing)
    (uvWrite : c₁.uvWrite = c.uvWrite)
    (sent : sentFrames c₁.timeline = sentFrames c.timeline) (hopen₁ : c₁.state ≠ .closing) :
    Final c₂.uvWrite ∧ ∃ voice, LoggerAnalyzer.heard (sentFrames c₂.timeline) = some voice ∧
      (c₂.Muted ∨ voice = .greeting ∨ voice = .listening) := by
  obtain ⟨hfinal, voice, hheard, hfollows⟩ := h
  -- wherever the session is, an ERROR is in order, or nothing is heard any more
  have hnext : c.Muted ∨ ∃ voice', voice.next (.error, payload) = some voice' ∧
      (voice' = .greeting ∨ voice' = .listening) := by
    cases hfollows with
    | closing closing => exact absurd closing hopen
    | muted muted => exact .inl muted
    | failed _ idle => exact .inr ⟨voice, Voice.next_error idle payload, idle⟩
    | state state =>
      cases hstate : c.state with
      | closing => exact absurd hstate hopen
      | awaitHello | ready | uploading =>
        rw [hstate] at state
        cases state
        exact .inr ⟨_, rfl, by simp⟩
  have hheard₁ : LoggerAnalyzer.heard (sentFrames c₁.timeline) = some voice := sent ▸ hheard
  rcases hnext with hmuted | ⟨voice', hnext, hidle⟩
  · have hmuted₁ : c₁.Muted := fun n ↦ by rw [uvWrite, hmuted n]
    obtain ⟨hfinal', voice', hheard', -⟩ := hs.all.heard (uvWrite ▸ hfinal) hheard₁ hopen₁
      (show c₁.Muted ∨ _ = some voice from .inl hmuted₁)
    exact ⟨hfinal', voice', hheard', .inl (hs.all.muted hmuted₁)⟩
  · have hword : [(MsgType.error, payload)].foldlM Voice.next voice = some voice' := by
      rw [List.foldlM_cons, hnext]
      rfl
    obtain ⟨hfinal', voice'', hheard', hwhere⟩ := hs.all.heard (uvWrite ▸ hfinal) hheard₁ hopen₁
      (.inr hword)
    exact ⟨hfinal', voice'', hheard', hwhere.imp_right fun hsame ↦ by rwa [hsame.1]⟩

omit [DoubleOps D] in
/-- A bad header is answered, and so is all that comes after it. -/
theorem fails {e : ErrorCode} {payload : Bytes} (h : Spoken p c) (hopen : c.state ≠ .closing)
    (hs : Sends .error payload c c') {p' : Bytes} (hp' : nextFrame p' = .fail e) :
    Spoken p' c' := by
  obtain ⟨hfinal, voice, hheard, hmuted | hidle⟩ := h.errs hs hopen rfl rfl hopen
  · exact ⟨hfinal, voice, hheard, .muted hmuted⟩
  · exact ⟨hfinal, voice, hheard, .failed hp' hidle⟩

/-- **One round of the loop.** -/
theorem turn {data p' : Bytes} {left : Option Bytes} (h : Spoken p c) (holds : At c.decoder p)
    (hopen : c.state ≠ .closing) (ht : Turn p data c left p' c') : Spoken p' c' := by
  -- a decoder that has failed fails again
  have hmore : ∀ {e}, nextFrame p = .fail e → nextFrame (p ++ data) = .fail e := fun hfail ↦
    frameParser.fail_append hfail data
  cases ht with
  | more next holds' asked takes =>
    have hincomplete : nextFrame p = .more := by
      cases hp : nextFrame p with
      | more => rfl
      | fail e => exact absurd (next.symm.trans (hmore hp)) (by simp)
      | item f left => exact absurd hp holds.next_ne_item
    obtain ⟨hfinal, voice, hheard, hfollows⟩ := h.takesPiece hincomplete takes
    refine ⟨hfinal, voice, hheard, ?_⟩
    cases hfollows with
    | closing closing => exact .closing closing
    | muted muted => exact .muted muted
    | state state => exact .state state
    | failed failed => exact absurd (hincomplete.symm.trans failed) (by simp)
  | @fail d e c₁ next holds' error sends =>
    have hset : Spoken p { c with decoder := d } := h.congr rfl rfl rfl
    exact (hset.fails hopen sends (nextFrame_take_of_fail next)).flag
  | @item d f left c₁ c₂ goesOn next completed asked takes reacts =>
    have hincomplete := holds.next_more next
    obtain ⟨hfinal, voice, hheard, hfollows⟩ := h.takesPiece hincomplete takes
    have hfresh : Spoken [] c₁ := by
      refine ⟨hfinal, voice, hheard, ?_⟩
      cases hfollows with
      | closing closing => exact .closing closing
      | muted muted => exact .muted muted
      | state state => exact .state state
      | failed failed => exact absurd (hincomplete.symm.trans failed) (by simp)
    have hreceived : Spoken [] (receive { c₁ with decoder := d }) :=
      hfresh.congr rfl (sentFrames_other _ (by simp)) rfl
    exact (hreceived.reacts reacts).congr rfl rfl rfl

omit [DoubleOps D] in
theorem timesOut (h : Spoken p c) (ht : TimesOut c c') : Spoken p c' := by
  -- the session waits on, gives the upload up, or says that nothing comes
  cases ht with
  | waited => exact h
  | gaveUp state sends closes =>
    obtain ⟨hfinal, voice, hheard, -⟩ := h.errs sends (by simp [state]) rfl (sentFrames_enter _ _)
      (by simp [enter, Conversation.note])
    exact ⟨closes.uvWrite ▸ hfinal, voice, closes.sentFrames_eq ▸ hheard, .closing closes.state⟩
  | idle state sends =>
    refine flag ?_
    by_cases hclosing : c.state = .closing
    · rw [sends.all.of_closing hclosing]
      exact h
    obtain ⟨hfinal, voice, hheard, hfollows⟩ := id h
    cases hfollows with
    | closing closing => exact absurd closing hclosing
    | failed failed => exact h.fails hclosing sends failed
    | muted muted =>
      obtain ⟨hfinal', voice', hheard', -⟩ := h.errs sends hclosing rfl rfl hclosing
      exact ⟨hfinal', voice', hheard', .muted (sends.all.muted muted)⟩
    | state same =>
      have hidle : voice = .greeting ∨ voice = .listening := by
        cases hstate : c.state with
        | closing => exact absurd hstate hclosing
        | uploading => exact absurd hstate state
        | awaitHello | ready =>
          rw [hstate] at same
          cases same
          simp
      have hword : ∀ payload, [(MsgType.error, payload)].foldlM Voice.next voice = some voice := by
        intro payload
        rw [List.foldlM_cons, Voice.next_error hidle]
        rfl
      obtain ⟨hfinal', voice', hheard', hmuted | ⟨rfl, hkept⟩⟩ :=
        sends.all.heard hfinal hheard hclosing (.inr (hword _))
      · exact ⟨hfinal', voice', hheard', .muted hmuted⟩
      · exact ⟨hfinal', voice', hheard', .state (hkept ▸ same)⟩

end Spoken

theorem spoken_invariant : Invariant (fun _ _ ↦ True) (Spoken (D := D)) where
  turn holds hopen _ _ h ht := h.turn holds hopen ht
  closes h hc := h.closes hc _
  handleClosed h := h.note (by simp)

end Conversation

/-! ## Every run -/

namespace TcpSession

open Conversation

variable {D : Type} [DoubleOps D]

/-- **What a session sends is heard**, whatever its client sends and whatever libuv does: every
frame comes where it may come, and where the client gets to is where the session is, unless the
session is closing, libuv refuses its writes or it has seen a bad header. -/
theorem heard_run (config : SessionConfig) {env : Env} (hfinal : Final env.uvWrite)
    (events : List Event) :
    let s := (start (D := D) config env).run events
    ∃ voice, heard (sentFrames s.timeline) = some voice ∧
      (Voice.ofState s.state = some voice ∨ s.state = .closing ∨ s.conversation.Muted ∨
        ∃ p e, At s.decoder p ∧ nextFrame p = .fail e) := by
  have hstart : Spoken [] (start (D := D) config env).conversation :=
    ⟨hfinal, .greeting, rfl, .state rfl⟩
  obtain ⟨p, holds, -, voice, hheard, hfollows⟩ := spoken_invariant.run
    (fun _ _ _ _ h ht ↦ h.timesOut ht) (sits_start hstart)
    fun r (_ : r ∈ (start config env).runRounds events) ↦ trivial
  refine ⟨voice, hheard, ?_⟩
  cases hfollows with
  | closing closing => exact .inr (.inl closing)
  | muted muted => exact .inr (.inr (.inl muted))
  | state state => exact .inl state
  | failed failed => exact .inr (.inr (.inr ⟨p, _, holds, failed⟩))

theorem heard_run_calm :
    let s := (start (D := ℚ) plainConfig calmEnv).run [.read (ascii "GET / HTTP/1.1\r\n")]
    ∃ voice, heard (sentFrames s.timeline) = some voice ∧
      (Voice.ofState s.state = some voice ∨ s.state = .closing ∨ s.conversation.Muted ∨
        ∃ p e, At s.decoder p ∧ nextFrame p = .fail e) :=
  heard_run plainConfig (show Final calmEnv.uvWrite from fun _ refused ↦
    absurd (show true = false from refused) (by decide)) _

end TcpSession

end LoggerAnalyzer
