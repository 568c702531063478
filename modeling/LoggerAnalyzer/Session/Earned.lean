import LoggerAnalyzer.Session.Timeline
import LoggerAnalyzer.Session.Transport

/-!
# What an ANALYZE_DONE stands for

A client gets an ANALYZE_DONE only for an upload that was whole: `Earned` says what comes before it
and after it on the timeline, and `analyzeDone_earned` that this is so of every one, whatever the
client sends.

The upload is counted in two ways. The session adds up the pieces of chunks as they come, and the
headers of the chunks on the timeline say how long they were. While a chunk is on its way the first
count is ahead of the second by the part of the payload that is in; `Uploading` says so, and it is
what makes the two agree when the upload ends.
-/

namespace LoggerAnalyzer

open Incremental FrameDecoder

/-! ## The claim -/

/-- The frames that were dispatched. -/
def receivedFrames (timeline : List Happening) : List (FrameHeader × Bytes) :=
  timeline.filterMap fun
    | .received header payload => some (header, payload)
    | _ => none

/-- The last frames on the timeline are an UPLOAD_BEGIN of `total` bytes and chunks of `got` bytes
in all, and no error was sent since the first of them. -/
def Uploaded (total got : ℕ) (timeline : List Happening) : Prop :=
  ∃ before header payload name since,
    timeline = before ++ .received header payload :: since ∧
      header.type = .uploadBegin ∧ uploadBeginFields payload = some (total, name) ∧
      (∀ f ∈ receivedFrames since, f.1.type = .uploadChunk) ∧
      ((receivedFrames since).map fun f ↦ f.1.payloadLen.toNat).sum = got ∧
      ∀ error, .sent .error error ∉ since

/-- What follows an ANALYZE_DONE with the payload `payload`: the result, of the size that is the
last field of the payload, and the session is ready. -/
def Delivered (payload : Bytes) (after : List Happening) : Prop :=
  ∃ (size : ℕ) (front : Bytes) (chunks : List Bytes) (rest : List Happening),
    payload = front ++ PayloadWriter.u64 (UInt64.ofNat size) ∧ chunks.flatten.length = size ∧
      after = .sent .resultBegin (PayloadWriter.u64 (UInt64.ofNat size)
          ++ PayloadWriter.str16 (ascii "result.csv"))
        :: (chunks.map (fun chunk ↦ .sent .resultChunk chunk)
          ++ .sent .resultEnd [] :: .entered .ready :: rest)

/-- What stands before and after an ANALYZE_DONE with the payload `payload`. -/
structure Earned (before : List Happening) (payload : Bytes) (after : List Happening) : Prop where
  upload : ∃ total ≥ 1, ∃ timeline header last, before = timeline ++ [.received header last] ∧
    Uploaded total total timeline ∧ header.type = .uploadEnd ∧ uploadEndFields last = some total
  result : Delivered payload after

/-! ## Timelines -/

/-- Nothing but an ANALYZE_DONE. -/
def Happening.Plain (h : Happening) : Prop := ∀ payload, h ≠ .sent .analyzeDone payload

/-- No frame, no error and no ANALYZE_DONE. -/
structure Happening.Aside (h : Happening) : Prop where
  plain : h.Plain
  notReceived : ∀ header payload, h ≠ .received header payload
  noError : ∀ payload, h ≠ .sent .error payload

theorem Happening.aside_fed (piece : Bytes) : (Happening.fed piece).Aside :=
  ⟨fun _ ↦ by simp, fun _ _ ↦ by simp, fun _ ↦ by simp⟩

theorem Happening.aside_entered (state : SessionState) : (Happening.entered state).Aside :=
  ⟨fun _ ↦ by simp, fun _ _ ↦ by simp, fun _ ↦ by simp⟩

theorem Happening.aside_sessionClosed : Happening.sessionClosed.Aside :=
  ⟨fun _ ↦ by simp, fun _ _ ↦ by simp, fun _ ↦ by simp⟩

theorem Happening.aside_sent {type : MsgType} {payload : Bytes} (hdone : type ≠ .analyzeDone)
    (herror : type ≠ .error) : (Happening.sent type payload).Aside :=
  ⟨fun _ ↦ by simp [hdone], fun _ _ ↦ by simp, fun _ ↦ by simp [herror]⟩

theorem Happening.plain_sent {type : MsgType} {payload : Bytes} (h : type ≠ .analyzeDone) :
    (Happening.sent type payload).Plain := fun _ ↦ by simp [h]

theorem receivedFrames_append (tl tl' : List Happening) :
    receivedFrames (tl ++ tl') = receivedFrames tl ++ receivedFrames tl' := List.filterMap_append ..

private theorem receivedFrames_aside {hs : List Happening} (h : ∀ h ∈ hs, h.Aside) :
    receivedFrames hs = [] := by
  rw [receivedFrames, List.filterMap_eq_nil_iff]
  intro x hx
  cases x with
  | received header payload => exact absurd rfl ((h _ hx).notReceived header payload)
  | _ => rfl

namespace Uploaded

variable {total got : ℕ} {tl : List Happening}

theorem append (h : Uploaded total got tl) {hs : List Happening} (hall : ∀ h ∈ hs, h.Aside) :
    Uploaded total got (tl ++ hs) := by
  obtain ⟨before, header, payload, name, since, rfl, htype, hfields, hchunks, hsum, herror⟩ := h
  refine ⟨before, header, payload, name, since ++ hs, by simp, htype, hfields, ?_, ?_, ?_⟩
  · rwa [receivedFrames_append, receivedFrames_aside hall, List.append_nil]
  · rwa [receivedFrames_append, receivedFrames_aside hall, List.append_nil]
  · intro error hmem
    rcases List.mem_append.mp hmem with hmem | hmem
    · exact herror error hmem
    · exact (hall _ hmem).noError error rfl

theorem note (h : Uploaded total got tl) {x : Happening} (hx : x.Aside) :
    Uploaded total got (tl ++ [x]) := h.append (by simpa using hx)

theorem began {header : FrameHeader} {payload name : Bytes} (htype : header.type = .uploadBegin)
    (hfields : uploadBeginFields payload = some (total, name)) :
    Uploaded total 0 (tl ++ [.received header payload]) :=
  ⟨tl, header, payload, name, [], rfl, htype, hfields, by simp [receivedFrames],
    by simp [receivedFrames], by simp⟩

theorem chunk (h : Uploaded total got tl) {header : FrameHeader}
    (htype : header.type = .uploadChunk)
    (payload : Bytes) :
    Uploaded total (got + header.payloadLen.toNat) (tl ++ [.received header payload]) := by
  obtain ⟨before, header', payload', name, since, rfl, htype', hfields, hchunks, hsum, herror⟩ := h
  have hreceived : receivedFrames (since ++ [.received header payload])
      = receivedFrames since ++ [(header, payload)] := receivedFrames_append ..
  refine ⟨before, header', payload', name, since ++ [.received header payload], by simp, htype',
    hfields, ?_, ?_, ?_⟩
  · rw [hreceived, List.forall_mem_append]
    exact ⟨hchunks, by simpa using htype⟩
  · rw [hreceived, List.map_append, List.sum_append, hsum]
    simp
  · intro error hmem
    exact herror error (by simpa using hmem)

end Uploaded

/-- A timeline on which every ANALYZE_DONE is earned. -/
inductive Sound : List Happening → Prop where
  | nil : Sound []
  | plain {tl h} (before : Sound tl) (plain : h.Plain) : Sound (tl ++ [h])
  | done {tl payload result} (before : Sound tl) (earned : Earned tl payload result)
    (plain : ∀ h ∈ result, h.Plain) : Sound (tl ++ .sent .analyzeDone payload :: result)

theorem Delivered.append {payload : Bytes} {after : List Happening} (h : Delivered payload after)
    (hs : List Happening) : Delivered payload (after ++ hs) := by
  obtain ⟨size, front, chunks, rest, hpayload, hsize, rfl⟩ := h
  exact ⟨size, front, chunks, rest ++ hs, hpayload, hsize, by simp⟩

theorem Earned.append {before after : List Happening} {payload : Bytes}
    (h : Earned before payload after) (hs : List Happening) : Earned before payload (after ++ hs) :=
  ⟨h.upload, h.result.append hs⟩

namespace Sound

theorem append {tl hs : List Happening} (h : Sound tl) (hall : ∀ h ∈ hs, h.Plain) :
    Sound (tl ++ hs) := by
  induction hs generalizing tl with
  | nil => rwa [List.append_nil]
  | cons x hs ih =>
    rw [List.forall_mem_cons] at hall
    rw [List.append_cons]
    exact ih (h.plain hall.1) hall.2

/-- What the timeline says of one ANALYZE_DONE. -/
theorem earned {tl before after : List Happening} {payload : Bytes} (h : Sound tl)
    (heq : tl = before ++ .sent .analyzeDone payload :: after) : Earned before payload after := by
  induction h generalizing after with
  | nil => exact absurd heq.symm (by simp)
  | @plain tl x before' hplain ih =>
    -- the last happening is another one
    rcases List.eq_nil_or_concat after with rfl | ⟨after, y, rfl⟩
    · have hlast := congrArg List.getLast? heq
      rw [List.getLast?_concat, List.getLast?_concat, Option.some.injEq] at hlast
      exact absurd hlast (hplain payload)
    · rw [List.concat_eq_append, ← List.cons_append, ← List.append_assoc] at heq
      rw [List.concat_eq_append]
      exact (ih (List.append_inj_left' heq rfl)).append [y]
  | @done tl payload' result _ hearned hplain ih =>
    rcases List.append_eq_append_iff.mp heq with ⟨between, rfl, hrest⟩ | ⟨between, rfl, hrest⟩
    · cases between with
      | nil =>
        rw [List.nil_append, List.cons.injEq, Happening.sent.injEq] at hrest
        obtain ⟨⟨-, rfl⟩, rfl⟩ := hrest
        rwa [List.append_nil]
      | cons x between =>
        rw [List.cons_append, List.cons.injEq] at hrest
        exact absurd rfl (hplain _ (hrest.2 ▸ by simp) payload)
    · cases between with
      | nil =>
        rw [List.nil_append, List.cons.injEq, Happening.sent.injEq] at hrest
        obtain ⟨⟨-, rfl⟩, rfl⟩ := hrest
        rwa [List.append_nil] at hearned
      | cons x between =>
        rw [List.cons_append, List.cons.injEq] at hrest
        obtain ⟨rfl, rfl⟩ := hrest
        exact (ih rfl).append _

end Sound

/-! ## Uploads -/

namespace Conversation

variable {D : Type}

theorem Appends.sound {c c' : Conversation D} (h : Appends Happening.Plain c c')
    (hsound : Sound c.timeline) : Sound c'.timeline := by
  obtain ⟨hs, hhs, hall⟩ := h.timeline
  rw [hhs]
  exact hsound.append hall

theorem Appends.writable {P : Happening → Prop} {c c' : Conversation D} (h : Appends P c c')
    (hwritable : c.Writable) : c'.Writable := by
  obtain ⟨k, hk⟩ := h.uvWrite
  intro n
  rw [hk, Stream'.get_drop]
  exact hwritable _

theorem Closes.plain {c c' : Conversation D} (h : Closes c c') :
    Appends Happening.Plain c c' :=
  h.appends (Happening.aside_entered _).plain Happening.aside_sessionClosed.plain

theorem Sends.plain {type : MsgType} {payload : Bytes} {c c' : Conversation D}
    (h : Sends type payload c c') (htype : type ≠ .analyzeDone) :
    Appends Happening.Plain c c' :=
  h.appends (fun _ ↦ Happening.plain_sent htype) (Happening.aside_entered _).plain
    Happening.aside_sessionClosed.plain

/-- So does an answer that is sent right after the state was entered. -/
private theorem Sends.plain_entered {state : SessionState} {type : MsgType} {payload : Bytes}
    {c c' : Conversation D} (h : Sends type payload (c.enter state) c')
    (htype : type ≠ .analyzeDone) : Appends Happening.Plain c c' :=
  (Appends.enter c (Happening.aside_entered _).plain).trans (h.plain htype)

/-- The upload that the timeline ends with, while `x` bytes of the next chunk are already counted.
-/
structure Uploading (x : ℕ) (timeline : List Happening) (u : UploadState D) : Prop where
  uploaded : ∃ got, Uploaded u.declared got timeline ∧ u.received = got + x
  pos : u.declared ≠ 0
  small : u.declared < 2 ^ 63
  within : u.received ≤ u.declared

variable [DoubleOps D]

/-- A piece is an aside. -/
theorem TakesPiece.plain {piece : Option Bytes} {c c' : Conversation D}
    (ht : TakesPiece piece c c') : Appends Happening.Plain c c' := by
  cases ht with
  | none => exact .refl c
  | @some xs _ _ takes =>
    have htake : Appends Happening.Plain c (c.take xs) :=
      ⟨⟨[.fed xs], rfl, by simpa using (Happening.aside_fed xs).plain⟩, 0, rfl⟩
    cases takes with
    | ignored => exact .refl c
    | overrun state beyond sends =>
      have hready : Appends Happening.Plain c ((c.setUpload (counted xs c.upload)).enter .ready) :=
        ⟨⟨[.entered .ready], rfl, by simpa using (Happening.aside_entered .ready).plain⟩, 0, rfl⟩
      exact (hready.trans (sends.plain (by decide))).trans (.flag _ fun _ ↦ by simp)
    | fed => exact htake
    | acknowledged state within sends =>
      obtain ⟨htimeline, huvWrite⟩ := sends.plain (by decide)
      exact htake.trans ⟨htimeline, huvWrite⟩

theorem TakesPiece.state {piece : Option Bytes} {c c' : Conversation D}
    (ht : TakesPiece piece c c') (hup : c'.state = .uploading) : c.state = .uploading := by
  cases ht with
  | none => exact hup
  | some takes =>
    cases takes with
    | ignored => exact hup
    | overrun state => exact state
    | fed state => exact state
    | acknowledged state => exact state

/-- A piece that leaves the session in the upload is counted. -/
theorem TakesPiece.uploading {streaming : Bool} {xs : Bytes} {c c' : Conversation D} {x : ℕ}
    (ht : TakesPiece (pieceOf streaming xs) c c') (hup : c'.state = .uploading)
    (hwritable : c.Writable) (h : Uploading x c.timeline c.upload)
    (hsmall : streaming = true → xs.length < 2 ^ 63) :
    Uploading (x + if streaming then xs.length else 0) c'.timeline c'.upload := by
  obtain ⟨⟨got, huploaded, hreceived⟩, hpos, hdeclared, hwithin⟩ := h
  rw [pieceOf] at ht
  by_cases hwanted : xs ≠ [] ∧ streaming = true
  · rw [if_pos hwanted] at ht
    rw [if_pos hwanted.2]
    have hlen := hsmall hwanted.2
    -- the count has 64 bits, but the declaration and the piece are both below 2^63
    have hcounted : (counted xs c.upload).received = c.upload.received + xs.length :=
      Nat.mod_eq_of_lt (by omega)
    cases ht with
    | some takes =>
      cases takes with
      | ignored state => exact absurd hup state
      | overrun state beyond sends =>
        have hready : SessionState.ready = .uploading := sends.quiet.state hup
        exact absurd hready (by decide)
      | fed state within =>
        have hfed := huploaded.note (Happening.aside_fed xs)
        refine ⟨⟨got, hfed, ?_⟩, hpos, hdeclared, within⟩
        exact hcounted.trans (by omega)
      | @acknowledged _ payload state within sends =>
        obtain ⟨rfl, -⟩ := sends.of_writable (c := (c.take xs).setUpload (acked (c.take xs).upload))
          (fun h ↦ absurd (state.symm.trans h) (by decide)) hwritable
        have hfed := huploaded.note (Happening.aside_fed xs)
        have hacked : Uploaded _ got (c.timeline ++ [.fed xs] ++ [.sent .uploadAck payload]) :=
          hfed.note (Happening.aside_sent (by decide) (by decide))
        refine ⟨⟨got, hacked, ?_⟩, hpos, hdeclared, within⟩
        exact hcounted.trans (by omega)
  · -- nothing is handed over
    rw [if_neg hwanted] at ht
    cases ht with
    | none =>
      have hzero : (if streaming then xs.length else 0) = 0 := by
        split_ifs with hstreaming
        · have hnil : xs = [] := by simpa [hstreaming] using hwanted
          rw [hnil, List.length_nil]
        · rfl
      rw [hzero, Nat.add_zero]
      exact ⟨⟨got, huploaded, hreceived⟩, hpos, hdeclared, hwithin⟩

/-! ## Frames -/

/-- A frame was received last, and if it ends an upload, the upload is counted up to it. -/
def Ending (tl : List Happening) (c : Conversation D) : Prop :=
  c.timeline = tl ++ [.received c.decoder.header c.decoder.payload] ∧
    (c.state = .uploading → c.decoder.header.type = .uploadEnd → Uploading 0 tl c.upload)

/-- The timeline grows, and stays sound where `c` is in order. -/
structure Onward (c c' : Conversation D) : Prop where
  grows : Appends (fun _ ↦ True) c c'
  sound : ∀ tl, c.Writable → Ending tl c → Sound c.timeline → Sound c'.timeline

omit [DoubleOps D] in
theorem Onward.of_plain {c c' : Conversation D} (h : Appends Happening.Plain c c') :
    Onward c c' := ⟨h.mono fun _ _ ↦ trivial, fun _ _ _ ↦ h.sound⟩

omit [DoubleOps D] in
/-- The chunks of a result are not empty and not too long. -/
theorem length_resultChunks {fuel : ℕ} {csv chunk : Bytes}
    (h : chunk ∈ TcpSession.resultChunks fuel csv) : 1 ≤ chunk.length ∧ chunk.length ≤ 65536 := by
  induction fuel generalizing csv with
  | zero => cases h
  | succ fuel ih =>
    rw [TcpSession.resultChunks] at h
    split_ifs at h with hnil
    · cases h
    rcases List.mem_cons.mp h with rfl | hrest
    · have hpos := List.length_pos_iff.mpr hnil
      have hsize : kResultChunk = 65536 := rfl
      rw [List.length_take]
      omega
    · exact ih hrest

omit [DoubleOps D] in
theorem flatten_resultChunks {fuel : ℕ} {csv : Bytes} (h : csv.length ≤ fuel) :
    (TcpSession.resultChunks fuel csv).flatten = csv := by
  induction fuel generalizing csv with
  | zero =>
    rw [List.length_eq_zero_iff.mp (Nat.le_zero.mp h)]
    rfl
  | succ fuel ih =>
    rw [TcpSession.resultChunks]
    split_ifs with hnil
    · rw [hnil, List.flatten_nil]
    · have hpos := List.length_pos_iff.mpr hnil
      have hrest : (csv.drop kResultChunk).length ≤ fuel := by
        rw [List.length_drop, kResultChunk]
        omega
      rw [List.flatten_cons, ih hrest, List.take_append_drop]

/-- The frames of the result are what an ANALYZE_DONE announces. -/
theorem delivered_result (elapsedMs rss : ℕ) (u : UploadState D) :
    Delivered (u.donePayload elapsedMs rss)
      ((resultFrames u.resultCsv).map (fun m ↦ .sent m.1 m.2) ++ [.entered .ready]) := by
  refine ⟨u.resultCsv.length, _, TcpSession.resultChunks u.resultCsv.length u.resultCsv, [], rfl,
    congrArg List.length (flatten_resultChunks (Nat.le_refl _)), ?_⟩
  rw [resultFrames, TcpSession.resultBeginPayload]
  simp

/-- A frame that ends an upload earns its ANALYZE_DONE; the others earn nothing. -/
theorem Reacts.onward {c c' : Conversation D} {goesOn : Bool} (hr : Reacts c c' goesOn) :
    Onward c c' := by
  cases hr with
  | refused why sends =>
    exact .of_plain ((sends.plain (by decide)).trans (.flag _ fun _ ↦ by simp))
  | greeted state type fields sends =>
    exact .of_plain (sends.plain_entered (by decide))
  | scolded state why sends => exact .of_plain (sends.plain (by decide))
  | goodbye state type closes => exact .of_plain closes.plain
  | nothing => exact .of_plain (.refl c)
  | began state type fields pos sends =>
    obtain ⟨htimeline, huvWrite⟩ := sends.plain_entered (by decide)
    exact .of_plain ⟨htimeline, huvWrite⟩
  | chunk => exact .of_plain (.refl c)
  | aborted state why sends =>
    exact .of_plain ((sends.plain_entered (by decide)).trans (.flag _ fun _ ↦ by simp))
  | cancelled state type sends =>
    exact .of_plain ((sends.plain_entered (by decide)).trans (.of_eq rfl rfl))
  | @finished c₁ utcNow elapsedMs rss state type fields complete sends =>
    set u := c.upload.finish.build utcNow elapsedMs rss
    have hsent : Appends (fun _ ↦ True) (c.setUpload u) c₁ :=
      sends.appends (fun _ _ ↦ trivial) trivial trivial
    have hgrows : Appends (fun _ ↦ True) c c₁ := ⟨hsent.timeline, hsent.uvWrite⟩
    refine ⟨hgrows.trans (.enter c₁ trivial), ?_⟩
    rintro tl hwritable ⟨htl, h⟩ hsound
    obtain ⟨⟨got, huploaded, hreceived⟩, hpos, -, -⟩ := h state type
    obtain ⟨uvWrite, rfl, -⟩ := sends.of_writable (c := c.setUpload u)
      (fun h ↦ absurd (state.symm.trans h) (by decide)) hwritable
    -- the handler compared what was received with the declaration
    have hgot : got = c.upload.declared := by omega
    have hearned : Earned c.timeline (u.donePayload elapsedMs rss)
        ((resultFrames u.resultCsv).map (fun m ↦ .sent m.1 m.2) ++ [.entered .ready]) :=
      ⟨⟨c.upload.declared, Nat.one_le_iff_ne_zero.mpr hpos, tl, _, _, htl, hgot ▸ huploaded, type,
        fields⟩, delivered_result elapsedMs rss u⟩
    have hplain : ∀ h ∈ (resultFrames u.resultCsv).map (fun m ↦ Happening.sent m.1 m.2)
        ++ [.entered .ready], h.Plain := by
      rw [List.forall_mem_append, List.forall_mem_singleton, List.forall_mem_map]
      exact ⟨fun m hm ↦ Happening.plain_sent (types_resultFrames _ m hm).2,
        (Happening.aside_entered _).plain⟩
    have hdone := hsound.done hearned hplain
    rwa [← List.cons_append, ← List.append_assoc] at hdone
  | closing => exact .of_plain (.refl c)

/-- After a frame that leaves the session in an upload, the upload is counted up to that frame. -/
theorem Reacts.uploading {c c' : Conversation D} {goesOn : Bool} {tl : List Happening}
    (hr : Reacts c c' goesOn) (hup : c'.state = .uploading) (hwritable : c.Writable)
    (htl : c.timeline = tl ++ [.received c.decoder.header c.decoder.payload])
    (h : c.state = .uploading → Uploading
      (if c.decoder.streaming then c.decoder.header.payloadLen.toNat else 0) tl c.upload)
    (hmodest : c.decoder.header.type = .uploadBegin → ∀ total name,
      uploadBeginFields c.decoder.payload = some (total, name) → total < 2 ^ 63) :
    Uploading 0 c'.timeline c'.upload := by
  cases hr with
  | refused why sends =>
    have hstate := sends.quiet.state hup
    rcases why with ⟨heq, -⟩ | ⟨heq, -⟩ <;> exact absurd (heq.symm.trans hstate) (by decide)
  | greeted state type fields sends => exact absurd hup sends.idle
  | scolded state why sends =>
    exact absurd (state.symm.trans (sends.quiet.state hup)) (by decide)
  | goodbye state type closes => exact absurd (closes.state.symm.trans hup) (by decide)
  | nothing state => exact absurd (state.symm.trans hup) (by decide)
  | @began c₁ total name id startNs payload state type fields pos sends =>
    obtain ⟨rfl, -⟩ := sends.of_writable (c := (c.setUpload (freshUpload id total name startNs
      c.upload)).enter .uploading) (by simp [enter, note]) hwritable
    -- the only reaction that begins an upload
    have hbegan : Uploaded total 0 c.timeline := htl ▸ Uploaded.began type fields
    have hentered := hbegan.note (Happening.aside_entered .uploading)
    have hanswered : Uploaded total 0
        (c.timeline ++ [.entered .uploading] ++ [.sent .uploadBeginAck payload]) :=
      hentered.note (Happening.aside_sent (by decide) (by decide))
    exact ⟨⟨0, hanswered, rfl⟩, pos, hmodest type total name fields, Nat.zero_le _⟩
  | chunk state type streamed =>
    -- the chunk was counted already, piece by piece
    obtain ⟨⟨got, huploaded, hreceived⟩, hpos, hsmall, hwithin⟩ := h state
    rw [if_pos streamed] at hreceived
    exact ⟨⟨_, htl ▸ huploaded.chunk type _, hreceived⟩, hpos, hsmall, hwithin⟩
  | aborted state why sends => exact absurd hup sends.idle
  | cancelled state type sends => exact absurd hup sends.idle
  | finished state type fields complete sends =>
    exact absurd (show SessionState.ready = .uploading from hup) (by decide)
  | closing state => exact absurd (state.symm.trans hup) (by decide)

/-! ## Rounds -/

/-- The bytes of the payload among those that the decoder holds, if they are streamed. -/
def inside (streaming : Bool) (p : Bytes) : ℕ := if streaming then p.length - kHeaderSize else 0

section Round

variable {p data left : Bytes} {d : FrameDecoder} {answer : MsgType → UInt64 → Bool} {after : Bool}

omit [DoubleOps D] in
theorem inside_more (holds : At d p) (asked : Asked answer p data d.streaming after) :
    inside d.streaming p + (if after then (data.drop (kHeaderSize - p.length)).length else 0)
      = inside after (p ++ data) := by
  rw [inside, inside, List.length_drop, List.length_append]
  by_cases hlong : kHeaderSize ≤ p.length
  · rw [asked.inside hlong]
    split_ifs <;> omega
  · rw [holds.streaming_eq_false (Nat.lt_of_not_le hlong)]
    split_ifs <;> omega

omit [DoubleOps D] in
theorem inside_item (holds : At d p) (asked : Asked answer p data d.streaming after) {f : Frame}
    (next : nextFrame (p ++ data) = .item f left) :
    inside d.streaming p + (if after then (f.payload.drop (p.length - kHeaderSize)).length else 0)
      = if after then f.header.payloadLen.toNat else 0 := by
  have hless := length_left_lt (holds.next_more next) next
  obtain ⟨raw, happ, hraw, -⟩ := nextFrame_item next
  have hlen := congrArg List.length happ
  rw [List.length_append, List.length_append] at hlen
  rw [inside, List.length_drop, (nextFrame_item_header next).2]
  by_cases hlong : kHeaderSize ≤ p.length
  · rw [asked.inside hlong]
    split_ifs <;> omega
  · rw [holds.streaming_eq_false (Nat.lt_of_not_le hlong)]
    split_ifs <;> omega

end Round

/-- The size that is announced by the frame at the front, if it is an UPLOAD_BEGIN. -/
def announced (bs : Bytes) : ℕ :=
  match nextFrame bs with
  | .item f _ =>
    if f.header.type = .uploadBegin then ((uploadBeginFields f.payload).map Prod.fst).getD 0 else 0
  | _ => 0

/-- An UPLOAD_BEGIN that is completed by `data` announces less than 2^63 bytes. -/
def Modest (c : Conversation D) (data : Bytes) : Prop :=
  ∀ p, At c.decoder p → announced (p ++ data) < 2 ^ 63

/-- What a session keeps to. -/
structure Honest (p : Bytes) (c : Conversation D) : Prop where
  writable : c.Writable
  streamed : Streamed p c
  sound : Sound c.timeline
  uploading : c.state = .uploading → (∃ e, nextFrame p = .fail e) ∨
    Uploading (inside c.decoder.streaming p) c.timeline c.upload

theorem Turn.grows {p data p' : Bytes} {c c' : Conversation D} {left : Option Bytes}
    (ht : Turn p data c left p' c') : Appends (fun _ ↦ True) c c' := by
  cases ht with
  | @more d c₁ next holds asked takes =>
    exact (takes.plain.mono fun _ _ ↦ trivial).trans (.of_eq rfl rfl)
  | @fail d e c₁ next holds error sends =>
    obtain ⟨htimeline, huvWrite⟩ := (sends.plain (by decide)).mono fun _ _ ↦ trivial
    exact Appends.trans ⟨htimeline, huvWrite⟩ (.flag c₁ trivial)
  | @item d f left c₁ c₂ goesOn next completed asked takes reacts =>
    have hreceived : Appends (fun _ ↦ True) c₁ ({ c₁ with decoder := d }.receive) :=
      ⟨⟨[.received d.header d.payload], rfl, by simp⟩, 0, rfl⟩
    have htaken : Appends (fun _ ↦ True) c c₁ := takes.plain.mono fun _ _ ↦ trivial
    have hreacted : Appends (fun _ ↦ True) _ c₂ := reacts.onward.grows
    exact ((htaken.trans hreceived).trans hreacted).trans (.of_eq rfl rfl)

omit [DoubleOps D] in
/-- A chunk that is streamed is small. -/
theorem Streamed.length_lt {p data : Bytes} {c : Conversation D} {d : FrameDecoder}
    (h : Streamed p c) (asked : Asked c.streams p data c.decoder.streaming d.streaming)
    (holds : At d (p ++ data)) (next : nextFrame (p ++ data) = .more)
    (hstreaming : d.streaming = true) :
    (data.drop (kHeaderSize - p.length)).length < 2 ^ 63 := by
  obtain ⟨-, hmax⟩ := h.asked asked hstreaming
  have hbound : kHeaderSize + kDefaultMaxChunk < 2 ^ 63 := by decide
  rw [List.length_drop]
  rcases nextFrame_cases (p ++ data) with ⟨hshort, -⟩ | ⟨-, e, -, hn⟩ | ⟨-, -, hless, -⟩ |
    ⟨-, -, -, hn⟩
  · exact absurd (hstreaming.symm.trans (holds.streaming_eq_false hshort)) (by decide)
  · exact absurd (next.symm.trans hn) (by simp)
  · rw [List.length_append] at hless
    omega
  · exact absurd (next.symm.trans hn) (by simp)

theorem Honest.turn {p data p' : Bytes} {c c' : Conversation D} {left : Option Bytes}
    (holds : At c.decoder p) (h : Honest p c) (hmodest : c.Modest data)
    (ht : Turn p data c left p' c') : Honest p' c' := by
  have hwritable : c'.Writable := ht.grows.writable h.writable
  have hstreamed : Streamed p' c' := h.streamed.turn ht
  -- the counts are compared only where the decoder does not stand on a header that failed
  have huploading : (∀ e, nextFrame (p ++ data) ≠ .fail e) → c.state = .uploading →
      Uploading (inside c.decoder.streaming p) c.timeline c.upload := by
    intro hnext hup
    refine (h.uploading hup).resolve_left ?_
    rintro ⟨e, hfail⟩
    exact hnext e (frameParser.fail_append hfail data)
  cases ht with
  | @more d c₁ next holds' asked takes =>
    refine ⟨hwritable, hstreamed, takes.plain.sound h.sound, fun hup ↦ .inr ?_⟩
    have hup : c₁.state = .uploading := hup
    have hcounted := takes.uploading hup h.writable (huploading (by simp [next])
      (takes.state hup)) (h.streamed.length_lt asked holds' next)
    rwa [inside_more holds asked] at hcounted
  | @fail d e c₁ next holds' error sends =>
    obtain ⟨htimeline, huvWrite⟩ := sends.plain (by decide)
    have hplain : Appends Happening.Plain c c₁ := ⟨htimeline, huvWrite⟩
    exact ⟨hwritable, hstreamed, (hplain.trans (.flag _ fun _ ↦ by simp)).sound h.sound,
      fun _ ↦ .inl ⟨e, (nextFrame_fail next).2⟩⟩
  | @item d f left c₁ c₂ goesOn next completed asked takes reacts =>
    obtain ⟨hheader, hlen⟩ := nextFrame_item_header next
    have htype : d.streaming = true → d.header.type = .uploadChunk ∧
        (f.payload.drop (p.length - kHeaderSize)).length < 2 ^ 63 := by
      intro hstreaming
      obtain ⟨htype, hmax⟩ := h.streamed.asked asked hstreaming
      rw [← hheader] at htype hmax
      have hbound : kDefaultMaxChunk < 2 ^ 63 := by decide
      refine ⟨completed.header ▸ htype, ?_⟩
      rw [List.length_drop]
      omega
    have hwritable₁ : c₁.Writable := takes.plain.writable h.writable
    have hcounted : c₁.state = .uploading → Uploading
        (if d.streaming then d.header.payloadLen.toNat else 0) c₁.timeline c₁.upload := by
      intro hup
      have hcounted := takes.uploading hup h.writable (huploading (by simp [next])
        (takes.state hup)) fun hstreaming ↦ (htype hstreaming).2
      rwa [inside_item holds asked next, ← completed.header] at hcounted
    have hending : Ending c₁.timeline ({ c₁ with decoder := d }.receive) := by
      refine ⟨rfl, fun hup hend ↦ ?_⟩
      have hstreaming : d.streaming = false := by
        refine Bool.eq_false_iff.mpr ?_
        intro hstreaming
        exact absurd ((htype hstreaming).1.symm.trans hend) (by decide)
      have hcounted := hcounted hup
      rwa [hstreaming] at hcounted
    have hsound₁ : Sound ({ c₁ with decoder := d }.receive).timeline :=
      (takes.plain.sound h.sound).plain fun _ ↦ by simp
    refine ⟨hwritable, hstreamed, reacts.onward.sound _ hwritable₁ hending hsound₁,
      fun hup ↦ .inr ?_⟩
    have hup : c₂.state = .uploading := hup
    refine reacts.uploading hup hwritable₁ rfl hcounted ?_
    intro hbegin total name hfields
    have hstreaming : d.streaming = false := by
      refine Bool.eq_false_iff.mpr ?_
      intro hstreaming
      exact absurd ((htype hstreaming).1.symm.trans hbegin) (by decide)
    have hpayload : d.payload = f.payload := by
      rw [completed.payload, hstreaming, if_neg Bool.false_ne_true]
    have hannounced := hmodest p holds
    have hbegin : f.header.type = .uploadBegin := completed.header ▸ hbegin
    have hfields : uploadBeginFields f.payload = some (total, name) := hpayload ▸ hfields
    simp only [announced, next, if_pos hbegin, hfields] at hannounced
    exact hannounced

omit [DoubleOps D] in
/-- What else happens outside an upload. -/
theorem Honest.plain {p : Bytes} {c c' : Conversation D} (h : Honest p c)
    (happends : Appends Happening.Plain c c') (hdecoder : c'.decoder = c.decoder)
    (hidle : c'.state ≠ .uploading) : Honest p c' :=
  ⟨happends.writable h.writable, fun hs ↦ h.streamed (hdecoder ▸ hs), happends.sound h.sound,
    fun hup ↦ absurd hup hidle⟩

theorem honest_invariant : Invariant (fun c data ↦ c.Modest data) (Honest (D := D)) where
  turn holds _ _ hmodest h ht := h.turn holds hmodest ht
  closes h hc := h.plain hc.plain hc.kept.decoder fun hup ↦
    absurd (hc.state.symm.trans hup) (by decide)
  handleClosed := by
    rintro p c ⟨hwritable, hstreamed, hsound, huploading⟩
    refine ⟨hwritable, hstreamed, hsound.plain Happening.aside_sessionClosed.plain, fun hup ↦ ?_⟩
    refine (huploading hup).imp_right ?_
    rintro ⟨⟨got, huploaded, hreceived⟩, hpos, hsmall, hwithin⟩
    exact ⟨⟨got, huploaded.note Happening.aside_sessionClosed, hreceived⟩, hpos,
      hsmall, hwithin⟩

omit [DoubleOps D] in
theorem Honest.timesOut {p : Bytes} {c c' : Conversation D} (h : Honest p c)
    (ht : TimesOut c c') : Honest p c' := by
  cases ht with
  | waited => exact h
  | gaveUp state sends closes =>
    have hgone := (sends.plain_entered (by decide)).trans closes.plain
    refine h.plain hgone ?_ fun hup ↦ ?_
    · exact closes.kept.decoder.trans sends.kept.decoder
    · exact absurd (closes.state.symm.trans hup) (by decide)
  | idle state sends =>
    refine h.plain ((sends.plain (by decide)).trans (.flag _ fun _ ↦ by simp)) sends.kept.decoder ?_
    exact fun hup ↦ state (sends.quiet.state hup)

end Conversation

namespace TcpSession

open Conversation

variable {D : Type} [DoubleOps D]

/-- **Every ANALYZE_DONE is earned**, whatever the client sends. -/
theorem analyzeDone_earned (config : SessionConfig) (env : Env)
    (henv : ∀ n, env.uvWrite.get n = true) (events : List Event)
    (hmodest : ∀ r ∈ (start (D := D) config env).runRounds events, Modest r.1.conversation r.2)
    {before after : List Happening} {payload : Bytes}
    (hdone : ((start (D := D) config env).run events).timeline
      = before ++ .sent .analyzeDone payload :: after) : Earned before payload after := by
  have hstart : Honest [] (start (D := D) config env).conversation :=
    ⟨henv, fun h ↦ absurd h (by simp [conversation, start]), .nil, fun hup ↦
      absurd hup (by simp [conversation, start])⟩
  obtain ⟨p, -, h⟩ := honest_invariant.run (fun _ _ _ _ h ht ↦ h.timesOut ht)
    (sits_start hstart) hmodest
  exact h.sound.earned hdone

/-- The upload of a file of two lines. -/
theorem analyzeDone_earned_two_lines :
    ∃ before payload after,
      (uploadRun ℚ [ascii "a\nb\n"]).timeline = before ++ .sent .analyzeDone payload :: after ∧
        Earned before payload after := by
  have hatHand : AtHand [ascii "a\nb\n"] (uploadRun ℚ [ascii "a\nb\n"]).conversation :=
    atHand_uploadRun (by decide) (by decide) (by decide)
  obtain ⟨elapsedMs, rss, hmem⟩ := hatHand.sent
  obtain ⟨before, after, hdone⟩ := List.append_of_mem (mem_sentFrames.mp hmem)
  have hrounds : ∀ r ∈ (start (D := ℚ) plainConfig calmEnv).runRounds
      [.read (wire (uploadFrames 1 (ascii "client") (ascii "log.txt") [ascii "a\nb\n"]))],
      r.1.decoder.state = .header ∧ announced (r.1.decoder.headRaw ++ r.2) < 2 ^ 63 := by
    decide +kernel
  refine ⟨before, _, after, hdone, analyzeDone_earned plainConfig calmEnv (fun _ ↦ rfl) _
    (fun r hr p holds ↦ ?_) hdone⟩
  rw [← holds.headRaw (hrounds r hr).1]
  exact (hrounds r hr).2

end TcpSession

end LoggerAnalyzer
