import LoggerAnalyzer.Session.Queue

/-!
# What a session keeps

An upload is analysed while it comes in, and what a session keeps of it does not grow with it: the
part of a frame, the part of a line, a few names and the tables of the aggregator, each up to a
limit. `Bounded` lists the limits, and `bounded_run` says that a session keeps to them in every run,
whatever is sent to it, as long as libuv reads into the buffer of the session. The result has a
limit of its own, up to which the numbers in it have to fit into 64 bits.

What waits to be written is not on the list, since it has no limit.
-/

namespace LoggerAnalyzer

open Incremental FrameDecoder LineSplitter Delimited

/-! ## The analysis of a part of an upload -/

section Fed

variable {D : Type} [DoubleOps D] {frags : List Bytes} {longest : ℕ}

theorem fed_agg (frags : List Bytes) : (fed D frags).2.1
    = (Aggregator.empty : Aggregator D).addLines
        (atOffsets 0 (keptLines kDefaultMaxLine (fragMarks newline [] frags))) := by
  rw [fed_calls, foldl_onLine]

private theorem length_carry_fed_le (frags : List Bytes) :
    (fed D frags).1.carry.length ≤ kDefaultMaxLine := by
  rw [(advance_fed frags).tracks.carry, fed_maxLine]
  split_ifs with hshort
  · exact hshort
  · exact Nat.zero_le _

/-- **The aggregator in the middle of an upload keeps to its caps**: the lines that it has got are
the first of those that it gets in the end. -/
theorem fits_fed (hlimit : kDefaultMaxLine ≤ longest) (hfrags : ∀ f ∈ frags, f.length ≤ longest) :
    (fed D frags).2.1.Fits frags.flatten.length frags.flatten.length longest := by
  set sofar := keptLines kDefaultMaxLine (fragMarks newline [] frags) with hsofar
  have hinit : sofar <+: uploadCalls frags := List.prefix_append ..
  have hsublist := (uploadLines frags).filter_sublist (p := UploadLine.kept)
  have hlen : sofar.length ≤ frags.flatten.length := by
    refine hinit.length_le.trans ?_
    rw [uploadCalls_eq, List.length_map]
    exact hsublist.length_le.trans (length_uploadLines_le frags)
  have hraw : (sofar.map Prod.snd).sum ≤ frags.flatten.length := by
    refine ((hinit.sublist.map Prod.snd).sum_le_sum fun _ _ ↦ Nat.zero_le _).trans ?_
    rw [uploadCalls_eq, List.map_map, ← sum_raw_uploadLines]
    exact (hsublist.map UploadLine.raw).sum_le_sum fun _ _ ↦ Nat.zero_le _
  have hcalls : ∀ c ∈ atOffsets 0 sofar,
      c.1.length ≤ longest ∧ c.2 ≤ frags.flatten.length := fun c hc ↦ by
    obtain ⟨hmem, hoffset⟩ := offset_le_of_mem_atOffsets hc
    refine ⟨?_, by omega⟩
    obtain ⟨call, hcall, htext⟩ := List.mem_map.mp hmem
    have hall := hinit.subset hcall
    rw [uploadCalls_eq] at hall
    obtain ⟨l, hl, rfl⟩ := List.mem_map.mp hall
    rw [← htext]
    exact length_text_le hlimit hfrags l (List.mem_of_mem_filter hl) (List.of_mem_filter hl)
  have hfits := (Aggregator.fits_empty (D := D) 0 frags.flatten.length longest).addLines hcalls
  rw [length_atOffsets, Nat.zero_add] at hfits
  rw [fed_agg]
  exact hfits.mono hlen

end Fed

/-! ## The upload -/

/-- What is kept of an upload has limits. -/
structure UploadState.Small {D : Type} (u : UploadState D) : Prop where
  name : u.name.length ≤ 0xFFFF
  carry : u.splitter.carry.length ≤ kDefaultMaxLine
  agg : ∃ lines offset, u.agg.Fits lines offset kReadBuffer

namespace Conversation

variable {D : Type} [DoubleOps D]

/-- The upload is the analysis of short pieces, and what is kept of it is small. -/
structure Light (c : Conversation D) : Prop where
  sized : Sized c
  analysed : Analysed c
  small : c.upload.Small

/-- During an upload, what is kept follows from the pieces. -/
theorem small_of_uploading {c : Conversation D} (hsized : Sized c) (hanalysed : Analysed c)
    (state : c.state = .uploading) : c.upload.Small := by
  obtain ⟨hfed, -⟩ := hanalysed.during state
  have hlimit : kDefaultMaxLine ≤ kReadBuffer := by decide
  have hsplitter : c.upload.splitter = (fed D (uploadPieces c.timeline)).1 :=
    congrArg Prod.fst hfed
  have hagg : c.upload.agg = (fed D (uploadPieces c.timeline)).2.1 :=
    congrArg (fun st ↦ st.2.1) hfed
  refine ⟨hsized.name, ?_, ?_⟩
  · rw [hsplitter]
    exact length_carry_fed_le _
  · rw [hagg]
    exact ⟨_, _, fits_fed hlimit hsized.pieces⟩

/-- When the upload is complete, the last line goes to the aggregator. -/
theorem small_finish {c : Conversation D} (hsized : Sized c) (hanalysed : Analysed c)
    (state : c.state = .uploading) : c.upload.finish.Small := by
  obtain ⟨hfed, -⟩ := hanalysed.during state
  have hlimit : kDefaultMaxLine ≤ kReadBuffer := by decide
  have hagg : c.upload.finish.agg = analyzed D (uploadPieces c.timeline) := by
    rw [analyzed, ← hfed]
    rfl
  refine ⟨hsized.name, ?_, ?_⟩
  · have hempty : c.upload.finish.splitter.carry = [] := by
      rw [UploadState.finish, LineSplitter.finish]
      split_ifs with hnone
      · exact hnone
      · rfl
    rw [hempty]
    exact Nat.zero_le _
  · rw [hagg]
    exact ⟨_, _, (fits_analyzed hlimit hsized.pieces).1⟩

/-- No upload, or one of which nothing is in yet. -/
theorem small_reset {u : UploadState D} (name : u.name.length ≤ 0xFFFF)
    (carry : u.splitter.carry = []) (agg : u.agg = Aggregator.empty) : u.Small := by
  refine ⟨name, ?_, ?_⟩
  · rw [carry]
    exact Nat.zero_le _
  · rw [agg]
    exact ⟨0, 0, Aggregator.fits_empty 0 0 kReadBuffer⟩

namespace Light

variable {c c' : Conversation D}

theorem quiet (h : Light c) (hq : Quiet c c') : Light c' :=
  ⟨h.sized.quiet hq, h.analysed.quiet hq, hq.upload ▸ h.small⟩

theorem takes {piece : Bytes} (h : Light c) (hpiece : piece.length ≤ kReadBuffer)
    (ht : Takes piece c c') : Light c' := by
  have hsized := h.sized.takes hpiece ht
  have hanalysed := h.analysed.takes ht
  refine ⟨hsized, hanalysed, ?_⟩
  cases ht with
  | ignored => exact h.small
  | @overrun c₁ _ state beyond sends =>
    -- the piece that is too much is counted, and does not go to the aggregator
    have hupload : c₁.flag.upload = counted piece c.upload := sends.kept.upload
    rw [hupload]
    exact ⟨h.small.name, h.small.carry, h.small.agg⟩
  | fed state => exact small_of_uploading hsized hanalysed state
  | acknowledged state within sends =>
    have htake : (c.take piece).upload.Small :=
      small_of_uploading (h.sized.take hpiece) (h.analysed.take state piece) state
    have hupload : c'.upload = acked (c.take piece).upload := sends.kept.upload
    rw [hupload]
    exact ⟨htake.name, htake.carry, htake.agg⟩

theorem reacts {goesOn : Bool} (h : Light c) (hr : Reacts c c' goesOn) : Light c' := by
  refine ⟨h.sized.reacts hr, h.analysed.reacts hr, ?_⟩
  cases hr with
  | refused why sends => exact sends.kept.upload ▸ h.small
  | greeted state type fields sends => exact sends.kept.upload ▸ h.small
  | scolded state why sends => exact sends.kept.upload ▸ h.small
  | goodbye state type closes => exact closes.kept.upload ▸ h.small
  | nothing => exact h.small
  | began state type fields pos sends =>
    rw [sends.kept.upload]
    exact small_reset (uploadBeginFields_name fields) rfl rfl
  | chunk => exact h.small
  | aborted state why sends => exact sends.kept.upload ▸ h.small
  | cancelled state type sends => exact small_reset (Nat.zero_le _) rfl rfl
  | @finished c₁ utcNow elapsedMs rss state type fields complete sends =>
    have hfinish := small_finish h.sized h.analysed state
    have hupload : (c₁.enter .ready).upload = c.upload.finish.build utcNow elapsedMs rss :=
      sends.kept.upload
    rw [hupload]
    exact ⟨hfinish.name, hfinish.carry, hfinish.agg⟩
  | closing => exact h.small

theorem turn {p data p' : Bytes} {left : Option Bytes} (h : Light c)
    (hdata : data.length ≤ kReadBuffer) (ht : Turn p data c left p' c') : Light c' := by
  have hsized := h.sized.turn hdata ht
  have hanalysed := h.analysed.turn ht
  have hpiece : ∀ {piece : Option Bytes} {c' : Conversation D},
      (∀ b ∈ piece, b.length ≤ kReadBuffer) → TakesPiece piece c c' → Light c' :=
    fun hlen htakes ↦ by
      cases htakes with
      | none => exact h
      | some takes => exact h.takes (hlen _ rfl) takes
  refine ⟨hsized, hanalysed, ?_⟩
  cases ht with
  | more next holds' asked takes =>
    exact (hpiece (length_pieceOf_le ((List.drop_sublist ..).length_le.trans hdata)) takes).small
  | fail next holds' error sends => exact sends.kept.upload ▸ h.small
  | @item d f rest c₁ c₂ goesOn next completed asked takes reacts =>
    have hshort := (length_drop_of_item next).trans hdata
    have hlight := hpiece (length_pieceOf_le hshort) takes
    have hdecoder : Light { c₁ with decoder := d } :=
      ⟨⟨hlight.sized.name, hlight.sized.received, hlight.sized.pieces⟩,
        ⟨hlight.analysed.maxLine, hlight.analysed.during, hlight.analysed.result⟩, hlight.small⟩
    exact ((hdecoder.quiet (.receive _)).reacts reacts).small

theorem timesOut (h : Light c) (ht : TimesOut c c') : Light c' := by
  refine ⟨h.sized.timesOut ht, h.analysed.timesOut ht, ?_⟩
  cases ht with
  | waited => exact h.small
  | gaveUp state sends closes =>
    exact (closes.kept.upload.trans sends.kept.upload) ▸ h.small
  | idle state sends => exact sends.kept.upload ▸ h.small

end Light

theorem light_invariant :
    Invariant (fun (_ : Conversation D) data ↦ data.length ≤ kReadBuffer) (fun _ c ↦ Light c) where
  turn _ _ _ hdata h ht := h.turn hdata ht
  closes h hc := h.quiet hc.quiet
  handleClosed h := h.quiet (.note _ (by simp) (by simp))

end Conversation

/-! ## The session -/

theorem FrameDecoder.At.length_payload_le {d : FrameDecoder} {p : Bytes} (h : At d p) :
    d.payload.length ≤ kMaxPayload := by
  cases h with
  | head _ _ _ payload => exact payload ▸ Nat.zero_le _
  | bad _ _ _ _ payload => exact payload ▸ Nat.zero_le _
  | body inside =>
    have hgood := inside.good
    have htotal := inside.lt_total
    rw [inside.payload]
    split_ifs
    · exact Nat.zero_le _
    · rw [headerError] at hgood
      split_ifs at hgood with hmagic hversion hmax
      rw [List.length_drop]
      omega

namespace TcpSession

open Conversation

variable {D : Type} [DoubleOps D]

/-- What a session keeps, but for the queue and the result: no list of them is longer than the code
allows. -/
structure Bounded (s : TcpSession D) : Prop where
  payload : s.decoder.payload.length ≤ kMaxPayload
  clientName : s.clientName.length ≤ 0xFFFF
  name : s.upload.name.length ≤ 0xFFFF
  carry : s.upload.splitter.carry.length ≤ kDefaultMaxLine
  buckets : s.upload.agg.buckets.length ≤ Aggregator.kMaxBuckets
  excerpts : ∀ r, (s.upload.agg.corrupt r).excerpt.length ≤ 166
  modules : s.upload.agg.rejectedModules.length ≤ Aggregator.kMaxRejectedModules
  moduleNames : ∀ e ∈ s.upload.agg.rejectedModules, e.1.length ≤ kReadBuffer
  firstTs : s.upload.agg.firstTs.length ≤ 26
  lastTs : s.upload.agg.lastTs.length ≤ 26

/-- **What a session keeps is bounded** in every run, whatever it is sent and however long the
uploads are. So is the result, as long as the numbers in it fit: the counters of the code have 64
bits, and up to there they are those of the model. -/
theorem bounded_run {config : SessionConfig} {env : Env} {events : List Event}
    (hreads : Buffered events) :
    Bounded ((start (D := D) config env).run events) ∧ (env.Fits →
      (uploadPieces ((start (D := D) config env).run events).timeline).flatten.length < 2 ^ 64 →
        ((start (D := D) config env).run events).upload.resultCsv.length < 64 * 1024 * 1024) := by
  refine ⟨?_, fun henv hsize ↦ length_resultCsv_lt henv hreads (.inl rfl) hsize⟩
  have hstart : Light (start (D := D) config env).conversation := by
    refine ⟨⟨Nat.zero_le _, Nat.two_pow_pos 64, fun _ hmem ↦ absurd hmem List.not_mem_nil⟩, ?_, ?_⟩
    · exact .of_idle rfl (by simp [conversation, start]) rfl
    · exact small_reset (Nat.zero_le _) rfl rfl
  obtain ⟨p, holds, hlight⟩ := light_invariant.run (fun _ _ _ _ ↦ Light.timesOut)
    (sits_start hstart) (hreads.runRounds _)
  have hqueued := queued_run (D := D) config env events
  set s := (start (D := D) config env).run events
  obtain ⟨hname, hcarry, lines, offset, hagg⟩ := hlight.small
  exact ⟨holds.length_payload_le, hqueued.clientName, hname, hcarry, hagg.buckets,
    fun r ↦ (hagg.samples r).excerpt, hagg.rejectedModules, hagg.names, hagg.firstTs, hagg.lastTs⟩

/-- A whole upload in one read. -/
theorem bounded_run_one_line :
    Bounded ((start (D := ℚ) plainConfig (stoppedEnv noon)).run [.read oneRead]) ∧
      ((start (D := ℚ) plainConfig (stoppedEnv noon)).run [.read oneRead]).upload.resultCsv.length
        < 64 * 1024 * 1024 := by
  have hlen : oneRead.length ≤ kReadBuffer := by decide +kernel
  have hreads : Buffered [.read oneRead] := fun data hdata ↦ by
    rw [Event.read.inj (List.mem_singleton.mp hdata)]
    exact hlen
  have hpieces : (uploadPieces ((start (D := ℚ) plainConfig (stoppedEnv noon)).run
      [.read oneRead]).timeline).flatten = [ascii "a\n"].flatten := atHand_oneRead.cut.flatten
  refine (bounded_run hreads).imp_right fun hresult ↦ hresult (fits_stoppedEnv noon) ?_
  rw [hpieces]
  decide

end TcpSession

end LoggerAnalyzer
