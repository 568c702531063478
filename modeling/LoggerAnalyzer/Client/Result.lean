import LoggerAnalyzer.Client.Readers
import LoggerAnalyzer.Session.Earned

/-!
# Receiving the result

After ANALYZE_DONE the server sends the result in frames. The two clients check its size at
different times and in different types; `gather` is the loop that both have in common, with the
bound at which it gives up as a parameter, and `Delivers` says what a sequence of frames has to be.
-/

namespace LoggerAnalyzer

open Program

/-! ## The sequence of frames -/

/-- The frames begin with a RESULT_BEGIN that declares as many bytes as `csv` has, then
RESULT_CHUNKs that make up `csv`, then a RESULT_END. -/
def Delivers (frames : List (MsgType × Bytes)) (csv : Bytes) : Prop :=
  ∃ (declaration : Bytes) (chunks : List Bytes) (mark : Bytes) (rest : _),
    frames = (.resultBegin, declaration)
      :: (chunks.map (fun chunk ↦ (.resultChunk, chunk)) ++ (.resultEnd, mark) :: rest) ∧
    8 ≤ declaration.length ∧ (loadBe64 declaration).toNat = csv.length ∧ chunks.flatten = csv

/-- The loop over the chunks, up to `bound` bytes. -/
def gather (bound : ℕ) : Bytes → List (MsgType × Bytes) → Option Bytes
  | _, [] => none
  | csv, (type, payload) :: frames =>
    if type = .resultChunk then
      if bound < (csv ++ payload).length then none else gather bound (csv ++ payload) frames
    else if type = .resultEnd then some csv
    else none

theorem gather_chunks {bound : ℕ} (csv : Bytes) {chunks : List Bytes}
    (hle : (csv ++ chunks.flatten).length ≤ bound) (mark : Bytes) (rest : List (MsgType × Bytes)) :
    gather bound csv (chunks.map (fun chunk ↦ (.resultChunk, chunk)) ++ (.resultEnd, mark) :: rest)
      = some (csv ++ chunks.flatten) := by
  induction chunks generalizing csv with
  | nil =>
    rw [List.flatten_nil, List.append_nil, List.map_nil, List.nil_append, gather,
      if_neg (by decide), if_pos rfl]
  | cons chunk chunks ih =>
    rw [List.flatten_cons, ← List.append_assoc] at hle ⊢
    have hlen := hle
    rw [List.length_append] at hlen
    rw [List.map_cons, List.cons_append, gather, if_pos rfl, if_neg (by omega), ih _ hle]

theorem chunks_of_gather {bound : ℕ} {csv all : Bytes} {frames : List (MsgType × Bytes)}
    (h : gather bound csv frames = some all) :
    ∃ (chunks : List Bytes) (mark : Bytes) (rest : _),
      frames = chunks.map (fun chunk ↦ (.resultChunk, chunk)) ++ (.resultEnd, mark) :: rest ∧
      csv ++ chunks.flatten = all := by
  induction frames generalizing csv with
  | nil => cases h
  | cons f frames ih =>
    obtain ⟨type, payload⟩ := f
    rw [gather] at h
    split_ifs at h with hchunk hlong hend
    · obtain ⟨chunks, mark, rest, rfl, rfl⟩ := ih h
      refine ⟨payload :: chunks, mark, rest, by rw [hchunk]; rfl, ?_⟩
      rw [List.flatten_cons, List.append_assoc]
    · obtain rfl := Option.some.inj h
      exact ⟨[], payload, frames, by rw [hend]; rfl, List.append_nil _⟩

/-- The loop, with a bound that is not reached, after a RESULT_BEGIN. -/
theorem delivers_iff {bound : ℕ} {csv : Bytes} (hle : csv.length ≤ bound)
    (frames : List (MsgType × Bytes)) :
    Delivers frames csv ↔ ∃ declaration rest, frames = (.resultBegin, declaration) :: rest ∧
      8 ≤ declaration.length ∧ (loadBe64 declaration).toNat = csv.length ∧
      gather bound [] rest = some csv := by
  constructor
  · rintro ⟨declaration, chunks, mark, rest, rfl, hlen, hdeclared, rfl⟩
    exact ⟨declaration, _, rfl, hlen, hdeclared, gather_chunks [] hle mark rest⟩
  · rintro ⟨declaration, rest, rfl, hlen, hdeclared, hgather⟩
    obtain ⟨chunks, mark, rest', rfl, rfl⟩ := chunks_of_gather hgather
    exact ⟨declaration, chunks, mark, rest', rfl, hlen, hdeclared, rfl⟩

/-! ## Reading frames off the stream -/

variable {σ κ α : Type}

/-- The program gives the value, with nothing changed but the link, or fails if there is none. -/
def Ends (m : Act Incoming κ α) (e : Endpoint Incoming κ) (o : Option α) : Prop :=
  Yields m e (fun a e' ↦ o = some a ∧ ∃ s, e' = e.onto s) fun _ _ ↦ o = none

/-- The reader takes one frame after another, in the states of the client that `Ok` holds of. -/
structure TakesFrames (read : Act Incoming κ Frame) (Ok : κ → Prop) : Prop where
  frame : ∀ (e : Endpoint Incoming κ) (type : MsgType) (payload rest : Bytes), Ok e.own →
    payload.length ≤ kMaxPayload → e.outside.bytes = serializeFrame type payload ++ rest →
    Yields read e (fun f e' ↦ f = ⟨frameHeader type payload, payload⟩ ∧
      ∃ s, e' = e.onto s ∧ s.bytes = rest) fun _ _ ↦ False
  nothing : ∀ e : Endpoint Incoming κ, Ok e.own → e.outside.bytes = [] →
    Yields read e (fun _ _ ↦ False) fun _ _ ↦ True

theorem takesFrames_readFrameWith {refuse : FrameHeader → Option Failure}
    (hrefuse : ∀ h, (refuse h).isSome = (headerError h).isSome) (heeds : Bool) (idleMs idleMs' : ℕ)
    (Ok : κ → Prop) :
    TakesFrames (Act.readFrameWith refuse (Act.recvExactly Incoming.link heeds idleMs)
      (Act.recvExactly Incoming.link heeds idleMs')) Ok := by
  constructor
  · intro e type payload rest _ hsmall hbytes
    have hrun := run_readFrameWith refuse heeds idleMs idleMs' e
    have haccepts : accepts (fun h ↦ (refuse h).isSome) e.outside.bytes
        = some ⟨type, payload, kHeaderSize + payload.length⟩ := by
      simp only [hrefuse]
      rw [hbytes, accepts_headerError, nextFrame_serializeFrame hsmall]
      dsimp only
      rw [List.length_append, Nat.add_sub_cancel, length_serializeFrame]
      rfl
    rw [haccepts, hbytes, decodeHeader_serializeFrame] at hrun
    obtain ⟨s, hok, -, -, hleft⟩ := hrun
    rw [Yields, hok]
    exact ⟨rfl, s, rfl, hleft.trans (List.drop_left' (length_serializeFrame type payload))⟩
  · intro e _ hbytes
    have hrun := run_readFrameWith refuse heeds idleMs idleMs' e
    rw [hbytes] at hrun
    obtain ⟨f, e', herror⟩ := hrun
    rw [Yields, herror]
    trivial

theorem TransferClient.takesFrames_readFrame (idleMs : ℕ) :
    TakesFrames (TransferClient.readFrame Incoming.link idleMs) fun _ ↦ True :=
  takesFrames_readFrameWith TransferClient.refuse_isSome true idleMs idleMs _

/-- Waiting changes nothing but what is left of the waits. -/
theorem pause_incoming (heeds : Bool) (e : Endpoint Incoming κ) :
    Yields (Act.pause Incoming.link heeds) e
      (fun _ e' ↦ ∃ s, e' = e.onto s ∧ s.bytes = e.outside.bytes) fun _ _ ↦ False := by
  refine (Act.yields_pause Incoming.laws heeds e).mono ?_ ?_
  · rintro _ _ ⟨s, hmoves, rfl⟩
    exact ⟨s, rfl, hmoves.symm⟩
  · rintro _ _ ⟨-, -, s, -, hdown, -⟩
    exact hdown

theorem ServerConnection.takesFrames_readFrameOrCancel (fuel : ℕ) :
    TakesFrames (ServerConnection.readFrameOrCancel Incoming.link fuel)
      fun c ↦ c.disposed = false := by
  have hinner := takesFrames_readFrameWith ServerConnection.refuse_isSome false
    ServerConnection.syncReadTimeoutMs ServerConnection.syncReadTimeoutMs
    fun c : ServerConnection ↦ c.disposed = false
  have hpause : ∀ e : Endpoint Incoming ServerConnection, ∀ handle,
      Yields (tryCatch (Act.pause Incoming.link true) handle) e
        (fun _ e' ↦ ∃ s, e' = e.onto s ∧ s.bytes = e.outside.bytes) fun _ _ ↦ False := fun e _ ↦
    Yields.tryCatch (pause_incoming true e) fun _ _ h ↦ h.elim
  constructor
  · intro e type payload rest husable hsmall hbytes
    refine Yields.bind ((hpause e _).mono (fun _ _ h ↦ h) fun _ _ h ↦ h) ?_
    rintro _ _ ⟨s, rfl, hsame⟩
    rw [Yields, ServerConnection.readFrameAsync_eq _ _ (e := e.onto s) husable]
    exact hinner.frame (e.onto s) type payload rest husable hsmall (hsame.trans hbytes)
  · intro e husable hbytes
    refine Yields.bind ((hpause e _).mono (fun _ _ h ↦ h) fun _ _ h ↦ h.elim) ?_
    rintro _ _ ⟨s, rfl, hsame⟩
    rw [Yields, ServerConnection.readFrameAsync_eq _ _ (e := e.onto s) husable]
    exact hinner.nothing (e.onto s) husable (hsame.trans hbytes)

/-! ## The loops -/

/-- The loop over the chunks, as both clients have it: it fails at a chunk that makes more than
`bound` bytes, and at any other frame that is not the end. -/
def GathersChunks (read : ℕ → Act σ κ Frame) (bound : ℕ)
    (loop : ℕ → Bytes → Act σ κ Bytes) : Prop :=
  ∃ (tooMany : Failure) (refused unexpected : Frame → Failure), ∀ fuel csv,
    loop (fuel + 1) csv = read fuel >>= fun f ↦
      if f.header.type = .resultChunk then
        if bound < (csv ++ f.payload).length then throw tooMany else loop fuel (csv ++ f.payload)
      else if f.header.type = .resultEnd then pure csv
      else if f.header.type = .error then throw (refused f)
      else throw (unexpected f)

theorem TransferClient.gathersChunks (link : Link σ) (declared : ℕ) :
    GathersChunks (fun _ ↦ TransferClient.readFrame link kIdleTimeoutMs) declared
      (TransferClient.receiveChunks link declared) := ⟨_, _, _, fun _ _ ↦ rfl⟩

theorem ServerConnection.gathersChunks (link : Link σ) :
    GathersChunks (ServerConnection.readFrameOrCancel link) maxStream
      (ServerConnection.receiveChunks link) := ⟨_, _, _, fun _ _ ↦ rfl⟩

/-- What the loop makes of the frames that are on their way. -/
theorem GathersChunks.ends {read : ℕ → Act Incoming κ Frame} {bound : ℕ}
    {loop : ℕ → Bytes → Act Incoming κ Bytes} (h : GathersChunks read bound loop) {Ok : κ → Prop}
    (hread : ∀ fuel, TakesFrames (read fuel) Ok) {fuel : ℕ} {frames : List (MsgType × Bytes)}
    (hsmall : ∀ f ∈ frames, f.2.length ≤ kMaxPayload) (hfuel : frames.length < fuel) (csv : Bytes)
    {e : Endpoint Incoming κ} (hok : Ok e.own) (hbytes : e.outside.bytes = wire frames) :
    Ends (loop fuel csv) e (gather bound csv frames) := by
  obtain ⟨tooMany, refused, unexpected, hloop⟩ := h
  induction frames generalizing fuel csv e with
  | nil =>
    obtain ⟨fuel, rfl⟩ := Nat.exists_eq_add_of_le' hfuel
    rw [List.length_nil, hloop]
    exact Yields.bind (((hread fuel).nothing e hok hbytes).mono (fun _ _ h ↦ h) fun _ _ _ ↦ rfl)
      fun _ _ h ↦ h.elim
  | cons f frames ih =>
    obtain ⟨type, payload⟩ := f
    rw [List.forall_mem_cons] at hsmall
    obtain ⟨fuel, rfl⟩ := Nat.exists_eq_add_of_le' (Nat.zero_lt_of_lt hfuel)
    rw [hloop]
    refine Yields.bind (((hread fuel).frame e type payload (wire frames) hok hsmall.1 hbytes).mono
      (fun _ _ h ↦ h) fun _ _ h ↦ h.elim) ?_
    rintro _ _ ⟨rfl, s, rfl, hleft⟩
    rw [gather]
    -- a chunk that fits or does not, the RESULT_END, or something else
    refine Yields.ite (fun (hchunk : type = .resultChunk) ↦ ?_)
      fun (hchunk : ¬ type = .resultChunk) ↦ ?_
    · rw [if_pos hchunk]
      refine Yields.ite (fun hlong ↦ ?_) fun hlong ↦ ?_
      · rw [if_pos hlong]
        exact Yields.throw rfl
      · rw [if_neg hlong]
        exact ih hsmall.2 (Nat.lt_of_succ_lt_succ hfuel) (csv ++ payload) hok hleft
    rw [if_neg hchunk]
    refine Yields.ite (fun (hend : type = .resultEnd) ↦ ?_)
      fun (hend : ¬ type = .resultEnd) ↦ ?_
    · rw [if_pos hend]
      exact ⟨rfl, s, rfl⟩
    rw [if_neg hend]
    exact Yields.ite (fun _ ↦ Yields.throw rfl) fun _ ↦ Yields.throw rfl

/-! ## The clients -/

/-- A number at the front of a payload is read if there are bytes enough. -/
theorem u64_new (payload : Bytes) :
    (PayloadReader.new payload).u64.1
      = if 8 ≤ payload.length then some (loadBe64 payload) else none := by
  by_cases hlen : 8 ≤ payload.length <;>
    simp [PayloadReader.u64, PayloadReader.field, PayloadReader.has, PayloadReader.new,
      PayloadReader.remaining, PayloadReader.ahead, hlen]

theorem Client.u64_new (payload : Bytes) :
    (Client.PayloadReader.new payload).u64.1
      = if 8 ≤ payload.length then some (loadBe64 payload) else none := by
  obtain ⟨-, heq⟩ := Client.PayloadReader.follows_field 8 loadBe64
    (Client.PayloadReader.new payload) rfl
  rw [← LoggerAnalyzer.u64_new payload]
  exact congrArg Prod.fst heq

theorem Delivers.unique {frames : List (MsgType × Bytes)} {csv csv' : Bytes}
    (h : Delivers frames csv) (h' : Delivers frames csv') : csv = csv' := by
  obtain ⟨declaration, rest, rfl, -, -, hgather⟩ :=
    (delivers_iff (Nat.le_max_left _ csv'.length) frames).mp h
  obtain ⟨_, _, heq, -, -, hgather'⟩ :=
    (delivers_iff (Nat.le_max_right csv.length _) _).mp h'
  obtain ⟨-, rfl⟩ := List.cons.inj heq
  exact Option.some.inj (hgather.symm.trans hgather')

theorem Delivers.begins {type : MsgType} {declaration csv : Bytes}
    {frames : List (MsgType × Bytes)} (h : Delivers ((type, declaration) :: frames) csv) :
    type = .resultBegin ∧ 8 ≤ declaration.length ∧
      (loadBe64 declaration).toNat = csv.length := by
  obtain ⟨_, _, _, _, heq, hlen, hdeclared, -⟩ := h
  cases heq
  exact ⟨rfl, hlen, hdeclared⟩

/-- The sizes are admissible, and the frames deliver the result. -/
structure Acceptable (csvSize : UInt64) (frames : List (MsgType × Bytes)) (csv : Bytes) : Prop where
  csvSize : csvSize.toNat ≤ TransferClient.kMaxCsvBytes
  length : csv.length ≤ TransferClient.kMaxCsvBytes
  delivers : Delivers frames csv

theorem Acceptable.gather_eq {csvSize : UInt64} {type : MsgType} {declaration csv : Bytes}
    {frames : List (MsgType × Bytes)} (h : Acceptable csvSize ((type, declaration) :: frames) csv)
    {bound : ℕ} (hle : csv.length ≤ bound) : gather bound [] frames = some csv := by
  obtain ⟨_, _, heq, -, -, hgather⟩ := (delivers_iff hle _).mp h.delivers
  obtain ⟨-, rfl⟩ := List.cons.inj heq
  exact hgather

theorem TransferClient.yields_receiveResult (csvSize : UInt64) {fuel : ℕ}
    {frames : List (MsgType × Bytes)} (hsmall : ∀ f ∈ frames, f.2.length ≤ kMaxPayload)
    (hfuel : frames.length < fuel) {e : Endpoint Incoming TransferClient}
    (hbytes : e.outside.bytes = wire frames) :
    Yields (TransferClient.receiveResult Incoming.link fuel csvSize) e
      (fun _ e' ↦ Acceptable csvSize frames e'.own.csv)
      fun _ _ ↦ ∀ csv, ¬ Acceptable csvSize frames csv := by
  rw [TransferClient.receiveResult]
  refine Yields.ite (fun hlarge ↦ ?_) fun hsize ↦ ?_
  · exact Yields.throw fun csv h ↦ Nat.not_lt.mpr h.csvSize hlarge
  -- the first frame has to be a RESULT_BEGIN
  cases frames with
  | nil =>
    refine Yields.bind (((takesFrames_readFrame kIdleTimeoutMs).nothing e trivial hbytes).mono
      (fun _ _ h ↦ h) ?_) fun _ _ h ↦ h.elim
    rintro _ _ - csv ⟨-, -, _, _, _, _, hnil, -⟩
    cases hnil
  | cons f frames =>
    obtain ⟨type, payload⟩ := f
    rw [List.forall_mem_cons] at hsmall
    refine Yields.bind (((takesFrames_readFrame kIdleTimeoutMs).frame e type payload
      (wire frames) trivial hsmall.1 hbytes).mono (fun _ _ h ↦ h) fun _ _ h ↦ h.elim) ?_
    rintro _ _ ⟨rfl, s, rfl, hleft⟩
    refine Yields.ite (fun (herror : type = .error) ↦ ?_) fun _ ↦ ?_
    · refine Yields.throw ?_
      intro csv h
      rw [h.delivers.begins.1] at herror
      exact absurd herror (by decide)
    refine Yields.ite (fun (hother : type ≠ .resultBegin) ↦ ?_) fun (hbegin : ¬ type ≠ _) ↦ ?_
    · exact Yields.throw fun csv h ↦ hother h.delivers.begins.1
    dsimp only
    -- the declared size, if the payload has room for one
    rw [Client.u64_new]
    by_cases hlen : 8 ≤ payload.length
    · rw [if_pos hlen]
      refine Yields.ite (fun hlarge ↦ ?_) fun hdeclared ↦ ?_
      · refine Yields.throw fun csv h ↦ Nat.not_lt.mpr h.length ?_
        rwa [← h.delivers.begins.2.2]
      -- the chunks, which may never be more than was declared
      refine Yields.bind (((gathersChunks Incoming.link _).ends
        (fun _ ↦ takesFrames_readFrame kIdleTimeoutMs) hsmall.2 (Nat.lt_of_succ_lt hfuel) []
        (e := e.onto s) trivial hleft).mono (fun _ _ h ↦ h) ?_) ?_
      · intro _ _ hnone csv h
        rw [h.gather_eq (Nat.le_of_eq h.delivers.begins.2.2.symm)] at hnone
        cases hnone
      rintro csv _ ⟨hgather, s', rfl⟩
      refine Yields.ite (fun hne ↦ ?_) fun heq ↦ ?_
      · refine Yields.throw fun csv' h ↦ hne ?_
        rw [h.gather_eq (Nat.le_of_eq h.delivers.begins.2.2.symm)] at hgather
        rw [← Option.some.inj hgather, h.delivers.begins.2.2]
      · obtain ⟨chunks, mark, rest, rfl, rfl⟩ := chunks_of_gather hgather
        have hlength := (not_not.mp heq).symm
        refine ⟨Nat.not_lt.mp hsize, ?_, payload, chunks, mark, rest, ?_, hlen, hlength, rfl⟩
        · rw [← hlength]
          exact Nat.not_lt.mp hdeclared
        · rw [not_not.mp hbegin]
    · rw [if_neg hlen]
      exact Yields.throw fun csv h ↦ hlen h.delivers.begins.2.1

theorem ServerConnection.yields_receiveResult (csvSize : UInt64) {fuel : ℕ}
    {frames : List (MsgType × Bytes)} (hsmall : ∀ f ∈ frames, f.2.length ≤ kMaxPayload)
    (hfuel : frames.length < fuel) {e : Endpoint Incoming ServerConnection}
    (husable : e.own.disposed = false) (hbytes : e.outside.bytes = wire frames) :
    Yields (ServerConnection.receiveResult Incoming.link fuel csvSize.toInt64) e
      (fun text _ ↦ ∃ csv, Acceptable csvSize frames csv ∧ text = getString csv)
      fun _ _ ↦ ∀ csv, ¬ Acceptable csvSize frames csv := by
  rw [ServerConnection.receiveResult]
  refine Yields.ite (fun hrange ↦ ?_) fun hsize ↦ ?_
  · exact Yields.throw fun csv h ↦
      Nat.not_lt.mpr h.csvSize ((lt_zero_or_maxCsv_lt_iff csvSize).mp hrange)
  -- the first frame has to be a RESULT_BEGIN
  cases frames with
  | nil =>
    refine Yields.bind (((takesFrames_readFrameOrCancel _).nothing e husable hbytes).mono
      (fun _ _ h ↦ h) ?_) fun _ _ h ↦ h.elim
    rintro _ _ - csv ⟨-, -, _, _, _, _, hnil, -⟩
    cases hnil
  | cons f frames =>
    obtain ⟨type, payload⟩ := f
    rw [List.forall_mem_cons] at hsmall
    refine Yields.bind (((takesFrames_readFrameOrCancel _).frame e type payload
      (wire frames) husable hsmall.1 hbytes).mono (fun _ _ h ↦ h) fun _ _ h ↦ h.elim) ?_
    rintro _ _ ⟨rfl, s, rfl, hleft⟩
    refine Yields.ite (fun (herror : type = .error) ↦ ?_) fun _ ↦ ?_
    · refine Yields.throw ?_
      intro csv h
      rw [h.delivers.begins.1] at herror
      exact absurd herror (by decide)
    refine Yields.ite (fun (hother : type ≠ .resultBegin) ↦ ?_) fun (hbegin : ¬ type ≠ _) ↦ ?_
    · exact Yields.throw fun csv h ↦ hother h.delivers.begins.1
    dsimp only
    -- the declared size, if the payload has room for one
    rw [u64_new]
    by_cases hlen : 8 ≤ payload.length
    · rw [if_pos hlen]
      refine Yields.ite (fun hlarge ↦ ?_) fun hdeclared ↦ ?_
      · have hlarge' := (lt_zero_or_maxCsv_lt_iff _).mp (.inr hlarge)
        refine Yields.throw fun csv h ↦ Nat.not_lt.mpr h.length ?_
        rwa [← h.delivers.begins.2.2]
      -- the chunks; only behind the RESULT_END their length is compared with the size
      refine Yields.bind (((gathersChunks Incoming.link).ends takesFrames_readFrameOrCancel hsmall.2
        (Nat.lt_of_succ_lt hfuel) [] (e := e.onto s) husable hleft).mono (fun _ _ h ↦ h) ?_) ?_
      · intro _ _ hnone csv h
        rw [h.gather_eq (Nat.le_trans h.length (by decide))] at hnone
        cases hnone
      rintro csv _ ⟨hgather, s', rfl⟩
      refine Yields.ite (fun hne ↦ ?_) fun heq ↦ ?_
      · refine Yields.throw fun csv' h ↦ hne ?_
        rw [h.gather_eq (Nat.le_trans h.length (by decide))] at hgather
        have hlength := h.delivers.begins.2.2
        rw [← Option.some.inj hgather]
        refine (eq_toInt64_iff _ _).mpr ⟨?_, hlength⟩
        rw [hlength]
        exact Nat.lt_of_le_of_lt h.length (by decide)
      · obtain ⟨chunks, mark, rest, rfl, rfl⟩ := chunks_of_gather hgather
        obtain ⟨hsmall', hlength⟩ := (eq_toInt64_iff _ _).mp (not_not.mp heq)
        have hbound : ¬ 64 * 1024 * 1024 < (loadBe64 payload).toNat := fun hlt ↦
          ((lt_zero_or_maxCsv_lt_iff _).mpr hlt).elim (fun hneg ↦ by
            rw [Int64.lt_iff_toInt_lt, toInt_toInt64, if_pos hsmall'] at hneg
            exact absurd hneg (Int.not_lt.mpr (Int.natCast_nonneg _))) hdeclared
        refine ⟨_, ⟨?_, ?_, payload, chunks, mark, rest, ?_, hlen, hlength, rfl⟩, rfl⟩
        · exact Nat.not_lt.mp fun hlt ↦ hsize ((lt_zero_or_maxCsv_lt_iff csvSize).mpr hlt)
        · rw [← hlength]
          exact Nat.not_lt.mp hbound
        · rw [not_not.mp hbegin]
    · rw [if_neg hlen]
      exact Yields.throw fun csv h ↦ hlen h.delivers.begins.2.1

/-- The result that the C++ client has in the end, if it accepts one. -/
def TransferClient.receivedCsv (fuel : ℕ) (csvSize : UInt64) (c : TransferClient)
    (input : Incoming) : Option Bytes :=
  match TransferClient.receiveResult Incoming.link fuel csvSize
    ⟨input, c, .resultRead, [], [], []⟩ with
  | .ok _ e => some e.own.csv
  | .error _ _ => none

/-- The result that the C# client has in the end, if it accepts one. -/
def ServerConnection.receivedText (fuel : ℕ) (csvSize : UInt64) (c : ServerConnection)
    (input : Incoming) : Option Bytes :=
  match ServerConnection.receiveResult Incoming.link fuel csvSize.toInt64
    ⟨input, c, .resultRead, [], [], []⟩ with
  | .ok text _ => some text
  | .error _ _ => none

theorem TransferClient.receivedCsv_iff (csvSize : UInt64) {fuel : ℕ}
    {frames : List (MsgType × Bytes)} (hsmall : ∀ f ∈ frames, f.2.length ≤ kMaxPayload)
    (hfuel : frames.length < fuel) (c : TransferClient) {input : Incoming}
    (hbytes : input.bytes = wire frames) (csv : Bytes) :
    TransferClient.receivedCsv fuel csvSize c input = some csv ↔ Acceptable csvSize frames csv := by
  have hyields := yields_receiveResult csvSize hsmall hfuel
    (e := ⟨input, c, .resultRead, [], [], []⟩) hbytes
  rw [Yields] at hyields
  rw [receivedCsv]
  cases hrun : receiveResult Incoming.link fuel csvSize ⟨input, c, .resultRead, [], [], []⟩ with
  | ok u e =>
    rw [hrun] at hyields
    constructor
    · intro h
      rwa [← Option.some.inj h]
    · exact fun h ↦ congrArg some (hyields.delivers.unique h.delivers)
  | error f e =>
    rw [hrun] at hyields
    exact ⟨by simp, fun h ↦ (hyields csv h).elim⟩

theorem ServerConnection.receivedText_iff (csvSize : UInt64) {fuel : ℕ}
    {frames : List (MsgType × Bytes)} (hsmall : ∀ f ∈ frames, f.2.length ≤ kMaxPayload)
    (hfuel : frames.length < fuel) {c : ServerConnection} (husable : c.disposed = false)
    {input : Incoming} (hbytes : input.bytes = wire frames) (text : Bytes) :
    ServerConnection.receivedText fuel csvSize c input = some text ↔
      ∃ csv, Acceptable csvSize frames csv ∧ text = getString csv := by
  have hyields := yields_receiveResult csvSize hsmall hfuel
    (e := ⟨input, c, .resultRead, [], [], []⟩) husable hbytes
  rw [Yields] at hyields
  rw [receivedText]
  cases hrun : receiveResult Incoming.link fuel csvSize.toInt64
    ⟨input, c, .resultRead, [], [], []⟩ with
  | ok text' e =>
    rw [hrun] at hyields
    obtain ⟨csv, haccept, htext⟩ := hyields
    constructor
    · intro h
      exact ⟨csv, haccept, (Option.some.inj h).symm.trans htext⟩
    · rintro ⟨csv', haccept', rfl⟩
      rw [haccept.delivers.unique haccept'.delivers] at htext
      exact congrArg some htext
  | error f e =>
    rw [hrun] at hyields
    constructor
    · simp
    · rintro ⟨csv, h, -⟩
      exact (hyields csv h).elim

/-! ## The server -/

/-- What `send_result_csv` sends is a result that is delivered. -/
theorem delivers_resultFrames {csv : Bytes} (hlen : csv.length < 2 ^ 64) :
    Delivers (Conversation.resultFrames csv) csv := by
  refine ⟨TcpSession.resultBeginPayload csv, TcpSession.resultChunks csv.length csv, [], [], rfl,
    ?_, ?_, Conversation.flatten_resultChunks (Nat.le_refl _)⟩
  · rw [TcpSession.resultBeginPayload, List.length_append, PayloadWriter.length_u64]
    exact Nat.le_add_right ..
  · rw [TcpSession.resultBeginPayload, PayloadWriter.u64, loadBe64_store_append,
      UInt64.toNat_ofNat_of_lt' hlen]

/-- **The delivery of the result.** Both clients accept a sequence of frames or neither does; they
accept it exactly when it delivers a result of an admissible size, and then the C++ client holds the
result and the C# client the text that it is in UTF-8. What `send_result_csv` sends is such a
sequence. -/
theorem result_delivered {D : Type} [DoubleOps D] :
    (∀ (frames : List (MsgType × Bytes)) (csvSize : UInt64) (fuel : ℕ) (cpp : TransferClient)
        (csharp : ServerConnection) (toCpp toCsharp : Incoming),
      (∀ f ∈ frames, f.2.length ≤ kMaxPayload) → frames.length < fuel → csharp.disposed = false →
      toCpp.bytes = wire frames → toCsharp.bytes = wire frames →
      ((TransferClient.receivedCsv fuel csvSize cpp toCpp).isSome
          = (ServerConnection.receivedText fuel csvSize csharp toCsharp).isSome) ∧
        (∀ csv, TransferClient.receivedCsv fuel csvSize cpp toCpp = some csv ↔
          Acceptable csvSize frames csv) ∧
        ∀ csv, Acceptable csvSize frames csv →
          ServerConnection.receivedText fuel csvSize csharp toCsharp = some (getString csv)) ∧
    ∀ s : TcpSession D, s.state ≠ .closing → (∀ n, s.env.uvWrite.get n = true) →
      s.upload.resultCsv.length ≤ TransferClient.kMaxCsvBytes →
      ∃ frames, s.sendResultCsv.timeline = s.timeline ++ frames.map (fun f ↦ .sent f.1 f.2) ∧
        Delivers frames s.upload.resultCsv ∧
        ∀ f ∈ frames, f.1 = .resultChunk → 1 ≤ f.2.length ∧ f.2.length ≤ 65536 := by
  constructor
  · intro frames csvSize fuel cpp csharp toCpp toCsharp hsmall hfuel husable hcpp hcsharp
    have hcsv := TransferClient.receivedCsv_iff csvSize hsmall hfuel cpp hcpp
    have htext := ServerConnection.receivedText_iff csvSize hsmall hfuel husable hcsharp
    refine ⟨?_, hcsv, fun csv h ↦ (htext _).mpr ⟨csv, h, rfl⟩⟩
    rw [Bool.eq_iff_iff, Option.isSome_iff_exists, Option.isSome_iff_exists]
    constructor
    · rintro ⟨csv, h⟩
      exact ⟨_, (htext _).mpr ⟨csv, (hcsv csv).mp h, rfl⟩⟩
    · rintro ⟨text, h⟩
      obtain ⟨csv, haccept, -⟩ := (htext text).mp h
      exact ⟨csv, (hcsv csv).mpr haccept⟩
  · intro s hopen hwritable hsize
    obtain ⟨_, heq, -⟩ := (TcpSession.sendsAll_sendResultCsv s).of_writable hopen hwritable
    refine ⟨Conversation.resultFrames s.upload.resultCsv, congrArg Conversation.timeline heq,
      delivers_resultFrames (Nat.lt_of_le_of_lt hsize (by decide)), fun f hf hchunk ↦ ?_⟩
    rw [Conversation.resultFrames, List.mem_append, List.mem_cons, List.mem_map,
      List.mem_singleton] at hf
    rcases hf with (rfl | ⟨chunk, hmem, rfl⟩) | rfl
    · exact absurd (show MsgType.resultBegin = MsgType.resultChunk from hchunk) (by decide)
    · exact Conversation.length_resultChunks hmem
    · exact absurd (show MsgType.resultEnd = MsgType.resultChunk from hchunk) (by decide)

/-- A result in one chunk. -/
def oneChunk (csv : Bytes) : List (MsgType × Bytes) :=
  [(.resultBegin, storeBe64 (UInt64.ofNat csv.length)), (.resultChunk, csv), (.resultEnd, [])]

/-- The frames arrive at once. -/
def arriving (frames : List (MsgType × Bytes)) : Incoming := ⟨wire frames, fun _ ↦ 100, fun _ ↦ 0⟩

theorem acceptable_oneChunk (csv : Bytes) (hlen : csv.length ≤ TransferClient.kMaxCsvBytes) :
    Acceptable (UInt64.ofNat csv.length) (oneChunk csv) csv := by
  have hnat : (UInt64.ofNat csv.length).toNat = csv.length :=
    UInt64.toNat_ofNat_of_lt' (Nat.lt_of_le_of_lt hlen (by decide))
  refine ⟨?_, hlen, storeBe64 (UInt64.ofNat csv.length), [csv], [], [], rfl, Nat.le_refl _, ?_,
    List.flatten_singleton⟩
  · rwa [hnat]
  · rw [← List.append_nil (storeBe64 _), loadBe64_store_append, hnat]

/-- Two bytes are delivered, and a session that has just begun sends an empty result. -/
theorem result_delivered_two :
    (TransferClient.receivedCsv 4 2 ⟨{}, []⟩ (arriving (oneChunk [97, 98])) = some [97, 98] ∧
      ServerConnection.receivedText 4 2 ⟨{}, false⟩ (arriving (oneChunk [97, 98]))
        = some (getString [97, 98])) ∧
    ∃ frames, ((TcpSession.start (D := ℚ) plainConfig calmEnv).sendResultCsv.timeline
        = [] ++ frames.map fun f ↦ .sent f.1 f.2) ∧ Delivers frames [] ∧
      ∀ f ∈ frames, f.1 = .resultChunk → 1 ≤ f.2.length ∧ f.2.length ≤ 65536 := by
  obtain ⟨-, hcsv, htext⟩ := (result_delivered (D := ℚ)).1 (oneChunk [97, 98]) 2 4 ⟨{}, []⟩
    ⟨{}, false⟩ (arriving (oneChunk [97, 98])) (arriving (oneChunk [97, 98])) (by decide)
      (by decide)
    rfl rfl rfl
  have haccept := acceptable_oneChunk [97, 98] (by decide)
  exact ⟨⟨(hcsv _).mpr haccept, htext _ haccept⟩,
    result_delivered.2 (TcpSession.start (D := ℚ) plainConfig calmEnv) (by decide) (fun _ ↦ rfl)
      (by decide)⟩

/-- A byte that is no UTF-8 is accepted by both, and the C# client holds something else. -/
theorem receivedText_ne_concatenation :
    Acceptable 1 (oneChunk [0xFF]) [0xFF] ∧
      TransferClient.receivedCsv 4 1 ⟨{}, []⟩ (arriving (oneChunk [0xFF])) = some [0xFF] ∧
      ServerConnection.receivedText 4 1 ⟨{}, false⟩ (arriving (oneChunk [0xFF]))
        = some [0xEF, 0xBF, 0xBD] :=
  ⟨acceptable_oneChunk [0xFF] (by decide), by decide +kernel, by decide +kernel⟩

end LoggerAnalyzer
