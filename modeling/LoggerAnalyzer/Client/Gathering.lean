import LoggerAnalyzer.Client.Result

/-!
# What a client holds of a result that arrives

Between RESULT_BEGIN and RESULT_END a client appends one chunk after another to what it holds, and
the server decides how many there are. `Gathers` are the moments at which a client is about to read
on, with what it holds then; `Receiving` are these moments of a whole `receiveResult`, with what
RESULT_BEGIN declared. They are moments of the program itself: a run of it is the run from any of
them on.

## Two limits

`Limited` is what keeps a client from being exhausted. The C++ client compares what it holds with
the declaration after every chunk, and is limited on any connection. The C# client compares it with
the largest size that a stream can have, and looks at the declaration as a signed number; what
limits it is that the server keeps its word.
-/

namespace LoggerAnalyzer

open Program

variable {σ κ α : Type}

/-- A client that reads on as long as it holds at most `limit` bytes is about to read a frame: the
fuel that is left, and what it holds. -/
inductive Gathers (read : ℕ → Act σ κ Frame) (limit start : ℕ) (e : Endpoint σ κ) :
    ℕ → Bytes → Endpoint σ κ → Prop where
  | start : Gathers read limit start e start [] e
  | chunk {fuel csv e₁ f e₂} (before : Gathers read limit start e (fuel + 1) csv e₁)
    (hread : read fuel e₁ = .ok f e₂) (htype : f.header.type = .resultChunk)
    (hroom : (csv ++ f.payload).length ≤ limit) :
    Gathers read limit start e fuel (csv ++ f.payload) e₂

theorem Gathers.length_le {read : ℕ → Act σ κ Frame} {limit start fuel : ℕ} {e e' : Endpoint σ κ}
    {csv : Bytes} (h : Gathers read limit start e fuel csv e') : csv.length ≤ limit := by
  cases h with
  | start => exact Nat.zero_le limit
  | chunk _ _ _ hroom => exact hroom

/-- From every moment on, the rest of the loop is the loop. -/
theorem GathersChunks.of_gathers {read : ℕ → Act σ κ Frame} {limit start fuel : ℕ}
    {loop : ℕ → Bytes → Act σ κ Bytes} (hloop : GathersChunks read limit loop)
    {e e' : Endpoint σ κ} {csv : Bytes} (h : Gathers read limit start e fuel csv e') :
    loop start [] e = loop fuel csv e' := by
  obtain ⟨_, _, _, hloop⟩ := hloop
  induction h with
  | start => rfl
  | chunk _ hread htype hroom ih =>
    rw [ih, hloop, bind_ok hread, if_pos htype, if_neg (Nat.not_lt.mpr hroom)]

/-- **A client cannot be exhausted.** At every moment at which it reads on, what it holds is at most
what was declared, and that is at most 64 MiB; with the chunk that is read next it is at most one
payload more; and the chunk that takes it beyond the declaration is refused when it is read. -/
structure Limited (run : Act σ κ α) (e : Endpoint σ κ) (read : ℕ → Act σ κ Frame)
    (moment : ℕ → ℕ → Bytes → Endpoint σ κ → Prop) : Prop where
  declared_le : ∀ {declared fuel csv e'}, moment declared fuel csv e' →
    declared ≤ 64 * 1024 * 1024
  held_le : ∀ {declared fuel csv e'}, moment declared fuel csv e' → csv.length ≤ declared
  peak_le : ∀ {declared fuel csv e' f e''}, moment declared (fuel + 1) csv e' →
    read fuel e' = .ok f e'' → f.header.type = .resultChunk →
    (csv ++ f.payload).length ≤ declared + kMaxPayload
  refuses : ∀ {declared fuel csv e' f e''}, moment declared (fuel + 1) csv e' →
    read fuel e' = .ok f e'' → f.header.type = .resultChunk →
    declared < (csv ++ f.payload).length →
    Yields run e (fun _ _ ↦ False) fun failure e₁ ↦
      (∃ message, failure = .refused 0 message) ∧ e₁ = e''

/-! ## The moments of a run -/

namespace TransferClient

variable (link : Link σ)

/-- `receive_result` is about to read on, having been told `declared` and holding `csv`. -/
def Receiving (start : ℕ) (expectedSize : UInt64) (e : Endpoint σ TransferClient)
    (declared fuel : ℕ)
    (csv : Bytes) (e' : Endpoint σ TransferClient) : Prop :=
  ¬ kMaxCsvBytes < expectedSize.toNat ∧ ∃ begin e₁ size,
    readFrame link kIdleTimeoutMs e = .ok begin e₁ ∧ begin.header.type = .resultBegin ∧
    (Client.PayloadReader.new begin.payload).u64.1 = some size ∧ ¬ kMaxCsvBytes < size.toNat ∧
    declared = size.toNat ∧
    Gathers (fun _ ↦ readFrame link kIdleTimeoutMs) size.toNat start e₁ fuel csv e'

variable {link}

/-- A failure of the loop, from one of its moments on, is a failure of the whole. -/
theorem Receiving.fails {start fuel declared : ℕ} {expectedSize : UInt64}
    {e e' e'' : Endpoint σ TransferClient} {csv : Bytes} {failure : Failure}
    (h : Receiving link start expectedSize e declared fuel csv e')
    (hloop : receiveChunks link declared fuel csv e' = .error failure e'') :
    Yields (receiveResult link start expectedSize) e (fun _ _ ↦ False)
      fun failure' e₁ ↦ failure' = failure ∧ e₁ = e'' := by
  obtain ⟨hexpected, begin, e₁, size, hread, hbegin, hsize, hle, rfl, hgathers⟩ := h
  rw [← (gathersChunks link _).of_gathers hgathers] at hloop
  have hother : begin.header.type ≠ .error := by
    rw [hbegin]
    decide
  rw [receiveResult]
  refine Yields.failIf (fun hlarge ↦ absurd hlarge hexpected) ?_
  intro _
  refine Yields.bind_of_ok hread ?_
  refine Yields.failIf (fun herror ↦ absurd herror hother) ?_
  intro _
  refine Yields.failIf (fun hne ↦ absurd hbegin hne) ?_
  intro _
  dsimp only
  rw [hsize]
  refine Yields.failIf (fun hlarge ↦ absurd hlarge hle) ?_
  intro _
  exact Yields.bind_of_error hloop ⟨rfl, rfl⟩

/-- The chunk that goes beyond the declaration is refused at once. -/
theorem receiveChunks_over {declared fuel : ℕ} {e e' : Endpoint σ TransferClient} {csv : Bytes}
    {f : Frame} (hread : readFrame link kIdleTimeoutMs e = .ok f e')
    (htype : f.header.type = .resultChunk) (hover : declared < (csv ++ f.payload).length) :
    receiveChunks link declared (fuel + 1) csv e
      = .error (.refused 0 (ascii "result.csv exceeded the declared size")) e' := by
  rw [receiveChunks, bind_ok hread, if_pos htype, if_pos hover]
  rfl

end TransferClient

namespace ServerConnection

variable (link : Link σ)

/-- `ReceiveResultAsync` is about to read on, having been told `declared` and holding `csv`. -/
def Receiving (start : ℕ) (expectedSize : Int64) (e : Endpoint σ ServerConnection)
    (declared fuel : ℕ) (csv : Bytes) (e' : Endpoint σ ServerConnection) : Prop :=
  ¬ (expectedSize < 0 ∨ maxCsv < expectedSize) ∧ ∃ begin e₁ size,
    readFrameOrCancel link start e = .ok begin e₁ ∧ begin.header.type = .resultBegin ∧
    (PayloadReader.new begin.payload).u64.1 = some size ∧ ¬ maxCsv < size.toInt64 ∧
    declared = size.toNat ∧ Gathers (readFrameOrCancel link) maxStream start e₁ fuel csv e'

end ServerConnection

/-! ## The frames that were gathered -/

section Frames

variable {read : ℕ → Act Incoming κ Frame} {Ok : κ → Prop} {limit start fuel : ℕ}
  {e e' : Endpoint Incoming κ} {csv : Bytes} {frames : List (MsgType × Bytes)}

/-- RESULT_CHUNKs. -/
def chunkFrames (chunks : List Bytes) : List (MsgType × Bytes) :=
  chunks.map fun chunk ↦ (.resultChunk, chunk)

theorem chunkFrames_snoc (chunks : List Bytes) (chunk : Bytes) (rest : List (MsgType × Bytes)) :
    chunkFrames (chunks ++ [chunk]) ++ rest
      = chunkFrames chunks ++ (.resultChunk, chunk) :: rest := by
  rw [chunkFrames, List.map_append, List.append_assoc]
  rfl

/-- A frame that was read is the next one. -/
theorem TakesFrames.next (h : TakesFrames (read fuel) Ok)
    (hsmall : ∀ f ∈ frames, f.2.length ≤ kMaxPayload) (hok : Ok e.own)
    (hbytes : e.outside.bytes = wire frames) {f : Frame} (hread : read fuel e = .ok f e') :
    ∃ type payload rest, frames = (type, payload) :: rest ∧ f.header.type = type ∧
      f.payload = payload ∧ e'.own = e.own ∧ e'.outside.bytes = wire rest := by
  cases frames with
  | nil =>
    have hnone := h.nothing e hok hbytes
    rw [Yields, hread] at hnone
    exact hnone.elim
  | cons first rest =>
    obtain ⟨type, payload⟩ := first
    have hframe := h.frame e type payload (wire rest) hok (hsmall _ List.mem_cons_self) hbytes
    rw [Yields, hread] at hframe
    obtain ⟨rfl, s, rfl, hleft⟩ := hframe
    exact ⟨type, payload, rest, rfl, rfl, rfl, rfl, hleft⟩

/-- And the next one can be read. -/
theorem TakesFrames.exists_next (h : TakesFrames (read fuel) Ok) {type : MsgType} {payload : Bytes}
    (hsmall : payload.length ≤ kMaxPayload) (hok : Ok e.own)
    (hbytes : e.outside.bytes = wire ((type, payload) :: frames)) :
    ∃ f e', read fuel e = .ok f e' ∧ f.header.type = type ∧ f.payload = payload ∧
      e'.own = e.own ∧ e'.outside.bytes = wire frames := by
  obtain ⟨f, e', hread, rfl, s, rfl, hleft⟩ :=
    (h.frame e type payload (wire frames) hok hsmall hbytes).exists_ok
  exact ⟨_, _, hread, rfl, rfl, rfl, hleft⟩

/-- What is held are the chunks that were read, one for each round. -/
theorem Gathers.chunks (h : Gathers read limit start e fuel csv e')
    (hread : ∀ fuel, TakesFrames (read fuel) Ok) (hsmall : ∀ f ∈ frames, f.2.length ≤ kMaxPayload)
    (hok : Ok e.own) (hbytes : e.outside.bytes = wire frames) :
    ∃ chunks rest, frames = chunkFrames chunks ++ rest ∧ csv = chunks.flatten ∧
      e'.own = e.own ∧ e'.outside.bytes = wire rest := by
  induction h with
  | start => exact ⟨[], frames, rfl, rfl, rfl, hbytes⟩
  | @chunk _ _ _ f _ _ hframe htype _ ih =>
    obtain ⟨chunks, rest, rfl, rfl, hown, hleft⟩ := ih
    have hsmall' := fun f hf ↦ hsmall f (List.mem_append_right _ hf)
    obtain ⟨type, payload, rest, rfl, rfl, rfl, hown', hleft'⟩ :=
      (hread _).next hsmall' (hown ▸ hok) hleft hframe
    refine ⟨chunks ++ [f.payload], rest, ?_, ?_, hown'.trans hown, hleft'⟩
    · rw [chunkFrames_snoc, htype]
    · rw [List.flatten_append, List.flatten_singleton]

/-- Chunks that there is room for are gathered. -/
theorem Gathers.of_chunks (hread : ∀ fuel, TakesFrames (read fuel) Ok) (fuel : ℕ)
    (chunks : List Bytes)
    (hsmall : ∀ f ∈ chunkFrames chunks, f.2.length ≤ kMaxPayload) (hok : Ok e.own)
    (hbytes : e.outside.bytes = wire (chunkFrames chunks ++ frames))
    (hroom : chunks.flatten.length ≤ limit) :
    ∃ e', Gathers read limit (fuel + chunks.length) e fuel chunks.flatten e' ∧ e'.own = e.own ∧
      e'.outside.bytes = wire frames := by
  induction chunks using List.reverseRecOn generalizing fuel frames with
  | nil => exact ⟨e, .start, rfl, hbytes⟩
  | append_singleton chunks chunk ih =>
    rw [chunkFrames_snoc] at hbytes
    have hflatten : (chunks ++ [chunk]).flatten = chunks.flatten ++ chunk := by
      rw [List.flatten_append, List.flatten_singleton]
    rw [hflatten] at hroom ⊢
    have hall := hsmall
    rw [← List.append_nil (chunkFrames _), chunkFrames_snoc, List.forall_mem_append] at hall
    have hroom' := hroom
    rw [List.length_append] at hroom'
    obtain ⟨e₁, hgathers, hown, hleft⟩ := ih (fuel + 1) hall.1 hbytes (by omega)
    obtain ⟨f, e₂, hframe, htype, rfl, hown', hleft'⟩ :=
      (hread fuel).exists_next (hall.2 _ List.mem_cons_self) (hown ▸ hok) hleft
    refine ⟨e₂, ?_, hown'.trans hown, hleft'⟩
    rw [List.length_append, List.length_singleton, Nat.add_comm chunks.length, ← Nat.add_assoc]
    exact .chunk hgathers hframe htype hroom

end Frames

/-! ## The two clients -/

/-- **The C++ client is limited**, whatever the server sends. -/
theorem TransferClient.limited {frames : List (MsgType × Bytes)}
    (hsmall : ∀ f ∈ frames, f.2.length ≤ kMaxPayload) (start : ℕ) (expectedSize : UInt64)
    {e : Endpoint Incoming TransferClient} (hbytes : e.outside.bytes = wire frames) :
    Limited (receiveResult Incoming.link start expectedSize) e
      (fun _ ↦ readFrame Incoming.link kIdleTimeoutMs)
      (Receiving Incoming.link start expectedSize e) := by
  have htakes := fun _ : ℕ ↦ takesFrames_readFrame kIdleTimeoutMs
  constructor
  · rintro declared fuel csv e' ⟨-, -, -, size, -, -, -, hle, rfl, -⟩
    exact Nat.not_lt.mp hle
  · rintro declared fuel csv e' ⟨-, _, _, size, -, -, -, -, rfl, hgathers⟩
    exact hgathers.length_le
  · rintro declared fuel csv e' f e'' ⟨-, begin, e₁, size, hbegin, -, -, -, rfl, hgathers⟩ hread -
    obtain ⟨type, payload, rest, rfl, -, -, -, hleft⟩ :=
      (htakes 0).next hsmall trivial hbytes hbegin
    have hsmall' := fun f hf ↦ hsmall f (List.mem_cons_of_mem _ hf)
    obtain ⟨chunks, rest, rfl, rfl, -, hleft'⟩ := hgathers.chunks htakes hsmall' trivial hleft
    obtain ⟨_, payload, _, rfl, -, hpayload, -⟩ :=
      (htakes 0).next (fun f hf ↦ hsmall' f (List.mem_append_right _ hf)) trivial hleft' hread
    have hlen := hsmall' _ (List.mem_append_right _ List.mem_cons_self)
    have hheld := hgathers.length_le
    rw [List.length_append, hpayload]
    exact Nat.add_le_add hheld hlen
  · intro declared fuel csv e' f e'' h hread htype hover
    refine (h.fails (receiveChunks_over hread htype hover)).mono (fun _ _ h ↦ h) ?_
    rintro _ _ ⟨rfl, rfl⟩
    exact ⟨⟨_, rfl⟩, rfl⟩

/-- **The server keeps its word**, as far as the C# client goes along: it does not declare a size
that is negative as a signed number, nor send more than an admissible size that it declared. -/
def KeepsWord (csvSize : UInt64) (frames : List (MsgType × Bytes)) : Prop :=
  ∀ declaration chunks rest, csvSize.toNat ≤ 64 * 1024 * 1024 →
    frames = (.resultBegin, declaration) :: (chunkFrames chunks ++ rest) → 8 ≤ declaration.length →
    (loadBe64 declaration).toNat < 2 ^ 63 ∧ ((loadBe64 declaration).toNat ≤ 64 * 1024 * 1024 →
      chunks.flatten.length ≤ (loadBe64 declaration).toNat)

namespace ServerConnection

variable {start : ℕ} {csvSize : UInt64} {frames : List (MsgType × Bytes)}
  {e e' : Endpoint Incoming ServerConnection}

/-- What the C# client holds, and what it was sent for it. -/
theorem Receiving.chunks {declared fuel : ℕ} {csv : Bytes}
    (h : Receiving Incoming.link start csvSize.toInt64 e declared fuel csv e')
    (hsmall : ∀ f ∈ frames, f.2.length ≤ kMaxPayload) (husable : e.own.disposed = false)
    (hbytes : e.outside.bytes = wire frames) :
    ∃ declaration chunks rest, csvSize.toNat ≤ 64 * 1024 * 1024 ∧
      frames = (.resultBegin, declaration) :: (chunkFrames chunks ++ rest) ∧
      8 ≤ declaration.length ∧ declared = (loadBe64 declaration).toNat ∧
      (declared < 2 ^ 63 → declared ≤ 64 * 1024 * 1024) ∧ csv = chunks.flatten ∧
      e'.own.disposed = false ∧ e'.outside.bytes = wire rest := by
  obtain ⟨hexpected, begin, e₁, size, hbegin, htype, hsize, hle, rfl, hgathers⟩ := h
  obtain ⟨_, declaration, rest, rfl, rfl, hpayload, hown, hleft⟩ :=
    (takesFrames_readFrameOrCancel start).next hsmall husable hbytes hbegin
  obtain ⟨chunks, rest, rfl, rfl, hown', hleft'⟩ := hgathers.chunks takesFrames_readFrameOrCancel
    (fun f hf ↦ hsmall f (List.mem_cons_of_mem _ hf)) (hown ▸ husable) hleft
  rw [hpayload, u64_new] at hsize
  split_ifs at hsize with hlen
  obtain rfl := Option.some.inj hsize
  refine ⟨declaration, chunks, rest, ?_, by rw [htype], hlen, rfl, fun hsigned ↦ ?_, rfl, ?_,
    hleft'⟩
  · exact Nat.not_lt.mp fun hlt ↦ hexpected ((lt_zero_or_maxCsv_lt_iff csvSize).mpr hlt)
  · refine Nat.not_lt.mp ?_
    intro hlt
    rcases (lt_zero_or_maxCsv_lt_iff _).mpr hlt with hneg | hlarge
    · rw [Int64.lt_iff_toInt_lt, toInt_toInt64, if_pos hsigned] at hneg
      exact absurd hneg (Int.not_lt.mpr (Int.natCast_nonneg _))
    · exact hle hlarge
  · rw [hown', hown, husable]

/-- The moment after chunks that there is room for in a stream. -/
theorem Receiving.of_chunks {declaration : Bytes} (chunks : List Bytes)
    {rest : List (MsgType × Bytes)} (hexpected : csvSize.toNat ≤ 64 * 1024 * 1024)
    (hsmall : ∀ f ∈ (.resultBegin, declaration) :: (chunkFrames chunks ++ rest),
      f.2.length ≤ kMaxPayload) (hlen : 8 ≤ declaration.length)
    (hle : ¬ maxCsv < (loadBe64 declaration).toInt64) (hroom : chunks.flatten.length ≤ maxStream)
    (hstart : chunks.length ≤ start) (husable : e.own.disposed = false)
    (hbytes : e.outside.bytes
      = wire ((.resultBegin, declaration) :: (chunkFrames chunks ++ rest))) :
    ∃ fuel e', Receiving Incoming.link start csvSize.toInt64 e (loadBe64 declaration).toNat fuel
      chunks.flatten e' := by
  rw [List.forall_mem_cons, List.forall_mem_append] at hsmall
  obtain ⟨begin, e₁, hread, htype, hpayload, hown, hleft⟩ :=
    (takesFrames_readFrameOrCancel start).exists_next hsmall.1 husable hbytes
  obtain ⟨fuel, rfl⟩ := Nat.exists_eq_add_of_le' hstart
  obtain ⟨e', hgathers, -⟩ := Gathers.of_chunks takesFrames_readFrameOrCancel fuel chunks
    hsmall.2.1 (hown ▸ husable) hleft hroom
  refine ⟨fuel, e', ?_, begin, e₁, _, hread, htype, ?_, hle, rfl, hgathers⟩
  · exact fun hrange ↦ Nat.not_lt.mpr hexpected ((lt_zero_or_maxCsv_lt_iff csvSize).mp hrange)
  · rw [hpayload, u64_new, if_pos hlen]

/-- The C# client is limited if the server keeps its word. -/
theorem limited_of_keepsWord (hsmall : ∀ f ∈ frames, f.2.length ≤ kMaxPayload)
    (husable : e.own.disposed = false) (hbytes : e.outside.bytes = wire frames)
    (h : KeepsWord csvSize frames) :
    Limited (receiveResult Incoming.link start csvSize.toInt64) e (readFrameOrCancel Incoming.link)
      (Receiving Incoming.link start csvSize.toInt64 e) := by
  -- one more chunk is still within what was declared
  have hnext : ∀ {declared fuel csv e' f e''},
      Receiving Incoming.link start csvSize.toInt64 e declared (fuel + 1) csv e' →
      readFrameOrCancel Incoming.link fuel e' = .ok f e'' → f.header.type = .resultChunk →
      (csv ++ f.payload).length ≤ declared := by
    intro declared fuel csv e' f e'' hmoment hread htype
    obtain ⟨declaration, chunks, rest, hexpected, rfl, hlen, rfl, hsigned, rfl, hown, hleft⟩ :=
      hmoment.chunks hsmall husable hbytes
    obtain ⟨_, payload, rest, rfl, rfl, rfl, -⟩ := (takesFrames_readFrameOrCancel fuel).next
      (fun f hf ↦ hsmall f (List.mem_cons_of_mem _ (List.mem_append_right _ hf))) hown hleft hread
    have hframes := chunkFrames_snoc chunks f.payload rest
    rw [← htype] at hframes
    obtain ⟨hsmall', hword⟩ :=
      h declaration (chunks ++ [f.payload]) rest hexpected (by rw [hframes])
      hlen
    have hle := hword (hsigned hsmall')
    rwa [List.flatten_append, List.flatten_singleton] at hle
  constructor
  · intro declared fuel csv e' hmoment
    obtain ⟨declaration, chunks, rest, hexpected, hframes, hlen, rfl, hsigned, -⟩ :=
      hmoment.chunks hsmall husable hbytes
    exact hsigned (h declaration chunks rest hexpected hframes hlen).1
  · intro declared fuel csv e' hmoment
    obtain ⟨declaration, chunks, rest, hexpected, hframes, hlen, rfl, hsigned, rfl, -⟩ :=
      hmoment.chunks hsmall husable hbytes
    obtain ⟨hsmall', hword⟩ := h declaration chunks rest hexpected hframes hlen
    exact hword (hsigned hsmall')
  · intro declared fuel csv e' f e'' hmoment hread htype
    exact Nat.le_add_right_of_le (hnext hmoment hread htype)
  · intro declared fuel csv e' f e'' hmoment hread htype hover
    exact absurd (hnext hmoment hread htype) (Nat.not_le.mpr hover)

/-- And only then: it holds what a server sends that does not. -/
theorem keepsWord_of_limited (hsmall : ∀ f ∈ frames, f.2.length ≤ kMaxPayload)
    (hstart : frames.length < start) (husable : e.own.disposed = false)
    (hbytes : e.outside.bytes = wire frames)
    (h : Limited (receiveResult Incoming.link start csvSize.toInt64) e
      (readFrameOrCancel Incoming.link) (Receiving Incoming.link start csvSize.toInt64 e)) :
    KeepsWord csvSize frames := by
  rintro declaration chunks rest hexpected rfl hlen
  have hcount : chunks.length ≤ start := by
    rw [List.length_cons, List.length_append, chunkFrames, List.length_map] at hstart
    omega
  have hsigned : (loadBe64 declaration).toNat < 2 ^ 63 := by
    by_contra hlarge
    have hle : ¬ maxCsv < (loadBe64 declaration).toInt64 := by
      rw [Int64.lt_iff_toInt_lt, toInt_toInt64, if_neg hlarge,
        show maxCsv.toInt = 64 * 1024 * 1024 from rfl]
      have := (loadBe64 declaration).toNat_lt
      omega
    obtain ⟨fuel, e', hmoment⟩ :=
      Receiving.of_chunks [] hexpected hsmall hlen hle (Nat.zero_le _) (Nat.zero_le start)
      husable hbytes
    have := h.declared_le hmoment
    omega
  refine ⟨hsigned, fun hadmissible ↦ ?_⟩
  have hle : ¬ maxCsv < (loadBe64 declaration).toInt64 := fun hlt ↦
    Nat.not_lt.mpr hadmissible ((lt_zero_or_maxCsv_lt_iff _).mp (.inr hlt))
  -- the first chunk that goes beyond the declaration still has room in the stream
  induction chunks using List.reverseRecOn generalizing rest with
  | nil => exact Nat.zero_le _
  | append_singleton chunks chunk ih =>
    rw [chunkFrames_snoc] at hsmall hbytes hstart
    have hheld := ih _ hsmall hstart hbytes
      (by rw [List.length_append] at hcount; exact Nat.le_of_add_right_le hcount)
    have hchunk := hsmall (.resultChunk, chunk)
      (List.mem_cons_of_mem _ (List.mem_append_right _ List.mem_cons_self))
    rw [← chunkFrames_snoc] at hsmall hbytes
    have hroom : (chunks ++ [chunk]).flatten.length ≤ maxStream := by
      rw [List.flatten_append, List.flatten_singleton, List.length_append]
      calc chunks.flatten.length + chunk.length
        _ ≤ TransferClient.kMaxCsvBytes + kMaxPayload :=
          Nat.add_le_add (Nat.le_trans hheld hadmissible) hchunk
        _ ≤ maxStream := by decide
    obtain ⟨fuel, e', hmoment⟩ :=
      Receiving.of_chunks _ hexpected hsmall hlen hle hroom hcount husable hbytes
    exact h.held_le hmoment

end ServerConnection

/-- **The two clients are limited exactly where the server keeps its word.** -/
theorem result_limited_iff {start : ℕ} (csvSize : UInt64) {frames : List (MsgType × Bytes)}
    (hsmall : ∀ f ∈ frames, f.2.length ≤ kMaxPayload) (hstart : frames.length < start)
    {e : Endpoint Incoming TransferClient} {e' : Endpoint Incoming ServerConnection}
    (husable : e'.own.disposed = false) (hbytes : e.outside.bytes = wire frames)
    (hbytes' : e'.outside.bytes = wire frames) :
    Limited (TransferClient.receiveResult Incoming.link start csvSize) e
        (fun _ ↦ TransferClient.readFrame Incoming.link TransferClient.kIdleTimeoutMs)
        (TransferClient.Receiving Incoming.link start csvSize e) ∧
      Limited (ServerConnection.receiveResult Incoming.link start csvSize.toInt64) e'
        (ServerConnection.readFrameOrCancel Incoming.link)
        (ServerConnection.Receiving Incoming.link start csvSize.toInt64 e') ↔
    KeepsWord csvSize frames := by
  constructor
  · rintro ⟨-, h⟩
    exact ServerConnection.keepsWord_of_limited hsmall hstart husable hbytes' h
  · intro h
    exact ⟨TransferClient.limited hsmall start csvSize hbytes,
      ServerConnection.limited_of_keepsWord hsmall husable hbytes' h⟩

/-- A client to which frames arrive at once. -/
def awaiting (frames : List (MsgType × Bytes)) (own : κ) : Endpoint Incoming κ :=
  ⟨arriving frames, own, .resultRead, [], [], []⟩

/-- One byte is declared, and two are sent. -/
def lying : List (MsgType × Bytes) := [(.resultBegin, storeBe64 1), (.resultChunk, [97, 98])]

/-- The C# client holds both bytes, and goes on reading. -/
theorem not_limited_lying :
    ¬ (Limited (TransferClient.receiveResult Incoming.link 3 1) (awaiting lying ⟨{}, []⟩)
        (fun _ ↦ TransferClient.readFrame Incoming.link TransferClient.kIdleTimeoutMs)
        (TransferClient.Receiving Incoming.link 3 1 (awaiting lying ⟨{}, []⟩)) ∧
      Limited (ServerConnection.receiveResult Incoming.link 3 (UInt64.toInt64 1))
        (awaiting lying ⟨{}, false⟩) (ServerConnection.readFrameOrCancel Incoming.link)
        (ServerConnection.Receiving Incoming.link 3 (UInt64.toInt64 1)
          (awaiting lying ⟨{}, false⟩))) := by
  rintro ⟨-, h⟩
  have hbytes : (awaiting lying (⟨{}, false⟩ : ServerConnection)).outside.bytes
      = wire ((.resultBegin, storeBe64 1) :: (chunkFrames [[97, 98]] ++ [])) := rfl
  have hexpected : (1 : UInt64).toNat ≤ 64 * 1024 * 1024 := by decide
  have hstart : [[97, 98]].length ≤ 3 := by decide
  obtain ⟨fuel, e', hmoment⟩ :=
    ServerConnection.Receiving.of_chunks [[97, 98]] hexpected (by decide)
    (by decide) (by decide) (by decide) hstart rfl hbytes
  exact absurd (h.held_le hmoment) (by decide)

/-- Two bytes are declared and sent. -/
theorem result_limited_two :
    Limited (TransferClient.receiveResult Incoming.link 4 2)
        (awaiting (oneChunk [97, 98]) ⟨{}, []⟩)
        (fun _ ↦ TransferClient.readFrame Incoming.link TransferClient.kIdleTimeoutMs)
        (TransferClient.Receiving Incoming.link 4 2 (awaiting (oneChunk [97, 98]) ⟨{}, []⟩)) ∧
      Limited (ServerConnection.receiveResult Incoming.link 4 (UInt64.toInt64 2))
        (awaiting (oneChunk [97, 98]) ⟨{}, false⟩)
        (ServerConnection.readFrameOrCancel Incoming.link)
        (ServerConnection.Receiving Incoming.link 4 (UInt64.toInt64 2)
          (awaiting (oneChunk [97, 98]) ⟨{}, false⟩)) := by
  have hsmall : ∀ f ∈ oneChunk [97, 98], f.2.length ≤ kMaxPayload := by decide
  refine (result_limited_iff 2 hsmall (by decide) rfl rfl rfl).mpr ?_
  intro declaration chunks rest _ heq _
  obtain ⟨hdeclaration, hchunks⟩ := List.cons.inj heq
  obtain rfl : storeBe64 2 = declaration := congrArg Prod.snd hdeclaration
  refine ⟨by decide, fun _ ↦ ?_⟩
  -- none of the chunks was read yet, or the only one
  rcases chunks with _ | ⟨first, _ | ⟨second, more⟩⟩
  · exact Nat.zero_le _
  · obtain rfl : [97, 98] = first := congrArg Prod.snd (List.cons.inj hchunks).1
    decide
  · have htype : MsgType.resultEnd = .resultChunk :=
      congrArg Prod.fst (List.cons.inj (List.cons.inj hchunks).2).1
    exact absurd htype (by decide)

end LoggerAnalyzer
