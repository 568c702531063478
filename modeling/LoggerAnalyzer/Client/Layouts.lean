import LoggerAnalyzer.Client.ServerConnection
import LoggerAnalyzer.Client.TransferClient
import LoggerAnalyzer.Session.Transport

/-!
# The layouts of the server's messages

The server writes the fields of UPLOAD_BEGIN_ACK, UPLOAD_ACK and ANALYZE_DONE one after another, and
each client reads them by a sequence of its own. What a message says is a record of numbers and
texts; `TcpSession` and both clients have one each, and reading gives the record that was written.

A client's reader is followed by `At r tail`: every read so far succeeded, and `tail` is ahead.
-/

namespace LoggerAnalyzer

/-! ## Reading one field after another -/

section Gets

variable {R α β : Type} {At : R → Bytes → Prop} {bytes bytes' : Bytes} {v : α} {w : β}

/-- A run of the reader takes the bytes from the front of what is ahead and gives the value. -/
def Gets (At : R → Bytes → Prop) (m : StateT R Option α) (bytes : Bytes) (v : α) : Prop :=
  ∀ r tail, At r (bytes ++ tail) → ∃ r', m r = some (v, r') ∧ At r' tail

theorem Gets.pure (v : α) : Gets At (pure v) [] v := fun r _ h ↦ ⟨r, rfl, h⟩

theorem Gets.bind {m : StateT R Option α} {k : α → StateT R Option β} (h : Gets At m bytes v)
    (hk : Gets At (k v) bytes' w) : Gets At (m >>= k) (bytes ++ bytes') w := by
  intro r tail hat
  rw [List.append_assoc] at hat
  obtain ⟨r₁, hr₁, hat₁⟩ := h r _ hat
  obtain ⟨r₂, hr₂, hat₂⟩ := hk r₁ tail hat₁
  refine ⟨r₂, ?_, hat₂⟩
  change (m r).bind _ = _
  rw [hr₁]
  exact hr₂

/-- The bytes are all that is ahead. -/
theorem Gets.whole {m : StateT R Option α} (h : Gets At m bytes v) {r : R} (hat : At r bytes) :
    ∃ r', m r = some (v, r') ∧ At r' [] := h r [] (by rwa [List.append_nil])

end Gets

/-- A payload is decoded, with nothing left of it, and says the message. -/
def Understood {R α M : Type} (decoded : Option (α × R)) (remaining : R → ℕ) (meaning : α → M)
    (message : M) : Prop :=
  ∃ v r, decoded = some (v, r) ∧ remaining r = 0 ∧ meaning v = message

/-! ## What the messages say -/

/-- What an UPLOAD_BEGIN_ACK says. -/
structure BeginAckMessage where
  uploadId : ℕ
  chunkSize : ℕ
  modules : List Bytes
deriving DecidableEq, Repr

/-- What an UPLOAD_ACK says. -/
structure AckMessage where
  consumed : ℤ
  lines : ℤ
  accepted : ℤ
  rejected : ℤ
  spdSamples : ℤ
  spdAverage : Bytes
  moduleCounts : List ℤ
deriving DecidableEq, Repr

/-- What an ANALYZE_DONE says. -/
structure DoneMessage where
  bytes : ℤ
  lines : ℤ
  accepted : ℤ
  rejected : ℤ
  oversize : ℤ
  spdSamples : ℤ
  spdAverage : Bytes
  elapsedMs : ℤ
  peakRssKb : ℤ
  csvSize : ℤ
deriving DecidableEq, Repr

namespace UploadState

variable {D : Type} [DoubleOps D]

/-- The average speed as it is sent. -/
def averageText (u : UploadState D) : Bytes := snprintf 32 (DoubleOps.fixed 6 u.agg.spdAvg)

def beginAckMessage (u : UploadState D) : BeginAckMessage :=
  ⟨u.id.toNat, kDefaultMaxChunk, Module.all.map Module.name⟩

def ackMessage (u : UploadState D) : AckMessage :=
  ⟨u.received, u.agg.totalLines, u.agg.acceptedLines, u.agg.rejectedLines, u.agg.spdN,
    u.averageText, Module.all.map fun m ↦ (u.agg.moduleTotals m : ℤ)⟩

def doneMessage (elapsedMs rss : ℕ) (u : UploadState D) : DoneMessage :=
  ⟨u.received, u.agg.totalLines, u.agg.acceptedLines, u.agg.rejectedLines, u.agg.oversizeLines,
    u.agg.spdN, u.averageText, elapsedMs, rss, u.resultCsv.length⟩

theorem length_averageText (u : UploadState D) : u.averageText.length ≤ 0xFFFF := by
  rw [averageText, snprintf, List.length_take]
  omega

theorem averageText_ascii [PrintsNumbers D] (u : UploadState D) : ∀ b ∈ u.averageText, b < 0x80 :=
  fun _ hb ↦ isNumberChar_lt (PrintsNumbers.isNumberChar_of_fixed (List.mem_of_mem_take hb))

/-- The counts of the modules as they are sent. -/
def counts (u : UploadState D) : List UInt64 :=
  Module.all.map fun m ↦ UInt64.ofNat (u.agg.moduleTotals m)

omit [DoubleOps D] in
theorem length_counts (u : UploadState D) : u.counts.length = kModuleCount := rfl

/-- The fields of an UPLOAD_ACK, one after another. -/
theorem ackPayload_eq (u : UploadState D) : u.ackPayload =
    PayloadWriter.u64 (UInt64.ofNat u.received)
      ++ (PayloadWriter.u64 (UInt64.ofNat u.agg.totalLines)
      ++ (PayloadWriter.u64 (UInt64.ofNat u.agg.acceptedLines)
      ++ (PayloadWriter.u64 (UInt64.ofNat u.agg.rejectedLines)
      ++ (PayloadWriter.u64 (UInt64.ofNat u.agg.spdN)
      ++ (PayloadWriter.str16 u.averageText
      ++ (PayloadWriter.u8 (UInt8.ofNat u.counts.length)
      ++ (u.counts.flatMap PayloadWriter.u64 ++ []))))))) := by
  rw [length_counts]
  simp only [ackPayload, averageText, counts, List.flatMap_map, List.append_assoc, List.append_nil]

/-- The fields of an ANALYZE_DONE, one after another. -/
theorem donePayload_eq (elapsedMs rss : ℕ) (u : UploadState D) : u.donePayload elapsedMs rss =
    PayloadWriter.u64 (UInt64.ofNat u.received)
      ++ (PayloadWriter.u64 (UInt64.ofNat u.agg.totalLines)
      ++ (PayloadWriter.u64 (UInt64.ofNat u.agg.acceptedLines)
      ++ (PayloadWriter.u64 (UInt64.ofNat u.agg.rejectedLines)
      ++ (PayloadWriter.u64 (UInt64.ofNat u.agg.oversizeLines)
      ++ (PayloadWriter.u64 (UInt64.ofNat u.agg.spdN)
      ++ (PayloadWriter.str16 u.averageText
      ++ (PayloadWriter.u64 (UInt64.ofNat elapsedMs)
      ++ (PayloadWriter.u64 (UInt64.ofNat rss)
      ++ (PayloadWriter.u64 (UInt64.ofNat u.resultCsv.length) ++ []))))))))) := by
  simp only [donePayload, averageText, List.append_assoc, List.append_nil]

/-- Every counter that is sent is below `2 ^ 63`. -/
structure CountersFit (u : UploadState D) : Prop where
  received : u.received < 2 ^ 63
  totalLines : u.agg.totalLines < 2 ^ 63
  acceptedLines : u.agg.acceptedLines < 2 ^ 63
  rejectedLines : u.agg.rejectedLines < 2 ^ 63
  oversizeLines : u.agg.oversizeLines < 2 ^ 63
  spdN : u.agg.spdN < 2 ^ 63
  moduleTotals : ∀ m, u.agg.moduleTotals m < 2 ^ 63
  resultCsv : u.resultCsv.length < 2 ^ 63

end UploadState

theorem toNat_ofNat_of_lt {n : ℕ} (h : n < 2 ^ 63) : (UInt64.ofNat n).toNat = n :=
  UInt64.toNat_ofNat_of_lt' (Nat.lt_trans h (by decide))

theorem toInt_ofNat_of_lt {n : ℕ} (h : n < 2 ^ 63) : (UInt64.ofNat n).toInt64.toInt = n := by
  have hnat := toNat_ofNat_of_lt h
  exact ((ServerConnection.eq_toInt64_iff n _).mpr ⟨hnat.symm ▸ h, hnat⟩).symm

/-- The fields of an UPLOAD_BEGIN_ACK, one after another. -/
theorem TcpSession.uploadBeginAckPayload_eq {D : Type} (s : TcpSession D) :
    s.uploadBeginAckPayload = PayloadWriter.u32 s.upload.id
      ++ (PayloadWriter.u32 (UInt32.ofNat kDefaultMaxChunk)
        ++ ((PayloadWriter.u8 (UInt8.ofNat kModuleCount)
          ++ Module.all.flatMap fun m ↦ PayloadWriter.str16 m.name) ++ [])) := by
  simp only [TcpSession.uploadBeginAckPayload, List.append_assoc, List.append_nil]

/-! ## The two readers -/

/-- A read takes the bytes from the front of what is ahead and gives the value. -/
def Takes {R α : Type} (At : R → Bytes → Prop) (read : R → Option α × R) (bytes : Bytes) (v : α) :
    Prop :=
  ∀ r tail, At r (bytes ++ tail) → ∃ r', read r = (some v, r') ∧ At r' tail

namespace PayloadReader

/-- Every read so far succeeded, and `tail` is ahead. -/
def Faces (r : PayloadReader) (tail : Bytes) : Prop := r.ok = true ∧ r.ahead = tail

theorem faces_new (bytes : Bytes) : (new bytes).Faces bytes := ⟨rfl, rfl⟩

theorem Faces.remaining {r : PayloadReader} (h : r.Faces []) : r.remaining = 0 := by
  have hlen := congrArg List.length h.2
  rwa [ahead, List.length_drop] at hlen

theorem takes_u8 (v : UInt8) : Takes Faces u8 (PayloadWriter.u8 v) v := fun _ _ h ↦
  field_of_ahead (fun p ↦ p.getD 0 0) h.1 rfl h.2

theorem takes_u32 (v : UInt32) : Takes Faces u32 (PayloadWriter.u32 v) v := fun _ _ h ↦
  u32_of_ahead h.1 h.2

theorem takes_u64 (v : UInt64) : Takes Faces u64 (PayloadWriter.u64 v) v := fun _ _ h ↦
  u64_of_ahead h.1 h.2

theorem takes_str16 {s : Bytes} (hlen : s.length ≤ 0xFFFF) :
    Takes Faces str16 (PayloadWriter.str16 s) s := fun _ _ h ↦ str16_of_ahead h.1 hlen h.2

end PayloadReader

namespace Client.PayloadReader

def Faces (r : PayloadReader) (tail : Bytes) : Prop := r.size = r.buf.length ∧ r.view.Faces tail

theorem faces_new (bytes : Bytes) : (new bytes).Faces bytes := ⟨rfl, rfl, rfl⟩

theorem Faces.remaining {r : PayloadReader} (h : r.Faces []) : r.remaining = 0 := by
  rw [PayloadReader.remaining, h.1]
  exact h.2.remaining

/-- What the server's reader takes, this reader takes. -/
theorem Follows.takes {α : Type} {read : PayloadReader → Option α × PayloadReader}
    {read' : LoggerAnalyzer.PayloadReader → Option α × LoggerAnalyzer.PayloadReader} {bytes : Bytes}
    {v : α} (hf : Follows read read') (h : Takes LoggerAnalyzer.PayloadReader.Faces read' bytes v) :
    Takes Faces read bytes v := by
  intro r tail hat
  obtain ⟨hsize, heq⟩ := hf r hat.1
  obtain ⟨r', hr', hat'⟩ := h r.view tail hat.2
  rw [hr', Prod.mk.injEq] at heq
  exact ⟨(read r).2, Prod.ext heq.1 rfl, hsize, by rwa [heq.2]⟩

theorem takes_u8 (v : UInt8) : Takes Faces u8 (LoggerAnalyzer.PayloadWriter.u8 v) v :=
  (follows_field 1 _).takes (LoggerAnalyzer.PayloadReader.takes_u8 v)

theorem takes_u32 (v : UInt32) : Takes Faces u32 (LoggerAnalyzer.PayloadWriter.u32 v) v :=
  (follows_field 4 _).takes (LoggerAnalyzer.PayloadReader.takes_u32 v)

theorem takes_u64 (v : UInt64) : Takes Faces u64 (LoggerAnalyzer.PayloadWriter.u64 v) v :=
  (follows_field 8 _).takes (LoggerAnalyzer.PayloadReader.takes_u64 v)

theorem takes_str16 {s : Bytes} (hlen : s.length ≤ 0xFFFF) :
    Takes Faces str16 (LoggerAnalyzer.PayloadWriter.str16 s) s :=
  follows_str16.takes (LoggerAnalyzer.PayloadReader.takes_str16 hlen)

end Client.PayloadReader

/-! ## The module names -/

theorem name_fits (m : Module) : m.name.length ≤ 0xFFFF ∧ ∀ b ∈ m.name, b < 0x80 := by
  cases m <;> decide

/-! ## The loops and the optional fields -/

/-- What is written into a list of the right length, one value after another. -/
theorem foldl_set {α β : Type} (f : α → β) {vs : List α} {old : List β}
    (hlen : old.length = vs.length) :
    (vs.foldl (fun (b : ℕ × List β) v ↦ (b.1 + 1, b.2.set b.1 (f v))) (0, old)).2 = vs.map f := by
  have hall : ∀ (before : List β), (vs.foldl (fun (b : ℕ × List β) v ↦ (b.1 + 1, b.2.set b.1 (f v)))
      (before.length, before ++ old)).2 = before ++ vs.map f := by
    induction vs generalizing old with
    | nil =>
      intro before
      rw [List.eq_nil_of_length_eq_zero hlen]
      rfl
    | cons v vs ih =>
      intro before
      obtain ⟨o, old, rfl⟩ := List.exists_cons_of_length_eq_add_one hlen
      have hset : (before ++ o :: old).set before.length (f v) = before ++ [f v] ++ old := by
        rw [List.set_append_right _ _ (Nat.le_refl _), Nat.sub_self, List.set_cons_zero,
          List.append_assoc, List.singleton_append]
      have hnext := ih (Nat.succ.inj hlen) (before ++ [f v])
      rw [List.length_append, List.length_singleton] at hnext
      rw [List.foldl_cons]
      dsimp only
      rw [hset, hnext, List.append_assoc, List.singleton_append, List.map_cons]
  exact hall []

section Loops

variable {R : Type} {At : R → Bytes → Prop} {r : R} {tail : Bytes}

/-- A loop that reads one value after another reads all of them. -/
theorem takes_each {α β γ : Type} {read : R → Option α × R} (loop : ℕ → β → R → γ × R)
    (out : β → γ) (put : β → α → β) (stop : ∀ b r, loop 0 b r = (out b, r))
    (next : ∀ n b r v r', read r = (some v, r') → loop (n + 1) b r = loop n (put b v) r')
    {encode : α → Bytes} {vs : List α} (takes : ∀ v ∈ vs, Takes At read (encode v) v) (b : β)
    (h : At r (vs.flatMap encode ++ tail)) :
    ∃ r', loop vs.length b r = (out (vs.foldl put b), r') ∧ At r' tail := by
  induction vs generalizing b r with
  | nil => exact ⟨r, stop b r, h⟩
  | cons v vs ih =>
    rw [List.forall_mem_cons] at takes
    rw [List.flatMap_cons, List.append_assoc] at h
    obtain ⟨r₁, hr₁, hat₁⟩ := takes.1 r _ h
    obtain ⟨r₂, hr₂, hat₂⟩ := ih takes.2 (put b v) hat₁
    exact ⟨r₂, (next vs.length b r v r₁ hr₁).trans hr₂, hat₂⟩

/-- The list that the counts are read into has as many entries as there are counts. -/
theorem length_resized {α : Type} (old : List α) (n : ℕ) (a : α) :
    (if old.length ≠ n then List.replicate n a else old).length = n := by
  split_ifs with hne
  · exact List.length_replicate
  · exact not_ne_iff.mp hne

/-- The optional fields of an UPLOAD_ACK up to the counts, all there. -/
theorem takes_stats {u64 : R → Option UInt64 × R} {str16 : R → Option Bytes × R}
    {u8 : R → Option UInt8 × R} (takes_u64 : ∀ v, Takes At u64 (PayloadWriter.u64 v) v)
    {avg : Bytes}
    (takes_avg : Takes At str16 (PayloadWriter.str16 avg) avg)
    (takes_u8 : ∀ v, Takes At u8 (PayloadWriter.u8 v) v) {accepted rejected spdN : UInt64}
    {n : UInt8}
    (h : At r (PayloadWriter.u64 accepted ++ (PayloadWriter.u64 rejected
      ++ (PayloadWriter.u64 spdN ++ (PayloadWriter.str16 avg ++ (PayloadWriter.u8 n ++ tail)))))) :
    ∃ r₁ r₂ r₃ r₄ r₅, u64 r = (some accepted, r₁) ∧ u64 r₁ = (some rejected, r₂) ∧
      u64 r₂ = (some spdN, r₃) ∧ str16 r₃ = (some avg, r₄) ∧ u8 r₄ = (some n, r₅) ∧ At r₅ tail := by
  obtain ⟨r₁, hr₁, hat₁⟩ := takes_u64 _ r _ h
  obtain ⟨r₂, hr₂, hat₂⟩ := takes_u64 _ r₁ _ hat₁
  obtain ⟨r₃, hr₃, hat₃⟩ := takes_u64 _ r₂ _ hat₂
  obtain ⟨r₄, hr₄, hat₄⟩ := takes_avg r₃ _ hat₃
  obtain ⟨r₅, hr₅, hat₅⟩ := takes_u8 _ r₄ _ hat₄
  exact ⟨r₁, r₂, r₃, r₄, r₅, hr₁, hr₂, hr₃, hr₄, hr₅, hat₅⟩

end Loops

/-! ## The C++ client -/

namespace TransferClient

open Client.PayloadReader

theorem gets_field {α : Type} {read : Client.PayloadReader → Option α × Client.PayloadReader}
    {bytes : Bytes} {v : α} (h : Takes Faces read bytes v) : Gets Faces (field read) bytes v := by
  intro r tail hat
  obtain ⟨r', hr', hat'⟩ := h r tail hat
  exact ⟨r', by rw [field, hr'], hat'⟩

private theorem moduleNamesLoop_eq {names : List Bytes} (hlen : ∀ s ∈ names, s.length ≤ 0xFFFF)
    {r : Client.PayloadReader} {tail : Bytes}
    (h : r.Faces (names.flatMap PayloadWriter.str16 ++ tail)) :
    ∃ r', moduleNamesLoop names.length [] r = (names, r') ∧ r'.Faces tail := by
  have hall := takes_each moduleNamesLoop id (fun names s ↦ names ++ [s])
    (fun _ _ ↦ rfl) (fun n b r v r' hr ↦ by rw [moduleNamesLoop, hr])
    (fun s hs ↦ takes_str16 (hlen s hs)) [] h
  rwa [List.foldl_append_eq_append, List.nil_append, ← List.flatMap_def,
    List.flatMap_singleton'] at hall

private theorem moduleCountsLoop_eq {vs counts : List UInt64} (hlen : counts.length = vs.length)
    {r : Client.PayloadReader} {tail : Bytes}
    (h : r.Faces (vs.flatMap PayloadWriter.u64 ++ tail)) :
    ∃ r', moduleCountsLoop vs.length 0 counts r = (vs, r') ∧ r'.Faces tail := by
  have hall := takes_each (fun n b ↦ moduleCountsLoop n b.1 b.2) Prod.snd
    (fun b v ↦ (b.1 + 1, b.2.set b.1 v)) (fun _ _ ↦ rfl)
    (fun n b r v r' hr ↦ by rw [moduleCountsLoop, hr]) (fun v _ ↦ takes_u64 v) (0, counts) h
  rwa [foldl_set (fun v ↦ v) hlen, List.map_id'] at hall

private theorem gets_moduleNames : Gets Faces (fun r ↦ some (readModuleNames r))
    (PayloadWriter.u8 (UInt8.ofNat kModuleCount)
      ++ Module.all.flatMap fun m ↦ PayloadWriter.str16 m.name) (Module.all.map Module.name) := by
  intro r tail hat
  rw [List.append_assoc] at hat
  obtain ⟨r₁, hr₁, hat₁⟩ := takes_u8 _ r _ hat
  have hnames : ∀ s ∈ Module.all.map Module.name, s.length ≤ 0xFFFF := by
    rw [List.forall_mem_map]
    exact fun m _ ↦ (name_fits m).1
  obtain ⟨r₂, hr₂, hat₂⟩ := moduleNamesLoop_eq hnames (r := r₁)
    (show r₁.Faces (_ ++ tail) by rwa [List.flatMap_map])
  have hcount : 0 < (UInt8.ofNat kModuleCount).toNat ∧ (UInt8.ofNat kModuleCount).toNat ≤ 64 := by
    decide
  refine ⟨r₂, ?_, hat₂⟩
  simp only [readModuleNames, hr₁, if_pos hcount]
  exact congrArg some hr₂

/-- The optional fields of an UPLOAD_ACK, all there. -/
theorem applyStats_eq {accepted rejected spdN : UInt64} {avg : Bytes} {counts : List UInt64}
    (havg : avg.length ≤ 0xFFFF) (hpos : 0 < counts.length) (hle : counts.length ≤ 64)
    (s : Snapshot) {r : Client.PayloadReader} {tail : Bytes}
    (h : r.Faces (PayloadWriter.u64 accepted ++ (PayloadWriter.u64 rejected
      ++ (PayloadWriter.u64 spdN ++ (PayloadWriter.str16 avg
      ++ (PayloadWriter.u8 (UInt8.ofNat counts.length)
      ++ (counts.flatMap PayloadWriter.u64 ++ tail))))))) :
    ∃ r', applyStats r s =
        ({ s with acceptedLines := accepted, rejectedLines := rejected, spdSamples := spdN
                  spdAverage := avg, moduleCounts := counts }, r') ∧ r'.Faces tail := by
  obtain ⟨r₁, r₂, r₃, r₄, r₅, hr₁, hr₂, hr₃, hr₄, hr₅, hat₅⟩ :=
    takes_stats takes_u64 (takes_str16 havg) takes_u8 h
  have hcount : (UInt8.ofNat counts.length).toNat = counts.length :=
    UInt8.toNat_ofNat_of_lt' (Nat.lt_of_le_of_lt hle (by decide))
  obtain ⟨r₆, hr₆, hat₆⟩ := moduleCountsLoop_eq (length_resized s.moduleCounts _ 0) hat₅
  refine ⟨r₆, ?_, hat₆⟩
  unfold applyStats
  simp only [hr₁, hr₂, hr₃, hr₄, hr₅, hcount, if_pos (And.intro hpos hle), hr₆, Option.getD_some]

/-- What the client has of an UPLOAD_BEGIN_ACK. -/
def beginAckMessage : UInt32 × UInt32 × List Bytes → BeginAckMessage
  | (uploadId, announced, names) => ⟨uploadId.toNat, chunkSizeOf announced, names⟩

/-- What the client shows of an UPLOAD_ACK. -/
def ackMessage (s : Snapshot) : AckMessage :=
  ⟨s.bytesConsumed.toNat, s.linesParsed.toNat, s.acceptedLines.toNat, s.rejectedLines.toNat,
    s.spdSamples.toNat, s.spdAverage, s.moduleCounts.map fun n ↦ (n.toNat : ℤ)⟩

/-- What the client shows of an ANALYZE_DONE, and the size that it expects. -/
def doneMessage (csvSize : UInt64) (s : Snapshot) : DoneMessage :=
  ⟨s.bytesConsumed.toNat, s.resultTotalLines.toNat, s.resultAccepted.toNat, s.resultRejected.toNat,
    s.resultOversize.toNat, s.resultSpdSamples.toNat, s.resultSpdAverage, s.resultElapsedMs.toNat,
    s.resultPeakRssKb.toNat, csvSize.toNat⟩

variable {D : Type}

/-- **An UPLOAD_BEGIN_ACK is read as it was written.** -/
theorem beginAckFields_eq (s : TcpSession D) :
    Understood (beginAckFields (.new s.uploadBeginAckPayload)) (·.remaining) beginAckMessage
      s.upload.beginAckMessage := by
  have hgets : Gets Faces beginAckFields s.uploadBeginAckPayload
      (s.upload.id, UInt32.ofNat kDefaultMaxChunk, Module.all.map Module.name) := by
    rw [s.uploadBeginAckPayload_eq]
    iterate 2 refine (gets_field (takes_u32 _)).bind ?_
    exact gets_moduleNames.bind (Gets.pure _)
  obtain ⟨r, hr, hat⟩ := hgets.whole (faces_new _)
  exact ⟨_, r, hr, hat.remaining, rfl⟩

variable [DoubleOps D] {u : UploadState D}

/-- **An UPLOAD_ACK is read as it was written**, and the client shows what it says. -/
theorem uploadAckFields_eq (hfit : u.CountersFit) (s : Snapshot) :
    Understood (uploadAckFields u.ackPayload s) (·.remaining) ackMessage u.ackMessage := by
  have hpayload := u.ackPayload_eq
  obtain ⟨r₁, hr₁, hat₁⟩ := takes_u64 _ _ _ (hpayload ▸ faces_new u.ackPayload)
  obtain ⟨r₂, hr₂, hat₂⟩ := takes_u64 _ r₁ _ hat₁
  set s₂ : Snapshot :=
    { s with
      bytesConsumed := UInt64.ofNat u.received, linesParsed := UInt64.ofNat u.agg.totalLines }
    with hs₂
  obtain ⟨r₃, hr₃, hat₃⟩ := applyStats_eq u.length_averageText
    (by rw [u.length_counts]; decide) (by rw [u.length_counts]; decide) s₂ hat₂
  rw [← hpayload] at hr₁
  refine ⟨(applyStats r₂ s₂).1, r₃, ?_, hat₃.remaining, ?_⟩
  · unfold uploadAckFields
    simp only [hr₁, hr₂, ← hs₂]
    rw [hr₃]
  · rw [hr₃]
    simp only [ackMessage, UploadState.ackMessage, hs₂, toNat_ofNat_of_lt, hfit.received,
      hfit.totalLines, hfit.acceptedLines, hfit.rejectedLines, hfit.spdN, hfit.moduleTotals,
      UploadState.counts, List.map_map, Function.comp_def]

/-- What is read of an ANALYZE_DONE. -/
theorem gets_analyzeDone (u : UploadState D) (elapsedMs rss : ℕ) :
    Gets Faces analyzeDoneFields (u.donePayload elapsedMs rss)
      ⟨.ofNat u.received, .ofNat u.agg.totalLines, .ofNat u.agg.acceptedLines,
        .ofNat u.agg.rejectedLines, .ofNat u.agg.oversizeLines, .ofNat u.agg.spdN, u.averageText,
        .ofNat elapsedMs, .ofNat rss, .ofNat u.resultCsv.length⟩ := by
  rw [u.donePayload_eq]
  iterate 6 refine (gets_field (takes_u64 _)).bind ?_
  refine (gets_field (takes_str16 u.length_averageText)).bind ?_
  iterate 3 refine (gets_field (takes_u64 _)).bind ?_
  exact Gets.pure _

/-- **An ANALYZE_DONE is read as it was written**, and the client shows what it says. -/
theorem analyzeDoneFields_eq (hfit : u.CountersFit) {elapsedMs rss : ℕ}
    (helapsed : elapsedMs < 2 ^ 63)
    (hrss : rss < 2 ^ 63) (c : TransferClient) :
    Understood (analyzeDoneFields (.new (u.donePayload elapsedMs rss))) (·.remaining)
      (fun d ↦ doneMessage d.csvSize (applyAnalyzeDone d c).state)
      (u.doneMessage elapsedMs rss) := by
  obtain ⟨r, hr, hat⟩ := (gets_analyzeDone u elapsedMs rss).whole (faces_new _)
  refine ⟨_, r, hr, hat.remaining, ?_⟩
  simp only [doneMessage, applyAnalyzeDone, UploadState.doneMessage, toNat_ofNat_of_lt,
    hfit.received,
    hfit.totalLines, hfit.acceptedLines, hfit.rejectedLines, hfit.oversizeLines, hfit.spdN,
    hfit.resultCsv, helapsed, hrss]

/-- The size of the result is read, whatever it is. -/
theorem csvSize_analyzeDone (u : UploadState D) (elapsedMs rss : ℕ) :
    ∃ d r, analyzeDoneFields (.new (u.donePayload elapsedMs rss)) = some (d, r) ∧
      d.csvSize = .ofNat u.resultCsv.length := by
  obtain ⟨r, hr, -⟩ := (gets_analyzeDone u elapsedMs rss).whole (faces_new _)
  exact ⟨_, r, hr, rfl⟩

end TransferClient

/-! ## The C# client -/

namespace ServerConnection

open PayloadReader

theorem gets_field {α : Type} {read : PayloadReader → Option α × PayloadReader}
    {bytes : Bytes} {v : α} (h : Takes Faces read bytes v) : Gets Faces (field read) bytes v := by
  intro r tail hat
  obtain ⟨r', hr', hat'⟩ := h r tail hat
  exact ⟨r', by rw [field, hr'], hat'⟩

theorem takes_str16 {s : Bytes} (hlen : s.length ≤ 0xFFFF) (hascii : ∀ b ∈ s, b < 0x80) :
    Takes Faces str16 (PayloadWriter.str16 s) s := by
  intro r tail hat
  obtain ⟨r', hr', hat'⟩ := PayloadReader.takes_str16 hlen r tail hat
  refine ⟨r', ?_, hat'⟩
  rw [str16, hr']
  exact congrArg (fun s ↦ (some s, r')) (getString_of_ascii hascii)

private theorem moduleNamesLoop_eq {names : List Bytes}
    (hnames : ∀ s ∈ names, s.length ≤ 0xFFFF ∧ ∀ b ∈ s, b < 0x80) {r : PayloadReader} {tail : Bytes}
    (h : r.Faces (names.flatMap PayloadWriter.str16 ++ tail)) :
    ∃ r', moduleNamesLoop names.length [] r = (names, r') ∧ r'.Faces tail := by
  have hall := takes_each moduleNamesLoop id (fun names s ↦ names ++ [s])
    (fun _ _ ↦ rfl) (fun n b r v r' hr ↦ by rw [moduleNamesLoop, hr])
    (fun s hs ↦ takes_str16 (hnames s hs).1 (hnames s hs).2) [] h
  rwa [List.foldl_append_eq_append, List.nil_append, ← List.flatMap_def,
    List.flatMap_singleton'] at hall

private theorem moduleCountsLoop_eq {vs : List UInt64} {counts : List Int64}
    (hlen : counts.length = vs.length) {r : PayloadReader} {tail : Bytes}
    (h : r.Faces (vs.flatMap PayloadWriter.u64 ++ tail)) :
    ∃ r', moduleCountsLoop vs.length 0 counts r = (vs.map UInt64.toInt64, r') ∧ r'.Faces tail := by
  have hall := takes_each (fun n b ↦ moduleCountsLoop n b.1 b.2) Prod.snd
    (fun b v ↦ (b.1 + 1, b.2.set b.1 v.toInt64)) (fun _ _ ↦ rfl)
    (fun n b r v r' hr ↦ by rw [moduleCountsLoop, hr]) (fun v _ ↦ takes_u64 v) (0, counts) h
  rwa [foldl_set UInt64.toInt64 hlen] at hall

private theorem gets_moduleNames : Gets Faces (fun r ↦ some (readModuleNames r))
    (PayloadWriter.u8 (UInt8.ofNat kModuleCount)
      ++ Module.all.flatMap fun m ↦ PayloadWriter.str16 m.name) (Module.all.map Module.name) := by
  intro r tail hat
  rw [List.append_assoc] at hat
  obtain ⟨r₁, hr₁, hat₁⟩ := takes_u8 _ r _ hat
  have hnames : ∀ s ∈ Module.all.map Module.name, s.length ≤ 0xFFFF ∧ ∀ b ∈ s, b < 0x80 := by
    rw [List.forall_mem_map]
    exact fun m _ ↦ name_fits m
  obtain ⟨r₂, hr₂, hat₂⟩ := moduleNamesLoop_eq hnames (r := r₁)
    (show r₁.Faces (_ ++ tail) by rwa [List.flatMap_map])
  have hcount :
    ¬((UInt8.ofNat kModuleCount).toNat = 0 ∨ 64 < (UInt8.ofNat kModuleCount).toNat) := by
    decide
  refine ⟨r₂, ?_, hat₂⟩
  simp only [readModuleNames, hr₁, if_neg hcount]
  exact congrArg some hr₂

/-- The optional fields of an UPLOAD_ACK, all there. -/
theorem applyStats_eq {accepted rejected spdN : UInt64} {avg : Bytes} {counts : List UInt64}
    (havg : avg.length ≤ 0xFFFF) (hascii : ∀ b ∈ avg, b < 0x80) (hpos : 0 < counts.length)
    (hle : counts.length ≤ 64) (s : UploadProgress) {r : PayloadReader} {tail : Bytes}
    (h : r.Faces (PayloadWriter.u64 accepted ++ (PayloadWriter.u64 rejected
      ++ (PayloadWriter.u64 spdN ++ (PayloadWriter.str16 avg
      ++ (PayloadWriter.u8 (UInt8.ofNat counts.length)
      ++ (counts.flatMap PayloadWriter.u64 ++ tail))))))) :
    ∃ r', applyStats r s =
        ({ s with acceptedLines := accepted.toInt64, rejectedLines := rejected.toInt64
                  spdSamples := spdN.toInt64, spdAverage := avg
                  moduleCounts := counts.map UInt64.toInt64
                  statsRevision := s.statsRevision + 1 }, r') ∧ r'.Faces tail := by
  obtain ⟨r₁, r₂, r₃, r₄, r₅, hr₁, hr₂, hr₃, hr₄, hr₅, hat₅⟩ :=
    takes_stats takes_u64 (takes_str16 havg hascii) takes_u8 h
  have hcount : (UInt8.ofNat counts.length).toNat = counts.length :=
    UInt8.toNat_ofNat_of_lt' (Nat.lt_of_le_of_lt hle (by decide))
  obtain ⟨r₆, hr₆, hat₆⟩ := moduleCountsLoop_eq (length_resized s.moduleCounts _ 0) hat₅
  refine ⟨r₆, ?_, hat₆⟩
  unfold applyStats
  simp only [hr₁, hr₂, hr₃, hr₄, hr₅, hcount, if_pos (And.intro hpos hle), hr₆, Option.map_some,
    Option.getD_some]

/-- What the client has of an UPLOAD_BEGIN_ACK. -/
def beginAckMessage : UInt32 × UInt32 × List Bytes → BeginAckMessage
  | (uploadId, announced, names) => ⟨uploadId.toNat, chunkSizeOf announced, names⟩

/-- What the client reports of an UPLOAD_ACK. -/
def ackMessage (s : UploadProgress) : AckMessage :=
  ⟨s.bytesConsumed.toInt, s.linesParsed.toInt, s.acceptedLines.toInt, s.rejectedLines.toInt,
    s.spdSamples.toInt, s.spdAverage, s.moduleCounts.map Int64.toInt⟩

/-- What the client has of an ANALYZE_DONE. -/
def doneMessage (d : AnalyzeResult) : DoneMessage :=
  ⟨d.totalBytes.toInt, d.totalLines.toInt, d.acceptedLines.toInt, d.rejectedLines.toInt,
    d.oversizeLines.toInt, d.spdSamples.toInt, d.spdAverage, d.elapsedMs.toInt, d.peakRssKb.toInt,
    d.csvSize.toInt⟩

variable {D : Type}

/-- **An UPLOAD_BEGIN_ACK is read as it was written.** -/
theorem beginAckFields_eq (s : TcpSession D) :
    Understood (beginAckFields (.new s.uploadBeginAckPayload)) (·.remaining) beginAckMessage
      s.upload.beginAckMessage := by
  have hgets : Gets Faces beginAckFields s.uploadBeginAckPayload
      (s.upload.id, UInt32.ofNat kDefaultMaxChunk, Module.all.map Module.name) := by
    rw [s.uploadBeginAckPayload_eq]
    iterate 2 refine (gets_field (takes_u32 _)).bind ?_
    exact gets_moduleNames.bind (Gets.pure _)
  obtain ⟨r, hr, hat⟩ := hgets.whole (faces_new _)
  exact ⟨_, r, hr, hat.remaining, rfl⟩

variable [DoubleOps D] [PrintsNumbers D] {u : UploadState D}

/-- **An UPLOAD_ACK is read as it was written**, and the client reports what it says. -/
theorem uploadAckFields_eq (hfit : u.CountersFit) (s : UploadProgress) :
    Understood (uploadAckFields u.ackPayload s) (·.remaining) ackMessage u.ackMessage := by
  have hpayload := u.ackPayload_eq
  obtain ⟨r₁, hr₁, hat₁⟩ := takes_u64 _ _ _ (hpayload ▸ faces_new u.ackPayload)
  obtain ⟨r₂, hr₂, hat₂⟩ := takes_u64 _ r₁ _ hat₁
  set s₂ : UploadProgress :=
    { s with
      bytesConsumed := (UInt64.ofNat u.received).toInt64
      linesParsed := (UInt64.ofNat u.agg.totalLines).toInt64 }
    with hs₂
  obtain ⟨r₃, hr₃, hat₃⟩ := applyStats_eq u.length_averageText u.averageText_ascii
    (by rw [u.length_counts]; decide) (by rw [u.length_counts]; decide) s₂ hat₂
  rw [← hpayload] at hr₁
  refine ⟨(applyStats r₂ s₂).1, r₃, ?_, hat₃.remaining, ?_⟩
  · unfold uploadAckFields
    simp only [hr₁, hr₂, ← hs₂]
    rw [hr₃]
  · rw [hr₃]
    simp only [ackMessage, UploadState.ackMessage, hs₂, toInt_ofNat_of_lt, hfit.received,
      hfit.totalLines, hfit.acceptedLines, hfit.rejectedLines, hfit.spdN, hfit.moduleTotals,
      UploadState.counts, List.map_map, Function.comp_def]

/-- What is read of an ANALYZE_DONE. -/
theorem gets_analyzeDone (u : UploadState D) (elapsedMs rss : ℕ) :
    Gets Faces analyzeDoneFields (u.donePayload elapsedMs rss)
      { totalBytes := (UInt64.ofNat u.received).toInt64
        totalLines := (UInt64.ofNat u.agg.totalLines).toInt64
        acceptedLines := (UInt64.ofNat u.agg.acceptedLines).toInt64
        rejectedLines := (UInt64.ofNat u.agg.rejectedLines).toInt64
        oversizeLines := (UInt64.ofNat u.agg.oversizeLines).toInt64
        spdSamples := (UInt64.ofNat u.agg.spdN).toInt64, spdAverage := u.averageText
        elapsedMs := (UInt64.ofNat elapsedMs).toInt64, peakRssKb := (UInt64.ofNat rss).toInt64
        csvSize := (UInt64.ofNat u.resultCsv.length).toInt64 } := by
  rw [u.donePayload_eq]
  iterate 6 refine (gets_field (takes_u64 _)).bind ?_
  refine (gets_field (takes_str16 u.length_averageText u.averageText_ascii)).bind ?_
  iterate 3 refine (gets_field (takes_u64 _)).bind ?_
  exact Gets.pure _

/-- **An ANALYZE_DONE is read as it was written.** -/
theorem analyzeDoneFields_eq (hfit : u.CountersFit) {elapsedMs rss : ℕ}
    (helapsed : elapsedMs < 2 ^ 63)
    (hrss : rss < 2 ^ 63) :
    Understood (analyzeDoneFields (.new (u.donePayload elapsedMs rss))) (·.remaining) doneMessage
      (u.doneMessage elapsedMs rss) := by
  obtain ⟨r, hr, hat⟩ := (gets_analyzeDone u elapsedMs rss).whole (faces_new _)
  refine ⟨_, r, hr, hat.remaining, ?_⟩
  simp only [doneMessage, UploadState.doneMessage, toInt_ofNat_of_lt, hfit.received,
    hfit.totalLines,
    hfit.acceptedLines, hfit.rejectedLines, hfit.oversizeLines, hfit.spdN, hfit.resultCsv, helapsed,
    hrss]

/-- The size of the result is read, whatever it is. -/
theorem csvSize_analyzeDone (u : UploadState D) (elapsedMs rss : ℕ) :
    ∃ d r, analyzeDoneFields (.new (u.donePayload elapsedMs rss)) = some (d, r) ∧
      d.csvSize = (UInt64.ofNat u.resultCsv.length).toInt64 := by
  obtain ⟨r, hr, -⟩ := (gets_analyzeDone u elapsedMs rss).whole (faces_new _)
  exact ⟨_, r, hr, rfl⟩

end ServerConnection

/-! ## Both clients -/

/-- **Server and clients agree on the layouts**: whatever a session sends as UPLOAD_BEGIN_ACK,
UPLOAD_ACK or ANALYZE_DONE, both clients decode it to its end and have the values of the server. -/
theorem understood_all {D : Type} [DoubleOps D] [PrintsNumbers D] (s : TcpSession D)
    (hfit : s.upload.CountersFit) (elapsedMs rss : ℕ) (helapsed : elapsedMs < 2 ^ 63)
    (hrss : rss < 2 ^ 63) (cpp : TransferClient) (csharp : UploadProgress) :
    Understood (TransferClient.beginAckFields (.new s.uploadBeginAckPayload)) (·.remaining)
        TransferClient.beginAckMessage s.upload.beginAckMessage ∧
      Understood (ServerConnection.beginAckFields (.new s.uploadBeginAckPayload)) (·.remaining)
        ServerConnection.beginAckMessage s.upload.beginAckMessage ∧
      Understood (TransferClient.uploadAckFields s.upload.ackPayload cpp.state) (·.remaining)
        TransferClient.ackMessage s.upload.ackMessage ∧
      Understood (ServerConnection.uploadAckFields s.upload.ackPayload csharp) (·.remaining)
        ServerConnection.ackMessage s.upload.ackMessage ∧
      Understood (TransferClient.analyzeDoneFields (.new (s.upload.donePayload elapsedMs rss)))
        (·.remaining)
        (fun d ↦ TransferClient.doneMessage d.csvSize (TransferClient.applyAnalyzeDone d cpp).state)
        (s.upload.doneMessage elapsedMs rss) ∧
      Understood (ServerConnection.analyzeDoneFields (.new (s.upload.donePayload elapsedMs rss)))
        (·.remaining) ServerConnection.doneMessage (s.upload.doneMessage elapsedMs rss) :=
  ⟨TransferClient.beginAckFields_eq s, ServerConnection.beginAckFields_eq s,
    TransferClient.uploadAckFields_eq hfit cpp.state,
    ServerConnection.uploadAckFields_eq hfit csharp,
    TransferClient.analyzeDoneFields_eq hfit helapsed hrss cpp,
    ServerConnection.analyzeDoneFields_eq hfit helapsed hrss⟩

/-- A session in whose upload no two counters are the same. -/
def countedSession : TcpSession ℚ :=
  let s := TcpSession.start (D := ℚ) plainConfig calmEnv
  { s with
    upload :=
      { s.upload with
        id := 17, received := 900, resultCsv := ascii "csv"
        agg :=
          { s.upload.agg with
            totalLines := 70, acceptedLines := 56, oversizeLines := 2, spdN := 8, sum := 300
            moduleTotals := fun
              | .radarTrackNodeState => 21
              | .antennaProfileSpec => 15
              | .sectorSchedulerRTS => 10
              | .detectionTaskRunner => 6
              | .beamSteerCtrlUnitImpl => 4 } } }

private theorem countersFit_countedSession : countedSession.upload.CountersFit where
  received := by decide
  totalLines := by decide
  acceptedLines := by decide
  rejectedLines := by decide
  oversizeLines := by decide
  spdN := by decide
  moduleTotals m := by cases m <;> decide
  resultCsv := by decide

theorem understood_countedSession :
    Understood (TransferClient.beginAckFields (.new countedSession.uploadBeginAckPayload))
        (·.remaining) TransferClient.beginAckMessage countedSession.upload.beginAckMessage ∧
      Understood (ServerConnection.beginAckFields (.new countedSession.uploadBeginAckPayload))
        (·.remaining) ServerConnection.beginAckMessage countedSession.upload.beginAckMessage ∧
      Understood (TransferClient.uploadAckFields countedSession.upload.ackPayload {})
        (·.remaining) TransferClient.ackMessage countedSession.upload.ackMessage ∧
      Understood (ServerConnection.uploadAckFields countedSession.upload.ackPayload {})
        (·.remaining) ServerConnection.ackMessage countedSession.upload.ackMessage ∧
      Understood (TransferClient.analyzeDoneFields (.new (countedSession.upload.donePayload 5 7)))
        (·.remaining)
        (fun d ↦ TransferClient.doneMessage d.csvSize
          (TransferClient.applyAnalyzeDone d ⟨{}, []⟩).state)
        (countedSession.upload.doneMessage 5 7) ∧
      Understood (ServerConnection.analyzeDoneFields (.new (countedSession.upload.donePayload 5 7)))
        (·.remaining) ServerConnection.doneMessage (countedSession.upload.doneMessage 5 7) :=
  understood_all countedSession countersFit_countedSession 5 7 (by decide) (by decide) ⟨{}, []⟩ {}

end LoggerAnalyzer
