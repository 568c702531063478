import LoggerAnalyzer.Wire.Fields

/-!
# Payloads in the client

The C++ client has a writer and a reader of its own. The writer takes over the server's byte order;
the reader keeps a pointer and a size where the server's keeps the buffer. `PayloadReader.view`
shows one as the other, and everything that is known about reading carries over.
-/

namespace LoggerAnalyzer

namespace Client

namespace PayloadWriter

def u8 (v : UInt8) : Bytes := [v]

def u16 (v : UInt16) : Bytes := storeBe16 v

def u32 (v : UInt32) : Bytes := storeBe32 v

def u64 (v : UInt64) : Bytes := storeBe64 v

def str16 (s : Bytes) : Bytes :=
  let n := if 0xFFFF < s.length then 0xFFFF else s.length
  u16 (UInt16.ofNat n) ++ s.take n

def field : Field → Bytes
  | .u8 v => u8 v
  | .u16 v => u16 v
  | .u32 v => u32 v
  | .u64 v => u64 v
  | .str16 s => str16 s

theorem str16_eq (s : Bytes) : str16 s = LoggerAnalyzer.PayloadWriter.str16 s := by
  have hmin : (if 0xFFFF < s.length then 0xFFFF else s.length) = min s.length 0xFFFF := by
    split_ifs <;> omega
  rw [str16, hmin]
  rfl

/-- Both writers write the same bytes. -/
theorem field_eq (f : Field) : field f = LoggerAnalyzer.PayloadWriter.field f := by
  cases f with
  | str16 s => exact str16_eq s
  | _ => rfl

end PayloadWriter

/-- A pointer to `size` bytes, a position in them, and whether every read so far succeeded. -/
structure PayloadReader where
  buf : Bytes
  size : ℕ
  pos : ℕ
  ok : Bool
deriving DecidableEq, Repr

namespace PayloadReader

def new (buf : Bytes) : PayloadReader := ⟨buf, buf.length, 0, true⟩

def remaining (r : PayloadReader) : ℕ := r.size - r.pos

/-- A field of `n` bytes: `need(n)`, the load and the step past it, or the failure that stays. -/
def field {α : Type} (n : ℕ) (load : Bytes → α) (r : PayloadReader) : Option α × PayloadReader :=
  if !r.ok || r.remaining < n then (none, { r with ok := false })
  else (some (load (r.buf.drop r.pos)), { r with pos := r.pos + n })

def u8 (r : PayloadReader) : Option UInt8 × PayloadReader := r.field 1 fun p ↦ p.getD 0 0

def u16 (r : PayloadReader) : Option UInt16 × PayloadReader := r.field 2 loadBe16

def u32 (r : PayloadReader) : Option UInt32 × PayloadReader := r.field 4 loadBe32

def u64 (r : PayloadReader) : Option UInt64 × PayloadReader := r.field 8 loadBe64

def str16 (r : PayloadReader) : Option Bytes × PayloadReader :=
  match r.u16 with
  | (none, r) => (none, r)
  | (some n, r) => r.field n.toNat fun p ↦ p.take n.toNat

def read : FieldType → PayloadReader → Option Field × PayloadReader
  | .u8, r => (r.u8.1.map .u8, r.u8.2)
  | .u16, r => (r.u16.1.map .u16, r.u16.2)
  | .u32, r => (r.u32.1.map .u32, r.u32.2)
  | .u64, r => (r.u64.1.map .u64, r.u64.2)
  | .str16, r => (r.str16.1.map .str16, r.str16.2)

instance : FieldReader PayloadReader := ⟨new, ok, pos, remaining, read⟩

/-! ## The server's reader in it -/

/-- The reader of the server at the same place. -/
def view (r : PayloadReader) : LoggerAnalyzer.PayloadReader := ⟨r.buf, r.pos, r.ok⟩

/-- A read keeps the size right and does what the server's read does. -/
def Follows {α : Type} (read : PayloadReader → α × PayloadReader)
    (read' : LoggerAnalyzer.PayloadReader → α × LoggerAnalyzer.PayloadReader) : Prop :=
  ∀ r : PayloadReader, r.size = r.buf.length →
    (read r).2.size = (read r).2.buf.length ∧ ((read r).1, (read r).2.view) = read' r.view

theorem follows_field {α : Type} (n : ℕ) (load : Bytes → α) :
    Follows (field n load) (LoggerAnalyzer.PayloadReader.field n load) := by
  intro r hsize
  have hhas : r.view.has n = !(!r.ok || decide (r.remaining < n)) := by
    rw [LoggerAnalyzer.PayloadReader.has, Bool.not_or, Bool.not_not, remaining, hsize]
    simp only [← decide_not, Nat.not_lt]
    rfl
  rw [field, LoggerAnalyzer.PayloadReader.field, hhas]
  cases !r.ok || decide (r.remaining < n)
  · exact ⟨hsize, rfl⟩
  · exact ⟨hsize, rfl⟩

theorem Follows.map {α β : Type} {read : PayloadReader → α × PayloadReader}
    {read' : LoggerAnalyzer.PayloadReader → α × LoggerAnalyzer.PayloadReader}
    (h : Follows read read') (g : α → β) :
    Follows (fun r ↦ (g (read r).1, (read r).2)) fun r ↦ (g (read' r).1, (read' r).2) := by
  intro r hsize
  obtain ⟨hsize', heq⟩ := h r hsize
  exact ⟨hsize', congrArg (fun out ↦ (g out.1, out.2)) heq⟩

theorem follows_str16 : Follows str16 LoggerAnalyzer.PayloadReader.str16 := by
  intro r hsize
  obtain ⟨hsize', heq⟩ := follows_field 2 loadBe16 r hsize
  rw [str16, u16, LoggerAnalyzer.PayloadReader.str16, LoggerAnalyzer.PayloadReader.u16, ← heq]
  rcases hread : r.field 2 loadBe16 with ⟨_ | n, r'⟩
  · exact ⟨by rwa [hread] at hsize', rfl⟩
  · exact follows_field n.toNat (fun p ↦ p.take n.toNat) r' (by rwa [hread] at hsize')

theorem follows_read (t : FieldType) : Follows (read t) (LoggerAnalyzer.PayloadReader.read t) := by
  cases t with
  | u8 => exact (follows_field 1 fun p ↦ p.getD 0 0).map _
  | u16 => exact (follows_field 2 loadBe16).map _
  | u32 => exact (follows_field 4 loadBe32).map _
  | u64 => exact (follows_field 8 loadBe64).map _
  | str16 => exact follows_str16.map _

theorem follows_readAll (ts : List FieldType) :
    Follows (readAll ts) (readAll (R := LoggerAnalyzer.PayloadReader) ts) := by
  induction ts with
  | nil => exact fun r hsize ↦ ⟨hsize, rfl⟩
  | cons t ts ih =>
    intro r hsize
    obtain ⟨hsize₁, heq₁⟩ := follows_read t r hsize
    obtain ⟨hsize₂, heq₂⟩ := ih _ hsize₁
    refine ⟨hsize₂, ?_⟩
    rw [readAll, readAll, show FieldReader.read t r.view = _ from heq₁.symm]
    dsimp only
    rw [← heq₂]
    rfl

/-- Reading from the start of some bytes, both readers give the same and are in the same place. -/
theorem readAll_new (ts : List FieldType) (bytes : Bytes) :
    (readAll ts (FieldReader.new bytes : PayloadReader)).1
        = (readAll ts (FieldReader.new bytes : LoggerAnalyzer.PayloadReader)).1 ∧
      (readAll ts (FieldReader.new bytes : PayloadReader)).2.view
        = (readAll ts (FieldReader.new bytes : LoggerAnalyzer.PayloadReader)).2 ∧
      (readAll ts (FieldReader.new bytes : PayloadReader)).2.remaining
        = (readAll ts (FieldReader.new bytes : LoggerAnalyzer.PayloadReader)).2.remaining := by
  obtain ⟨hsize, heq⟩ := follows_readAll ts (new bytes) rfl
  have hview := congrArg Prod.snd heq
  refine ⟨congrArg Prod.fst heq, hview, ?_⟩
  have hremaining := congrArg LoggerAnalyzer.PayloadReader.remaining hview
  rw [LoggerAnalyzer.PayloadReader.remaining] at hremaining
  dsimp only [view] at hremaining
  rw [← hsize] at hremaining
  exact hremaining

/-- What the server's reader reads back, this reader reads back. -/
theorem readsBack {write : Field → Bytes} {fs : List Field}
    (h : ReadsBack LoggerAnalyzer.PayloadReader write fs) : ReadsBack PayloadReader write fs := by
  have hok : ∀ {r : PayloadReader} {r' : LoggerAnalyzer.PayloadReader}, r.view = r' →
      FieldReader.ok r = FieldReader.ok r' := fun h ↦ congrArg LoggerAnalyzer.PayloadReader.ok h
  have hpos : ∀ {r : PayloadReader} {r' : LoggerAnalyzer.PayloadReader}, r.view = r' →
      FieldReader.pos r = FieldReader.pos r' := fun h ↦ congrArg LoggerAnalyzer.PayloadReader.pos h
  constructor
  · obtain ⟨r', hread, hok', hremaining'⟩ := h.whole
    obtain ⟨hfields, hview, hremaining⟩ := readAll_new (fs.map Field.type) (fs.flatMap write)
    rw [hread] at hfields hview hremaining
    exact ⟨_, Prod.ext hfields rfl, (hok hview).trans hok', hremaining.trans hremaining'⟩
  · intro bytes hprefix hne
    obtain ⟨front, f, back, hfs, hfront, hnext, hok', hrest⟩ := h.cut bytes hprefix hne
    refine ⟨front, f, back, hfs, hfront, hnext, ?_, fun ts ↦ ?_⟩
    · exact (hok (readAll_new _ bytes).2.1).trans hok'
    · obtain ⟨r', hread, hfailed⟩ := hrest ts
      obtain ⟨hfields, hview, -⟩ := readAll_new (front.map Field.type ++ f.type :: ts) bytes
      rw [hread] at hfields hview
      exact ⟨_, Prod.ext hfields rfl, (hok hview).trans hfailed⟩
  · intro bytes hprefix ts
    obtain ⟨hle, hdepends⟩ := h.inside bytes hprefix ts
    rw [← hpos (readAll_new ts bytes).2.1] at hle hdepends
    refine ⟨hle, fun other hlen hsame ↦ ?_⟩
    rw [(readAll_new ts other).1, (readAll_new ts bytes).1]
    exact hdepends other hlen hsame

end PayloadReader

end Client

/-! ## Both writers, both readers -/

/-- **Fields that were written are read back**, whichever writer and whichever reader it is, and of
bytes that were cut off nothing is read past the cut. -/
theorem readsBack_all (fs : List Field) (hfits : ∀ f ∈ fs, f.Fits) :
    ReadsBack PayloadReader PayloadWriter.field fs ∧
      ReadsBack PayloadReader Client.PayloadWriter.field fs ∧
      ReadsBack Client.PayloadReader PayloadWriter.field fs ∧
      ReadsBack Client.PayloadReader Client.PayloadWriter.field fs := by
  have hserver := PayloadReader.readsBack hfits
  rw [funext Client.PayloadWriter.field_eq]
  exact ⟨hserver, hserver, Client.PayloadReader.readsBack hserver,
    Client.PayloadReader.readsBack hserver⟩

/-- A number, a string and a byte are fields that fit. -/
theorem readsBack_all_three :
    ReadsBack PayloadReader PayloadWriter.field [.u64 7, .str16 (ascii "ab"), .u8 1] ∧
      ReadsBack PayloadReader Client.PayloadWriter.field [.u64 7, .str16 (ascii "ab"), .u8 1] ∧
      ReadsBack Client.PayloadReader PayloadWriter.field [.u64 7, .str16 (ascii "ab"), .u8 1] ∧
      ReadsBack Client.PayloadReader Client.PayloadWriter.field
        [.u64 7, .str16 (ascii "ab"), .u8 1] :=
  readsBack_all [.u64 7, .str16 (ascii "ab"), .u8 1] (by decide)

end LoggerAnalyzer
