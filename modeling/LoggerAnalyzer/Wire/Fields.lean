import LoggerAnalyzer.Wire.Payload

/-!
# Lists of fields

A payload is a list of fields, and the reader of a payload asks for their types one by one. Here is
what that comes to for any list: the fields that were written are read back, and of bytes that were
cut off somewhere the fields before the cut are read back and nothing after it.

`FieldReader` lists what a reader offers, so that the two readers of the program can be compared;
`ReadsBack` is what is proved about them.
-/

namespace LoggerAnalyzer

inductive FieldType where
  | u8
  | u16
  | u32
  | u64
  | str16
deriving DecidableEq, Repr

inductive Field where
  | u8 (v : UInt8)
  | u16 (v : UInt16)
  | u32 (v : UInt32)
  | u64 (v : UInt64)
  | str16 (s : Bytes)
deriving DecidableEq, Repr

namespace Field

def type : Field → FieldType
  | u8 _ => .u8
  | u16 _ => .u16
  | u32 _ => .u32
  | u64 _ => .u64
  | str16 _ => .str16

/-- A string is not cut off when it is written. -/
def Fits : Field → Prop
  | str16 s => s.length ≤ 0xFFFF
  | _ => True

instance : DecidablePred Fits
  | u8 _ => isTrue trivial
  | u16 _ => isTrue trivial
  | u32 _ => isTrue trivial
  | u64 _ => isTrue trivial
  | str16 s => inferInstanceAs (Decidable (s.length ≤ 0xFFFF))

end Field

def PayloadWriter.field : Field → Bytes
  | .u8 v => u8 v
  | .u16 v => u16 v
  | .u32 v => u32 v
  | .u64 v => u64 v
  | .str16 s => str16 s

/-- What a reader of payloads offers. -/
class FieldReader (R : Type) where
  new : Bytes → R
  ok : R → Bool
  pos : R → ℕ
  remaining : R → ℕ
  read : FieldType → R → Option Field × R

/-- The fields that are read for some types, one after another. -/
def readAll {R : Type} [FieldReader R] : List FieldType → R → List (Option Field) × R
  | [], r => ([], r)
  | t :: ts, r =>
    let one := FieldReader.read t r
    let rest := readAll ts one.2
    (one.1 :: rest.1, rest.2)

private theorem readAll_append {R : Type} [FieldReader R] (ts us : List FieldType) (r : R) :
    readAll (ts ++ us) r
      = ((readAll ts r).1 ++ (readAll us (readAll ts r).2).1, (readAll us (readAll ts r).2).2) := by
  induction ts generalizing r with
  | nil => rfl
  | cons t ts ih => rw [List.cons_append, readAll, ih, readAll, List.cons_append]

namespace PayloadReader

def read : FieldType → PayloadReader → Option Field × PayloadReader
  | .u8, r => (r.u8.1.map .u8, r.u8.2)
  | .u16, r => (r.u16.1.map .u16, r.u16.2)
  | .u32, r => (r.u32.1.map .u32, r.u32.2)
  | .u64, r => (r.u64.1.map .u64, r.u64.2)
  | .str16, r => (r.str16.1.map .str16, r.str16.2)

instance : FieldReader PayloadReader := ⟨new, ok, pos, remaining, read⟩

end PayloadReader

/-! ## What a reader is for -/

/-- The reader `R` reads the fields `fs` back from what `write` makes of them. -/
structure ReadsBack (R : Type) [FieldReader R] (write : Field → Bytes) (fs : List Field) :
    Prop where
  /-- All fields are read, and nothing is left. -/
  whole : ∃ r : R, readAll (fs.map Field.type) (FieldReader.new (fs.flatMap write))
      = (fs.map some, r) ∧ FieldReader.ok r = true ∧ FieldReader.remaining r = 0
  /-- Of bytes that were cut off, the fields before the cut are read; the next one fails, and so
  does every read after it. -/
  cut : ∀ bytes, bytes <+: fs.flatMap write → bytes ≠ fs.flatMap write →
    ∃ front f back, fs = front ++ f :: back ∧ front.flatMap write <+: bytes ∧
      ¬ (front ++ [f]).flatMap write <+: bytes ∧
      FieldReader.ok (readAll (front.map Field.type) (FieldReader.new bytes : R)).2 = true ∧
      ∀ ts, ∃ r : R, readAll (front.map Field.type ++ f.type :: ts) (FieldReader.new bytes)
        = (front.map some ++ none :: ts.map (fun _ ↦ none), r) ∧ FieldReader.ok r = false
  /-- Whatever is read of bytes that were cut off, or not, the reader stays in them, and it looks at
  no byte from its position on. -/
  inside : ∀ bytes, bytes <+: fs.flatMap write → ∀ ts,
    FieldReader.pos (readAll ts (FieldReader.new bytes : R)).2 ≤ bytes.length ∧
      ∀ other : Bytes, other.length = bytes.length →
        other.take (FieldReader.pos (readAll ts (FieldReader.new bytes : R)).2)
            = bytes.take (FieldReader.pos (readAll ts (FieldReader.new bytes : R)).2) →
          (readAll ts (FieldReader.new other : R)).1 = (readAll ts (FieldReader.new bytes : R)).1

/-! ## Reading what was written -/

namespace PayloadReader

variable {r : PayloadReader}

private theorem read_of_ahead {f : Field} {tail : Bytes} (hok : r.ok = true) (hfits : f.Fits)
    (h : r.ahead = PayloadWriter.field f ++ tail) :
    ∃ r', r.read f.type = (some f, r') ∧ r'.ok = true ∧ r'.ahead = tail := by
  cases f with
  | u8 v =>
    obtain ⟨r', hr, hok', htail⟩ := field_of_ahead (fun p ↦ p.getD 0 0) (n := 1) hok rfl h
    exact ⟨r', by rw [Field.type, read, u8, hr]; rfl, hok', htail⟩
  | u16 v =>
    obtain ⟨r', hr, hok', htail⟩ := u16_of_ahead hok h
    exact ⟨r', by rw [Field.type, read, hr]; rfl, hok', htail⟩
  | u32 v =>
    obtain ⟨r', hr, hok', htail⟩ := u32_of_ahead hok h
    exact ⟨r', by rw [Field.type, read, hr]; rfl, hok', htail⟩
  | u64 v =>
    obtain ⟨r', hr, hok', htail⟩ := u64_of_ahead hok h
    exact ⟨r', by rw [Field.type, read, hr]; rfl, hok', htail⟩
  | str16 s =>
    obtain ⟨r', hr, hok', htail⟩ := str16_of_ahead hok hfits h
    exact ⟨r', by rw [Field.type, read, hr]; rfl, hok', htail⟩

private theorem readAll_of_ahead {fs : List Field} {tail : Bytes} (hok : r.ok = true)
    (hfits : ∀ f ∈ fs, f.Fits) (h : r.ahead = fs.flatMap PayloadWriter.field ++ tail) :
    ∃ r', readAll (fs.map Field.type) r = (fs.map some, r') ∧ r'.ok = true ∧ r'.ahead = tail := by
  induction fs generalizing r with
  | nil => exact ⟨r, rfl, hok, h⟩
  | cons f fs ih =>
    rw [List.forall_mem_cons] at hfits
    rw [List.flatMap_cons, List.append_assoc] at h
    obtain ⟨r₁, hr₁, hok₁, htail₁⟩ := read_of_ahead hok hfits.1 h
    obtain ⟨r₂, hr₂, hok₂, htail₂⟩ := ih hok₁ hfits.2 htail₁
    refine ⟨r₂, ?_, hok₂, htail₂⟩
    rw [List.map_cons, readAll, show FieldReader.read f.type r = _ from hr₁]
    dsimp only
    rw [hr₂, List.map_cons]

/-! ## Reading what was cut off -/

private theorem field_of_failed {α : Type} (load : Bytes → α) (n : ℕ) (hok : r.ok = false) :
    r.field n load = (none, r) := by
  obtain ⟨buf, pos, ok⟩ := r
  obtain rfl : ok = false := hok
  rfl

private theorem read_of_failed (t : FieldType) (hok : r.ok = false) : r.read t = (none, r) := by
  cases t with
  | u8 => rw [read, u8, field_of_failed _ _ hok]; rfl
  | u16 => rw [read, u16, field_of_failed _ _ hok]; rfl
  | u32 => rw [read, u32, field_of_failed _ _ hok]; rfl
  | u64 => rw [read, u64, field_of_failed _ _ hok]; rfl
  | str16 => rw [read, str16, u16, field_of_failed _ _ hok]; rfl

private theorem readAll_of_failed (ts : List FieldType) (hok : r.ok = false) :
    readAll ts r = (ts.map fun _ ↦ none, r) := by
  induction ts with
  | nil => rfl
  | cons t ts ih =>
    rw [readAll, show FieldReader.read t r = _ from read_of_failed t hok]
    dsimp only
    rw [ih, List.map_cons]

private theorem field_of_short {α : Type} (load : Bytes → α) {n : ℕ} (h : r.ahead.length < n) :
    r.field n load = (none, { r with ok := false }) := by
  rw [ahead, List.length_drop] at h
  rw [field, if_neg]
  rw [has, remaining, Bool.and_eq_true, decide_eq_true_eq]
  omega

/-- A field of which only a part is ahead fails. -/
theorem read_of_short {f : Field} (hok : r.ok = true) (hfits : f.Fits)
    (h : r.ahead <+: PayloadWriter.field f) (hne : r.ahead ≠ PayloadWriter.field f) :
    ∃ r', r.read f.type = (none, r') ∧ r'.ok = false := by
  have hlen : r.ahead.length < (PayloadWriter.field f).length :=
    Nat.lt_of_le_of_ne h.length_le fun heq ↦ hne (h.eq_of_length heq)
  cases f with
  | u8 v => exact ⟨_, by rw [Field.type, read, u8, field_of_short (n := 1) _ hlen]; rfl, rfl⟩
  | u16 v => exact ⟨_, by rw [Field.type, read, u16, field_of_short (n := 2) _ hlen]; rfl, rfl⟩
  | u32 v => exact ⟨_, by rw [Field.type, read, u32, field_of_short (n := 4) _ hlen]; rfl, rfl⟩
  | u64 v => exact ⟨_, by rw [Field.type, read, u64, field_of_short (n := 8) _ hlen]; rfl, rfl⟩
  | str16 s =>
    by_cases hshort : r.ahead.length < 2
    -- The cut is in the length.
    · exact ⟨_, by rw [Field.type, read, str16, u16, field_of_short _ hshort]; rfl, rfl⟩
    -- The cut is behind the length.
    · rw [PayloadWriter.field, PayloadWriter.str16, Nat.min_eq_left hfits,
        List.take_length] at h hlen
      obtain ⟨rest, hrest⟩ : PayloadWriter.u16 (UInt16.ofNat s.length) <+: r.ahead :=
        List.prefix_of_prefix_length_le ⟨s, rfl⟩ h (by
          rw [PayloadWriter.length_u16]
          exact Nat.not_lt.mp hshort)
      obtain ⟨r₁, hr₁, hok₁, htail₁⟩ := u16_of_ahead hok hrest.symm
      have hn : (UInt16.ofNat s.length).toNat = s.length :=
        UInt16.toNat_ofNat_of_lt' (Nat.lt_of_le_of_lt hfits (by decide))
      have hbody : r₁.ahead.length < s.length := by
        rw [← hrest, List.length_append, List.length_append] at hlen
        rw [htail₁]
        omega
      refine ⟨{ r₁ with ok := false }, ?_, rfl⟩
      rw [Field.type, read, str16, hr₁]
      simp only [hn, field_of_short _ hbody]
      rfl

/-! ## Staying inside -/

/-- The reader at the same place of other bytes. -/
def onto (buf : Bytes) (r : PayloadReader) : PayloadReader := { r with buf := buf }

@[simp] theorem onto_buf (buf : Bytes) (r : PayloadReader) : (r.onto buf).buf = buf := rfl

@[simp] theorem onto_pos (buf : Bytes) (r : PayloadReader) : (r.onto buf).pos = r.pos := rfl

@[simp] theorem onto_ok (buf : Bytes) (r : PayloadReader) : (r.onto buf).ok = r.ok := rfl

/-- A read goes forward, not past the end, and what it gives depends on the bytes up to where it
ends only. -/
structure Within (r : PayloadReader) {α : Type} (read : PayloadReader → α × PayloadReader) :
    Prop where
  buf : (read r).2.buf = r.buf
  forward : r.pos ≤ (read r).2.pos
  le_length : (read r).2.pos ≤ r.buf.length
  depends : ∀ other : Bytes, other.length = r.buf.length →
    other.take (read r).2.pos = r.buf.take (read r).2.pos →
      read (r.onto other) = ((read r).1, (read r).2.onto other)

theorem Within.bind {α β : Type} {read : PayloadReader → α × PayloadReader}
    (next : α → PayloadReader → β × PayloadReader) (h : Within r read)
    (hnext : (read r).2.pos ≤ (read r).2.buf.length → Within (read r).2 (next (read r).1)) :
    Within r fun r ↦ next (read r).1 (read r).2 := by
  have hlength := congrArg List.length h.buf
  have h' := hnext (by rw [hlength]; exact h.le_length)
  constructor
  · exact h'.buf.trans h.buf
  · exact Nat.le_trans h.forward h'.forward
  · exact Nat.le_trans h'.le_length (Nat.le_of_eq hlength)
  · intro other hlen hsame
    have hfirst := h.depends other hlen (by
      have htake := congrArg (List.take (read r).2.pos) hsame
      rwa [List.take_take, List.take_take, Nat.min_eq_left h'.forward] at htake)
    rw [hfirst]
    exact h'.depends other (by rw [hlen, hlength]) (by rw [hsame, h.buf])

theorem within_pure {α : Type} (a : α) (hpos : r.pos ≤ r.buf.length) : Within r (a, ·) :=
  ⟨rfl, Nat.le_refl _, hpos, fun _ _ _ ↦ rfl⟩

theorem within_field {α : Type} (load : Bytes → α) {n : ℕ}
    (hload : ∀ p : Bytes, n ≤ p.length → load (p.take n) = load p) (hpos : r.pos ≤ r.buf.length) :
    Within r (field n load) := by
  by_cases hhas : r.has n = true
  · have hle : r.pos + n ≤ r.buf.length := by
      rw [has, Bool.and_eq_true, decide_eq_true_eq, remaining] at hhas
      omega
    have heq : r.field n load = (some (load r.ahead), { r with pos := r.pos + n }) := by
      rw [field, if_pos hhas]
    constructor
    · rw [heq]
    · rw [heq]
      exact Nat.le_add_right ..
    · rw [heq]
      exact hle
    · intro other hlen hsame
      rw [heq] at hsame ⊢
      have hhas' : (r.onto other).has n = true := by
        rw [has, remaining] at hhas ⊢
        rwa [onto_ok, onto_buf, onto_pos, hlen]
      have hahead : load (r.onto other).ahead = load r.ahead := by
        have htake : ((r.onto other).ahead).take n = r.ahead.take n := by
          have hdrop := congrArg (List.drop r.pos) hsame
          rwa [List.drop_take, List.drop_take, Nat.add_sub_cancel_left] at hdrop
        rw [← hload _ (by rw [ahead, List.length_drop, onto_buf, onto_pos, hlen]; omega), htake,
          hload _ (by rw [ahead, List.length_drop]; omega)]
      rw [field, if_pos hhas', hahead]
      rfl
  · have heq : r.field n load = (none, { r with ok := false }) := by rw [field, if_neg hhas]
    constructor
    · rw [heq]
    · exact Nat.le_of_eq (congrArg (fun x ↦ x.2.pos) heq).symm
    · rw [heq]
      exact hpos
    · intro other hlen _
      rw [heq, field, if_neg]
      · rfl
      · rw [has, remaining] at hhas ⊢
        rwa [onto_ok, onto_buf, onto_pos, hlen]

theorem within_u8 (hpos : r.pos ≤ r.buf.length) : Within r u8 :=
  within_field (fun p ↦ p.getD 0 0) (n := 1) (fun p _ ↦ by cases p <;> rfl) hpos

theorem within_u16 (hpos : r.pos ≤ r.buf.length) : Within r u16 :=
  within_field _ (fun p _ ↦ by obtain _ | ⟨_, _ | ⟨_, p⟩⟩ := p <;> rfl) hpos

theorem within_u32 (hpos : r.pos ≤ r.buf.length) : Within r u32 :=
  within_field _ (fun p _ ↦ by obtain _ | ⟨_, _ | ⟨_, _ | ⟨_, _ | ⟨_, p⟩⟩⟩⟩ := p <;> rfl) hpos

theorem within_u64 (hpos : r.pos ≤ r.buf.length) : Within r u64 :=
  within_field _ (fun p _ ↦ by rw [loadBe64, List.take_take, Nat.min_self, loadBe64]) hpos

/-- The part of `str16` behind the length. -/
def body : Option UInt16 → PayloadReader → Option Bytes × PayloadReader
  | none, r => (none, r)
  | some n, r => r.field n.toNat fun p ↦ p.take n.toNat

private theorem str16_eq (r : PayloadReader) : r.str16 = body r.u16.1 r.u16.2 := by
  rw [str16]
  rcases r.u16 with ⟨_ | n, r'⟩ <;> rfl

theorem within_str16 (hpos : r.pos ≤ r.buf.length) : Within r str16 := by
  rw [funext str16_eq]
  refine (within_u16 hpos).bind body ?_
  intro hpos'
  cases (u16 r).1 with
  | none => exact within_pure none hpos'
  | some n => exact within_field _ (fun p _ ↦ by rw [List.take_take, Nat.min_self]) hpos'

/-- Every read stays inside. -/
theorem within_read (t : FieldType) (hpos : r.pos ≤ r.buf.length) : Within r (read t) := by
  have hmap : ∀ {α : Type} {f : PayloadReader → Option α × PayloadReader} (g : α → Field),
      Within r f → Within r fun r ↦ ((f r).1.map g, (f r).2) := fun g h ↦
    h.bind (fun v r ↦ (v.map g, r)) fun hpos' ↦ within_pure _ hpos'
  cases t with
  | u8 => exact hmap _ (within_u8 hpos)
  | u16 => exact hmap _ (within_u16 hpos)
  | u32 => exact hmap _ (within_u32 hpos)
  | u64 => exact hmap _ (within_u64 hpos)
  | str16 => exact hmap _ (within_str16 hpos)

theorem within_readAll (ts : List FieldType) (hpos : r.pos ≤ r.buf.length) :
    Within r (readAll ts) := by
  induction ts generalizing r with
  | nil => exact within_pure [] hpos
  | cons t ts ih =>
    refine (within_read t hpos).bind (fun one r ↦
      (one :: (readAll ts r).1, (readAll ts r).2)) fun hpos' ↦ ?_
    exact (ih hpos').bind (fun rest r ↦ (_ :: rest, r)) fun hpos'' ↦ within_pure _ hpos''

/-! ## The reader of the server -/

/-- Fields that were cut off somewhere: the fields before the cut, and what is left of the next. -/
theorem exists_cut {write : Field → Bytes} {fs : List Field} {bytes : Bytes}
    (h : bytes <+: fs.flatMap write) (hne : bytes ≠ fs.flatMap write) :
    ∃ front f back rest, fs = front ++ f :: back ∧ bytes = front.flatMap write ++ rest ∧
      rest <+: write f ∧ rest ≠ write f := by
  induction fs generalizing bytes with
  | nil => exact absurd (List.prefix_nil.mp h) hne
  | cons f fs ih =>
    rw [List.flatMap_cons] at h hne
    by_cases hlen : (write f).length ≤ bytes.length
    · obtain ⟨rest, rfl⟩ := List.prefix_of_prefix_length_le (List.prefix_append _ _) h hlen
      rw [List.prefix_append_right_inj] at h
      obtain ⟨front, g, back, rest', rfl, rfl, hrest⟩ := ih h fun heq ↦ hne (heq ▸ rfl)
      exact ⟨f :: front, g, back, rest', rfl, by rw [List.flatMap_cons, List.append_assoc], hrest⟩
    · refine ⟨[], f, fs, bytes, rfl, rfl, ?_, fun heq ↦ hlen (Nat.le_of_eq (congrArg _ heq.symm))⟩
      exact List.prefix_of_prefix_length_le h (List.prefix_append _ _) (by omega)

theorem readsBack {fs : List Field} (hfits : ∀ f ∈ fs, f.Fits) :
    ReadsBack PayloadReader PayloadWriter.field fs := by
  constructor
  · obtain ⟨r, hr, hok, htail⟩ := readAll_of_ahead (r := new (fs.flatMap PayloadWriter.field)) rfl
      hfits (List.append_nil _).symm
    refine ⟨r, hr, hok, ?_⟩
    have hlen := congrArg List.length htail
    rwa [ahead, List.length_drop] at hlen
  · intro bytes hprefix hne
    -- the cut is in some field: those before it are there, and it falls short
    obtain ⟨front, f, back, rest, rfl, rfl, hrest, hrest'⟩ := exists_cut hprefix hne
    rw [List.forall_mem_append, List.forall_mem_cons] at hfits
    obtain ⟨r, hr, hok, htail⟩ :=
      readAll_of_ahead (r := new (front.flatMap PayloadWriter.field ++ rest)) rfl hfits.1 rfl
    obtain ⟨r', hr', hfailed⟩ := read_of_short hok hfits.2.1 (htail ▸ hrest) (htail ▸ hrest')
    refine ⟨front, f, back, rfl, List.prefix_append _ _, ?_, ?_, fun ts ↦ ⟨r', ?_, hfailed⟩⟩
    · rw [List.flatMap_append, List.flatMap_singleton, List.prefix_append_right_inj]
      exact fun hle ↦ hrest' (hrest.eq_of_length (Nat.le_antisymm hrest.length_le hle.length_le))
    · rw [show FieldReader.new _ = new _ from rfl, hr]
      exact hok
    · rw [readAll_append, show FieldReader.new _ = new _ from rfl, hr]
      rw [readAll, show FieldReader.read f.type r = _ from hr']
      dsimp only
      rw [readAll_of_failed ts hfailed]
  · intro bytes _ ts
    obtain ⟨-, -, hle, hdepends⟩ := within_readAll (r := new bytes) ts (Nat.zero_le _)
    refine ⟨hle, fun other hlen hsame ↦ ?_⟩
    have hother : readAll ts (FieldReader.new other : PayloadReader) = _ :=
      hdepends other hlen hsame
    rw [hother]
    rfl

end PayloadReader

end LoggerAnalyzer
