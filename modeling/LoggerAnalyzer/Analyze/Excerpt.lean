import LoggerAnalyzer.Analyze.Aggregator
import Mathlib.Data.List.Induction
import Mathlib.Tactic.IntervalCases

/-!
# Excerpts

`escapeExcerpt` shows the first line of every reason in the result. It escapes the bytes that have
no picture, limits the length, and ends in `...` when it does not show the whole line.

## Where it stops

The loop writes the escaped form of a prefix of the line, byte by byte, and looks at the length of
what it wrote. `StopsAt` says which prefix that is: the shortest that reaches the limit, or the
whole line if none does. There is only one.

## The mark

Whether `...` follows is decided by the length of the line, not by whether the loop stopped. The two
agree for a line over the limit, and for one that is shown completely. Between them are the lines
that are short but whose escaped form is long: they are cut without a mark.
-/

namespace LoggerAnalyzer

/-- A character with a picture. -/
def isPrintable (b : UInt8) : Bool := 0x20 ≤ b && b < 0x7F

/-- A byte as it is shown. -/
def shown (c : UInt8) : Bytes := if isPrintable c then [c] else escapeByte c

/-- The escaped form of a text. -/
def escapedForm (line : Bytes) : Bytes := line.flatMap shown

/-! ## Escaped forms -/

theorem escapedForm_append (p q : Bytes) : escapedForm (p ++ q) = escapedForm p ++ escapedForm q :=
  List.flatMap_append

theorem escapedForm_singleton (c : UInt8) : escapedForm [c] = shown c := List.flatMap_singleton ..

theorem length_escapedForm_snoc (p : Bytes) (c : UInt8) :
    (escapedForm (p ++ [c])).length = (escapedForm p).length + (shown c).length := by
  rw [escapedForm_append, escapedForm_singleton, List.length_append]

/-- A byte is shown by one character or by four. -/
theorem length_shown (c : UInt8) : 1 ≤ (shown c).length ∧ (shown c).length ≤ 4 := by
  rw [shown]
  split_ifs
  · exact ⟨Nat.le_refl 1, by simp⟩
  · exact ⟨by simp [escapeByte], by simp [escapeByte]⟩

theorem length_le_escapedForm (line : Bytes) : line.length ≤ (escapedForm line).length := by
  induction line using List.reverseRecOn with
  | nil => exact Nat.le_refl 0
  | append_singleton line c ih =>
    have hpos := (length_shown c).1
    rw [length_escapedForm_snoc, List.length_append, List.length_singleton]
    omega

/-- What is shown of a prefix is a prefix of what is shown, and shorter if the prefix is. -/
theorem length_escapedForm_lt {p q : Bytes} (h : p <+: q) (hne : p ≠ q) :
    (escapedForm p).length < (escapedForm q).length := by
  obtain ⟨r, rfl⟩ := h
  have hr : r ≠ [] := by
    rintro rfl
    exact hne (List.append_nil p).symm
  have hpos := List.length_pos_iff.mpr hr
  have hle := length_le_escapedForm r
  rw [escapedForm_append, List.length_append]
  omega

private theorem isPrintable_hexDigit {n : ℕ} (h : n < 16) : isPrintable (hexDigit n) = true := by
  interval_cases n <;> decide

private theorem isPrintable_escapeByte (c : UInt8) : ∀ b ∈ escapeByte c, isPrintable b = true := by
  have hlt : c.toNat < 256 := c.toNat_lt
  rw [escapeByte, List.forall_mem_cons, List.forall_mem_cons, List.forall_mem_cons,
    List.forall_mem_singleton]
  exact ⟨by decide, by decide, isPrintable_hexDigit (by omega), isPrintable_hexDigit (by omega)⟩

private theorem isPrintable_escapedForm (line : Bytes) :
    ∀ b ∈ escapedForm line, isPrintable b = true := by
  intro b hb
  obtain ⟨c, -, hb⟩ := List.mem_flatMap.mp hb
  rw [shown] at hb
  split_ifs at hb with hc
  · rw [List.mem_singleton] at hb
    rw [hb]
    exact hc
  · exact isPrintable_escapeByte c b hb

/-- Every escape begins with a backslash, so a form without one is the text itself. -/
theorem eq_of_escapedForm {line out : Bytes} (h : escapedForm line = out)
    (hout : (92 : UInt8) ∉ out) : line = out := by
  induction line generalizing out with
  | nil => exact h
  | cons c line ih =>
    rw [escapedForm, List.flatMap_cons, shown] at h
    split_ifs at h with hc
    · rw [List.singleton_append] at h
      obtain _ | ⟨b, out⟩ := out
      · exact absurd h (List.cons_ne_nil _ _)
      · obtain ⟨rfl, htail⟩ := List.cons.inj h
        rw [← ih htail fun hmem ↦ hout (List.mem_cons_of_mem _ hmem)]
    · rw [← h] at hout
      exact absurd (List.mem_append_left _ List.mem_cons_self) hout

/-! ## The prefix that is shown -/

/-- The loop stops after `p`: that is the end of the line or the limit is reached, and it was not
reached before. -/
structure StopsAt (maxLen : ℕ) (line p : Bytes) : Prop where
  isPrefix : p <+: line
  stop : p = line ∨ maxLen ≤ (escapedForm p).length
  room : ∀ q, q <+: p → q ≠ p → (escapedForm q).length < maxLen

/-- There is only one place to stop. -/
theorem StopsAt.unique {maxLen : ℕ} {line p q : Bytes} (hp : StopsAt maxLen line p)
    (hq : StopsAt maxLen line q) : p = q := by
  -- the shorter of the two would be the whole line, or have reached the limit too early
  have key : ∀ {p q}, StopsAt maxLen line p → StopsAt maxLen line q → p <+: q → p = q := by
    intro p q hp hq hpq
    by_contra hne
    have hroom := hq.room p hpq hne
    rcases hp.stop with rfl | hfull
    · exact hne (hpq.eq_of_length_le hq.isPrefix.length_le)
    · omega
  rcases List.prefix_or_prefix_of_prefix hp.isPrefix hq.isPrefix with hpq | hqp
  · exact key hp hq hpq
  · exact (key hq hp hqp).symm

/-- **The loop writes the escaped form of a prefix.** `done` is what it has read so far. -/
theorem exists_stopsAt {maxLen : ℕ} (line done : Bytes)
    (hdone : ∀ q, q <+: done → q ≠ done → (escapedForm q).length < maxLen) :
    ∃ p, StopsAt maxLen (done ++ line) p ∧
      escapeLoop maxLen line (escapedForm done) = escapedForm p := by
  induction line generalizing done with
  | nil => exact ⟨done, ⟨List.prefix_append _ _, .inl (List.append_nil done).symm, hdone⟩, rfl⟩
  | cons c line ih =>
    rw [escapeLoop]
    by_cases hroom : (escapedForm done).length < maxLen
    · have hnext : ∀ q, q <+: done ++ [c] → q ≠ done ++ [c] → (escapedForm q).length < maxLen := by
        intro q hq hne
        by_cases hqd : q = done
        · rw [hqd]
          exact hroom
        · exact hdone q ((List.prefix_concat_iff.mp hq).resolve_left hne) hqd
      obtain ⟨p, hstop, hloop⟩ := ih _ hnext
      rw [if_pos hroom]
      refine ⟨p, ?_, ?_⟩
      · rwa [List.append_assoc, List.singleton_append] at hstop
      · rwa [escapedForm_append, escapedForm_singleton] at hloop
    · rw [if_neg hroom]
      exact ⟨done, ⟨List.prefix_append _ _, .inr (Nat.not_lt.mp hroom), hdone⟩, rfl⟩

/-- The prefix an excerpt shows, and its mark. -/
theorem escapeExcerpt_eq (line : Bytes) :
    ∃ p, StopsAt 160 line p ∧
      escapeExcerpt line = escapedForm p ++ if 160 < line.length then ascii "..." else [] := by
  have hnone : ∀ q : Bytes, q <+: [] → q ≠ [] → (escapedForm q).length < 160 :=
    fun q hq hne ↦ absurd (List.prefix_nil.mp hq) hne
  obtain ⟨p, hstop, hloop⟩ := exists_stopsAt line [] hnone
  refine ⟨p, hstop, ?_⟩
  rw [escapeExcerpt, ← hloop]
  rfl

namespace StopsAt

/-- At most the last of the escapes goes over the limit. -/
theorem length_le {maxLen : ℕ} {line p : Bytes} (h : StopsAt maxLen line p) :
    (escapedForm p).length ≤ maxLen + 3 := by
  rcases List.eq_nil_or_concat' p with rfl | ⟨q, c, rfl⟩
  · exact Nat.zero_le _
  · have hroom := h.room q (List.prefix_append _ _) (by simp)
    have hlast := (length_shown c).2
    rw [length_escapedForm_snoc]
    omega

/-- A line over the limit is not shown completely. -/
theorem ne_of_long {maxLen : ℕ} {line p : Bytes} (h : StopsAt maxLen line p)
    (hlong : maxLen < line.length) : p ≠ line := by
  rintro rfl
  rcases List.eq_nil_or_concat' p with rfl | ⟨q, c, rfl⟩
  · exact absurd hlong (Nat.not_lt_zero _)
  · have hroom := h.room q (List.prefix_append _ _) (by simp)
    have hle := length_le_escapedForm q
    rw [List.length_append, List.length_singleton] at hlong
    omega

/-- A line is shown completely if there is room before its last byte. -/
theorem of_room {maxLen : ℕ} {line : Bytes}
    (h : (escapedForm line.dropLast).length < maxLen) : StopsAt maxLen line line := by
  refine ⟨List.prefix_refl _, .inl rfl, fun q hq hne ↦ ?_⟩
  rcases List.eq_nil_or_concat' line with rfl | ⟨init, c, rfl⟩
  · exact absurd (List.prefix_nil.mp hq) hne
  · rw [List.dropLast_concat] at h
    have hqi : q <+: init := (List.prefix_concat_iff.mp hq).resolve_left hne
    by_cases heq : q = init
    · rwa [heq]
    · exact (length_escapedForm_lt hqi heq).trans h

/-- And only then. -/
theorem room_of_eq {maxLen : ℕ} {line : Bytes} (h : StopsAt maxLen line line) (hne : line ≠ []) :
    (escapedForm line.dropLast).length < maxLen := by
  refine h.room _ (List.dropLast_prefix line) ?_
  intro heq
  have hlen := congrArg List.length heq
  have hpos := List.length_pos_iff.mpr hne
  rw [List.length_dropLast] at hlen
  omega

end StopsAt

/-! ## What an excerpt is to be -/

/-- `out` is an excerpt of `line`: it can be printed, is not long, and shows a prefix of the line,
with a mark if that is not all of it. -/
structure IsExcerpt (line out : Bytes) : Prop where
  printable : ∀ b ∈ out, isPrintable b = true
  length_le : out.length ≤ 166
  shows : ∃ p, p <+: line ∧
    out = escapedForm p ++ if p.length < line.length then ascii "..." else []

/-- Where the mark is right: the line is over the limit; or there is room before its last byte; or
it happens to have three dots of its own in the last places that are shown. -/
def MarkedRight (line : Bytes) : Prop :=
  160 < line.length ∨ (escapedForm line.dropLast).length < 160 ∨
    ∃ p, p ++ ascii "..." <+: line ∧ (escapedForm p).length = 157

theorem isPrintable_escapeExcerpt (line : Bytes) :
    ∀ b ∈ escapeExcerpt line, isPrintable b = true := by
  obtain ⟨p, -, heq⟩ := escapeExcerpt_eq line
  rw [heq]
  intro b hb
  rcases List.mem_append.mp hb with hb | hb
  · exact isPrintable_escapedForm p b hb
  · split_ifs at hb
    · exact (by decide : ∀ b ∈ ascii "...", isPrintable b = true) b hb
    · exact absurd hb List.not_mem_nil

theorem length_escapeExcerpt_le (line : Bytes) : (escapeExcerpt line).length ≤ 166 := by
  obtain ⟨p, hstop, heq⟩ := escapeExcerpt_eq line
  have hloop := hstop.length_le
  rw [heq, List.length_append]
  split_ifs
  · have hdots : (ascii "...").length = 3 := rfl
    omega
  · rw [List.length_nil]
    omega

/-- What is shown with three dots of the line's own at the end stops right after them. -/
theorem stopsAt_dots {line p : Bytes} (hp : p ++ ascii "..." <+: line)
    (hlen : (escapedForm p).length = 157) : StopsAt 160 line (p ++ ascii "...") := by
  have hform : escapedForm (p ++ ascii "...") = escapedForm p ++ ascii "..." :=
    escapedForm_append p _
  have hsize : (escapedForm (p ++ ascii "...")).length = 160 := by
    rw [hform, List.length_append, hlen]
    rfl
  refine ⟨hp, .inr hsize.ge, fun q hq hne ↦ ?_⟩
  rw [← hsize]
  exact length_escapedForm_lt hq hne

/-- Without a mark of the code's own, a line that is cut ends in three dots only if it has them. -/
theorem dots_of_stopsAt {line p q : Bytes} (hstop : StopsAt 160 line p) (hq : q <+: line)
    (h160 : 160 ≤ (escapedForm p).length) (heq : escapedForm p = escapedForm q ++ ascii "...") :
    q ++ ascii "..." <+: line ∧ (escapedForm q).length = 157 := by
  have hlen := congrArg List.length heq
  rw [List.length_append] at hlen
  have hdots : (ascii "...").length = 3 := rfl
  have hqp : q <+: p := by
    refine (List.prefix_or_prefix_of_prefix hq hstop.isPrefix).resolve_right ?_
    intro hpq
    by_cases hsame : p = q
    · rw [hsame] at hlen
      omega
    · have := length_escapedForm_lt hpq hsame
      omega
  obtain ⟨r, rfl⟩ := hqp
  rw [escapedForm_append] at heq
  have hr : r = ascii "..." := eq_of_escapedForm (List.append_cancel_left heq) (by decide)
  subst hr
  refine ⟨hstop.isPrefix, ?_⟩
  -- there was still room before the last of the dots
  have hroom := hstop.room (q ++ ascii "..") (List.prefix_append_right_inj q |>.mpr ⟨[46], rfl⟩)
    fun heq ↦ absurd (List.append_cancel_left heq) (by decide)
  rw [escapedForm_append, List.length_append] at hroom
  have htwo : (escapedForm (ascii "..")).length = 2 := rfl
  omega

/-- **An excerpt is what it is to be exactly where its mark is right.** -/
theorem isExcerpt_escapeExcerpt_iff (line : Bytes) :
    IsExcerpt line (escapeExcerpt line) ↔ MarkedRight line := by
  obtain ⟨p, hstop, heq⟩ := escapeExcerpt_eq line
  constructor
  · intro h
    by_contra hwrong
    rw [MarkedRight, not_or, not_or] at hwrong
    obtain ⟨hshort, hfull, hdots⟩ := hwrong
    -- the line was cut, and nothing was added
    have hne : p ≠ line := by
      rintro rfl
      refine hfull (hstop.room_of_eq ?_)
      rintro rfl
      exact hfull (by decide)
    have h160 := hstop.stop.resolve_left hne
    rw [if_neg hshort, List.append_nil] at heq
    obtain ⟨q, hq, hshows⟩ := h.shows
    rw [heq] at hshows
    split_ifs at hshows with hlt
    · exact hdots ⟨q, dots_of_stopsAt hstop hq h160 hshows⟩
    · have hwhole : q = line := hq.eq_of_length_le (Nat.not_lt.mp hlt)
      have hlen := length_escapedForm_lt hstop.isPrefix hne
      rw [hshows, hwhole, List.append_nil] at hlen
      exact Nat.lt_irrefl _ hlen
  · intro h
    refine ⟨isPrintable_escapeExcerpt line, length_escapeExcerpt_le line, ?_⟩
    by_cases hlong : 160 < line.length
    · have hlt := lt_of_le_of_ne hstop.isPrefix.length_le fun hlen ↦
        hstop.ne_of_long hlong (hstop.isPrefix.eq_of_length hlen)
      rw [if_pos hlong] at heq
      exact ⟨p, hstop.isPrefix, by rw [if_pos hlt, heq]⟩
    · rw [if_neg hlong, List.append_nil] at heq
      rcases h.resolve_left hlong with hroom | ⟨q, hq, hlen⟩
      · refine ⟨line, List.prefix_refl _, ?_⟩
        rw [if_neg (Nat.lt_irrefl _), List.append_nil, heq, hstop.unique (.of_room hroom)]
      · have hqlt : q.length < line.length := by
          have := hq.length_le
          rw [List.length_append] at this
          have hdots : (ascii "...").length = 3 := rfl
          omega
        refine ⟨q, (List.prefix_append _ _).trans hq, ?_⟩
        rw [if_pos hqlt, heq, hstop.unique (stopsAt_dots hq hlen), escapedForm_append]
        rfl

/-- Forty-one bytes without a picture: forty are shown, and nothing says that one is missing. -/
theorem not_isExcerpt_unprintable :
    ¬IsExcerpt (List.replicate 41 0) (escapeExcerpt (List.replicate 41 0)) := by
  intro h
  obtain ⟨p, hp, hshows⟩ := h.shows
  split_ifs at hshows with hlt
  · -- with a mark the last character would be a dot
    have hlast : (escapeExcerpt (List.replicate 41 0)).getLast? = some 48 := by decide +kernel
    have hdot : (ascii "...").getLast? = some 46 := rfl
    rw [hshows, List.getLast?_append, hdot, Option.some_or] at hlast
    exact absurd (Option.some.inj hlast) (by decide)
  · have hlen : (escapeExcerpt (List.replicate 41 0)).length
        ≠ (escapedForm (List.replicate 41 0)).length := by decide +kernel
    rw [hp.eq_of_length_le (Nat.not_lt.mp hlt), List.append_nil] at hshows
    exact hlen (congrArg List.length hshows)

end LoggerAnalyzer
