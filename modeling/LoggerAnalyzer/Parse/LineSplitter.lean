import LoggerAnalyzer.Stream.Delimited
import LoggerAnalyzer.Text.Bytes

/-!
# The line splitter

`LineSplitter` turns the fragments of an upload into lines. A fragment has nothing to do with line
boundaries, so the splitter keeps the unfinished line of the fragments so far in `carry`, or, when
that is already longer than `maxLine`, only the fact that it is being discarded.

## What a fragment does

`feed` goes through four stages: skip the rest of a discarded line, complete the carried line, hand
over the lines that lie wholly inside the fragment, and put the tail away. Each is a definition of
its own here, and for each one lemma says which pieces of the stream it consumed, in the terms of
`Advance`: the unfinished part before and after, the calls made to `onLine`, and what happened to
the counters. Stages compose by `Advance.trans`, and so do fragments.

## The limit

Of the four stages three compare a length with `maxLine`. The one that hands over lines from
inside the fragment does not: a line is dropped for its length only if a fragment boundary cuts it.
`kept` records this, and `meetsSpec_iff` draws the conclusion for the specification of the
component.
-/

namespace LoggerAnalyzer

open Delimited

/-- The state of a `LineSplitter`. -/
structure LineSplitter where
  maxLine : ℕ
  carry : Bytes
  discarding : Bool
  lines : ℕ
  oversize : ℕ
deriving DecidableEq, Repr

namespace LineSplitter

/-- `kDefaultMaxLine`. -/
def kDefaultMaxLine : ℕ := 8192

/-- The constructor. -/
def new (maxLine : ℕ) : LineSplitter := ⟨maxLine, [], false, 0, 0⟩

def reset (sp : LineSplitter) : LineSplitter :=
  { sp with carry := [], discarding := false, lines := 0, oversize := 0 }

/-- One trailing CR is not part of a line. -/
def stripCr (line : Bytes) : Bytes :=
  if line.getLast? = some carriageReturn then line.dropLast else line

/-! ## Feeding a fragment

`onLine` is the callback; its captured state is threaded beside the splitter. -/

variable {σ : Type*} (onLine : Bytes → ℕ → σ → σ)

def emit (line : Bytes) (rawBytes : ℕ) : LineSplitter × σ → LineSplitter × σ
  | (sp, s) => ({ sp with lines := sp.lines + 1 }, onLine (stripCr line) rawBytes s)

/-- The loop over the lines inside the fragment. It gives back the tail after the last of them; the
fuel is the length of the data, of which each round consumes a newline. -/
def feedWhole : ℕ → Bytes → LineSplitter × σ → Bytes × LineSplitter × σ
  | 0, data, st => (data, st)
  | fuel + 1, data, st =>
    match memchr newline data with
    | none => (data, st)
    | some (line, after) => feedWhole fuel after (emit onLine line (line.length + 1) st)

/-- The tail of the fragment is put away for the next one. -/
def feedTail (tail : Bytes) : LineSplitter × σ → LineSplitter × σ
  | (sp, s) =>
    if tail = [] then (sp, s)
    else if sp.maxLine < tail.length then
      ({ sp with oversize := sp.oversize + 1, discarding := true }, s)
    else ({ sp with carry := tail }, s)

/-- `feed` from where nothing is carried on. -/
def feedFresh (data : Bytes) (st : LineSplitter × σ) : LineSplitter × σ :=
  let r := feedWhole onLine data.length data st
  feedTail r.1 r.2

/-- `feed` from where nothing is being discarded: a carried line is completed first. -/
def feedCarry (data : Bytes) : LineSplitter × σ → LineSplitter × σ
  | (sp, s) =>
    if sp.carry = [] then feedFresh onLine data (sp, s)
    else
      match memchr newline data with
      | none =>
        if sp.maxLine < sp.carry.length + data.length then
          ({ sp with oversize := sp.oversize + 1, carry := [], discarding := true }, s)
        else ({ sp with carry := sp.carry ++ data }, s)
      | some (upto, after) =>
        if sp.maxLine < sp.carry.length + upto.length then
          feedFresh onLine after ({ sp with oversize := sp.oversize + 1, carry := [] }, s)
        else
          match emit onLine (sp.carry ++ upto) (sp.carry.length + upto.length + 1) (sp, s) with
          | (sp, s) => feedFresh onLine after ({ sp with carry := [] }, s)

/-- A fragment. -/
def feed (data : Bytes) : LineSplitter × σ → LineSplitter × σ
  | (sp, s) =>
    if sp.discarding then
      match memchr newline data with
      | none => (sp, s)
      | some (_, after) => feedCarry onLine after ({ sp with discarding := false }, s)
    else feedCarry onLine data (sp, s)

/-- The end of the stream. -/
def finish : LineSplitter × σ → LineSplitter × σ
  | (sp, s) =>
    if sp.carry = [] then ({ sp with discarding := false }, s)
    else
      match emit onLine sp.carry sp.carry.length (sp, s) with
      | (sp, s) => ({ sp with carry := [], discarding := false }, s)

/-- Fragments in order. -/
def feeds (frags : List Bytes) (st : LineSplitter × σ) : LineSplitter × σ :=
  frags.foldl (fun st f ↦ feed onLine f st) st

/-! ## Which pieces are handed over -/

/-- Whether a completed piece is handed over: one that lies wholly in a fragment always is, one that
a boundary cuts only within the limit. -/
def kept (maxLine : ℕ) (m : Bytes × Bool) : Bool := m.2 || decide (m.1.length ≤ maxLine)

/-- The calls made to `onLine` for the completed pieces `ms`. -/
def keptLines (maxLine : ℕ) (ms : List (Bytes × Bool)) : List (Bytes × ℕ) :=
  (ms.filter (kept maxLine)).map fun m ↦ (stripCr m.1, m.1.length + 1)

/-- How many of the completed pieces were dropped. -/
def dropped (maxLine : ℕ) (ms : List (Bytes × Bool)) : ℕ :=
  ms.countP fun m ↦ !kept maxLine m

/-- Whether the unfinished part is already over the limit, as a number. -/
def overNow (maxLine : ℕ) (t : Bytes) : ℕ := if maxLine < t.length then 1 else 0

@[simp] theorem overNow_nil (maxLine : ℕ) : overNow maxLine [] = 0 := if_neg (Nat.not_lt_zero _)

private theorem keptLines_append (maxLine : ℕ) (ms ms' : List (Bytes × Bool)) :
    keptLines maxLine (ms ++ ms') = keptLines maxLine ms ++ keptLines maxLine ms' := by
  rw [keptLines, List.filter_append, List.map_append]
  rfl

private theorem dropped_append (maxLine : ℕ) (ms ms' : List (Bytes × Bool)) :
    dropped maxLine (ms ++ ms') = dropped maxLine ms + dropped maxLine ms' :=
  List.countP_append

theorem keptLines_kept {maxLine : ℕ} {m : Bytes × Bool} (h : kept maxLine m = true) :
    keptLines maxLine [m] = [(stripCr m.1, m.1.length + 1)] := by
  rw [keptLines, List.filter_cons_of_pos h, List.filter_nil, List.map_singleton]

theorem keptLines_dropped {maxLine : ℕ} {m : Bytes × Bool} (h : kept maxLine m = false) :
    keptLines maxLine [m] = [] := by
  rw [keptLines, List.filter_cons_of_neg (by rw [h]; decide), List.filter_nil, List.map_nil]

theorem dropped_cons (maxLine : ℕ) (m : Bytes × Bool) (ms : List (Bytes × Bool)) :
    dropped maxLine (m :: ms) = dropped maxLine ms + if kept maxLine m then 0 else 1 := by
  rw [dropped, List.countP_cons]
  cases kept maxLine m <;> rfl

theorem dropped_singleton (maxLine : ℕ) (m : Bytes × Bool) :
    dropped maxLine [m] = if kept maxLine m then 0 else 1 := by
  rw [dropped_cons]
  exact Nat.zero_add _

/-! ## Tracking the stream -/

/-- The splitter holds what it should of the unfinished part `t` of the stream: all of it within the
limit, and beyond the limit only that it is being discarded. -/
structure Tracks (sp : LineSplitter) (t : Bytes) : Prop where
  notMem : newline ∉ t
  carry : sp.carry = if t.length ≤ sp.maxLine then t else []
  discarding : sp.discarding = decide (sp.maxLine < t.length)

theorem tracks_new (maxLine : ℕ) : Tracks (new maxLine) [] :=
  ⟨by simp, by simp [new], by simp [new]⟩

private theorem tracks_reset (sp : LineSplitter) : Tracks sp.reset [] :=
  ⟨by simp, by simp [reset], by simp [reset]⟩

/-- One or more stages took the splitter from the unfinished part `t` to `t'`, completing the pieces
`ms` on the way. -/
structure Advance (st st' : LineSplitter × σ) (t : Bytes) (ms : List (Bytes × Bool))
    (t' : Bytes) : Prop where
  tracks : Tracks st'.1 t'
  maxLine : st'.1.maxLine = st.1.maxLine
  calls : st'.2 = (keptLines st.1.maxLine ms).foldl (fun s l ↦ onLine l.1 l.2 s) st.2
  lines : st'.1.lines = st.1.lines + (keptLines st.1.maxLine ms).length
  oversize : st'.1.oversize + overNow st.1.maxLine t
    = st.1.oversize + dropped st.1.maxLine ms + overNow st.1.maxLine t'

variable {onLine}

namespace Advance

theorem refl {st : LineSplitter × σ} {t : Bytes} (ht : Tracks st.1 t) :
    Advance onLine st st t [] t := by
  refine ⟨ht, rfl, rfl, rfl, ?_⟩
  simp [dropped]

/-- Stage after stage, and fragment after fragment. -/
theorem trans {st₁ st₂ st₃ : LineSplitter × σ} {t₁ t₂ t₃ : Bytes} {ms ms' : List (Bytes × Bool)}
    (h₁ : Advance onLine st₁ st₂ t₁ ms t₂) (h₂ : Advance onLine st₂ st₃ t₂ ms' t₃) :
    Advance onLine st₁ st₃ t₁ (ms ++ ms') t₃ := by
  obtain ⟨_, hmax₁, hcalls₁, hlines₁, hover₁⟩ := h₁
  obtain ⟨htracks, hmax₂, hcalls₂, hlines₂, hover₂⟩ := h₂
  rw [hmax₁] at hcalls₂ hlines₂ hover₂
  refine ⟨htracks, hmax₂.trans hmax₁, ?_, ?_, ?_⟩
  · rw [hcalls₂, hcalls₁, keptLines_append, List.foldl_append]
  · rw [hlines₂, hlines₁, keptLines_append, List.length_append]
    omega
  · rw [dropped_append]
    omega

end Advance

variable (onLine)

/-! ### The four stages -/

private theorem advance_feedTail {st : LineSplitter × σ} (h : Tracks st.1 []) {tail : Bytes}
    (htail : newline ∉ tail) : Advance onLine st (feedTail tail st) [] [] tail := by
  obtain ⟨sp, s⟩ := st
  have hcarry : sp.carry = [] := by simpa using h.carry
  have hdisc : sp.discarding = false := by simpa using h.discarding
  rw [feedTail]
  split_ifs with hnil hlong
  · subst hnil
    exact Advance.refl h
  · refine ⟨⟨htail, ?_, ?_⟩, rfl, rfl, rfl, ?_⟩
    · simp [hcarry, Nat.not_le.mpr hlong]
    · simp [hlong]
    · simp [overNow, dropped, hlong]
  · refine ⟨⟨htail, ?_, ?_⟩, rfl, rfl, rfl, ?_⟩
    · simp [Nat.not_lt.mp hlong]
    · simp [hdisc, hlong]
    · simp [overNow, dropped, hlong]

/-- Handing over one line from inside the fragment, whatever its length. -/
theorem advance_emit_whole {sp : LineSplitter} (h : Tracks sp []) (line : Bytes) (s : σ) :
    Advance onLine (sp, s) (emit onLine line (line.length + 1) (sp, s)) [] [(line, true)] [] := by
  have hkept : kept sp.maxLine (line, true) = true := rfl
  refine ⟨⟨h.notMem, h.carry, h.discarding⟩, rfl, ?_, ?_, ?_⟩
  · rw [keptLines_kept hkept]
    rfl
  · rw [keptLines_kept hkept]
    rfl
  · rw [dropped_singleton, if_pos hkept]
    rfl

private theorem advance_feedWhole (fuel : ℕ) (data : Bytes) (hfuel : data.length ≤ fuel)
    {sp : LineSplitter} (h : Tracks sp []) (s : σ) :
    (feedWhole onLine fuel data (sp, s)).1 = rest newline data ∧
      Advance onLine (sp, s) (feedWhole onLine fuel data (sp, s)).2 []
        ((pieces newline data).map fun p ↦ (p, true)) [] := by
  induction data using delimited_induction newline generalizing fuel sp s with
  | tail t ht =>
    have hstop : feedWhole onLine fuel t (sp, s) = (t, sp, s) := by
      cases fuel with
      | zero => rfl
      | succ fuel => rw [feedWhole, memchr_of_notMem ht]
    rw [hstop, rest_of_notMem ht, pieces_of_notMem ht, List.map_nil]
    exact ⟨rfl, Advance.refl h⟩
  | piece t ys ht ih =>
    cases fuel with
    | zero => simp at hfuel
    | succ fuel =>
      rw [feedWhole, memchr_append_cons ht, rest_append_cons, pieces_append_cons ht]
      have hfirst := advance_emit_whole onLine h t s
      have hlen : ys.length ≤ fuel := by
        rw [List.length_append, List.length_cons] at hfuel
        omega
      obtain ⟨htail, hadv⟩ := ih fuel hlen hfirst.tracks (onLine (stripCr t) (t.length + 1) s)
      exact ⟨htail, hfirst.trans hadv⟩

theorem advance_feedFresh {sp : LineSplitter} (h : Tracks sp []) (data : Bytes) (s : σ) :
    Advance onLine (sp, s) (feedFresh onLine data (sp, s)) []
      ((pieces newline data).map fun p ↦ (p, true)) (rest newline data) := by
  obtain ⟨htail, hadv⟩ := advance_feedWhole onLine data.length data (Nat.le_refl _) h s
  rw [feedFresh, htail]
  have hlast := advance_feedTail onLine hadv.tracks (notMem_rest data)
  simpa using hadv.trans hlast

/-- Completing the carried line and going on from there. -/
theorem advance_feedCarry {sp : LineSplitter} {t : Bytes} (h : Tracks sp t)
    (hlen : t.length ≤ sp.maxLine) (data : Bytes) (s : σ) :
    Advance onLine (sp, s) (feedCarry onLine data (sp, s)) t (marks newline t data)
      (rest newline (t ++ data)) := by
  have hcarry : sp.carry = t := by rw [h.carry, if_pos hlen]
  have hdisc : sp.discarding = false := by rw [h.discarding, decide_eq_false (by omega)]
  rw [feedCarry, hcarry]
  -- with nothing carried over it is as at the beginning of a line
  by_cases hnil : t = []
  · subst hnil
    rw [if_pos rfl]
    have hadv := advance_feedFresh onLine h data s
    rw [List.nil_append]
    convert hadv using 1
    rw [marks, List.nil_append]
    cases pieces newline data <;> rfl
  · rw [if_neg hnil]
    -- the line goes on behind `data`, or ends in it
    rcases eq_tail_or_piece newline data with hd | ⟨d, ys, hd, rfl⟩
    · have happ : newline ∉ t ++ data := by simp [h.notMem, hd]
      rw [memchr_of_notMem hd, marks_of_notMem h.notMem hd, rest_of_notMem happ]
      simp only
      split_ifs with hlong
      · refine ⟨⟨happ, ?_, ?_⟩, rfl, rfl, rfl, ?_⟩
        · simp [Nat.not_le.mpr hlong]
        · simp [hlong]
        · simp [overNow, dropped, hlong, Nat.not_lt.mpr hlen]
      · refine ⟨⟨happ, ?_, ?_⟩, rfl, rfl, rfl, ?_⟩
        · simp [Nat.not_lt.mp hlong]
        · simp [hlong, hdisc]
        · simp [overNow, dropped, hlong, Nat.not_lt.mpr hlen]
    · rw [memchr_append_cons hd, marks_append_cons h.notMem hd, rest_append_append_cons]
      have hmark : (t ++ d, t.isEmpty) = (t ++ d, false) := by
        rw [List.isEmpty_eq_false_iff.mpr hnil]
      rw [hmark]
      simp only
      split_ifs with hlong
      · -- the line is too long and dropped
        have hdrop : kept sp.maxLine (t ++ d, false) = false := by
          simp [kept, hlong]
        have hcut : Advance onLine (sp, s)
            (({ sp with oversize := sp.oversize + 1, carry := [] } : LineSplitter), s) t
            [(t ++ d, false)] [] := by
          refine ⟨⟨by simp, by simp, by simp [hdisc]⟩, rfl, ?_, ?_, ?_⟩
          · rw [keptLines_dropped hdrop]
            rfl
          · rw [keptLines_dropped hdrop]
            rfl
          · simp [overNow, dropped_singleton, hdrop, Nat.not_lt.mpr hlen]
        exact hcut.trans (advance_feedFresh onLine hcut.tracks ys s)
      · -- the line is kept
        have hkeep : kept sp.maxLine (t ++ d, false) = true := by
          simp [kept, Nat.not_lt.mp hlong]
        have hdone : Advance onLine (sp, s)
            (({ sp with lines := sp.lines + 1, carry := [] } : LineSplitter),
              onLine (stripCr (t ++ d)) (t.length + d.length + 1) s) t [(t ++ d, false)] [] := by
          refine ⟨⟨by simp, by simp, by simp [hdisc]⟩, rfl, ?_, ?_, ?_⟩
          · rw [keptLines_kept hkeep, List.length_append]
            rfl
          · rw [keptLines_kept hkeep]
            rfl
          · simp [overNow, dropped_singleton, hkeep, Nat.not_lt.mpr hlen]
        exact hdone.trans (advance_feedFresh onLine hdone.tracks ys _)

/-- **What one fragment does**, from any point of the stream. -/
theorem advance_feed {sp : LineSplitter} {t : Bytes} (h : Tracks sp t) (data : Bytes) (s : σ) :
    Advance onLine (sp, s) (feed onLine data (sp, s)) t (marks newline t data)
      (rest newline (t ++ data)) := by
  rw [feed, h.discarding]
  by_cases hlong : sp.maxLine < t.length
  · have hcarry : sp.carry = [] := by rw [h.carry, if_neg (by omega)]
    have hdisc : sp.discarding = true := by rw [h.discarding, decide_eq_true hlong]
    rw [decide_eq_true hlong, if_pos rfl]
    -- a line that is too long already is skipped to its end, or further
    rcases eq_tail_or_piece newline data with hd | ⟨d, ys, hd, rfl⟩
    · have happ : newline ∉ t ++ data := by simp [h.notMem, hd]
      have hstill : sp.maxLine < (t ++ data).length := by
        rw [List.length_append]
        omega
      rw [memchr_of_notMem hd, marks_of_notMem h.notMem hd, rest_of_notMem happ]
      refine ⟨⟨happ, ?_, ?_⟩, rfl, rfl, rfl, ?_⟩
      · rw [hcarry, if_neg (Nat.not_le.mpr hstill)]
      · rw [hdisc, decide_eq_true hstill]
      · simp only [overNow, dropped, if_pos hlong, if_pos hstill, List.countP_nil]
    · have hne : t ≠ [] := by
        rintro rfl
        simp at hlong
      have hdrop : kept sp.maxLine (t ++ d, false) = false := by
        simp only [kept, Bool.false_or, List.length_append, decide_eq_false_iff_not]
        omega
      rw [memchr_append_cons hd, marks_append_cons h.notMem hd, rest_append_append_cons,
        List.isEmpty_eq_false_iff.mpr hne]
      have hskip : Advance onLine (sp, s) (({ sp with discarding := false } : LineSplitter), s) t
          [(t ++ d, false)] [] := by
        refine ⟨⟨by simp, by simp [hcarry], by simp⟩, rfl, ?_, ?_, ?_⟩
        · rw [keptLines_dropped hdrop]
          rfl
        · rw [keptLines_dropped hdrop]
          rfl
        · simp [overNow, dropped_singleton, hdrop, hlong]
      refine hskip.trans ?_
      have hfresh := advance_feedFresh onLine hskip.tracks ys s
      simpa [feedCarry, hcarry] using hfresh
  · rw [decide_eq_false hlong, if_neg (by decide)]
    exact advance_feedCarry onLine h (Nat.not_lt.mp hlong) data s

/-- **What a sequence of fragments does.** -/
theorem advance_feeds {st : LineSplitter × σ} {t : Bytes} (h : Tracks st.1 t)
    (frags : List Bytes) :
    Advance onLine st (feeds onLine frags st) t (fragMarks newline t frags)
      (rest newline (t ++ frags.flatten)) := by
  induction frags generalizing st t with
  | nil =>
    have hadv : Advance onLine st st t [] t := .refl h
    rwa [List.flatten_nil, List.append_nil, rest_of_notMem h.notMem]
  | cons f frags ih =>
    have hfirst := advance_feed onLine h f st.2
    rw [fragMarks, ← rest_flatten_cons]
    exact hfirst.trans (ih hfirst.tracks)

/-- A whole stream through a fresh splitter. -/
theorem advance_feeds_new (maxLine : ℕ) (s : σ) (frags : List Bytes) :
    Advance onLine (new maxLine, s) (feeds onLine frags (new maxLine, s)) []
      (fragMarks newline [] frags) (rest newline frags.flatten) :=
  advance_feeds onLine (tracks_new maxLine) frags

/-- A splitter that no fragment was fed to yet. -/
inductive Unfed (maxLine : ℕ) : LineSplitter → Prop where
  | new : Unfed maxLine (new maxLine)
  | reset {sp : LineSplitter} : sp.maxLine = maxLine → Unfed maxLine sp.reset

theorem Unfed.tracks {maxLine : ℕ} {sp : LineSplitter} (h : Unfed maxLine sp) :
    Tracks sp [] ∧ sp.maxLine = maxLine := by
  cases h with
  | new => exact ⟨tracks_new maxLine, rfl⟩
  | @reset old hmax => exact ⟨tracks_reset old, hmax⟩

/-- **What is carried is a function of the stream**, however it was cut into fragments: the
unfinished part within the limit, and beyond it nothing. -/
theorem carry_feeds {maxLine : ℕ} {sp : LineSplitter} (hsp : Unfed maxLine sp) (s : σ)
    (frags : List Bytes) :
    ((rest newline frags.flatten).length ≤ maxLine →
      (feeds onLine frags (sp, s)).1.carry = rest newline frags.flatten ∧
        (feeds onLine frags (sp, s)).1.discarding = false) ∧
    (maxLine < (rest newline frags.flatten).length →
      (feeds onLine frags (sp, s)).1.carry = [] ∧
        (feeds onLine frags (sp, s)).1.discarding = true) ∧
    (feeds onLine frags (sp, s)).1.carry.length ≤ maxLine := by
  obtain ⟨htracks, hmax⟩ := hsp.tracks
  have hadv : Advance onLine (sp, s) _ [] _ _ := advance_feeds onLine htracks frags
  have hend := hadv.tracks
  have hlimit : (feeds onLine frags (sp, s)).1.maxLine = maxLine := hadv.maxLine.trans hmax
  have hcarry := hend.carry
  have hdiscarding := hend.discarding
  rw [hlimit, List.nil_append] at hcarry hdiscarding
  refine ⟨fun hshort ↦ ⟨?_, ?_⟩, fun hlong ↦ ⟨?_, ?_⟩, ?_⟩
  · rw [hcarry, if_pos hshort]
  · rw [hdiscarding, decide_eq_false (Nat.not_lt.mpr hshort)]
  · rw [hcarry, if_neg (Nat.not_le.mpr hlong)]
  · rw [hdiscarding, decide_eq_true hlong]
  · rw [hcarry]
    split_ifs with hshort
    · exact hshort
    · exact Nat.zero_le _

/-- Two lines that grow over the limit, and the one after them. -/
theorem carry_feeds_overlong :
    (feeds (fun _ _ calls ↦ calls + 1) [ascii "ab", ascii "cd\nxyz", ascii "w\nq"]
      ((new 3).reset, 0)).1.carry = ascii "q" :=
  ((carry_feeds _ (Unfed.reset rfl) 0 _).1 (by decide)).1

/-- The call that `finish` makes for the unfinished part, if any. -/
def lastLine (maxLine : ℕ) (t : Bytes) : List (Bytes × ℕ) :=
  if t = [] ∨ maxLine < t.length then [] else [(stripCr t, t.length)]

theorem finish_maxLine (sp : LineSplitter) (s : σ) :
    (finish onLine (sp, s)).1.maxLine = sp.maxLine := by
  rw [finish]
  split_ifs <;> rfl

theorem finish_eq {sp : LineSplitter} {t : Bytes} (h : Tracks sp t) (s : σ) :
    (finish onLine (sp, s)).2
        = (lastLine sp.maxLine t).foldl (fun s l ↦ onLine l.1 l.2 s) s ∧
      (finish onLine (sp, s)).1.oversize = sp.oversize ∧
      (finish onLine (sp, s)).1.lines = sp.lines + (lastLine sp.maxLine t).length := by
  rw [finish, h.carry, lastLine]
  by_cases hlen : t.length ≤ sp.maxLine
  · rw [if_pos hlen]
    by_cases hnil : t = []
    · rw [if_pos hnil, if_pos (Or.inl hnil)]
      exact ⟨rfl, rfl, rfl⟩
    · rw [if_neg hnil, if_neg (not_or.mpr ⟨hnil, by omega⟩)]
      exact ⟨rfl, rfl, rfl⟩
  · rw [if_neg hlen, if_pos rfl, if_pos (Or.inr (by omega))]
    exact ⟨rfl, rfl, rfl⟩

/-! ## The specification

What the splitter is for, said of the whole stream: the lines within the limit are handed over in
order, and the others are counted. -/

/-- A callback that records its calls. -/
def record (line : Bytes) (rawBytes : ℕ) (calls : List (Bytes × ℕ)) : List (Bytes × ℕ) :=
  calls ++ [(line, rawBytes)]

/-- A stream, cut into fragments, through a fresh splitter. -/
def split (maxLine : ℕ) (frags : List Bytes) : LineSplitter × List (Bytes × ℕ) :=
  finish record (feeds record frags (new maxLine, []))

/-- The calls that are due for the stream `stream`. -/
def specLines (maxLine : ℕ) (stream : Bytes) : List (Bytes × ℕ) :=
  ((pieces newline stream).filter fun p ↦ decide (p.length ≤ maxLine)).map
      (fun p ↦ (stripCr p, p.length + 1))
    ++ lastLine maxLine (rest newline stream)

/-- The number of lines of `stream` over the limit. -/
def specOversize (maxLine : ℕ) (stream : Bytes) : ℕ :=
  (pieces newline stream).countP (fun p ↦ decide (maxLine < p.length))
    + overNow maxLine (rest newline stream)

/-- The splitter meets its specification on this fragmentation. -/
def MeetsSpec (maxLine : ℕ) (frags : List Bytes) : Prop :=
  (split maxLine frags).2 = specLines maxLine frags.flatten ∧
    (split maxLine frags).1.oversize = specOversize maxLine frags.flatten

/-- No line over the limit lies, newline included, inside one fragment. -/
def NoOverlongInside (maxLine : ℕ) (frags : List Bytes) : Prop :=
  ∀ m ∈ fragMarks newline [] frags, m.2 = true → m.1.length ≤ maxLine

instance (maxLine : ℕ) (frags : List Bytes) : Decidable (MeetsSpec maxLine frags) :=
  inferInstanceAs (Decidable (_ ∧ _))

instance (maxLine : ℕ) (frags : List Bytes) : Decidable (NoOverlongInside maxLine frags) :=
  inferInstanceAs (Decidable (∀ m ∈ fragMarks newline [] frags, m.2 = true → m.1.length ≤ maxLine))

private theorem foldl_record (ls : List (Bytes × ℕ)) (calls : List (Bytes × ℕ)) :
    ls.foldl (fun calls l ↦ record l.1 l.2 calls) calls = calls ++ ls := by
  induction ls generalizing calls with
  | nil => rw [List.foldl_nil, List.append_nil]
  | cons l ls ih => rw [List.foldl_cons, ih, record, List.append_assoc, List.singleton_append]

/-- **What the splitter does on every fragmentation**, the limit on lines from inside a fragment
not being looked at. -/
theorem split_eq (maxLine : ℕ) (frags : List Bytes) :
    (split maxLine frags).2 = keptLines maxLine (fragMarks newline [] frags)
        ++ lastLine maxLine (rest newline frags.flatten) ∧
      (split maxLine frags).1.oversize
        = dropped maxLine (fragMarks newline [] frags)
          + overNow maxLine (rest newline frags.flatten) := by
  have hadv := advance_feeds_new record maxLine [] frags
  have hend := finish_eq record hadv.tracks (feeds record frags (new maxLine, [])).2
  have hmax : (feeds record frags (new maxLine, [])).1.maxLine = maxLine := hadv.maxLine
  have hover := hadv.oversize
  rw [hmax] at hend
  constructor
  · refine hend.1.trans ?_
    rw [hadv.calls, foldl_record, foldl_record]
    rfl
  · refine hend.2.1.trans ?_
    rwa [overNow_nil, Nat.add_zero, new, Nat.zero_add] at hover

/-- A line over the limit that is handed over all the same. -/
def overlongInside (maxLine : ℕ) (m : Bytes × Bool) : Bool := m.2 && decide (maxLine < m.1.length)

/-- The lines over the limit are those dropped and those that were handed over all the same. -/
theorem countP_overlong (maxLine : ℕ) (ms : List (Bytes × Bool)) :
    (ms.map Prod.fst).countP (fun p ↦ decide (maxLine < p.length))
      = dropped maxLine ms + ms.countP (overlongInside maxLine) := by
  induction ms with
  | nil => rfl
  | cons m ms ih =>
    rw [List.map_cons, List.countP_cons, List.countP_cons, ih, dropped_cons, kept,
      overlongInside]
    obtain ⟨p, whole⟩ := m
    by_cases hlong : maxLine < p.length
    · have hover : ¬p.length ≤ maxLine := Nat.not_le.mpr hlong
      cases whole
      · simp [hlong, hover]
        omega
      · simp [hlong]
        omega
    · simp [hlong, Nat.not_lt.mp hlong]

private theorem keptLines_eq {maxLine : ℕ} {ms : List (Bytes × Bool)}
    (h : ∀ m ∈ ms, m.2 = true → m.1.length ≤ maxLine) :
    keptLines maxLine ms = ((ms.map Prod.fst).filter fun p ↦ decide (p.length ≤ maxLine)).map
      (fun p ↦ (stripCr p, p.length + 1)) := by
  rw [keptLines, List.filter_map, List.map_map]
  refine congrArg _ (List.filter_congr fun m hm ↦ ?_)
  have hwhole := h m hm
  rw [kept, Function.comp_apply]
  cases hw : m.2
  · rw [Bool.false_or]
  · rw [Bool.true_or, decide_eq_true (hwhole hw)]

/-- **The specification is met exactly when no fragment has an over-long line inside it.** -/
theorem meetsSpec_iff (maxLine : ℕ) (frags : List Bytes) :
    MeetsSpec maxLine frags ↔ NoOverlongInside maxLine frags := by
  obtain ⟨hcalls, hover⟩ := split_eq maxLine frags
  have hfst := fragMarks_fst (d := newline) (t := []) (by simp) frags
  rw [List.nil_append] at hfst
  have hcount := countP_overlong maxLine (fragMarks newline [] frags)
  rw [hfst] at hcount
  constructor
  · rintro ⟨-, hspec⟩ m hm hwhole
    rw [hover, specOversize, hcount] at hspec
    have hnone : (fragMarks newline [] frags).countP (overlongInside maxLine) = 0 := by omega
    have hshort := List.countP_eq_zero.mp hnone m hm
    rw [overlongInside, hwhole, Bool.true_and, decide_eq_true_eq] at hshort
    exact Nat.not_lt.mp hshort
  · intro h
    have hnone : (fragMarks newline [] frags).countP (overlongInside maxLine) = 0 := by
      refine List.countP_eq_zero.mpr ?_
      intro m hm
      rw [overlongInside, Bool.and_eq_true, decide_eq_true_eq]
      rintro ⟨hwhole, hlong⟩
      have := h m hm hwhole
      omega
    constructor
    · rw [hcalls, keptLines_eq h, hfst, specLines]
    · rw [hover, specOversize, hcount, hnone, Nat.add_zero]

/-- An over-long line inside one fragment is handed over. -/
theorem not_meetsSpec_inside : ¬MeetsSpec 2 [ascii "xxx\n"] := by decide

end LineSplitter

end LoggerAnalyzer
