import LoggerAnalyzer.Analyze.CsvWriter
import LoggerAnalyzer.Analyze.Excerpt
import LoggerAnalyzer.Parse.Grammar

/-!
# What the result can show

The result contains texts that come from the lines of the log: the names of modules that are not
known, an excerpt for every reason, and two timestamps. A line may contain any byte. `Presentable`
says that what the aggregator keeps of it can be printed all the same, and
`Reachable.presentable` that this is so after any calls of the aggregator.
-/

namespace LoggerAnalyzer

variable {D : Type} [DoubleOps D]

/-- The aggregators that come about. -/
inductive Aggregator.Reachable : Aggregator D → Prop where
  | empty : Reachable Aggregator.empty
  | addLine {a : Aggregator D} (line : Bytes) (byteOffset : ℕ) :
    Reachable a → Reachable (a.addLine line byteOffset)
  | addOversize {a : Aggregator D} (n : ℕ) : Reachable a → Reachable (a.addOversize n)
  | reset {a : Aggregator D} : Reachable a → Reachable a.reset

/-! ## The name in a line -/

/-- What is known of a line and of its fields: an accepted line has a timestamp, and the token of a
line is the beginning of some end of it, as far as it can be the name of a module. -/
structure Shaped (line : Bytes) (parsed : Reason × ParsedLine D) : Prop where
  timestamp : parsed.1 = .ok → checkTimestamp line = true
  token : parsed.2.moduleToken = [] ∨
    ∃ s, s <:+ line ∧ parsed.2.moduleToken = s.takeWhile isIdent

theorem Shaped.empty (line : Bytes) {r : Reason} (hr : r ≠ .ok) :
    Shaped line (r, (ParsedLine.empty : ParsedLine D)) :=
  ⟨fun h ↦ absurd h hr, .inl rfl⟩

private theorem moduleToken_parseNamed (stamp named : Bytes) :
    (parseNamed D stamp named).2.moduleToken = [] ∨
      (parseNamed D stamp named).2.moduleToken = named.takeWhile isIdent := by
  unfold parseNamed
  dsimp only
  split
  · by_cases hempty : (named.takeWhile isIdent).isEmpty = true
    · rw [if_pos hempty]
      exact .inl rfl
    rw [if_neg hempty]
    refine .inr ?_
    split
    · rfl
    · split_ifs
      · rfl
      · rfl
  · exact .inl rfl

/-- **Every line is read this way.** -/
theorem shaped_parseLogLine (line : Bytes) : Shaped line (parseLogLine (D := D) line) := by
  rcases parseLogLine_cases D line with
    ⟨r, hr, -, hparse⟩ | ⟨stamp, pid, tid, seq, named, hline, hshape, hparse⟩
  · rw [hparse]
    exact .empty line hr
  rw [hparse]
  refine ⟨fun _ ↦ ?_, (moduleToken_parseNamed stamp named).imp_right fun h ↦ ⟨named, ?_, h⟩⟩
  · have hlen : stamp.length = kTsEnd + 1 := length_of_hasShape hshape
    have hlong : kTsEnd + 1 ≤ line.length := by
      rw [hline, List.length_append, hlen]
      exact Nat.le_add_right ..
    rw [checkTimestamp_eq hlong, hline, List.take_left' hlen]
    exact hshape
  · rw [hline]
    exact ((List.suffix_append ..).trans (List.suffix_append ..)).trans (List.suffix_append ..)

/-! ## Where the texts come from -/

/-- `t` is a token that is kept of the line. -/
def IsToken (line t : Bytes) : Prop := t ≠ [] ∧ ∃ s, s <:+ line ∧ t = s.takeWhile isIdent

/-- `t` is the timestamp of the line. -/
def IsTimestamp (line t : Bytes) : Prop := checkTimestamp line = true ∧ t = (line.drop 1).take 26

namespace Aggregator

omit [DoubleOps D] in
theorem mem_countModule {name : Bytes} {m : List (Bytes × ℕ)} {e : Bytes × ℕ}
    (h : e ∈ countModule name m) : e.1 = name ∨ ∃ e' ∈ m, e'.1 = e.1 := by
  induction m with
  | nil =>
    rw [countModule, List.mem_singleton] at h
    exact .inl (by rw [h])
  | cons entry m ih =>
    obtain ⟨key, n⟩ := entry
    rw [countModule] at h
    split_ifs at h with heq hlt
    · rcases List.mem_cons.mp h with rfl | h
      · exact .inl heq
      · exact .inr ⟨e, List.mem_cons_of_mem _ h, rfl⟩
    · rcases List.mem_cons.mp h with rfl | h
      · exact .inl rfl
      · exact .inr ⟨e, h, rfl⟩
    · rcases List.mem_cons.mp h with rfl | h
      · exact .inr ⟨(key, n), List.mem_cons_self, rfl⟩
      · rcases ih h with heq | ⟨e', he', heq⟩
        · exact .inl heq
        · exact .inr ⟨e', List.mem_cons_of_mem _ he', heq⟩

omit [DoubleOps D] in
theorem mem_rejectModule {name : Bytes} {m : List (Bytes × ℕ)} {e : Bytes × ℕ}
    (h : e ∈ rejectModule name m) : e.1 = name ∨ ∃ e' ∈ m, e'.1 = e.1 := by
  rw [rejectModule] at h
  split_ifs at h
  · exact mem_countModule h
  · exact mem_countModule h
  · exact .inr ⟨e, h, rfl⟩

/-- The texts that `b` keeps are those of `a` and some of the line. -/
structure TextsFrom (line : Bytes) (a b : Aggregator D) : Prop where
  names : ∀ e ∈ b.rejectedModules, (∃ e' ∈ a.rejectedModules, e'.1 = e.1) ∨ IsToken line e.1
  excerpts : ∀ r, (b.corrupt r).excerpt = (a.corrupt r).excerpt ∨
    (b.corrupt r).excerpt = escapeExcerpt line
  firstTs : b.firstTs = a.firstTs ∨ IsTimestamp line b.firstTs
  lastTs : b.lastTs = a.lastTs ∨ IsTimestamp line b.lastTs

/-- The two aggregators keep the same texts. -/
structure SameTexts (a b : Aggregator D) : Prop where
  rejectedModules : b.rejectedModules = a.rejectedModules
  corrupt : b.corrupt = a.corrupt
  firstTs : b.firstTs = a.firstTs
  lastTs : b.lastTs = a.lastTs

omit [DoubleOps D] in
theorem SameTexts.trans {a b c : Aggregator D} (h : SameTexts a b) (h' : SameTexts b c) :
    SameTexts a c :=
  ⟨h'.1.trans h.1, h'.2.trans h.2, h'.3.trans h.3, h'.4.trans h.4⟩

theorem sameTexts_tally (p : ParsedLine D) (a : Aggregator D) : SameTexts a (a.tally p) := by
  have hbucket : SameTexts a ((a.bucketFor p.bucket).2.countBucket (a.bucketFor p.bucket).1
      p.module) := by
    rw [bucketFor]
    split_ifs <;> exact ⟨rfl, rfl, rfl, rfl⟩
  have hspd : ∀ a : Aggregator D, SameTexts a ((a.addSpd p.spd).widenSpd p.spd) := fun a ↦ by
    rw [widenSpd]
    split_ifs <;> exact ⟨rfl, rfl, rfl, rfl⟩
  rw [tally]
  split_ifs
  · exact ⟨rfl, rfl, rfl, rfl⟩
  · exact ⟨rfl, rfl, rfl, rfl⟩
  · exact hbucket.trans (hspd _)
  · exact hbucket

omit [DoubleOps D] in
theorem CorruptSample.add_excerpt (lineNo offset : ℕ) (line : Bytes) (c : CorruptSample) :
    (c.add lineNo offset line).excerpt = c.excerpt ∨
      (c.add lineNo offset line).excerpt = escapeExcerpt line := by
  rw [LoggerAnalyzer.CorruptSample.add]
  split_ifs
  · exact .inr rfl
  · exact .inl rfl

/-- **A line brings no other texts than its own.** -/
theorem textsFrom_addLine (line : Bytes) (offset : ℕ) (a : Aggregator D) :
    TextsFrom line a (a.addLine line offset) := by
  have hshape := shaped_parseLogLine (D := D) line
  rw [addLine]
  generalize parseLogLine (D := D) line = parsed at hshape ⊢
  obtain ⟨r, p⟩ := parsed
  by_cases hr : r = .ok
  · subst hr
    have htally := sameTexts_tally p
      (countAccepted line p { a with totalLines := a.totalLines + 1 })
    have hts : IsTimestamp line ((line.drop 1).take 26) := ⟨hshape.timestamp rfl, rfl⟩
    refine ⟨fun e he ↦ .inl ⟨e, ?_, rfl⟩, fun r ↦ .inl ?_, ?_, ?_⟩
    · rwa [htally.rejectedModules] at he
    · rw [htally.corrupt]
      rfl
    · rw [htally.firstTs, countAccepted]
      dsimp only
      split_ifs
      · exact .inr hts
      · exact .inl rfl
    · rw [htally.lastTs]
      exact .inr hts
  · have hreject : TextsFrom line a
        (recordReject r line offset p.moduleToken { a with totalLines := a.totalLines + 1 }) := by
      refine ⟨fun e he ↦ ?_, fun r' ↦ ?_, .inl rfl, .inl rfl⟩
      · rw [recordReject] at he
        dsimp only at he
        by_cases htoken : (decide (r = .unknownModule) && !p.moduleToken.isEmpty) = true
        · rw [if_pos htoken] at he
          rw [Bool.and_eq_true, Bool.not_eq_true', List.isEmpty_eq_false_iff] at htoken
          rcases mem_rejectModule he with hname | hmem
          · refine .inr ⟨by rw [hname]; exact htoken.2, ?_⟩
            rw [hname]
            exact hshape.token.resolve_left htoken.2
          · exact .inl hmem
        · rw [if_neg htoken] at he
          exact .inl ⟨e, he, rfl⟩
      · rw [recordReject]
        dsimp only
        by_cases hr' : r' = r
        · rw [hr', Function.update_self]
          exact CorruptSample.add_excerpt ..
        · rw [Function.update_of_ne hr']
          exact .inl rfl
    cases r with
    | ok => exact absurd rfl hr
    | _ => exact hreject

end Aggregator

/-! ## Every character is printable -/

theorem isPrintable_of_isDigit : ∀ {b : UInt8}, isDigit b = true → isPrintable b = true :=
  fun {b} ↦ forall_byte (p := fun b ↦ isDigit b = true → isPrintable b = true) (by decide +kernel) b

/-- The characters of a timestamp are digits and four others. -/
theorem isPrintable_timestamp {s : Bytes} (h : checkTimestamp s = true) {i : ℕ} (hpos : 1 ≤ i)
    (hlt : i < 27) : isPrintable (charAt s i) = true := by
  simp only [checkTimestamp, Bool.and_eq_true, beq_iff_eq, List.all_eq_true, List.mem_range'_1] at h
  obtain ⟨⟨⟨⟨⟨⟨⟨⟨⟨⟨⟨⟨⟨⟨-, hyear⟩, h5⟩, hmonth⟩, h8⟩, hday⟩, h11⟩, hhour⟩, h14⟩, hminute⟩, h17⟩,
    hsecond⟩, h20⟩, hmicro⟩, -⟩ := h
  by_cases hlast : 21 ≤ i
  · exact isPrintable_of_isDigit (hmicro i ⟨hlast, hlt⟩)
  have hdigits : ∀ j ∈ [1, 2, 3, 4, 6, 7, 9, 10, 12, 13, 15, 16, 18, 19],
      isDigit (charAt s j) = true := by
    simp [hyear, hmonth, hday, hhour, hminute, hsecond]
  have hplace : i ∈ [1, 2, 3, 4, 6, 7, 9, 10, 12, 13, 15, 16, 18, 19] ∨ i = 5 ∨ i = 8 ∨ i = 11 ∨
      i = 14 ∨ i = 17 ∨ i = 20 := by
    interval_cases i <;> decide
  rcases hplace with hdigit | rfl | rfl | rfl | rfl | rfl | rfl
  · exact isPrintable_of_isDigit (hdigits i hdigit)
  · rw [h5]
    decide
  · rw [h8]
    decide
  · rw [h11]
    decide
  · rw [h14]
    decide
  · rw [h17]
    decide
  · rw [h20]
    decide

theorem IsTimestamp.isPrintable {line t : Bytes} (h : IsTimestamp line t) :
    ∀ b ∈ t, isPrintable b = true := by
  intro b hb
  rw [h.2, List.mem_iff_getElem] at hb
  obtain ⟨i, hi, rfl⟩ := hb
  rw [List.length_take] at hi
  have hchar := isPrintable_timestamp h.1 (i := 1 + i) (by omega) (by omega)
  rw [List.getElem_take, List.getElem_drop]
  rwa [charAt, List.getD_eq_getElem?_getD, List.getElem?_eq_getElem, Option.getD_some] at hchar

theorem IsToken.isIdent {line t : Bytes} (h : IsToken line t) : ∀ b ∈ t, isIdent b = true := by
  obtain ⟨-, s, -, rfl⟩ := h
  exact List.all_eq_true.mp List.all_takeWhile

/-- The texts of the aggregator can be printed, and the names are identifiers. -/
structure Aggregator.Presentable (a : Aggregator D) : Prop where
  names : ∀ e ∈ a.rejectedModules, e.1 ≠ [] ∧ ∀ b ∈ e.1, isIdent b = true
  excerpts : ∀ r, ∀ b ∈ (a.corrupt r).excerpt, isPrintable b = true
  firstTs : ∀ b ∈ a.firstTs, isPrintable b = true
  lastTs : ∀ b ∈ a.lastTs, isPrintable b = true

namespace Aggregator

private theorem presentable_empty : (empty : Aggregator D).Presentable :=
  ⟨fun _ h ↦ absurd h List.not_mem_nil, fun _ _ h ↦ absurd h List.not_mem_nil,
    fun _ h ↦ absurd h List.not_mem_nil, fun _ h ↦ absurd h List.not_mem_nil⟩

omit [DoubleOps D] in
theorem Presentable.textsFrom {line : Bytes} {a b : Aggregator D} (h : a.Presentable)
    (hfrom : TextsFrom line a b) : b.Presentable := by
  constructor
  · intro e he
    rcases hfrom.names e he with ⟨e', he', heq⟩ | htoken
    · rw [← heq]
      exact h.names e' he'
    · exact ⟨htoken.1, htoken.isIdent⟩
  · intro r
    rcases hfrom.excerpts r with hold | hnew
    · rw [hold]
      exact h.excerpts r
    · rw [hnew]
      exact isPrintable_escapeExcerpt line
  · rcases hfrom.firstTs with hold | hnew
    · rw [hold]
      exact h.firstTs
    · exact hnew.isPrintable
  · rcases hfrom.lastTs with hold | hnew
    · rw [hold]
      exact h.lastTs
    · exact hnew.isPrintable

/-- **Whatever the lines are, what is kept of them can be printed.** -/
theorem Reachable.presentable {a : Aggregator D} (h : Reachable a) : a.Presentable := by
  induction h with
  | empty => exact presentable_empty
  | addLine line offset _ ih => exact ih.textsFrom (textsFrom_addLine line offset _)
  | addOversize n _ ih => exact ⟨ih.names, ih.excerpts, ih.firstTs, ih.lastTs⟩
  | reset => exact presentable_empty

end Aggregator

end LoggerAnalyzer
