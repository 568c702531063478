import LoggerAnalyzer.Server.Isolation
import Mathlib.Data.List.TakeWhile

/-!
# The command line

`parse_args` goes through the arguments and writes what they say over the defaults. It stops at the
first argument that it cannot read, and at one that asks for the help or for the version; what comes
after these is not looked at.

A `Setting` is what a user means by one option, `words` are its arguments, and `apply` is what it
does to the configuration. `parseArgs_eq_iff` says what becomes of any command line: which are
accepted and with what result, and which are refused and what is said of them. A configuration that
was accepted is `InRange`, and this is what a server relies on.
-/

namespace LoggerAnalyzer

/-- `Config`. -/
structure Config where
  bindAddr : Bytes := ascii "0.0.0.0"
  port : UInt16 := 8088
  maxSessions : ℤ := 4
  backlog : ℤ := 16
  idleTimeoutMs : ℤ := 300000
  uploadStallTimeoutMs : ℤ := 15000
  readBufferBytes : ℕ := 256 * 1024
  logPath : Bytes := []
  verbose : Bool := false
  daemonize : Bool := false
  pidPath : Bytes := ascii "/tmp/Zhenyu_LoggerAnalyzer.pid"
  showHelp : Bool := false
  showVersion : Bool := false
deriving DecidableEq, Repr

/-! ## Numbers -/

/-- `isspace`. -/
def isSpace (c : UInt8) : Bool := c == 32 || (9 ≤ c && c ≤ 13)

/-- `c_str`: the string up to its first zero. -/
def cStr (s : Bytes) : Bytes := s.takeWhile (· ≠ 0)

/-- A sign, and what comes after it. -/
def takeSign : Bytes → Bool × Bytes
  | 45 :: s => (true, s)
  | 43 :: s => (false, s)
  | s => (false, s)

/-- The value of some digits with a sign. -/
def signedValue (negative : Bool) (digits : Bytes) : ℤ :=
  let value : ℤ := ExactDouble.natOfDigits digits
  if negative then -value else value

/-- `strtol` in base 10: the nearest `long`, whether `errno` becomes `ERANGE`, and what is left of
the string. -/
def strtol (s : Bytes) : ℤ × Bool × Bytes :=
  let signed := takeSign (s.dropWhile isSpace)
  let digits := signed.2.takeWhile isDigit
  if digits = [] then (0, false, s)
  else
    let value := signedValue signed.1 digits
    (max (-2 ^ 63) (min value (2 ^ 63 - 1)), value < -2 ^ 63 || 2 ^ 63 - 1 < value,
      signed.2.dropWhile isDigit)

/-- `to_int`. -/
def toInt (s : Bytes) (minV maxV : ℤ) : Option ℤ :=
  if s = [] then none
  else
    let (v, erange, left) := strtol (cStr s)
    if erange = true ∨ left ≠ [] then none else if v < minV ∨ maxV < v then none else some v

/-! ## The options -/

/-- What an option makes `parse_args` do: return at once, go on, or read its value. -/
inductive Action where
  | done (set : Config → Config)
  | flag (set : Config → Config)
  | value (read : Bytes → Except Bytes (Config → Config))

/-- A value that is an integer. -/
def readInt (what : Bytes) (minV maxV : ℤ) (set : ℤ → Config → Config) (v : Bytes) :
    Except Bytes (Config → Config) :=
  match toInt v minV maxV with
  | some n => .ok (set n)
  | none => .error (ascii "invalid " ++ what ++ ascii ": " ++ v)

/-- The options, in the order they are compared. -/
def action (a : Bytes) : Option Action :=
  if a = ascii "-h" ∨ a = ascii "--help" then
    some (.done fun cfg ↦ { cfg with showHelp := true })
  else if a = ascii "--version" then some (.done fun cfg ↦ { cfg with showVersion := true })
  else if a = ascii "--foreground" then some (.flag fun cfg ↦ { cfg with daemonize := false })
  else if a = ascii "--daemon" then some (.flag fun cfg ↦ { cfg with daemonize := true })
  else if a = ascii "-v" ∨ a = ascii "--verbose" then
    some (.flag fun cfg ↦ { cfg with verbose := true })
  else if a = ascii "--bind" then some (.value fun v ↦ .ok fun cfg ↦ { cfg with bindAddr := v })
  else if a = ascii "--port" ∨ a = ascii "-p" then
    some (.value (readInt (ascii "port") 1 65535 fun n cfg ↦
      { cfg with port := UInt16.ofNat n.toNat }))
  else if a = ascii "--max-sessions" then
    some (.value (readInt (ascii "max-sessions") 1 1024 fun n cfg ↦ { cfg with maxSessions := n }))
  else if a = ascii "--idle-timeout" then
    some (.value (readInt (ascii "idle-timeout (ms)") 1000 3600000 fun n cfg ↦
      { cfg with idleTimeoutMs := n }))
  else if a = ascii "--upload-timeout" then
    some (.value (readInt (ascii "upload-timeout (ms)") 1000 600000 fun n cfg ↦
      { cfg with uploadStallTimeoutMs := n }))
  else if a = ascii "--log" then some (.value fun v ↦ .ok fun cfg ↦ { cfg with logPath := v })
  else if a = ascii "--pidfile" then some (.value fun v ↦ .ok fun cfg ↦ { cfg with pidPath := v })
  else none

/-- `parse_args`, for the arguments after the first: the configuration, or what is wrong. -/
def parseArgs : List Bytes → Config → Except Bytes Config
  | [], cfg => .ok cfg
  | a :: args, cfg =>
    match action a with
    | none => .error (ascii "unknown option: " ++ a)
    | some (.done set) => .ok (set cfg)
    | some (.flag set) => parseArgs args (set cfg)
    | some (.value read) =>
      match args with
      | [] => .error (a ++ ascii " requires a value")
      | v :: args =>
        match read v with
        | .error err => .error err
        | .ok set => parseArgs args (set cfg)

/-! ## What the numbers are -/

/-- The sign of a numeral, and whether it is a minus. -/
inductive IntSign : Bytes → Bool → Prop where
  | none : IntSign [] false
  | plus : IntSign [43] false
  | minus : IntSign [45] true

/-- A numeral stands for a number: digits, after blanks and perhaps a sign. -/
inductive IntNumeral : Bytes → ℤ → Prop where
  | of {blanks sign digits : Bytes} {negative : Bool} (hblanks : ∀ c ∈ blanks, isSpace c = true)
      (hsign : IntSign sign negative) (hne : digits ≠ [])
        (hdigits : ∀ c ∈ digits, isDigit c = true) :
      IntNumeral (blanks ++ (sign ++ digits)) (signedValue negative digits)

private theorem isSpace_of_isDigit {c : UInt8} (h : isDigit c = true) : ¬ isSpace c = true :=
  forall_byte (p := fun c ↦ isDigit c = true → ¬ isSpace c = true) (by decide +kernel) c h

/-- The sign is taken off the digits. -/
theorem IntSign.takeSign {sign digits left : Bytes} {negative : Bool} (h : IntSign sign negative)
    (hne : digits ≠ []) (hdigits : ∀ c ∈ digits, isDigit c = true) :
    takeSign (sign ++ (digits ++ left)) = (negative, digits ++ left) := by
  cases h with
  | plus => rfl
  | minus => rfl
  | none =>
    obtain ⟨c, digits, rfl⟩ := List.exists_cons_of_ne_nil hne
    have hdigit := hdigits c List.mem_cons_self
    have hminus : c ≠ 45 := fun heq ↦ absurd hdigit (heq ▸ by decide)
    have hplus : c ≠ 43 := fun heq ↦ absurd hdigit (heq ▸ by decide)
    rw [List.nil_append, List.cons_append, LoggerAnalyzer.takeSign.eq_def]
    split
    · rename_i heq
      exact absurd (List.cons.inj heq).1 hminus
    · rename_i heq
      exact absurd (List.cons.inj heq).1 hplus
    · rfl

private theorem exists_intSign (s : Bytes) : ∃ sign, IntSign sign (takeSign s).1 ∧
    s = sign ++ (takeSign s).2 := by
  rw [takeSign.eq_def]
  split
  · exact ⟨[45], .minus, rfl⟩
  · exact ⟨[43], .plus, rfl⟩
  · exact ⟨[], .none, rfl⟩

theorem IntNumeral.ne_nil {s : Bytes} {n : ℤ} (h : IntNumeral s n) : s ≠ [] := by
  obtain ⟨-, -, hne, -⟩ := h
  simp [hne]

/-- `strtol` reads a numeral to where its digits end. -/
theorem IntNumeral.strtol {s left : Bytes} {n : ℤ} (h : IntNumeral s n)
    (hlong : -2 ^ 63 ≤ n ∧ n < 2 ^ 63) (hleft : ∀ c, left.head? = some c → isDigit c = false) :
    strtol (s ++ left) = (n, false, left) := by
  obtain ⟨hblanks, hsign, hne, hdigits⟩ := h
  rename_i blanks sign digits negative
  -- behind the blanks comes a sign or a digit
  have hstart : (blanks ++ (sign ++ digits) ++ left).dropWhile isSpace = sign
    ++ (digits ++ left) := by
    rw [List.append_assoc, List.dropWhile_append_of_pos hblanks, List.append_assoc]
    cases hsign with
    | plus => rfl
    | minus => rfl
    | none =>
      obtain ⟨c, digits, rfl⟩ := List.exists_cons_of_ne_nil hne
      exact List.dropWhile_cons_of_neg (isSpace_of_isDigit (hdigits c List.mem_cons_self))
  have htaken : (digits ++ left).takeWhile isDigit = digits ∧
      (digits ++ left).dropWhile isDigit = left := by
    rw [List.takeWhile_append_of_pos hdigits, List.dropWhile_append_of_pos hdigits]
    cases left with
    | nil => exact ⟨List.append_nil _, rfl⟩
    | cons c left =>
      have hc : ¬ isDigit c = true := by
        rw [hleft c rfl]
        decide
      rw [List.takeWhile_cons_of_neg hc, List.dropWhile_cons_of_neg hc]
      exact ⟨List.append_nil _, rfl⟩
  rw [LoggerAnalyzer.strtol, hstart, hsign.takeSign hne hdigits]
  dsimp only
  rw [htaken.1, htaken.2, if_neg hne, min_eq_left (by omega), max_eq_right hlong.1]
  have hrange : (signedValue negative digits < -2 ^ 63 || 2 ^ 63 - 1 < signedValue negative digits)
      = false := by
    rw [Bool.or_eq_false_iff, decide_eq_false_iff_not, decide_eq_false_iff_not]
    omega
  rw [hrange]

/-- What `strtol` reads to its end is a numeral. -/
theorem numeral_of_strtol {s : Bytes} {n : ℤ} (hne : s ≠ []) (h : strtol s = (n, false, [])) :
    IntNumeral s n := by
  obtain ⟨sign, hsign, heq⟩ := exists_intSign (s.dropWhile isSpace)
  have hs : s = s.takeWhile isSpace ++ (sign ++ (takeSign (s.dropWhile isSpace)).2) := by
    rw [← heq, List.takeWhile_append_dropWhile]
  rw [strtol] at h
  generalize takeSign (s.dropWhile isSpace) = signed at h hsign hs
  obtain ⟨negative, digits⟩ := signed
  dsimp only at h hsign hs
  split_ifs at h with hnone
  · exact absurd (Prod.mk.inj (Prod.mk.inj h).2).2 hne
  · obtain ⟨hvalue, hrest⟩ := Prod.mk.inj h
    obtain ⟨hrange, hleft⟩ := Prod.mk.inj hrest
    have hdigits := List.dropWhile_eq_nil_iff.mp hleft
    rw [List.takeWhile_eq_self_iff.mpr hdigits] at hnone hvalue hrange
    rw [Bool.or_eq_false_iff, decide_eq_false_iff_not, decide_eq_false_iff_not] at hrange
    rw [min_eq_left (by omega), max_eq_right (by omega)] at hvalue
    rw [hs, ← hvalue]
    exact .of (fun c hc ↦ List.mem_takeWhile_imp hc) hsign hnone hdigits

private theorem toInt_eq_some {s : Bytes} {minV maxV n : ℤ} : toInt s minV maxV = some n ↔
    s ≠ [] ∧ strtol (cStr s) = (n, false, []) ∧ minV ≤ n ∧ n ≤ maxV := by
  rw [toInt]
  generalize strtol (cStr s) = read
  obtain ⟨v, erange, left⟩ := read
  dsimp only
  rw [Prod.mk.injEq, Prod.mk.injEq]
  split_ifs with hempty hfail hout
  · simp [hempty]
  · refine ⟨fun h ↦ absurd h (by simp), fun ⟨_, ⟨_, herange, hleft⟩, _⟩ ↦ ?_⟩
    rcases hfail with hfail | hfail
    · exact absurd (hfail.symm.trans herange) (by decide)
    · exact absurd hleft hfail
  · refine ⟨fun h ↦ absurd h (by simp), fun ⟨_, ⟨heq, _⟩, hmin, hmax⟩ ↦ ?_⟩
    omega
  · rw [not_or, Bool.not_eq_true, not_not] at hfail
    rw [Option.some.injEq]
    refine ⟨fun heq ↦ ⟨hempty, ⟨heq, hfail⟩, ?_, ?_⟩, fun h ↦ h.2.1.1⟩
    · omega
    · omega

/-- **`to_int` reads the numerals in its range**, for the ranges that it is used with. -/
theorem toInt_eq_some_iff {s : Bytes} {minV maxV n : ℤ} (hmin : 0 < minV) (hmax : maxV < 2 ^ 63) :
    toInt s minV maxV = some n ↔ IntNumeral (cStr s) n ∧ minV ≤ n ∧ n ≤ maxV := by
  rw [toInt_eq_some]
  constructor
  · rintro ⟨-, hread, hrange⟩
    refine ⟨numeral_of_strtol (fun hempty ↦ ?_) hread, hrange⟩
    rw [hempty] at hread
    have hzero : (0 : ℤ) = n := (Prod.mk.inj hread).1
    omega
  · rintro ⟨hnumeral, hrange⟩
    have hnone : ∀ c, ([] : Bytes).head? = some c → isDigit c = false := by simp
    have hread := hnumeral.strtol (by omega) hnone
    rw [List.append_nil] at hread
    refine ⟨fun hempty ↦ hnumeral.ne_nil ?_, hread, hrange⟩
    rw [hempty]
    rfl

/-! ## What the command line says -/

/-- The options whose value is an integer. -/
inductive IntOption where
  | port
  | maxSessions
  | idleTimeout
  | uploadTimeout
deriving DecidableEq, Repr

namespace IntOption

def names : IntOption → List Bytes
  | port => [ascii "--port", ascii "-p"]
  | maxSessions => [ascii "--max-sessions"]
  | idleTimeout => [ascii "--idle-timeout"]
  | uploadTimeout => [ascii "--upload-timeout"]

/-- What an option is called in an error. -/
def what : IntOption → Bytes
  | port => ascii "port"
  | maxSessions => ascii "max-sessions"
  | idleTimeout => ascii "idle-timeout (ms)"
  | uploadTimeout => ascii "upload-timeout (ms)"

def minV : IntOption → ℤ
  | port => 1
  | maxSessions => 1
  | idleTimeout => 1000
  | uploadTimeout => 1000

def maxV : IntOption → ℤ
  | port => 65535
  | maxSessions => 1024
  | idleTimeout => 3600000
  | uploadTimeout => 600000

def set (n : ℤ) (cfg : Config) : IntOption → Config
  | port => { cfg with port := UInt16.ofNat n.toNat }
  | maxSessions => { cfg with maxSessions := n }
  | idleTimeout => { cfg with idleTimeoutMs := n }
  | uploadTimeout => { cfg with uploadStallTimeoutMs := n }

end IntOption

/-- The options whose value is a text. -/
inductive TextOption where
  | bind
  | log
  | pidfile
deriving DecidableEq, Repr

namespace TextOption

def name : TextOption → Bytes
  | bind => ascii "--bind"
  | log => ascii "--log"
  | pidfile => ascii "--pidfile"

def set (v : Bytes) (cfg : Config) : TextOption → Config
  | bind => { cfg with bindAddr := v }
  | log => { cfg with logPath := v }
  | pidfile => { cfg with pidPath := v }

end TextOption

/-- What is set on the command line. -/
inductive Setting where
  | daemonize (yes : Bool)
  | verbose (name : Bytes) (known : name ∈ [ascii "-v", ascii "--verbose"])
  | text (option : TextOption) (v : Bytes)
  | int (option : IntOption) (name : Bytes) (known : name ∈ option.names) (v : Bytes) (n : ℤ)
    (reads : IntNumeral (cStr v) n) (inRange : option.minV ≤ n ∧ n ≤ option.maxV)

namespace Setting

/-- The arguments that set it. -/
def words : Setting → List Bytes
  | daemonize yes => [ascii (if yes then "--daemon" else "--foreground")]
  | verbose name _ => [name]
  | text option v => [option.name, v]
  | int _ name _ v _ _ _ => [name, v]

/-- What it does to the configuration. -/
def apply (cfg : Config) : Setting → Config
  | daemonize yes => { cfg with daemonize := yes }
  | verbose _ _ => { cfg with verbose := true }
  | text option v => option.set v cfg
  | int option _ _ _ n _ _ => option.set n cfg

end Setting

/-- The argument after which no other is looked at. -/
inductive Stop : Bytes → (Config → Config) → Prop where
  | help {name} (known : name ∈ [ascii "-h", ascii "--help"]) :
      Stop name fun cfg ↦ { cfg with showHelp := true }
  | version : Stop (ascii "--version") fun cfg ↦ { cfg with showVersion := true }

/-- An option that has a value. -/
def TakesValue (a : Bytes) : Prop :=
  (∃ option : TextOption, a = option.name) ∨ ∃ option : IntOption, a ∈ option.names

/-- What cannot be read, and what is said of it. -/
inductive Refused : List Bytes → Bytes → Prop where
  | unknown {a more} (stops : ∀ set, ¬ Stop a set) (sets : ∀ setting : Setting, setting.words ≠ [a])
      (takesNone : ¬ TakesValue a) : Refused (a :: more) (ascii "unknown option: " ++ a)
  | missing {a} (takes : TakesValue a) : Refused [a] (a ++ ascii " requires a value")
  | invalid {option : IntOption} {name v more} (known : name ∈ option.names)
      (no : ∀ n, IntNumeral (cStr v) n → ¬ (option.minV ≤ n ∧ n ≤ option.maxV)) :
      Refused (name :: v :: more) (ascii "invalid " ++ option.what ++ ascii ": " ++ v)

/-! ## Every option -/

theorem action_stop {name : Bytes} {set : Config → Config} (h : Stop name set) :
    action name = some (.done set) := by
  cases h with
  | version => rfl
  | help known =>
    rw [List.mem_pair] at known
    rcases known with rfl | rfl
    · rfl
    · rfl

theorem action_text (option : TextOption) :
    action option.name = some (.value fun v ↦ .ok fun cfg ↦ option.set v cfg) := by
  cases option with
  | bind => rfl
  | log => rfl
  | pidfile => rfl

theorem action_int (option : IntOption) {name : Bytes} (known : name ∈ option.names) :
    action name = some (.value (readInt option.what option.minV option.maxV fun n cfg ↦
      option.set n cfg)) := by
  cases option with
  | port =>
    rw [IntOption.names, List.mem_pair] at known
    rcases known with rfl | rfl
    · rfl
    · rfl
  | maxSessions =>
    obtain rfl := List.mem_singleton.mp known
    rfl
  | idleTimeout =>
    obtain rfl := List.mem_singleton.mp known
    rfl
  | uploadTimeout =>
    obtain rfl := List.mem_singleton.mp known
    rfl

/-- The settings that are one argument. -/
theorem action_setting {setting : Setting} {a : Bytes} (h : setting.words = [a]) :
    action a = some (.flag fun cfg ↦ setting.apply cfg) := by
  cases setting with
  | daemonize yes =>
    obtain rfl := List.singleton_inj.mp h
    cases yes with
    | false => rfl
    | true => rfl
  | verbose name known =>
    obtain rfl := List.singleton_inj.mp h
    rw [List.mem_pair] at known
    rcases known with rfl | rfl
    · rfl
    · rfl
  | text option v => exact absurd (congrArg List.length h) (by simp [Setting.words])
  | int option name known v n => exact absurd (congrArg List.length h) (by simp [Setting.words])

/-- **What an argument can be.** -/
theorem action_cases (a : Bytes) : (∃ set, Stop a set) ∨
    (∃ setting : Setting, setting.words = [a]) ∨ TakesValue a ∨ action a = none := by
  by_cases hhelp : a = ascii "-h" ∨ a = ascii "--help"
  · exact .inl ⟨_, .help (List.mem_pair.mpr hhelp)⟩
  by_cases hversion : a = ascii "--version"
  · subst hversion
    exact .inl ⟨_, .version⟩
  by_cases hforeground : a = ascii "--foreground"
  · exact .inr (.inl ⟨.daemonize false, congrArg (fun a ↦ [a]) hforeground.symm⟩)
  by_cases hdaemon : a = ascii "--daemon"
  · exact .inr (.inl ⟨.daemonize true, congrArg (fun a ↦ [a]) hdaemon.symm⟩)
  by_cases hverbose : a = ascii "-v" ∨ a = ascii "--verbose"
  · exact .inr (.inl ⟨.verbose a (List.mem_pair.mpr hverbose), rfl⟩)
  by_cases hbind : a = ascii "--bind"
  · exact .inr (.inr (.inl (.inl ⟨.bind, hbind⟩)))
  by_cases hport : a = ascii "--port" ∨ a = ascii "-p"
  · exact .inr (.inr (.inl (.inr ⟨.port, List.mem_pair.mpr hport⟩)))
  by_cases hmax : a = ascii "--max-sessions"
  · exact .inr (.inr (.inl (.inr ⟨.maxSessions, List.mem_singleton.mpr hmax⟩)))
  by_cases hidle : a = ascii "--idle-timeout"
  · exact .inr (.inr (.inl (.inr ⟨.idleTimeout, List.mem_singleton.mpr hidle⟩)))
  by_cases hupload : a = ascii "--upload-timeout"
  · exact .inr (.inr (.inl (.inr ⟨.uploadTimeout, List.mem_singleton.mpr hupload⟩)))
  by_cases hlog : a = ascii "--log"
  · exact .inr (.inr (.inl (.inl ⟨.log, hlog⟩)))
  by_cases hpid : a = ascii "--pidfile"
  · exact .inr (.inr (.inl (.inl ⟨.pidfile, hpid⟩)))
  rw [action, if_neg hhelp, if_neg hversion, if_neg hforeground, if_neg hdaemon, if_neg hverbose,
    if_neg hbind, if_neg hport, if_neg hmax, if_neg hidle, if_neg hupload, if_neg hlog, if_neg hpid]
  exact .inr (.inr (.inr rfl))

theorem action_takesValue {a : Bytes} (h : TakesValue a) :
    ∃ read, action a = some (.value read) := by
  rcases h with ⟨option, rfl⟩ | ⟨option, known⟩
  · exact ⟨_, action_text option⟩
  · exact ⟨_, action_int option known⟩

theorem IntOption.range (option : IntOption) : 0 < option.minV ∧ option.maxV < 2 ^ 63 := by
  cases option with
  | port => decide
  | maxSessions => decide
  | idleTimeout => decide
  | uploadTimeout => decide

private theorem readInt_ok {option : IntOption} {v : Bytes} {n : ℤ} (reads : IntNumeral (cStr v) n)
    (inRange : option.minV ≤ n ∧ n ≤ option.maxV) (set : ℤ → Config → Config) :
    readInt option.what option.minV option.maxV set v = .ok (set n) := by
  rw [readInt, (toInt_eq_some_iff option.range.1 option.range.2).mpr ⟨reads, inRange⟩]

private theorem readInt_error {option : IntOption} {v : Bytes}
    (no : ∀ n, IntNumeral (cStr v) n → ¬ (option.minV ≤ n ∧ n ≤ option.maxV))
    (set : ℤ → Config → Config) : readInt option.what option.minV option.maxV set v
      = .error (ascii "invalid " ++ option.what ++ ascii ": " ++ v) := by
  cases hread : toInt v option.minV option.maxV with
  | none => rw [readInt, hread]
  | some n =>
    obtain ⟨reads, inRange⟩ := (toInt_eq_some_iff option.range.1 option.range.2).mp hread
    exact absurd inRange (no n reads)

private theorem unknown_of_none {a : Bytes} {more : List Bytes} (h : action a = none) :
    Refused (a :: more) (ascii "unknown option: " ++ a) := by
  refine .unknown (fun set hstop ↦ ?_) (fun setting hwords ↦ ?_) fun htakes ↦ ?_
  · exact absurd (h.symm.trans (action_stop hstop)) (by simp)
  · exact absurd (h.symm.trans (action_setting hwords)) (by simp)
  · obtain ⟨read, hread⟩ := action_takesValue htakes
    exact absurd (h.symm.trans hread) (by simp)

/-! ## Every command line -/

/-- How a command line ends, and what comes of the configuration. -/
inductive ArgsEnd : List Bytes → Config → Except Bytes Config → Prop where
  | all {cfg} : ArgsEnd [] cfg (.ok cfg)
  | stop {name set more cfg} (h : Stop name set) : ArgsEnd (name :: more) cfg (.ok (set cfg))
  | refused {rest err cfg} (h : Refused rest err) : ArgsEnd rest cfg (.error err)

/-- A setting is read, and the rest follows. -/
theorem parseArgs_setting (setting : Setting) (rest : List Bytes) (cfg : Config) :
    parseArgs (setting.words ++ rest) cfg = parseArgs rest (setting.apply cfg) := by
  have hone : ∀ {a : Bytes}, setting.words = [a] →
      parseArgs (setting.words ++ rest) cfg = parseArgs rest (setting.apply cfg) := by
    intro a hwords
    rw [hwords, List.singleton_append, parseArgs, action_setting hwords]
  cases setting with
  | daemonize yes => exact hone rfl
  | verbose name known => exact hone rfl
  | text option v =>
    rw [Setting.words, List.cons_append, List.singleton_append, parseArgs, action_text]
    rfl
  | int option name known v n reads inRange =>
    rw [Setting.words, List.cons_append, List.singleton_append, parseArgs, action_int option known]
    dsimp only
    rw [readInt_ok reads inRange]
    rfl

private theorem parseArgs_settings (settings : List Setting) (rest : List Bytes) (cfg : Config) :
    parseArgs (settings.flatMap Setting.words ++ rest) cfg
      = parseArgs rest (settings.foldl Setting.apply cfg) := by
  induction settings generalizing cfg with
  | nil => rfl
  | cons setting settings ih =>
    rw [List.flatMap_cons, List.append_assoc, parseArgs_setting, ih, List.foldl_cons]

/-- The end decides. -/
theorem ArgsEnd.parseArgs {rest : List Bytes} {cfg : Config} {r : Except Bytes Config}
    (h : ArgsEnd rest cfg r) : parseArgs rest cfg = r := by
  cases h with
  | all => rfl
  | stop h => rw [LoggerAnalyzer.parseArgs, action_stop h]
  | refused h =>
    cases h with
    | @unknown a more stops sets takesNone =>
      rcases action_cases a with ⟨set, hstop⟩ | ⟨setting, hwords⟩ | htakes | hnone
      · exact absurd hstop (stops set)
      · exact absurd hwords (sets setting)
      · exact absurd htakes takesNone
      · rw [LoggerAnalyzer.parseArgs, hnone]
    | missing takes =>
      obtain ⟨read, hread⟩ := action_takesValue takes
      rw [LoggerAnalyzer.parseArgs, hread]
    | @invalid option name v more known no =>
      rw [LoggerAnalyzer.parseArgs, action_int option known]
      dsimp only
      rw [readInt_error no]

/-- A command line is some settings and an end. -/
def ReadsArgs (args : List Bytes) (cfg : Config) (r : Except Bytes Config) : Prop :=
  ∃ (settings : List Setting) (rest : List Bytes), args = settings.flatMap Setting.words ++ rest ∧
    ArgsEnd rest (settings.foldl Setting.apply cfg) r

namespace ReadsArgs

variable {args rest : List Bytes} {cfg : Config} {r : Except Bytes Config}

theorem of_ends (h : ArgsEnd args cfg r) : ReadsArgs args cfg r := ⟨[], args, rfl, h⟩

theorem setting {setting : Setting} (h : ReadsArgs rest (setting.apply cfg) r) :
    ReadsArgs (setting.words ++ rest) cfg r := by
  obtain ⟨settings, rest, rfl, hends⟩ := h
  exact ⟨setting :: settings, rest, by rw [List.flatMap_cons, List.append_assoc], hends⟩

end ReadsArgs

/-- Every command line can be read so. -/
theorem exists_reads : ∀ (args : List Bytes) (cfg : Config), ∃ r, ReadsArgs args cfg r
  | [], cfg => ⟨_, .of_ends .all⟩
  | [a], cfg => by
    rcases action_cases a with ⟨set, hstop⟩ | ⟨setting, hwords⟩ | htakes | hnone
    · exact ⟨_, .of_ends (.stop hstop)⟩
    · exact ⟨_, hwords ▸ ReadsArgs.setting (.of_ends .all)⟩
    · exact ⟨_, .of_ends (.refused (.missing htakes))⟩
    · exact ⟨_, .of_ends (.refused (unknown_of_none hnone))⟩
  | a :: v :: args, cfg => by
    rcases action_cases a with ⟨set, hstop⟩ | ⟨setting, hwords⟩ | htakes | hnone
    · exact ⟨_, .of_ends (.stop hstop)⟩
    · obtain ⟨r, h⟩ := exists_reads (v :: args) (setting.apply cfg)
      have hread := h.setting
      rw [hwords] at hread
      exact ⟨r, hread⟩
    · rcases htakes with ⟨option, rfl⟩ | ⟨option, known⟩
      · obtain ⟨r, h⟩ := exists_reads args (option.set v cfg)
        exact ⟨r, show ReadsArgs (Setting.words (.text option v) ++ args) cfg r from .setting h⟩
      · by_cases hreads : ∃ n, IntNumeral (cStr v) n ∧ (option.minV ≤ n ∧ n ≤ option.maxV)
        · obtain ⟨n, reads, inRange⟩ := hreads
          obtain ⟨r, h⟩ := exists_reads args (option.set n cfg)
          let setting : Setting := .int option a known v n reads inRange
          exact ⟨r, show ReadsArgs (setting.words ++ args) cfg r from .setting h⟩
        · have no : ∀ n, IntNumeral (cStr v) n → ¬ (option.minV ≤ n ∧ n ≤ option.maxV) :=
            fun n reads inRange ↦ hreads ⟨n, reads, inRange⟩
          exact ⟨_, .of_ends (.refused (.invalid known no))⟩
    · exact ⟨_, .of_ends (.refused (unknown_of_none hnone))⟩

theorem ReadsArgs.parseArgs {args : List Bytes} {cfg : Config} {r : Except Bytes Config}
    (h : ReadsArgs args cfg r) : parseArgs args cfg = r := by
  obtain ⟨settings, rest, rfl, hends⟩ := h
  exact (parseArgs_settings settings rest cfg).trans hends.parseArgs

theorem reads_parseArgs (args : List Bytes) (cfg : Config) :
    ReadsArgs args cfg (parseArgs args cfg) := by
  obtain ⟨r, h⟩ := exists_reads args cfg
  exact h.parseArgs ▸ h

/-- **What `parse_args` makes of a command line.** It is some settings, which are applied in order,
and an end. -/
theorem parseArgs_eq_iff (args : List Bytes) (cfg : Config) (r : Except Bytes Config) :
    parseArgs args cfg = r ↔ ReadsArgs args cfg r :=
  ⟨fun heq ↦ heq ▸ reads_parseArgs args cfg, ReadsArgs.parseArgs⟩

/-! ## What a server relies on -/

namespace Config

structure InRange (cfg : Config) : Prop where
  maxSessions : 1 ≤ cfg.maxSessions ∧ cfg.maxSessions ≤ 1024
  idleTimeoutMs : 1000 ≤ cfg.idleTimeoutMs ∧ cfg.idleTimeoutMs ≤ 3600000
  uploadStallTimeoutMs : 1000 ≤ cfg.uploadStallTimeoutMs ∧ cfg.uploadStallTimeoutMs ≤ 600000

/-- The defaults pass their own checks. -/
theorem inRange_default : InRange {} := ⟨by decide, by decide, by decide⟩

variable {cfg : Config}

theorem InRange.apply (h : cfg.InRange) (setting : Setting) : (setting.apply cfg).InRange := by
  obtain ⟨hmax, hidle, hupload⟩ := h
  cases setting with
  | daemonize yes => exact ⟨hmax, hidle, hupload⟩
  | verbose name known => exact ⟨hmax, hidle, hupload⟩
  | text option v =>
    cases option with
    | bind => exact ⟨hmax, hidle, hupload⟩
    | log => exact ⟨hmax, hidle, hupload⟩
    | pidfile => exact ⟨hmax, hidle, hupload⟩
  | int option name known v n reads inRange =>
    cases option with
    | port => exact ⟨hmax, hidle, hupload⟩
    | maxSessions => exact ⟨inRange, hidle, hupload⟩
    | idleTimeout => exact ⟨hmax, inRange, hupload⟩
    | uploadTimeout => exact ⟨hmax, hidle, inRange⟩

theorem InRange.foldl (h : cfg.InRange) (settings : List Setting) :
    (settings.foldl Setting.apply cfg).InRange := by
  induction settings generalizing cfg with
  | nil => exact h
  | cons setting settings ih => exact ih (h.apply setting)

/-- **A configuration that is accepted** is in range. -/
theorem InRange.parseArgs (h : cfg.InRange) {args : List Bytes} {cfg' : Config}
    (hok : parseArgs args cfg = .ok cfg') : cfg'.InRange := by
  obtain ⟨settings, rest, -, hends⟩ := reads_parseArgs args cfg
  rw [hok] at hends
  have hset := h.foldl settings
  cases hends with
  | all => exact hset
  | stop hstop =>
    cases hstop with
    | help => exact ⟨hset.maxSessions, hset.idleTimeoutMs, hset.uploadStallTimeoutMs⟩
    | version => exact ⟨hset.maxSessions, hset.idleTimeoutMs, hset.uploadStallTimeoutMs⟩

/-- What a `TcpServer` uses of the configuration. -/
def server (cfg : Config) (h : cfg.InRange) (uvVersion : Bytes) : ServerConfig where
  maxSessions := cfg.maxSessions
  uvVersion := uvVersion
  idleTimeoutMs := cfg.idleTimeoutMs.toNat
  uploadStallTimeoutMs := cfg.uploadStallTimeoutMs.toNat
  inRange := h.maxSessions

end Config

/-- **The limit of the command line** is kept in every run of the server. -/
theorem limit_of_parseArgs {D : Type} [DoubleOps D] {args : List Bytes} {cfg : Config}
    (hok : parseArgs args {} = .ok cfg) (uvVersion : Bytes) {events : List TcpServer.Event}
    (hoffers : let config := cfg.server (Config.inRange_default.parseArgs hok) uvVersion
      ((TcpServer.system D config).under TcpServer.Orderly).Offers (.listening config) events) :
    let config := cfg.server (Config.inRange_default.parseArgs hok) uvVersion
    let s := (TcpServer.system D config).run (.listening config) events
    ((s.sessions.keys.filter (· ∈ s.started)).length : ℤ) ≤ s.config.maxSessions :=
  (TcpServer.sound_run (.listening _) hoffers).limit

end LoggerAnalyzer
