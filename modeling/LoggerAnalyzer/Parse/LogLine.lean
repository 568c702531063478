import LoggerAnalyzer.Text.Double

/-!
# Log lines

`parseLogLine` checks one line, stage by stage, and extracts its fields. A line is rejected by the
first stage it does not pass, with that stage's reason; the reasons are what the result counts.

The code walks an index through the line. Here a stage works on the bytes from that index on, and a
byte past the end, which the code checks for before it looks, is absent.
-/

namespace LoggerAnalyzer

/-! ## Modules and reasons -/

inductive Module where
  | radarTrackNodeState
  | antennaProfileSpec
  | sectorSchedulerRTS
  | detectionTaskRunner
  | beamSteerCtrlUnitImpl
deriving DecidableEq, Repr

namespace Module

/-- The modules in the order of their numbers. -/
def all : List Module :=
  [radarTrackNodeState, antennaProfileSpec, sectorSchedulerRTS, detectionTaskRunner,
    beamSteerCtrlUnitImpl]

/-- `module_name`. -/
def name : Module → Bytes
  | radarTrackNodeState => ascii "RadarTrackNodeState"
  | antennaProfileSpec => ascii "AntennaProfileSpec"
  | sectorSchedulerRTS => ascii "SectorSchedulerRTS"
  | detectionTaskRunner => ascii "DetectionTaskRunner"
  | beamSteerCtrlUnitImpl => ascii "BeamSteerCtrlUnitImpl"

end Module

/-- `kModuleCount`. -/
def kModuleCount : ℕ := 5

theorem length_all_modules : Module.all.length = kModuleCount := rfl

/-- Why a line is rejected, or that it is not. -/
inductive Reason where
  | ok
  | tooShort
  | missingOpenBracket
  | badTimestamp
  | garbagePayload
  | missingCloseBracket
  | missingBydaTag
  | badModuleName
  | unknownModule
deriving DecidableEq, Repr

namespace Reason

/-- The reasons for a rejection, in the order of their numbers. -/
def rejections : List Reason :=
  [tooShort, missingOpenBracket, badTimestamp, garbagePayload, missingCloseBracket, missingBydaTag,
    badModuleName, unknownModule]

/-- `reason_key`. -/
def key : Reason → Bytes
  | ok => ascii "accepted"
  | tooShort => ascii "rejected_too_short"
  | missingOpenBracket => ascii "rejected_missing_open_bracket"
  | badTimestamp => ascii "rejected_bad_timestamp"
  | garbagePayload => ascii "rejected_garbage_payload"
  | missingCloseBracket => ascii "rejected_missing_close_bracket"
  | missingBydaTag => ascii "rejected_missing_byda_tag"
  | badModuleName => ascii "rejected_bad_module_name"
  | unknownModule => ascii "rejected_unknown_module"

/-- `reason_text`. -/
def text : Reason → Bytes
  | ok => ascii "Header valid and module in whitelist"
  | tooShort => ascii "Line shorter than the minimum valid header"
  | missingOpenBracket => ascii "Line does not start with '['"
  | badTimestamp => ascii "Timestamp block does not match the fixed layout"
  | garbagePayload => ascii "Timestamp present but no PID/TID/SEQ structure"
  | missingCloseBracket => ascii "PID/TID/SEQ field not terminated by ']'"
  | missingBydaTag => ascii "Missing the ' BYDA::' tag"
  | badModuleName => ascii "Module name malformed or not followed by ': '"
  | unknownModule => ascii "Header valid but module is not in the whitelist"

end Reason

/-! ## Characters -/

/-- `is_ident`. -/
def isIdent (c : UInt8) : Bool :=
  (65 ≤ c && c ≤ 90) || (97 ≤ c && c ≤ 122) || isDigit c || c == 95

/-- The byte at `i`. -/
def charAt (s : Bytes) (i : ℕ) : UInt8 := s.getD i 0

/-- The value of the digit at `i`. -/
def digitAt (s : Bytes) (i : ℕ) : ℕ := (charAt s i).toNat - 48

def digit2 (s : Bytes) : ℕ := digitAt s 0 * 10 + digitAt s 1

def digit4 (s : Bytes) : ℕ :=
  digitAt s 0 * 1000 + digitAt s 1 * 100 + digitAt s 2 * 10 + digitAt s 3

/-! ## The timestamp -/

/-- The index of the closing bracket of the timestamp. -/
def kTsEnd : ℕ := 27

/-- `check_timestamp`, on a line of at least `kTsEnd + 1` bytes. -/
def checkTimestamp (s : Bytes) : Bool :=
  charAt s 0 == 91 &&
  (isDigit (charAt s 1) && isDigit (charAt s 2) && isDigit (charAt s 3) && isDigit (charAt s 4)) &&
  charAt s 5 == 45 &&
  (isDigit (charAt s 6) && isDigit (charAt s 7)) &&
  charAt s 8 == 45 &&
  (isDigit (charAt s 9) && isDigit (charAt s 10)) &&
  charAt s 11 == 95 &&
  (isDigit (charAt s 12) && isDigit (charAt s 13)) &&
  charAt s 14 == 58 &&
  (isDigit (charAt s 15) && isDigit (charAt s 16)) &&
  charAt s 17 == 58 &&
  (isDigit (charAt s 18) && isDigit (charAt s 19)) &&
  charAt s 20 == 46 &&
  (List.range' 21 6).all (fun i ↦ isDigit (charAt s i)) &&
  charAt s kTsEnd == 93

/-! ## The module name -/

/-- `lookup_module`: a switch over the length, then the first letter, then the whole name. -/
def lookupModule (name : Bytes) : Option Module :=
  if name.length = 18 then
    if charAt name 0 == 65 && name == ascii "AntennaProfileSpec" then some .antennaProfileSpec
    else if charAt name 0 == 83 && name == ascii "SectorSchedulerRTS" then some .sectorSchedulerRTS
    else none
  else if name.length = 19 then
    if charAt name 0 == 82 && name == ascii "RadarTrackNodeState" then some .radarTrackNodeState
    else if charAt name 0 == 68 && name == ascii "DetectionTaskRunner" then
      some .detectionTaskRunner
    else none
  else if name.length = 21 then
    if charAt name 0 == 66 && name == ascii "BeamSteerCtrlUnitImpl" then some .beamSteerCtrlUnitImpl
    else none
  else none

/-! ## The speed -/

section Speed

variable {D : Type} [DoubleOps D]

/-- `kSpdMin`. -/
def kSpdMin : D := DoubleOps.ofNat 0

/-- `kSpdMax`. -/
def kSpdMax : D := DoubleOps.ofNat 1000000000

/-- `payload.find("spd[", pos)`, for the bytes from `pos` on: how many precede the first match. -/
def findAnchor : Bytes → Option ℕ
  | [] => none
  | b :: bs =>
    if (ascii "spd[").isPrefixOf (b :: bs) then some 0 else (findAnchor bs).map (· + 1)

/-- The shape of a number: an optional sign, digits, an optional point and digits, at least one
digit, and nothing else. -/
def checkNumber (token : Bytes) : Bool :=
  let unsigned := match token with
    | 43 :: t => t
    | 45 :: t => t
    | t => t
  let whole := unsigned.takeWhile isDigit
  let after := unsigned.drop whole.length
  match after with
  | 46 :: t =>
    let frac := t.takeWhile isDigit
    whole.length + frac.length != 0 && (t.drop frac.length).isEmpty
  | t => whole.length != 0 && t.isEmpty

/-- What `find_spd` reports: the speed, if there is one, and whether a number was out of range. -/
structure FoundSpd (D : Type) where
  value : Option D
  outOfRange : Bool

/-- The part of `find_spd` after an anchor, for the bytes behind its bracket. -/
def readSpd (behind : Bytes) : FoundSpd D :=
  match memchr 93 behind with
  | none => ⟨none, false⟩
  | some (token, _) =>
    if token.isEmpty || 64 ≤ token.length then ⟨none, false⟩
    else if !checkNumber token then ⟨none, false⟩
    else
      match DoubleOps.strtod (D := D) token with
      | (v, taken, erange) =>
        if taken ≠ token.length || !DoubleOps.isfinite v then ⟨none, false⟩
        else if erange || DoubleOps.lt v kSpdMin || DoubleOps.lt kSpdMax v then ⟨none, true⟩
        else ⟨some v, false⟩

/-- The search loop of `find_spd` from index `pos` on. Each round goes past an anchor, and the fuel
is the length of the payload. -/
def findSpdFrom (payload : Bytes) : ℕ → ℕ → FoundSpd D
  | 0, _ => ⟨none, false⟩
  | fuel + 1, pos =>
    match findAnchor (payload.drop pos) with
    | none => ⟨none, false⟩
    | some skipped =>
      let hit := pos + skipped
      -- The anchor is the tail of another key.
      if 0 < hit && isIdent (charAt payload (hit - 1)) then findSpdFrom payload fuel (hit + 4)
      else readSpd (payload.drop (hit + 4))

/-- `find_spd`. -/
def findSpd (payload : Bytes) : FoundSpd D := findSpdFrom payload (payload.length + 1) 0

end Speed

/-! ## The line -/

/-- The fields of a line. -/
structure ParsedLine (D : Type) where
  module : Module
  bucket : ℕ
  hasSpd : Bool
  spdOutOfRange : Bool
  spd : D
  moduleToken : Bytes

/-- One of the three bracketed fields after the timestamp; `first` says whether it is the first. It
gives back what follows the field. -/
def parseField (first : Bool) (s : Bytes) : Except Reason Bytes :=
  match s with
  | 91 :: s =>
    let digits := s.takeWhile isDigit
    if 20 < digits.length then .error .missingCloseBracket
    else
      match s.drop digits.length with
      | 93 :: after => if digits.isEmpty then .error .missingCloseBracket else .ok after
      | _ => .error .missingCloseBracket
  | _ => .error (if first then .garbagePayload else .missingCloseBracket)

/-- The shortest line with a complete header. -/
def kMinLineLength : ℕ := 47

section Parse

variable {D : Type} [DoubleOps D]

/-- `ParsedLine{}`. -/
def ParsedLine.empty : ParsedLine D :=
  ⟨.radarTrackNodeState, 0, false, false, DoubleOps.ofNat 0, []⟩

/-- `parse_log_line`. -/
def parseLogLine (line : Bytes) : Reason × ParsedLine D :=
  if line.length < kMinLineLength then
    (if line.isEmpty then .tooShort
      else if charAt line 0 != 91 then .missingOpenBracket
      else .tooShort, ParsedLine.empty)
  else if charAt line 0 != 91 then (.missingOpenBracket, ParsedLine.empty)
  else if !checkTimestamp line then (.badTimestamp, ParsedLine.empty)
  else
    match (do
      let s ← parseField true (line.drop (kTsEnd + 1))
      let s ← parseField false s
      parseField false s : Except Reason Bytes) with
    | .error reason => (reason, ParsedLine.empty)
    | .ok s =>
      if !(ascii " BYDA::").isPrefixOf s then (.missingBydaTag, ParsedLine.empty)
      else
        let s := s.drop 7
        let token := s.takeWhile isIdent
        match s.drop token.length with
        | 58 :: 32 :: payload =>
          if token.isEmpty then (.badModuleName, ParsedLine.empty)
          else
            let out : ParsedLine D := { ParsedLine.empty with moduleToken := token }
            match lookupModule token with
            | none => (.unknownModule, out)
            | some module =>
              let out := { out with module := module }
              let year := digit4 (line.drop 1)
              let month := digit2 (line.drop 6)
              let day := digit2 (line.drop 9)
              let hour := digit2 (line.drop 12)
              if month < 1 || 12 < month || day < 1 || 31 < day || 23 < hour then
                (.badTimestamp, out)
              else
                let found := findSpd (D := D) payload
                (.ok, { out with bucket := year * 1000000 + month * 10000 + day * 100 + hour
                                 hasSpd := found.value.isSome
                                 spd := found.value.getD out.spd
                                 spdOutOfRange := found.outOfRange })
        | _ => (.badModuleName, ParsedLine.empty)

end Parse

end LoggerAnalyzer
