import LogDrift.Decimal.Reader
import LogDrift.Json.Skip
import LogDrift.Text.Blank

/-! # Settings

The one setting is the similarity above which two call sites may be versions of each other. It lies
above zero and is at most one; a value of `Settings` keeps that. It is given directly
(`ofThreshold`), by a variable of the environment (`ofVariable`), or by a JSON text (`ofJson`), and
written as JSON again (`toJson`).
-/

namespace LogDrift

/-- Whether a threshold is above zero and at most one. Neither infinity nor what is no number is. -/
def isThreshold (t : Float) : Bool := 0.0 < t && t ≤ 1.0

/-- What the comparison of two versions goes by. -/
structure Settings where
  /-- Sites of at most this similarity are never versions of each other. -/
  threshold : Float
  inRange : isThreshold threshold = true

namespace Settings

/-- The settings that hold unless told otherwise. -/
def standard : Settings := ⟨0.5, by decide⟩

/-- The settings with the given threshold, if it is in range. -/
def ofThreshold (t : Float) : Except Error Settings :=
  if h : isThreshold t = true then .ok ⟨t, h⟩ else .error (.thresholdOutOfRange t)

/-- The settings that a variable of the environment gives: the standard ones if it is unset or
    blank, otherwise its number as the threshold. -/
def ofVariable (value : Option String) : Except Error Settings :=
  match (Text.trim (value.getD "").toList) with
  | [] => .ok standard
  | text =>
    match Decimal.read? text with
    | some t => ofThreshold t
    | none => .error (.thresholdNotNumber (String.ofList text))

/-! ## JSON -/

/-- The name of the member that holds the threshold. -/
def thresholdKey : String := "similarity_threshold"

open Json in
/-- Scans a number as a double, given its first character; one that is too large is malformed. -/
def scanDouble (first : Char) (cs : List Char) : Scan 0 Float cs :=
  (scanNumber .truncated first cs).andThen fun number rest _ =>
    match number.value? with
    | some x => .nothing x rest
    | none => .error .malformed

open Json in
/-- The fault of a word, a number or a string, given its first character, where none was asked for:
    its own if it is not even well formed. -/
def scalarFault (first : Char) (cs : List Char) : JsonFault :=
  let fault? :=
    if startsNumber first then (scanDouble first cs).fault?
    else (scanScalar scanEscape .truncated first cs).fault?
  fault?.getD .mistyped

open Json in
/-- Scans the threshold. -/
def scanThreshold (cs : List Char) : Scan 1 Float cs :=
  (scanMark cs).andThen fun c rest _ =>
    if startsNumber c then scanDouble c rest
    else if c = '[' || c = '\x7b' then .error .mistyped
    else .error (scalarFault c rest)

open Json in
/-- Scans the members of an object from one member on, and the closing brace, given the threshold
    found so far. A threshold that is given twice is a fault; members of other names are passed
    over. -/
def scanMembers (found : Option Float) (cs : List Char) : Scan 1 (Option Float) cs :=
  (scanKey scanEscape cs).andThen fun key afterKey _ =>
    let isThreshold := String.ofList key = thresholdKey
    -- A second threshold is refused by its name, before its value is looked at.
    if isThreshold && found.isSome then .error .mistyped
    else
      (scanColon afterKey).andThen fun _ value _ =>
        let scanned : Scan 1 (Option Float) value :=
          if isThreshold then (scanThreshold value).mapValue some
          else (skipValue value).mapValue fun _ => found
        scanned.andThen fun found rest _ =>
          (scanItemEnd '\x7d' rest).andThen fun another more _ =>
            if another then (scanMembers found more).relax else .nothing found more
termination_by cs.length
decreasing_by omega

open Json in
/-- Scans the items of an array from the threshold on, which has to be the only one, and the closing
    bracket. -/
def scanOnlyItem (cs : List Char) : Scan 1 (Option Float) cs :=
  (scanThreshold cs).andThen fun t rest _ =>
    (scanItemEnd ']' rest).andThen fun another behind _ =>
      if another then .error .malformed else .nothing (some t) behind

open Json in
/-- Scans settings and gives the threshold, if there is one: an object with the threshold as
    a member, or an array with the threshold as its only item. -/
def scanSettings (cs : List Char) : Scan 1 (Option Float) cs :=
  (scanMark cs).andThen fun c rest _ =>
    if c = '\x7b' then closingOr '\x7d' none (scanMembers none rest)
    else if c = '[' then closingOr ']' none (scanOnlyItem rest)
    else .error (scalarFault c rest)

/-- Reads a whole text as settings. -/
def thresholdOfJson (cs : List Char) : Except JsonFault (Option Float) := do
  let ⟨(found, behind), _⟩ ← scanSettings cs
  if behind.all Json.isGap then return found else throw .malformed

/-- The settings that a JSON text gives; a threshold that it leaves out is the standard one. -/
def ofJson (text : String) : Except Error Settings :=
  match thresholdOfJson text.toList with
  | .error fault => .error (.json fault)
  | .ok found => ofThreshold (found.getD standard.threshold)

/-- The settings as a JSON text. -/
def toJson (s : Settings) : String :=
  "\x7b\"" ++ thresholdKey ++ "\":" ++ Decimal.jsonNumber s.threshold ++ "\x7d"

end Settings

end LogDrift
