import LogDrift.Json.Number

/-! # Passing over JSON values

`skipValue` checks that a text starts with a JSON value and gives the text behind it, whatever the
value and however deeply it nests. Of its numbers and escapes only the form counts.
-/

namespace LogDrift.Json

/-- Scans a word, a number or a string, given its first character and the scanner of escapes.
    `atEnd` is the fault if the text ends inside a number. -/
def scanScalar (escape : (cs : List Char) → Scan 0 Char cs) (atEnd : JsonFault) (first : Char)
    (cs : List Char) : Scan 0 Unit cs :=
  if first = 'n' then scanWord "ull".toList cs
  else if first = 't' then scanWord "rue".toList cs
  else if first = 'f' then scanWord "alse".toList cs
  else if first = '"' then ((scanString escape cs).mapValue fun _ => ()).relax
  else if startsNumber first then (scanNumber atEnd first cs).mapValue fun _ => ()
  else .error .malformed

/-- Scans the key of a member, with the given scanner of escapes, and its colon. -/
def scanKey (escape : (cs : List Char) → Scan 0 Char cs) (cs : List Char) :
    Scan 1 (List Char) cs :=
  (scanMark cs).andThen fun c text _ =>
    if c = '"' then scanString escape text else .error .malformed

mutual

/-- Passes over a value. -/
def skipValue (cs : List Char) : Scan 1 Unit cs :=
  (scanMark cs).andThen fun c rest _ =>
    if c = '[' then closingOr ']' () (skipItems rest)
    else if c = '\x7b' then closingOr '\x7d' () (skipMembers rest)
    else scanScalar skipEscape .malformed c rest
termination_by (cs.length, 0)
decreasing_by all_goals simp [Prod.lex_def]; omega

/-- Passes over the items of an array from one item on, and the closing bracket. -/
def skipItems (cs : List Char) : Scan 1 Unit cs :=
  (skipValue cs).andThen fun _ rest _ =>
    (scanItemEnd ']' rest).andThen fun another rest _ =>
      if another then (skipItems rest).relax else .nothing () rest
termination_by (cs.length, 1)
decreasing_by all_goals simp [Prod.lex_def]; try omega

/-- Passes over the members of an object from one member on, and the closing brace. -/
def skipMembers (cs : List Char) : Scan 1 Unit cs :=
  (scanKey skipEscape cs).andThen fun _ rest _ =>
    (scanColon rest).andThen fun _ rest _ =>
      (skipValue rest).andThen fun _ rest _ =>
        (scanItemEnd '\x7d' rest).andThen fun another rest _ =>
          if another then (skipMembers rest).relax else .nothing () rest
termination_by (cs.length, 1)
decreasing_by all_goals simp [Prod.lex_def]; try omega

end

end LogDrift.Json
