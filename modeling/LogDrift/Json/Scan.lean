import LogDrift.Error

/-! # Scanning JSON texts

A scanner reads a part of a JSON text from the front and returns what it read with the rest. Its
type says how many characters it reads at least, so scanners can be repeated without counting. They
are put together by `andThen`, which hands the bound on, and by `behind`, which adds a character in
front. What goes wrong is told apart by whether the text ended too early or is malformed where it
went on.
-/

namespace LogDrift.Json

/-- The outcome of scanning a value off the front of `cs`, with at least `n` characters: the value and
    the rest. -/
abbrev Scan (n : Nat) (α : Type) (cs : List Char) :=
  Except JsonFault { r : α × List Char // r.2.length + n ≤ cs.length }

namespace Scan

/-- Scans nothing. -/
def nothing {α : Type} (a : α) (cs : List Char) : Scan 0 α cs := .ok ⟨(a, cs), Nat.le_refl _⟩

/-- Applies a function to what was scanned. -/
def mapValue {α β : Type} {n : Nat} {cs : List Char} (f : α → β) (s : Scan n α cs) :
    Scan n β cs :=
  match s with
  | .error fault => .error fault
  | .ok ⟨(a, rest), h⟩ => .ok ⟨(f a, rest), h⟩

/-- Scans on behind what was scanned. -/
def andThen {α β : Type} {m n : Nat} {cs : List Char} (s : Scan n α cs)
    (next : (a : α) → (rest : List Char) → rest.length + n ≤ cs.length → Scan m β rest) :
    Scan n β cs :=
  match s with
  | .error fault => .error fault
  | .ok ⟨(a, rest), h⟩ =>
    match next a rest h with
    | .error fault => .error fault
    | .ok ⟨(b, behind), h'⟩ => .ok ⟨(b, behind), by simp at h h' ⊢; omega⟩

/-- The outcome for the text with the character in front that was scanned before. -/
def behind {α : Type} {n : Nat} {cs : List Char} (c : Char) (s : Scan n α cs) :
    Scan 1 α (c :: cs) :=
  match s with
  | .error fault => .error fault
  | .ok ⟨r, h⟩ => .ok ⟨r, by simp; omega⟩

/-- The outcome for the text behind the first character, which was scanned along. -/
def inside {α : Type} {c : Char} {cs : List Char} (s : Scan 1 α (c :: cs)) : Scan 0 α cs :=
  match s with
  | .error fault => .error fault
  | .ok ⟨r, h⟩ => .ok ⟨r, by simp at h; omega⟩

/-- Forgets how much was scanned at least. -/
def relax {α : Type} {n : Nat} {cs : List Char} (s : Scan n α cs) : Scan 0 α cs :=
  match s with
  | .error fault => .error fault
  | .ok ⟨r, h⟩ => .ok ⟨r, by omega⟩

/-- The fault of a scan. -/
def fault? {α : Type} {n : Nat} {cs : List Char} : Scan n α cs → Option JsonFault
  | .error fault => some fault
  | .ok _ => none

end Scan

/-! ## Marks -/

/-- The characters that may stand between the parts of a JSON text. -/
def isGap (c : Char) : Bool := c = ' ' || c = '\t' || c = '\n' || c = '\r'

/-- Scans the first character behind the gap. -/
def scanMark (cs : List Char) : Scan 1 Char cs :=
  match cs with
  | [] => .error .truncated
  | c :: cs => if isGap c then (scanMark cs).behind c else (Scan.nothing c cs).behind c

/-- Scans a closing mark, for a list without items, or something else if there is none. -/
def closingOr {α : Type} {n : Nat} {cs : List Char} (closing : Char) (empty : α)
    (other : Scan n α cs) : Scan 0 α cs :=
  match scanMark cs with
  | .ok ⟨(c, rest), h⟩ =>
    if c = closing then .ok ⟨(empty, rest), by simp at h ⊢; omega⟩ else other.relax
  | .error _ => other.relax

/-- Scans what follows an item of a list: a comma, so that another item has to follow, or the closing
    mark; whether it was a comma. -/
def scanItemEnd (closing : Char) (cs : List Char) : Scan 1 Bool cs :=
  (scanMark cs).andThen fun c rest _ =>
    if c = ',' then .nothing true rest
    else if c = closing then .nothing false rest
    else .error .malformed

/-- Scans a colon. -/
def scanColon (cs : List Char) : Scan 1 Unit cs :=
  (scanMark cs).andThen fun c rest _ => if c = ':' then .nothing () rest else .error .malformed

/-- Scans the rest of a word. -/
def scanWord : List Char → (cs : List Char) → Scan 0 Unit cs
  | [], cs => .nothing () cs
  | _ :: _, [] => .error .truncated
  | w :: ws, c :: cs => if w = c then ((scanWord ws cs).behind c).relax else .error .malformed

/-! ## Strings -/

/-- The value of a hexadecimal digit. -/
def hexValue? (c : Char) : Option Nat :=
  if c.isDigit then some (c.toNat - '0'.toNat)
  else if 'a' ≤ c && c ≤ 'f' then some (c.toNat - 'a'.toNat + 10)
  else if 'A' ≤ c && c ≤ 'F' then some (c.toNat - 'A'.toNat + 10)
  else none

/-- Scans four hexadecimal digits. The text counts as ended if fewer than four bytes are left. -/
def scanHex (cs : List Char) : Scan 0 Nat cs :=
  match cs with
  | a :: b :: c :: d :: rest =>
    match hexValue? a, hexValue? b, hexValue? c, hexValue? d with
    | some i, some j, some k, some l =>
      (((((Scan.nothing (((i * 16 + j) * 16 + k) * 16 + l) rest).behind d).behind c).behind
        b).behind a).relax
    | _, _, _, _ => .error .malformed
  | few => .error (if (String.ofList few).utf8ByteSize < 4 then .truncated else .malformed)

/-- The character that a one-letter escape stands for. -/
def simpleEscape? (c : Char) : Option Char :=
  if c = '"' || c = '\\' || c = '/' then some c
  else if c = 'b' then some (Char.ofNat 8)
  else if c = 'f' then some (Char.ofNat 12)
  else if c = 'n' then some '\n'
  else if c = 'r' then some '\r'
  else if c = 't' then some '\t'
  else none

/-- Whether a code unit is the first half of a character outside the basic plane. -/
def isLeadingUnit (n : Nat) : Bool := 0xd800 ≤ n && n ≤ 0xdbff

/-- Whether a code unit is the second half of a character outside the basic plane. -/
def isTrailingUnit (n : Nat) : Bool := 0xdc00 ≤ n && n ≤ 0xdfff

/-- The character that two halves make. -/
def joinUnits (leading trailing : Nat) : Char :=
  Char.ofNat (0x10000 + (leading - 0xd800) * 0x400 + (trailing - 0xdc00))

/-- Scans the second half of a character, written as a numeric escape. -/
def scanTrailingUnit (cs : List Char) : Scan 0 Nat cs :=
  (scanWord "\\u".toList cs).andThen fun _ digits _ =>
    (scanHex digits).andThen fun n rest _ =>
      if isTrailingUnit n then .nothing n rest else .error .malformed

/-- Scans an escape, given the text behind its backslash. A numeric escape has to make a whole
    character, if need be together with a second one. -/
def scanEscape (cs : List Char) : Scan 0 Char cs :=
  match cs with
  | [] => .error .truncated
  | 'u' :: digits =>
    ((scanHex digits).andThen fun n rest _ =>
      if isTrailingUnit n then .error .malformed
      else if isLeadingUnit n then (scanTrailingUnit rest).mapValue (joinUnits n)
      else .nothing (Char.ofNat n) rest).behind 'u' |>.relax
  | c :: rest =>
    match simpleEscape? c with
    | some c' => ((Scan.nothing c' rest).behind c).relax
    | none => .error .malformed

/-- Scans over an escape whose character is of no interest: a numeric escape may be any code
    unit. -/
def skipEscape (cs : List Char) : Scan 0 Char cs :=
  match cs with
  | 'u' :: digits => (((scanHex digits).mapValue Char.ofNat).behind 'u').relax
  | cs => scanEscape cs

/-- Scans a string, given the text behind its opening quote, with the given scanner of escapes. -/
def scanString (escape : (cs : List Char) → Scan 0 Char cs) (cs : List Char) :
    Scan 1 (List Char) cs :=
  match cs with
  | [] => .error .truncated
  | c :: cs =>
    if c = '"' then (Scan.nothing [] cs).behind c
    else if c = '\\' then
      ((escape cs).andThen fun c' rest _ =>
        (scanString escape rest).mapValue (c' :: ·)).behind c
    else if c.toNat < 32 then .error .malformed
    else ((scanString escape cs).mapValue (c :: ·)).behind c
termination_by cs.length
decreasing_by all_goals simp only [List.length_cons] at *; omega

end LogDrift.Json
