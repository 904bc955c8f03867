import LogDrift.Text.CharRange

/-! # Blank characters

The characters with the Unicode property `White_Space`, and the operations that treat them as
layout: `trim` and `removeBlanks`. Neither the zero-width space nor the byte order mark is blank.
-/

namespace LogDrift.Text

/-- The characters with the property `White_Space`. -/
def blankRanges : CharRanges := [
  (0x9, 0xd), (0x20, 0x20), (0x85, 0x85), (0xa0, 0xa0),
  (0x1680, 0x1680), (0x2000, 0x200a), (0x2028, 0x2029), (0x202f, 0x202f),
  (0x205f, 0x205f), (0x3000, 0x3000)]

/-- Whether a character is layout. -/
def isBlank (c : Char) : Bool := blankRanges.contains c

/-- Drops the characters at the end that satisfy `p`. -/
def dropEndWhile (p : Char → Bool) (cs : List Char) : List Char :=
  (cs.reverse.dropWhile p).reverse

/-- Drops the blanks at both ends. -/
def trim (cs : List Char) : List Char :=
  dropEndWhile isBlank (cs.dropWhile isBlank)

/-- Drops every blank, wherever it stands. -/
def removeBlanks (cs : List Char) : List Char :=
  cs.filter fun c => !isBlank c

end LogDrift.Text
