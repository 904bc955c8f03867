import LogDrift.Text.Split

/-! # Comparing without regard to case

Simple case folding, restricted to the characters that fold to an ASCII character: the capital
letters A to Z, the long s (U+017F) and the Kelvin sign (U+212A). A pattern of small ASCII letters
meets no other character under the full folding, so for such patterns the two agree. The dotted
capital I and the dotless small i fold to no ASCII letter.
-/

namespace LogDrift.Text

/-- The ASCII character that `c` folds to, or `c` itself if there is none. -/
def foldCase (c : Char) : Char :=
  if c = Char.ofNat 0x17f then 's'
  else if c = Char.ofNat 0x212a then 'k'
  else c.toLower

/-- Whether the folded text is one of the given small-letter words. -/
def isOneOf (table : List String) (cs : List Char) : Bool :=
  table.any fun word => word.toList == cs.map foldCase

/-- Whether some of the given small-letter words occurs in the text, ignoring case. -/
def mentions (table : List String) (cs : List Char) : Bool :=
  table.any fun word => occursIn word.toList (cs.map foldCase)

/-- Small ASCII letters for the capital ones, and all else as it is. -/
def lowerAscii (cs : List Char) : List Char := cs.map Char.toLower

end LogDrift.Text
