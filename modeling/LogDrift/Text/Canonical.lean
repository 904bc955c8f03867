import LogDrift.Text.Blank
import LogDrift.Text.Comment
import LogDrift.Text.Literal
import LogDrift.Text.Word

/-! # Canonical text of a piece of program text

Two calls that differ only in layout have one canonical text. A text is read as a list of tokens:
literals and single characters, which are kept as they are, and layout (blanks and comments), which
is dropped, save that one space stays where it kept two word characters apart.

`Token.scan` reads a text, `Token.render` writes tokens, and `canonicalText` is the one after the
other. A text without any token of its own is its own canonical text, without blanks at the ends.
-/

namespace LogDrift.Text

/-- What a program text is made of. -/
inductive Token where
  /-- Blanks or one comment. -/
  | layout
  /-- One literal, or one character outside literals and comments. -/
  | solid (text : List Char)
deriving DecidableEq

/-- Reads a text into tokens. -/
def Token.scan : List Char → List Token
  | [] => []
  | c :: cs =>
    if isQuote c then
      .solid (c :: (literalBody c cs).1) :: Token.scan (literalBody c cs).2
    else if c = '/' then
      match _h : commentBody? cs with
      | some (_, rest) => .layout :: Token.scan rest
      | none => .solid [c] :: Token.scan cs
    else if isBlank c then .layout :: Token.scan cs
    else .solid [c] :: Token.scan cs
termination_by cs => cs.length
decreasing_by
  · exact Nat.lt_succ_of_le (length_afterLiteral_le c cs)
  · exact Nat.lt_succ_of_lt (length_lt_of_commentBody? _h)
  all_goals simp

/-- Whether layout between the two characters has to be kept. -/
def keepsApart (before after : Option Char) : Bool :=
  before.any isWordChar && after.any isWordChar

/-- Writes tokens, where `before` is the character written last and `gap` tells whether layout came
    after it. -/
def Token.renderFrom (before : Option Char) (gap : Bool) : List Token → List Char
  | [] => []
  | .layout :: tokens => Token.renderFrom before true tokens
  | .solid text :: tokens =>
    (if gap && keepsApart before text.head? then [' '] else []) ++ text
      ++ Token.renderFrom (text.getLast?.or before) false tokens

/-- Writes tokens from the start of a text. -/
def Token.render (tokens : List Token) : List Char := Token.renderFrom none false tokens

/-- The canonical form of a text. -/
def canonical (cs : List Char) : List Char :=
  let text := Token.render (Token.scan cs)
  if text.isEmpty then trim cs else text

/-- The canonical form of a text. -/
def canonicalText (source : String) : String := String.ofList (canonical source.toList)

end LogDrift.Text
