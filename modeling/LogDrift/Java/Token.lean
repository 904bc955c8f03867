import LogDrift.Text.Comment
import LogDrift.Text.Literal

/-! # Tokens of Java source

`Token.lex` cuts a source text into tokens, comments among them, each with its place in the text.
A closing angle bracket is always a token of its own, so that type arguments may end in several of
them; operators that start with one are put together where an operator is wanted. Characters beyond
ASCII count as letters.
-/

namespace LogDrift.Java

/-- The class of a token. -/
inductive TokenKind where
  /-- A name or a reserved word. -/
  | word
  | number
  /-- A string, a text block or a character. -/
  | text
  | symbol
  | comment
deriving DecidableEq, Repr

/-- A token and its place: the offsets of its first character and behind its last one. -/
structure Token where
  kind : TokenKind
  text : String
  start : Nat
  stop : Nat

namespace Token

/-- The words that are no names. -/
def reservedWords : List String :=
  ["abstract", "assert", "boolean", "break", "byte", "case", "catch", "char", "class", "const",
    "continue", "default", "do", "double", "else", "enum", "extends", "final", "finally", "float",
    "for", "goto", "if", "implements", "import", "instanceof", "int", "interface", "long",
    "native", "new", "package", "private", "protected", "public", "return", "short", "static",
    "strictfp", "super", "switch", "synchronized", "this", "throw", "throws", "transient", "try",
    "void", "volatile", "while", "true", "false", "null"]

/-- Whether a token is a name. -/
def isName (t : Token) : Bool := t.kind = .word && !reservedWords.contains t.text

/-- The symbols of more than one character, longer ones before their beginnings. -/
def longSymbols : List (List Char) :=
  ["...", "<<=", "->", "::", "++", "--", "&&", "||", "==", "!=", "<=", "+=", "-=", "*=", "/=",
    "%=", "&=", "|=", "^=", "<<"].map String.toList

/-- The symbols of one character. -/
def shortSymbols : List Char := "()[];,.@?:=<>+-*/%&|^!~\x7b\x7d".toList

/-- Whether a character may stand between tokens. -/
def isLayout (c : Char) : Bool := c = ' ' || ('\t' ≤ c && c ≤ '\r')

/-- Whether a character may stand in a name. -/
def isNameChar (c : Char) : Bool := c.isAlphanum || c = '_' || c = '$' || 128 ≤ c.toNat

/-- Whether a character may stand in a number behind its first digit. -/
def isNumberChar (c : Char) : Bool := isNameChar c || c = '.'

/-- Whether a character marks the exponent of a number, which may have a sign. -/
def isExponentMark (hex : Bool) (c : Char) : Bool :=
  if hex then c = 'p' || c = 'P' else c = 'e' || c = 'E'

/-- Cuts the text after the first character of a number behind the number. A sign belongs to the
    number right behind the mark of an exponent. -/
def numberBody (hex : Bool) : List Char → List Char × List Char
  | [] => ([], [])
  | [c] => if isNumberChar c then ([c], []) else ([], [c])
  | c :: sign :: cs =>
    if isExponentMark hex c && (sign = '+' || sign = '-') then
      (numberBody hex cs).map (c :: sign :: ·) id
    else if isNumberChar c then (numberBody hex (sign :: cs)).map (c :: ·) id
    else ([], c :: sign :: cs)

/-- The length of the symbol at the front of a text. -/
def symbolLength? (cs : List Char) : Option Nat :=
  match longSymbols.find? (·.isPrefixOf cs) with
  | some symbol => some symbol.length
  | none => cs.head?.bind fun c => if shortSymbols.contains c then some 1 else none

/-- Cuts the text after the first character `c` of a token behind the token, whose class is given as
    well. -/
def body? (c : Char) (cs : List Char) : Option (TokenKind × List Char × List Char) :=
  if Text.isQuote c then some (.text, Text.literalBody c cs)
  -- A point starts a number only in front of a digit.
  else if c.isDigit || (c = '.' && cs.head?.any Char.isDigit) then
    some (.number, numberBody (c = '0' && cs.head?.any fun x => x = 'x' || x = 'X') cs)
  else if isNameChar c then some (.word, cs.takeWhile isNameChar, cs.dropWhile isNameChar)
  else match if c = '/' then Text.commentBody? cs else none with
    | some comment => some (.comment, comment)
    | none => (symbolLength? (c :: cs)).map fun n => (.symbol, cs.take (n - 1), cs.drop (n - 1))

theorem numberBody_append (hex : Bool) (cs : List Char) :
    (numberBody hex cs).1 ++ (numberBody hex cs).2 = cs := by
  fun_induction numberBody hex cs <;> simp_all

/-- A token and what follows it are the whole text. -/
theorem body?_append {c : Char} {cs body rest : List Char} {kind : TokenKind}
    (h : body? c cs = some (kind, body, rest)) : body ++ rest = cs := by
  -- One case for each class of tokens, in the order in which they are tried.
  unfold body? at h
  split at h
  · obtain ⟨_, h⟩ := Prod.mk.inj (Option.some.inj h)
    simpa [h] using Text.literalBody_append c cs
  split at h
  · obtain ⟨_, h⟩ := Prod.mk.inj (Option.some.inj h)
    simpa [h] using numberBody_append
      (c = '0' && cs.head?.any fun x => x = 'x' || x = 'X') cs
  split at h
  · cases h
    simp
  split at h
  · next comment hc =>
    cases h
    split at hc
    · exact Text.commentBody?_append hc
    · cases hc
  · obtain ⟨n, _, h⟩ := Option.map_eq_some_iff.1 h
    cases h
    simp

/-- Cuts a text into tokens, given the offset of its first character. There is no result if some
    character belongs to no token. -/
def lexFrom (offset : Nat) (cs : List Char) : Option (List Token) :=
  match cs with
  | [] => some []
  | c :: cs =>
    if isLayout c then lexFrom (offset + 1) cs
    else match _h : body? c cs with
      | none => none
      | some (kind, body, rest) =>
        let stop := offset + 1 + body.length
        (lexFrom stop rest).map (⟨kind, String.ofList (c :: body), offset, stop⟩ :: ·)
termination_by cs.length
decreasing_by
  · simp
  · have h := congrArg List.length (body?_append _h)
    simp only [List.length_append, List.length_cons] at h ⊢
    omega

/-- Cuts a text into tokens. -/
def lex (cs : List Char) : Option (List Token) := lexFrom 0 cs

end Token

end LogDrift.Java
