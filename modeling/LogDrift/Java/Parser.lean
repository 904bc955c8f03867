import LogDrift.Java.Token
import LogDrift.Java.Tree

/-! # Parsing tokens

A parser reads tokens from the front of its input and gives a value, or fails; an alternative
starts over from the same input. Comments are passed over except where they are asked for
(`comments`).

The constructs of the grammar refer to each other through `Goal`s. A grammar is a parser for every
goal, and the parsers of a construct take the grammar that they refer to as an argument;
`Grammar.bounded` ties the two together up to a depth of nesting.
-/

namespace LogDrift.Java

/-- What is left to read. -/
structure Input where
  /-- The whole source text. -/
  source : Array Char
  tokens : List Token
  /-- The offset behind the last token that was read. -/
  last : Nat

/-- A parser that may fail. -/
abbrev Parser := StateT Input Option

namespace Parser

/-- The tokens from the next one on that is no comment. -/
def ahead : Parser (List Token) :=
  return (← get).tokens.dropWhile fun t => t.kind = .comment

/-- The next token. -/
def peek? : Parser (Option Token) := return (← ahead).head?

/-- The text of the next token, or nothing at the end. -/
def peekText : Parser String := return ((← peek?).map (·.text)).getD ""

/-- The text of the token after the next one, or nothing at the end. -/
def peekSecond : Parser String := do
  let rest := (← ahead).drop 1
  return ((rest.dropWhile fun t => t.kind = .comment).head?.map (·.text)).getD ""

/-- Whether the next token is a name. -/
def atName : Parser Bool := return (← peek?).any Token.isName

/-- Reads the next token. -/
def next : Parser Token := do
  match ← ahead with
  | [] => failure
  | t :: rest =>
    modify fun input => { input with tokens := rest, last := t.stop }
    return t

/-- Reads as many tokens as given. -/
def advance : Nat → Parser Unit
  | 0 => return
  | n + 1 => do
    let _ ← next
    advance n

/-- Fails unless a condition holds. -/
def require (condition : Bool) : Parser Unit := if condition then return else failure

/-- Reads a token of the given text. -/
def symbol (text : String) : Parser Unit := do require ((← next).text = text)

/-- Reads a token if it has the given text; whether it had. -/
def accept (text : String) : Parser Bool := do
  if (← peekText) = text then
    let _ ← next
    return true
  else return false

/-- Reads what a parser reads, or nothing where it fails. -/
def optional {α : Type} (p : Parser α) : Parser (Option α) := (some <$> p) <|> return none

/-- Whether a parser would succeed, without reading. -/
def lookahead {α : Type} (p : Parser α) : Parser Bool := fun input =>
  some ((p input).isSome, input)

/-! ## Nodes -/

/-- The offset where the next token starts. -/
def position : Parser Nat := do
  match ← peek? with
  | some t => return t.start
  | none => return (← get).last

/-- A node from an offset up to the last token that was read. -/
def finish (kind : Kind) (start : Nat) (children : List Tree) : Parser Tree := do
  let input ← get
  return .node kind none (String.ofList (input.source.extract start input.last).toList) children

/-- A node around what a parser reads. -/
def node (kind : Kind) (children : Parser (List Tree)) : Parser Tree := do
  let start ← position
  finish kind start (← children)

/-- A node of one token. -/
def leaf (kind : Kind) : Parser Tree := do
  let t ← next
  return .node kind none t.text []

/-- A name. -/
def name : Parser Tree := do
  require (← atName)
  leaf .identifier

/-- The comments in front of the next token. -/
def comments : Parser (List Tree) := do
  let input ← get
  let found := input.tokens.takeWhile fun t => t.kind = .comment
  set { input with tokens := input.tokens.drop found.length }
  return found.map fun t => .node .comment none t.text []

/-! ## Repetition

Every repetition reads a token each time, and a token has at least one character, so the number of
characters left bounds it. -/

/-- The number of characters left. -/
def charsLeft : Parser Nat := do
  let input ← get
  return input.source.size - input.last

/-- Repeats a parser up to `n` times, as long as a condition holds. -/
def repeatWhile {α : Type} (condition : Parser Bool) (p : Parser α) : Nat → Parser (List α)
  | 0 => return []
  | n + 1 => do
    if ← condition then
      let a ← p
      let as ← repeatWhile condition p n
      return a :: as
    else return []

/-- Repeats a parser as long as a condition holds. -/
def manyWhile {α : Type} (condition : Parser Bool) (p : Parser α) : Parser (List α) := do
  repeatWhile condition p (← charsLeft)

/-- Repeats a parser as long as it succeeds. -/
def many {α : Type} (p : Parser α) : Parser (List α) := do
  let rec go : Nat → Parser (List α)
    | 0 => return []
    | n + 1 => do
      match ← optional p with
      | some a => return a :: (← go n)
      | none => return []
  go (← charsLeft)

/-- Goes on from a value as long as a step finds more to read, at most `n` times. -/
def grow {α : Type} (step : α → Parser (Option α)) : Nat → α → Parser α
  | 0, a => return a
  | n + 1, a => do
    match ← step a with
    | some b => grow step n b
    | none => return a

/-- Reads values with a separator between them. -/
def separated {α : Type} (separator : String) (p : Parser α) : Parser (List α) := do
  let first ← p
  let more ← manyWhile (return (← peekText) = separator) (do symbol separator; p)
  return first :: more

/-- Reads nodes up to a closing symbol, which is read too. A separator may stand behind each node;
    comments are nodes of their own. -/
def listUntil (closing separator : String) (p : Parser Tree) : Parser (List Tree) := do
  let items ← manyWhile
    (return (← peekText) ≠ closing)
    (do
      let before ← comments
      let item ← p
      let behind ← comments
      if separator ≠ "" then
        let _ ← accept separator
      return before ++ item :: behind)
  let rest ← comments
  symbol closing
  return items.flatten ++ rest

/-- How many of the tokens belong to the parentheses that the first of them opens. -/
def countParens (depth : Nat) : List Token → Option Nat
  | [] => none
  | t :: rest =>
    if t.kind = .symbol && t.text = "(" then (countParens (depth + 1) rest).map (· + 1)
    else if t.kind = .symbol && t.text = ")" then
      if depth ≤ 1 then some 1 else (countParens (depth - 1) rest).map (· + 1)
    else (countParens depth rest).map (· + 1)

/-- The text of the token behind the parentheses that the next token opens, or nothing if there is
    none. -/
def textBehindParens : Parser String := do
  let tokens ← ahead
  let behind := tokens.drop ((countParens 0 tokens).getD tokens.length)
  return ((behind.find? fun t => t.kind ≠ .comment).map (·.text)).getD ""

/-- Reads parentheses and all that stands between them. -/
def skipParens : Parser Unit := do
  symbol "("
  let input ← get
  match countParens 1 input.tokens with
  | some n =>
    let last := ((input.tokens.take n).getLast?.map (·.stop)).getD input.last
    set { input with tokens := input.tokens.drop n, last := last }
  | none => failure

end Parser

/-- The constructs that refer to each other. -/
inductive Goal where
  | type
  | annotationMark
  | expression
  /-- An expression that is no assignment and does not start with a lambda. -/
  | conditional
  /-- An expression of operators that bind at least as tightly as the given level. -/
  | operators (level : Nat)
  | unary
  /-- A value or a list of values in braces. -/
  | initialiser
  | pattern
  | block
  | statement
  /-- The body of a class, in braces. -/
  | classBody
  /-- One of the declarations in such a body. -/
  | member

/-- A parser for every goal. -/
abbrev Grammar := Goal → Parser Tree

/-- The grammar made by the parsers of one level, nested up to a depth. -/
def Grammar.bounded (level : Grammar → Grammar) : Nat → Grammar
  | 0 => fun _ => failure
  | depth + 1 => level (Grammar.bounded level depth)

end LogDrift.Java
