import LogDrift.Java.Expressions

/-! # Statements

A statement that starts with neither a word of its own nor a brace is a declaration of local
variables if a type and a name are at its front, and an expression otherwise. Declarations of local
classes are not among the statements here.
-/

namespace LogDrift.Java

open LogDrift.Java.Parser

/-! ## Local variables -/

/-- A variable and its value, if it is given one. -/
def declarator (g : Grammar) : Parser Tree := node .variableDeclarator do
  let declared ← name
  let _ ← dimensions g
  if ← accept "=" then return [declared, ← g .initialiser] else return [declared]

/-- What may follow a variable that is declared. -/
def afterVariable : List String := ["=", ";", ","]

/-- Whether a declaration is at the front: a type, and a variable with one of the given texts
    behind it. -/
def atDeclaration (g : Grammar) (behind : List String) : Parser Bool := lookahead do
  let _ ← modifiers g
  let _ ← g .type
  let _ ← name
  let _ ← dimensions g
  require (behind.contains (← peekText))

/-- The declaration of variables, without what ends it. -/
def variableParts (g : Grammar) : Parser (List Tree) := do
  let words ← modifiers g
  let declared ← g .type
  let declarators ← separated "," (declarator g)
  return words ++ declared :: declarators

/-- The declaration of local variables. -/
def localVariables (g : Grammar) : Parser Tree := node .other do
  let parts ← variableParts g
  symbol ";"
  return parts

/-! ## Statements with a word of their own -/

/-- Statements in braces. -/
def block (g : Grammar) : Parser Tree := node .block do
  symbol "\x7b"
  listUntil "\x7d" "" (g .statement)

/-- A statement of a word, a condition and a body. -/
def conditioned (g : Grammar) (word : String) : Parser (List Tree) := do
  symbol word
  let condition ← parenthesized g
  return [condition, ← g .statement]

def ifStatement (g : Grammar) : Parser Tree := node .other do
  let parts ← conditioned g "if"
  if ← accept "else" then return parts ++ [← g .statement] else return parts

def doStatement (g : Grammar) : Parser Tree := node .other do
  symbol "do"
  let body ← g .statement
  symbol "while"
  let condition ← parenthesized g
  symbol ";"
  return [body, condition]

/-- Expressions up to a closing symbol, which is read too. -/
def expressionsUntil (g : Grammar) (closing : String) : Parser (List Tree) :=
  listUntil closing "," (g .expression)

/-- The header of a loop over the elements of a collection. -/
def eachHeader (g : Grammar) : Parser (List Tree) := do
  let words ← modifiers g
  let declared ← g .type
  let _ ← name
  let _ ← dimensions g
  symbol ":"
  let elements ← g .expression
  symbol ")"
  return words ++ [declared, elements]

/-- The header of a loop with a start, a condition and a step. -/
def stepHeader (g : Grammar) : Parser (List Tree) := do
  let initial ← if ← atDeclaration g afterVariable then (do return [← localVariables g])
    else expressionsUntil g ";"
  let condition ← expressionsUntil g ";"
  let steps ← expressionsUntil g ")"
  return initial ++ condition ++ steps

def forStatement (g : Grammar) : Parser Tree := node .other do
  symbol "for"
  symbol "("
  let header ← if ← atDeclaration g [":"] then eachHeader g else stepHeader g
  return header ++ [← g .statement]

/-- What a statement opens and closes itself: a new variable, or one that exists. -/
def resource (g : Grammar) : Parser Tree := do
  if ← atDeclaration g ["="] then node .other (variableParts g) else g .expression

/-- What is done when an exception of one of the given types arrives. -/
def catchClause (g : Grammar) : Parser Tree := node .other do
  symbol "catch"
  symbol "("
  let words ← modifiers g
  let types ← separated "|" (g .type)
  let _ ← name
  symbol ")"
  return words ++ types ++ [← g .block]

def tryStatement (g : Grammar) : Parser Tree := node .other do
  symbol "try"
  let resources ← if ← accept "(" then listUntil ")" ";" (resource g) else pure []
  let body ← g .block
  let catches ← manyWhile (return (← peekText) = "catch") (catchClause g)
  let last ← if ← accept "finally" then (do return [← g .block]) else pure []
  return resources ++ body :: catches ++ last

def synchronizedStatement (g : Grammar) : Parser Tree := node .other do
  symbol "synchronized"
  let lock ← parenthesized g
  return [lock, ← g .block]

/-- A word with a value behind it, or without one. -/
def valueStatement (g : Grammar) : Parser Tree := node .other do
  let _ ← next
  expressionsUntil g ";"

def assertStatement (g : Grammar) : Parser Tree := node .other do
  symbol "assert"
  let condition ← g .expression
  let detail ← if ← accept ":" then (do return [← g .expression]) else pure []
  symbol ";"
  return condition :: detail

def labeledStatement (g : Grammar) : Parser Tree := node .other do
  let label ← name
  symbol ":"
  return [label, ← g .statement]

/-- What follows a name at the start of an expression or a declaration, so that the name is no
    word of its own. -/
def afterPlainName : List String :=
  [".", "=", "[", "::", "++", "--"] ++ assignmentOperators

/-- A statement that declares no class. -/
def plainStatement (g : Grammar) : Parser Tree := do
  let text ← peekText
  let second ← peekSecond
  if text = "\x7b" then g .block
  else if text = ";" then leaf .other
  else if text = "if" then ifStatement g
  else if text = "while" then node .other (conditioned g "while")
  else if text = "do" then doStatement g
  else if text = "for" then forStatement g
  else if text = "try" then tryStatement g
  else if text = "switch" then switchBlock g
  else if text = "synchronized" then synchronizedStatement g
  else if ["return", "throw", "break", "continue"].contains text then valueStatement g
  else if text = "assert" then assertStatement g
  else if (← atName) && second = ":" then labeledStatement g
  -- The word is reserved only where a value can follow it.
  else if text = "yield" && !afterPlainName.contains second then valueStatement g
  else if ← atDeclaration g afterVariable then localVariables g
  else expressionStatement g

end LogDrift.Java
