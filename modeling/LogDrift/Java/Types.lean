import LogDrift.Java.Parser

/-! # Types, annotations and modifiers

The parts of the grammar that stand in front of what is declared. The parts of a type are not told
apart; its text counts.
-/

namespace LogDrift.Java

open LogDrift.Java.Parser

/-- The words for the types that are no classes. -/
def primitiveTypes : List String :=
  ["boolean", "byte", "char", "short", "int", "long", "float", "double", "void"]

/-- Whether the next token starts an annotation. -/
def atAnnotationMark : Parser Bool := return (← peekText) = "@" && (← peekSecond) ≠ "interface"

/-- The annotations at the front. -/
def annotations (g : Grammar) : Parser (List Tree) := manyWhile atAnnotationMark (g .annotationMark)

/-- An annotation. What stands in its parentheses is not taken apart. -/
def annotationMark : Parser Tree := node .other do
  symbol "@"
  let _ ← separated "." name
  if (← peekText) = "(" then skipParens
  return []

/-- The bounds of a wildcard, or a type. -/
def typeArgument (g : Grammar) : Parser Unit := do
  let _ ← annotations g
  if ← accept "?" then
    if (← accept "extends") || (← accept "super") then
      let _ ← g .type
  else
    let _ ← g .type

/-- The type arguments in angle brackets, which may be left out between them. -/
def typeArguments (g : Grammar) : Parser Unit := do
  symbol "<"
  if !(← accept ">") then
    let _ ← separated "," (typeArgument g)
    symbol ">"

/-- The type parameters of a declaration in angle brackets. -/
def typeParameters (g : Grammar) : Parser Unit := do
  symbol "<"
  let _ ← separated "," do
    let _ ← annotations g
    let _ ← name
    if ← accept "extends" then
      let _ ← separated "&" (g .type)
  symbol ">"

/-- One pair of brackets, annotated or not. -/
def dimension (g : Grammar) : Parser Unit := do
  let _ ← annotations g
  symbol "["
  symbol "]"

/-- The brackets at the front; whether there are any. -/
def dimensions (g : Grammar) : Parser Bool := return !(← many (dimension g)).isEmpty

/-- A class name with type arguments. -/
def className (g : Grammar) : Parser Unit := do
  let _ ← annotations g
  let _ ← name
  if (← peekText) = "<" then typeArguments g

/-- What may stand before the brackets of a type. -/
def elementType (g : Grammar) : Parser Unit := do
  if primitiveTypes.contains (← peekText) then
    let _ ← next
  else
    className g
    let _ ← many (do symbol "."; className g)

/-- A type. -/
def type (g : Grammar) : Parser Tree := node .type do
  let _ ← annotations g
  elementType g
  let _ ← dimensions g
  return []

/-- The words that modify a declaration. -/
def modifierWords : List String :=
  ["public", "private", "protected", "static", "final", "abstract", "native", "synchronized",
    "transient", "volatile", "strictfp", "default"]

/-- What may follow the word that seals a class. -/
def afterSealed : List String :=
  ["class", "interface", "abstract", "public", "private", "protected", "static", "strictfp"]

/-- Whether the next token starts a modifier. -/
def atModifier : Parser Bool := do
  let text ← peekText
  let second ← peekSecond
  if ← atAnnotationMark then return true
  else if text = "synchronized" then return second ≠ "("
  else if text = "sealed" then return afterSealed.contains second
  else if text = "non" then return second = "-"
  else return modifierWords.contains text

/-- One modifier. -/
def modifier (g : Grammar) : Parser (List Tree) := do
  if ← atAnnotationMark then return [← g .annotationMark]
  else if (← next).text = "non" then
    symbol "-"
    symbol "sealed"
  return []

/-- The modifiers at the front, as one node if there are any. -/
def modifiers (g : Grammar) : Parser (List Tree) := do
  let start ← position
  let found ← manyWhile atModifier (modifier g)
  if found.isEmpty then return []
  else return [← finish .modifiers start found.flatten]

end LogDrift.Java
