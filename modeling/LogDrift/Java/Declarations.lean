import LogDrift.Java.Statements

/-! # Declarations

Classes and what they declare. Methods and their parameters are taken apart; of other declarations
only what holds expressions, statements or classes is kept.
-/

namespace LogDrift.Java

open LogDrift.Java.Parser

/-- Whether the word and what follows it declare a record. -/
def atRecord : Parser Bool := do
  match ← ahead with
  | word :: recordName :: opening :: _ =>
    return word.text = "record" && recordName.isName
      && (opening.text = "(" || opening.text = "<")
  | _ => return false

/-- Whether the declaration of a class of any sort is at the front, its modifiers left aside. -/
def atClass : Parser Bool := do
  let text ← peekText
  if ["class", "interface", "enum"].contains text then return true
  else if text = "@" then return (← peekSecond) = "interface"
  else atRecord

/-! ## Methods and fields -/

/-- A parameter of a method. -/
def parameter (g : Grammar) : Parser Tree := do
  let start ← position
  let words ← modifiers g
  let declared ← g .type
  let marks ← annotations g
  if ← accept "..." then
    let named ← declarator g
    finish .spreadParameter start (words ++ declared :: marks ++ [named])
  else
    let owner ← many (do let _ ← name; symbol ".")
    if !owner.isEmpty || (← peekText) = "this" then
      symbol "this"
      finish .other start []
    else
      let named ← name
      let _ ← dimensions g
      finish .formalParameter start
        (words ++ [declared.withRole .type, named.withRole .name])

/-- The parameters of a method, in parentheses. -/
def formalParameters (g : Grammar) : Parser Tree := node .formalParameters do
  symbol "("
  listUntil ")" "," (parameter g)

/-- The exceptions that a method throws. -/
def throwsClause (g : Grammar) : Parser Unit := do
  if ← accept "throws" then
    let _ ← separated "," (g .type)

/-- The value that an element of an annotation type has unless told otherwise. -/
def defaultValue (g : Grammar) : Parser (List Tree) := do
  if ← accept "default" then
    if ← atAnnotationMark then return [← g .annotationMark] else return [← g .initialiser]
  else return []

/-- A method, from its name on. -/
def methodFrom (g : Grammar) (start : Nat) (words : List Tree) (declared : Tree) :
    Parser Tree := do
  let named ← name
  let parameters ← formalParameters g
  let _ ← dimensions g
  throwsClause g
  let value ← defaultValue g
  let body ← if (← peekText) = "\x7b" then (do return [(← g .block).withRole .body])
    else (do symbol ";"; return [])
  finish .methodDeclaration start
    (words ++ [declared.withRole .type, named.withRole .name, parameters.withRole .parameters]
      ++ value ++ body)

/-- A constructor, from its name on. That of a record may leave its parameters out. -/
def constructorFrom (g : Grammar) (start : Nat) (words : List Tree) : Parser Tree := do
  let _ ← name
  if (← peekText) = "(" then skipParens
  throwsClause g
  finish .other start (words ++ [← g .block])

/-- The fields of one declaration, from the first name on. -/
def fieldsFrom (g : Grammar) (start : Nat) (words : List Tree) (declared : Tree) :
    Parser Tree := do
  let declarators ← separated "," (declarator g)
  symbol ";"
  finish .other start (words ++ declared :: declarators)

/-- A method, a constructor or fields, from what follows the modifiers on. -/
def plainMemberFrom (g : Grammar) (start : Nat) (words : List Tree) : Parser Tree := do
  if (← peekText) = "<" then typeParameters g
  let marks ← annotations g
  let words := words ++ marks
  let second ← peekSecond
  -- A name without a type in front is that of a constructor.
  if (← atName) && (second = "(" || second = "\x7b") then constructorFrom g start words
  else
    let declared ← g .type
    if (← peekSecond) = "(" then methodFrom g start words declared
    else fieldsFrom g start words declared

/-! ## Classes -/

/-- The types behind a word of the header of a class. -/
def headerTypes (g : Grammar) (word : String) : Parser Unit := do
  if ← accept word then
    let _ ← separated "," (g .type)

/-- The header of a class behind its name. -/
def classHeader (g : Grammar) : Parser Unit := do
  if (← peekText) = "<" then typeParameters g
  if (← peekText) = "(" then skipParens
  headerTypes g "extends"
  headerTypes g "implements"
  headerTypes g "permits"

/-- A constant of an enumeration, with the body of its own class if it has one. -/
def enumConstant (g : Grammar) : Parser Tree := node .other do
  let marks ← annotations g
  let _ ← name
  let arguments ← if (← peekText) = "(" then (do return [← argumentList g]) else pure []
  let body ← if (← peekText) = "\x7b" then (do return [← g .classBody]) else pure []
  let _ ← accept ","
  return marks ++ arguments ++ body

/-- The declaration of a class of any sort, from what follows the modifiers on. -/
def classFrom (g : Grammar) (start : Nat) (words : List Tree) : Parser Tree := do
  let _ ← accept "@"
  let sort := (← next).text
  let named ← name
  classHeader g
  if sort = "class" then
    let body ← g .classBody
    finish .classDeclaration start (words ++ [named.withRole .name, body.withRole .body])
  else
    let body ← node .other do
      symbol "\x7b"
      let constants ← if sort = "enum" then
          manyWhile (return !([";", "\x7d"].contains (← peekText))) (enumConstant g)
        else pure []
      return constants ++ (← listUntil "\x7d" "" (g .member))
    finish .other start (words ++ [named.withRole .name, body])

/-- The body of a class. -/
def classBody (g : Grammar) : Parser Tree := node .classBody do
  symbol "\x7b"
  listUntil "\x7d" "" (g .member)

/-- One declaration in the body of a class. -/
def classMember (g : Grammar) : Parser Tree := do
  let text ← peekText
  if text = ";" then leaf .other
  else if text = "\x7b" then g .block
  else if text = "static" && (← peekSecond) = "\x7b" then
    node .other do
      symbol "static"
      return [← g .block]
  else
    let start ← position
    let words ← modifiers g
    if ← atClass then classFrom g start words else plainMemberFrom g start words

/-- Whether the declaration of a class of any sort is at the front. -/
def atClassDeclaration (g : Grammar) : Parser Bool := lookahead do
  let _ ← modifiers g
  require (← atClass)

/-- The declaration of a class of any sort. -/
def classDeclaration (g : Grammar) : Parser Tree := do
  let start ← position
  classFrom g start (← modifiers g)

/-- Any statement. -/
def statement (g : Grammar) : Parser Tree := do
  if ← atClassDeclaration g then classDeclaration g else plainStatement g

end LogDrift.Java
