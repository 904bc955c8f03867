import LogDrift.Java.Types

/-! # Expressions

Operators are read by level, from the loosest to the tightest, and associate to the left. In front
of a parenthesis it is settled by what follows whether it opens the parameters of a lambda, a cast
or an expression: parameters are followed by an arrow, and a cast to a class type by something that
starts an operand and has no sign.
-/

namespace LogDrift.Java

open LogDrift.Java.Parser

/-! ## Operators -/

/-- The binary operators by level, the loosest first. -/
def operatorLevels : List (List String) :=
  [["||"], ["&&"], ["|"], ["^"], ["&"], ["==", "!="], ["<", ">", "<=", ">=", "instanceof"],
    ["<<", ">>", ">>>"], ["+", "-"], ["*", "/", "%"]]

/-- The level of a binary operator. -/
def operatorLevel? (operator : String) : Option Nat :=
  operatorLevels.findIdx? fun level => level.contains operator

/-- The operators that assign. -/
def assignmentOperators : List String :=
  ["=", "+=", "-=", "*=", "/=", "%=", "&=", "|=", "^=", "<<=", ">>=", ">>>="]

/-- The operators in front of an operand. -/
def signs : List String := ["+", "-", "++", "--", "!", "~"]

/-- Puts an operator together from the closing angle brackets at the front, at most three that touch
    each other, and an equals sign that touches the last; with the number of tokens. -/
def joinAngles (text : String) (count stop : Nat) : List Token → String × Nat
  | [] => (text, count)
  | t :: rest =>
    if t.start ≠ stop then (text, count)
    else if t.text = "=" then (text ++ "=", count + 1)
    else if t.text = ">" && count < 3 then joinAngles (text ++ ">") (count + 1) t.stop rest
    else (text, count)

/-- The operator at the front, with the number of its tokens. -/
def operatorAhead? : Parser (Option (String × Nat)) := do
  match ← ahead with
  | [] => return none
  | t :: rest =>
    if t.text = ">" then return some (joinAngles ">" 1 t.stop rest)
    else return some (t.text, 1)

/-! ## What a parenthesis opens -/

/-- Whether a lambda is at the front: a name or parentheses, and an arrow. -/
def atLambda : Parser Bool := do
  if ← atName then return (← peekSecond) = "->"
  else if (← peekText) = "(" then return (← textBehindParens) = "->"
  else return false

/-- The words that start an operand. -/
def operandWords : List String :=
  ["this", "super", "new", "switch", "true", "false", "null"] ++ primitiveTypes

/-- Whether an operand without a sign is at the front. -/
def atOperand : Parser Bool := do
  match ← peek? with
  | none => return false
  | some t =>
    return t.isName || t.kind = .number || t.kind = .text || operandWords.contains t.text
      || t.text = "(" || t.text = "!" || t.text = "~"

/-- The type of a cast in its parentheses, or several types that are all meant. -/
def castTypes (g : Grammar) : Parser (List Tree) := do
  symbol "("
  let types ← separated "&" (g .type)
  symbol ")"
  return types

/-- Whether a cast is at the front. Only a cast to a primitive type may have an operand with
    a sign. -/
def atCast (g : Grammar) : Parser Bool := lookahead do
  let isPrimitive := primitiveTypes.contains (← peekSecond)
  let _ ← castTypes g
  let isSigned := signs.contains (← peekText)
  require ((← atOperand) || (isPrimitive && isSigned))

/-- Whether a class name with type arguments is at the front. -/
def startsGeneric : List Token → Bool
  | n :: dot :: rest =>
    n.isName && (dot.text = "<" || (dot.text = "." && startsGeneric rest))
  | _ => false

/-- Whether a reference to a member of a type with type arguments is at the front. -/
def atGenericReference (g : Grammar) : Parser Bool := do
  if startsGeneric (← ahead) then
    lookahead do
      let _ ← g .type
      require ((← peekText) = "::")
  else return false

/-! ## Parts of expressions -/

/-- An expression in parentheses. -/
def parenthesized (g : Grammar) : Parser Tree := node .parenthesized do
  symbol "("
  listUntil ")" "" (g .expression)

/-- The arguments of a call, in parentheses. -/
def argumentList (g : Grammar) : Parser Tree := node .argumentList do
  symbol "("
  listUntil ")" "," (g .expression)

/-- The arguments of an invocation that starts at an offset. -/
def invocation (g : Grammar) (start : Nat) (callee : List Tree) : Parser Tree := do
  let arguments ← argumentList g
  finish .methodInvocation start (callee ++ [arguments.withRole .arguments])

/-- A lambda. Its parameters are not taken apart. -/
def lambda (g : Grammar) : Parser Tree := node .other do
  if (← peekText) = "(" then skipParens
  else
    let _ ← next
  symbol "->"
  if (← peekText) = "\x7b" then return [← g .block] else return [← g .expression]

/-- Values in braces. -/
def arrayInitialiser (g : Grammar) : Parser Tree := node .other do
  symbol "\x7b"
  listUntil "\x7d" "," (g .initialiser)

/-- A value, or values in braces. -/
def initialiser (g : Grammar) : Parser Tree := do
  if (← peekText) = "\x7b" then arrayInitialiser g else g .expression

/-- The length of one dimension of a new array, in brackets, if it is given. -/
def arrayLength (g : Grammar) : Parser (List Tree) := do
  let _ ← annotations g
  symbol "["
  if ← accept "]" then return []
  else
    let length ← g .expression
    symbol "]"
    return [length]

/-- A new object, with the body of its own class if it has one, or a new array. `outer` is what the
    object is made inside of. -/
def creation (g : Grammar) (start : Nat) (outer : List Tree) : Parser Tree := do
  symbol "new"
  let _ ← annotations g
  if (← peekText) = "<" then typeArguments g
  let made ← node .type (do elementType g; return [])
  if (← peekText) = "(" then
    let arguments ← argumentList g
    let body ← if (← peekText) = "\x7b" then (do return [← g .classBody]) else pure []
    finish .other start (outer ++ [made, arguments] ++ body)
  else
    let lengths ← manyWhile (return ["[", "@"].contains (← peekText)) (arrayLength g)
    let values ← if (← peekText) = "\x7b" then (do return [← arrayInitialiser g]) else pure []
    finish .other start (made :: lengths.flatten ++ values)

/-! ## Selectors -/

/-- A member of `base`, by its name: a call of it if arguments follow, a field if not. -/
def member (g : Grammar) (start : Nat) (base : Tree) : Parser Tree := do
  let object := base.withRole .object
  if (← peekText) = "<" then typeArguments g
  let selected := (← name).withRole .name
  if (← peekText) = "(" then invocation g start [object, selected]
  else finish .fieldAccess start [object, selected]

/-- What stands behind a dot after `base`. -/
def dotSelector (g : Grammar) (start : Nat) (base : Tree) : Parser Tree := do
  match ← peek? with
  | none => failure
  | some t =>
    if t.text = "new" then creation g start [base]
    else if t.text = "class" || t.kind = .text then
      let _ ← next
      finish .other start [base]
    else if t.text = "this" then
      let _ ← next
      finish .fieldAccess start [base]
    else if t.text = "super" then
      let _ ← next
      -- In `A.super.f()` the object is `A`, and `super` belongs to no node.
      if ← accept "." then member g start base
      else if (← peekText) = "(" then finish .other start [base, ← argumentList g]
      else finish .other start [base]
    else member g start base

/-- The empty brackets behind a class name, and a member of that array type. -/
def bracketSelector (g : Grammar) (start : Nat) (base : Tree) : Parser Tree := do
  if (← peekSecond) = "]" then
    let _ ← dimensions g
    finish .other start [base]
  else
    symbol "["
    let index ← g .expression
    symbol "]"
    finish .arrayAccess start [base, index]

/-- The function that a reference behind `base` names. -/
def referenceSelector (g : Grammar) (start : Nat) (base : Tree) : Parser Tree := do
  symbol "::"
  if (← peekText) = "<" then typeArguments g
  if !(← accept "new") then
    let _ ← name
  finish .other start [base]

/-- One more selector behind `base`, if there is one. -/
def selector? (g : Grammar) (start : Nat) (base : Tree) : Parser (Option Tree) := do
  let text ← peekText
  if text = "." then
    symbol "."
    some <$> dotSelector g start base
  else if text = "[" then some <$> bracketSelector g start base
  else if text = "::" then some <$> referenceSelector g start base
  else if text = "++" || text = "--" then
    let _ ← next
    some <$> finish .other start [base]
  else return none

/-! ## Switches -/

/-- A pattern: a type with a name, or a record with patterns for its parts. -/
def pattern (g : Grammar) : Parser Tree := node .other do
  let words ← modifiers g
  let matched ← g .type
  let parts ← if ← accept "(" then listUntil ")" "," (g .pattern) else pure []
  if (← atName) && (← peekText) ≠ "when" then
    let _ ← next
  return words ++ matched :: parts

/-- Whether a pattern, and no mere value, is at the front. -/
def atPattern (g : Grammar) : Parser Bool := lookahead do
  let _ ← modifiers g
  let _ ← g .type
  require ((← peekText) = "(" || (← atName))

/-- One of the cases of a label. -/
def caseItem (g : Grammar) : Parser (List Tree) := do
  if ← accept "default" then return []
  else if ← atPattern g then return [← g .pattern]
  else return [← g .conditional]

/-- The label of an entry of a switch, without what ends it. -/
def switchLabel (g : Grammar) : Parser (List Tree) := do
  if ← accept "default" then return []
  else
    symbol "case"
    let items ← separated "," (caseItem g)
    let guarded ← if ← accept "when" then (do return [← g .conditional]) else pure []
    return items.flatten ++ guarded

/-- A statement that is an expression. -/
def expressionStatement (g : Grammar) : Parser Tree := node .expressionStatement do
  let value ← g .expression
  symbol ";"
  return [value]

/-- Whether a statement of the current entry of a switch is at the front. -/
def atSwitchStatement : Parser Bool :=
  return !(["case", "default", "\x7d"].contains (← peekText))

/-- An entry of a switch: a label with a colon and the statements up to the next one, or a label
    with an arrow and one statement. -/
def switchEntry (g : Grammar) : Parser Tree := node .other do
  let label ← switchLabel g
  if ← accept ":" then
    let statements ← manyWhile atSwitchStatement (do
      let before ← comments
      return before ++ [← g .statement])
    return label ++ statements.flatten
  else
    symbol "->"
    let text ← peekText
    if text = "\x7b" then return label ++ [← g .block]
    else if text = "throw" then return label ++ [← g .statement]
    else return label ++ [← expressionStatement g]

/-- A switch, as an expression or as a statement. -/
def switchBlock (g : Grammar) : Parser Tree := node .other do
  symbol "switch"
  let value ← parenthesized g
  symbol "\x7b"
  let entries ← listUntil "\x7d" "" (switchEntry g)
  return value :: entries

/-! ## Levels of expressions -/

/-- What selectors can stand behind. -/
def primary (g : Grammar) (start : Nat) : Parser Tree := do
  match ← peek? with
  | none => failure
  | some t =>
    if t.kind = .number then leaf .other
    else if t.kind = .text then leaf .textLiteral
    else if t.text = "(" then parenthesized g
    else if t.text = "new" then creation g start []
    else if t.text = "switch" then switchBlock g
    else if ["true", "false", "null"].contains t.text then leaf .other
    else if t.text = "this" || t.text = "super" then
      let reference ← leaf (if t.text = "this" then .thisReference else .other)
      if (← peekText) = "(" then finish .other start [← argumentList g] else return reference
    -- A type stands alone in front of `.class` and `::` only.
    else if primitiveTypes.contains t.text then g .type
    else if ← atGenericReference g then g .type
    else
      let first ← name
      if (← peekText) = "(" then invocation g start [first.withRole .name] else return first

/-- A primary expression and its selectors. -/
def selected (g : Grammar) : Parser Tree := do
  let start ← position
  let base ← primary g start
  grow (selector? g start) (← charsLeft) base

/-- A cast. -/
def cast (g : Grammar) : Parser Tree := node .other do
  let types ← castTypes g
  let value ← if ← atLambda then g .expression else g .unary
  return types ++ [value]

/-- An expression without binary operators. -/
def unary (g : Grammar) : Parser Tree := do
  let text ← peekText
  if signs.contains text then
    node .other do
      let _ ← next
      return [← g .unary]
  else if text = "(" && (← atCast g) then cast g
  else selected g

/-- One more operator of at least the given level behind `left`, and its right operand. -/
def operatorStep (g : Grammar) (level start : Nat) (left : Tree) : Parser (Option Tree) := do
  match ← operatorAhead? with
  | none => return none
  | some (operator, count) =>
    match operatorLevel? operator with
    | none => return none
    | some found =>
      if found < level then return none
      else
        advance count
        -- What follows `instanceof` is a pattern and no operand.
        if operator = "instanceof" then
          some <$> finish .other start [left, ← g .pattern]
        else
          -- Operators of one level associate to the left, so the right side holds tighter ones only.
          let right ← g (.operators (found + 1))
          some <$> finish .binary start [left.withRole .left, right.withRole .right]

/-- Operands and the operators of at least the given level between them. -/
def operators (g : Grammar) (level : Nat) : Parser Tree := do
  let start ← position
  let left ← g .unary
  grow (operatorStep g level start) (← charsLeft) left

/-- A condition with its two values, or just a value. -/
def conditional (g : Grammar) : Parser Tree := do
  let start ← position
  let condition ← g (.operators 0)
  if ← accept "?" then
    let yes ← g .expression
    symbol ":"
    let no ← if ← atLambda then g .expression else g .conditional
    finish .other start [condition, yes, no]
  else return condition

/-- Any expression. -/
def expression (g : Grammar) : Parser Tree := do
  if ← atLambda then lambda g
  else
    let start ← position
    let left ← g .conditional
    match ← operatorAhead? with
    | some (operator, count) =>
      if assignmentOperators.contains operator then
        advance count
        finish .other start [left, ← g .expression]
      else return left
    | none => return left

end LogDrift.Java
