import LogDrift.Java.Declarations
import LogDrift.Java.Methods

/-! # Programs

`parse` reads a whole source text into a syntax tree, `methodsOf` lists the methods of a text. A
text that is no program is not mended: `parse` gives no tree for it, and it has no methods.
-/

namespace LogDrift.Java

open LogDrift.Java.Parser

/-- The parser for every goal, made from the parsers for the goals that it refers to. -/
def level (g : Grammar) : Grammar
  | .type => type g
  | .annotationMark => annotationMark
  | .expression => expression g
  | .conditional => conditional g
  | .operators n => operators g n
  | .unary => unary g
  | .initialiser => initialiser g
  | .pattern => pattern g
  | .block => block g
  | .statement => statement g
  | .classBody => classBody g
  | .member => classMember g

/-- The name of a package, or what is imported, up to the semicolon. -/
def header : Parser Tree := node .other do
  let _ ← manyWhile (return (← peekText) ≠ ";") next
  symbol ";"
  return []

/-- Whether a method outside a class is at the front. -/
def atMethod (g : Grammar) : Parser Bool := lookahead do
  let _ ← modifiers g
  if (← peekText) = "<" then typeParameters g
  let _ ← g .type
  require (← atName)
  require ((← peekSecond) = "(")

/-- A package header, an import, a class, a method or a statement. -/
def topLevel (g : Grammar) : Parser Tree := do
  let text ← peekText
  if text = "package" || text = "import" then header
  else if ← lookahead (do let _ ← annotations g; symbol "package") then header
  else if ← atClassDeclaration g then classDeclaration g
  else if ← atMethod g then g .member
  else g .statement

/-- A whole program. -/
def program (g : Grammar) : Parser Tree := node .program do
  let parts ← manyWhile (return (← peek?).isSome) (do
    let before ← comments
    return before ++ [← topLevel g])
  return parts.flatten ++ (← comments)

/-- How deeply goals nest at most in a text of so many tokens: between two goals at the same token
    lie fewer than sixteen others. -/
def depthBound (tokens : Nat) : Nat := 16 * (tokens + 1)

/-- The syntax tree of a source text, if it is a program. -/
def parse (source : String) : Option Tree := do
  let chars := source.toList
  let tokens ← Token.lex chars
  let input : Input := ⟨chars.toArray, tokens, 0⟩
  let (tree, _) ← (program (Grammar.bounded level (depthBound tokens.length))).run input
  return tree

/-- The syntax tree of a source text; that of a text that is no program has no children. -/
def treeOf (source : String) : Tree := (parse source).getD (.node .program none source [])

/-- The methods that the classes of a source text declare, in the order of the text. -/
def methodsOf (source : String) : List Method := (treeOf source).methods

end LogDrift.Java
