import LogDrift.Change.Update

/-! # Evidence for a change of variables

An update that changes the variables of a logging call is consistent when the diff that makes it
also touches one of the variables that the call now mentions: an added line assigns to it, or opens
a block and names it. `isConsistent?` gives the verdict, and gives none when the update changes no
variable or there is no diff to look at.
-/

namespace LogDrift

/-! ## The variables of a call -/

mutual

/-- The variables that an argument reads: its own, and for each nested call the caller and what its
    arguments read. -/
def Argument.mentions : Argument → List String
  | ⟨_, operands⟩ => Operand.mentionsOf operands

/-- The variables that operands read. -/
def Operand.mentionsOf : List Operand → List String
  | [] => []
  | operand :: operands => operand.mentions ++ Operand.mentionsOf operands

/-- The variables that an operand reads. -/
def Operand.mentions : Operand → List String
  | .var name => [name]
  | .call ⟨name, _, arguments⟩ => callerOf name :: Argument.mentionsOf arguments
  | _ => []

/-- The variables that arguments read. -/
def Argument.mentionsOf : List Argument → List String
  | [] => []
  | argument :: arguments => argument.mentions ++ Argument.mentionsOf arguments

end

/-- The variables that a call site mentions, in order of mention. -/
def CallSite.mentions (site : CallSite) : List String := Argument.mentionsOf site.arguments

/-- The distinct variables that a call site mentions, in the order of their characters. -/
def CallSite.variableSet (site : CallSite) : List String :=
  site.mentions.eraseDups.mergeSort fun a b => decide (a ≤ b)

/-! ## What an added line touches -/

/-- The characters that a compound assignment writes before its equals sign. -/
def compoundSigns : List Char := "+-*/%&|^<>!".toList

/-- What a line assigns to: the last word before the first equals sign, without the sign of a
    compound assignment. There is none if nothing stands there, or a string literal does. -/
def assignmentTarget? (line : List Char) : Option (List Char) :=
  let left := line.takeWhile (· ≠ '=')
  if left.all Text.isBlank || left.contains '"' then none
  else (Text.fields Text.isBlank
    (Text.dropEndWhile (fun c => Text.isBlank c || compoundSigns.contains c) left)).getLast?

/-- What parts the words of a line that opens a block. -/
def isHeaderGap (c : Char) : Bool := c = '(' || c = ')' || c = ',' || Text.isBlank c

/-- Whether a line is part of the call itself: it renders to something, and that occurs in the text
    of the call. -/
def isPartOfCall (callText : String) (line : List Char) : Bool :=
  let statement := Text.canonical (Text.dropEndWhile (· = ';') line)
  !statement.isEmpty && Text.occursIn statement callText.toList

/-- Whether a trimmed line touches one of the variables that a call mentions: it assigns to it, or
    opens a block and names it. Comments and the lines of the call itself touch nothing. -/
def touches (callText : String) (mentioned : List String) (line : List Char) : Bool :=
  let known (word : List Char) : Bool := mentioned.contains (String.ofList word)
  if ['/', '/'].isPrefixOf line || ['/', '*'].isPrefixOf line then false
  else if isPartOfCall callText line then false
  else if line.getLast? = some ';' && line.contains '=' then (assignmentTarget? line).any known
  else if line.getLast? = some '\x7b' then (Text.fields isHeaderGap line).any known
  else false

/-- Whether the added lines back the change of a call's variables; `none` if the update changed
    none, or there are no lines to look at. -/
def isConsistent? (site : CallSite) (changed : Option SomeFacets)
    (added : Option (List (List Char))) : Option Bool :=
  match changed, added with
  | some changed, some lines =>
    if changed.facets.var then
      some (lines.any fun line => touches site.text site.mentions (Text.trim line))
    else none
  | _, _ => none

end LogDrift
