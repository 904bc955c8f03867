import LogDrift.Call.Facets

/-! # Calls as they are written

A call has a name with its receiver, its text, and arguments; an argument is flattened over its
binary operators into operands, and an operand may be a call again. What an argument is made of is
told apart by three facets: literals (`texts`), variables (`vars`) and nested calls (`calls`).
-/

namespace LogDrift

mutual

/-- A method call as written. -/
structure Call where
  /-- The name with its receiver, such as `Log.d`. -/
  name : String
  /-- The whole text of the call. -/
  source : String
  arguments : List Argument

/-- One argument of a call. -/
structure Argument where
  /-- The text of the argument. -/
  source : String
  /-- What stands between the argument's binary operators, from left to right. -/
  operands : List Operand

/-- What an argument is made of. -/
inductive Operand where
  /-- A string or character literal, quotes included. -/
  | text (literal : String)
  /-- A variable: a name, a field, an array element. -/
  | var (name : String)
  /-- A nested call. -/
  | call (nested : Call)
  /-- Anything else: a number, a cast, a condition, a lambda. -/
  | other (source : String)

end

namespace Argument

/-- The literals among the operands, in order. -/
def texts (a : Argument) : List String :=
  a.operands.filterMap fun | .text literal => some literal | _ => none

/-- The variables among the operands, in order. -/
def vars (a : Argument) : List String :=
  a.operands.filterMap fun | .var name => some name | _ => none

/-- The calls among the operands, in order. -/
def calls (a : Argument) : List Call :=
  a.operands.filterMap fun | .call nested => some nested | _ => none

/-- Which kinds of operand the argument has. -/
def facets (a : Argument) : Facets :=
  ⟨!a.texts.isEmpty, !a.vars.isEmpty, !a.calls.isEmpty⟩

end Argument

end LogDrift
