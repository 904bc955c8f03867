import LogDrift.Call.Site

/-! # What an update changed

Two versions of one call are compared in two respects: by name (`callerChange?`) and by arguments
(`argumentChange?`). Arguments are compared slot by slot, each slot by its literals, its variables
and the canonical texts of its nested calls.
-/

namespace LogDrift

/-- How the name of a call changed. -/
inductive CallerChange where
  /-- The same receiver with another level. -/
  | verbosity
  /-- Another receiver, or another function altogether. -/
  | loggingMethod
deriving DecidableEq, Repr

namespace CallerChange

def label : CallerChange → String
  | verbosity => "UPDATED_VERBOSITY"
  | loggingMethod => "UPDATED_LOGGING_METHOD"

/-- The change with the given label. -/
def ofLabel? (label : String) : Option CallerChange :=
  [verbosity, loggingMethod].find? (·.label = label)

end CallerChange

/-- How the arguments of a call changed. -/
inductive ArgumentChange where
  /-- The new call has more of them. -/
  | added
  /-- The new call has fewer of them. -/
  | deleted
  /-- As many arguments, with changes in the given facets. -/
  | content (changed : SomeFacets)
deriving DecidableEq

namespace ArgumentChange

def label : ArgumentChange → String
  | added => "ARGUMENT_ADDED"
  | deleted => "ARGUMENT_DELETED"
  | content changed => changed.updateLabel

/-- The facets that changed, if the number of arguments did not. -/
def changed? : ArgumentChange → Option SomeFacets
  | content changed => some changed
  | _ => none

/-- The change with the given label. -/
def ofLabel? (label : String) : Option ArgumentChange :=
  ([added, deleted].find? (·.label = label)).or ((SomeFacets.ofUpdateLabel? label).map content)

end ArgumentChange

/-- How the name changed from `old` to `new`, if it did. Names that agree up to the first dot differ
    in verbosity; all others, names without a dot among them, differ in the logging method. -/
def callerChange? (old new : CallSite) : Option CallerChange :=
  if old.name = new.name then none
  else match Text.splitFirst '.' old.name.toList, Text.splitFirst '.' new.name.toList with
    | some a, some b => some (if a.1 = b.1 then .verbosity else .loggingMethod)
    | _, _ => some .loggingMethod

/-- What one argument is compared by: for each facet the operands of that kind, in order. -/
structure Slot where
  texts : List String
  vars : List String
  /-- The canonical texts of the nested calls. -/
  calls : List String
deriving DecidableEq

namespace Slot

/-- The slot that a call without arguments has. -/
def empty : Slot := ⟨[], [], []⟩

/-- The slot of an argument. -/
def ofArgument (a : Argument) : Slot :=
  ⟨a.texts, a.vars, a.calls.map fun call => Text.canonicalText call.source⟩

/-- The facets in which two slots differ. -/
def difference (a b : Slot) : Facets :=
  ⟨a.texts != b.texts, a.vars != b.vars, a.calls != b.calls⟩

end Slot

/-- The slots of a call, at least one. -/
def CallSite.slots (site : CallSite) : List Slot :=
  if site.arguments.isEmpty then [Slot.empty] else site.arguments.map Slot.ofArgument

/-- How the arguments changed from `old` to `new`, if they did. A different number of slots decides
    by itself; slots of equal number are compared position by position. -/
def argumentChange? (old new : CallSite) : Option ArgumentChange :=
  if new.slots.length < old.slots.length then some .deleted
  else if old.slots.length < new.slots.length then some .added
  else (SomeFacets.of? (Facets.unions (List.zipWith Slot.difference old.slots new.slots))).map
    .content

end LogDrift
