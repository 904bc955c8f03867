import LogDrift.Change.Evidence
import LogDrift.Change.Kind

/-! # Change records

A change record is one transition of one logging call between two versions of a file. It holds the
canonical text before and after, and what is known of the call that remains, or of the call that is
gone if none does.
-/

namespace LogDrift

/-- One transition of one logging call. -/
structure ChangeRecord where
  filePath : String
  /-- The full signature of the method around the call. -/
  method : String
  kind : ChangeKind
  /-- The canonical text before the change; absent for an addition. -/
  before : Option String
  /-- The canonical text after the change; absent for a deletion. -/
  after : Option String
  verbosity : String
  severity : Option Severity
  shape : Option SomeFacets
  /-- How the name changed, for an update. -/
  callerChange : Option CallerChange
  /-- How the arguments changed, for an update. -/
  argumentChange : Option ArgumentChange
  /-- Whether the diff backs a change of variables, for an update that makes one. -/
  isConsistent : Option Bool

namespace ChangeRecord

/-- The text of the call after the change, or before it if it is gone. -/
def content (r : ChangeRecord) : String := (r.after.or r.before).getD ""

/-- The facets of the arguments that an update changed. -/
def changedFacets (r : ChangeRecord) : Option SomeFacets := r.argumentChange.bind (·.changed?)

/-- The labels of both kinds of update, joined by a plus sign if there are two. -/
def updateType (r : ChangeRecord) : Option String :=
  match r.callerChange.map (·.label), r.argumentChange.map (·.label) with
  | some caller, some arguments => some (caller ++ "+" ++ arguments)
  | some caller, none => some caller
  | none, arguments => arguments

/-- The record of a site that came or went, with the text on the side that has it. -/
def ofSite (path method : String) (kind : ChangeKind) (site : CallSite) : ChangeRecord where
  filePath := path
  method := method
  kind := kind
  before := if kind.isDeleted then some site.text else none
  after := if kind.isDeleted then none else some site.text
  verbosity := site.verbosity
  severity := site.severity?
  shape := site.shape?
  callerChange := none
  argumentChange := none
  isConsistent := none

/-- The record of a site that was updated, judged by the added lines of the diff. -/
def ofUpdate (path method : String) (added : Option (List (List Char))) (old new : CallSite) :
    ChangeRecord where
  filePath := path
  method := method
  kind := .updated
  before := some old.text
  after := some new.text
  verbosity := new.verbosity
  severity := new.severity?
  shape := new.shape?
  callerChange := callerChange? old new
  argumentChange := argumentChange? old new
  isConsistent := isConsistent? new ((argumentChange? old new).bind (·.changed?)) added

end ChangeRecord

end LogDrift
