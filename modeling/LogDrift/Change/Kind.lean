/-! # Kinds of change

How a logging call moved between two versions: it came or went with its file, with its method or
inside a method that stayed, or it was updated in place. Each kind has a label, by which it is
written and read (`ofLabel?_eq_some_iff`).
-/

namespace LogDrift

/-- How a logging call moved between two versions. -/
inductive ChangeKind where
  | addedWithFile
  | deletedWithFile
  | addedWithMethod
  | deletedWithMethod
  | addedInsideMethod
  | deletedInsideMethod
  | updated
deriving DecidableEq, Repr

namespace ChangeKind

/-- All kinds, in the order in which they are listed. -/
def all : List ChangeKind :=
  [addedWithFile, deletedWithFile, addedWithMethod, deletedWithMethod, addedInsideMethod,
    deletedInsideMethod, updated]

def label : ChangeKind → String
  | addedWithFile => "ADDED_WITH_FILE"
  | deletedWithFile => "DELETED_WITH_FILE"
  | addedWithMethod => "ADDED_WITH_METHOD"
  | deletedWithMethod => "DELETED_WITH_METHOD"
  | addedInsideMethod => "ADDED_INSIDE_METHOD"
  | deletedInsideMethod => "DELETED_INSIDE_METHOD"
  | updated => "UPDATED"

/-- The kind with the given label. -/
def ofLabel? (label : String) : Option ChangeKind := all.find? (·.label = label)

/-- Whether the call is new. -/
def isAdded : ChangeKind → Bool
  | addedWithFile | addedWithMethod | addedInsideMethod => true
  | _ => false

/-- Whether the call is gone. -/
def isDeleted : ChangeKind → Bool
  | deletedWithFile | deletedWithMethod | deletedInsideMethod => true
  | _ => false

theorem mem_all (kind : ChangeKind) : kind ∈ all := by cases kind <;> decide

/-- The labels tell the kinds apart. -/
theorem label_injective {a b : ChangeKind} (h : a.label = b.label) : a = b := by
  revert h
  cases a <;> cases b <;> decide

@[simp] theorem ofLabel?_label (kind : ChangeKind) : ofLabel? kind.label = some kind := by
  cases kind <;> decide

/-- A kind is read from its own label and from no other text. -/
theorem ofLabel?_eq_some_iff {label : String} {kind : ChangeKind} :
    ofLabel? label = some kind ↔ label = kind.label := by
  constructor
  · intro h
    exact (by simpa using List.find?_some h : kind.label = label).symm
  · rintro rfl
    exact ofLabel?_label kind

end ChangeKind

end LogDrift
