/-! # Facets of call arguments

An argument is told apart by which of three facets it has: literal text, a variable, a nested call.
`Facets` is a set of them, `SomeFacets` a set with at least one member. Such a set has a label in
two vocabularies: as the shape of the arguments of one call (`shapeLabel`) and as the part of the
arguments that an update changed (`updateLabel`). Either label is made of the names of the members
(`SomeFacets.labels_eq`).
-/

namespace LogDrift

/-- One of the facets of arguments. -/
inductive Facet where
  | text | var | call
deriving DecidableEq

namespace Facet

/-- All facets, in the order in which labels name them. -/
def all : List Facet := [text, var, call]

theorem mem_all (f : Facet) : f ∈ all := by cases f <;> decide

/-- The name of a facet in labels. -/
def name : Facet → String
  | text => "TEXT"
  | var => "VAR"
  | call => "SIM"

end Facet

/-- A set of facets. -/
structure Facets where
  text : Bool
  var : Bool
  call : Bool
deriving DecidableEq, Repr

namespace Facets

/-- The set without a member. -/
def none : Facets := ⟨false, false, false⟩

/-- The facets of either set. -/
def union (a b : Facets) : Facets := ⟨a.text || b.text, a.var || b.var, a.call || b.call⟩

/-- The facets of any set in a list. -/
def unions (sets : List Facets) : Facets := sets.foldl union none

/-- The names of the members, in the order text, variable, call. -/
def names (a : Facets) : List String :=
  (if a.text then ["TEXT"] else []) ++ (if a.var then ["VAR"] else [])
    ++ (if a.call then ["SIM"] else [])

/-- Whether a facet is in a set. -/
def has (s : Facets) : Facet → Bool
  | .text => s.text
  | .var => s.var
  | .call => s.call

@[simp] theorem has_none (f : Facet) : none.has f = false := by cases f <;> rfl

@[simp] theorem has_union (a b : Facets) (f : Facet) :
    (a.union b).has f = (a.has f || b.has f) := by
  cases f <;> rfl

/-- Sets with the same members are equal. -/
theorem eq_of_has_eq {a b : Facets} (h : ∀ f, a.has f = b.has f) : a = b := by
  cases a
  cases b
  simpa [has] using And.intro (h .text) (And.intro (h .var) (h .call))

/-- A set is empty if no facet is in it. -/
theorem eq_none_iff {s : Facets} : s = none ↔ ∀ f, s.has f = false := by
  refine ⟨fun h f => by rw [h, has_none], fun h => eq_of_has_eq fun f => ?_⟩
  rw [h f, has_none]

/-- A facet is in a union if it is in one of the sets, the first one included. -/
theorem has_foldl_union (f : Facet) (sets : List Facets) (s : Facets) :
    (sets.foldl union s).has f = (s.has f || sets.any (·.has f)) := by
  induction sets generalizing s with
  | nil => simp
  | cons t sets ih => rw [List.foldl_cons, ih, has_union, List.any_cons, Bool.or_assoc]

/-- A facet is in a union if it is in one of the sets. -/
theorem has_unions (f : Facet) (sets : List Facets) :
    (unions sets).has f = sets.any (·.has f) := by
  rw [unions, has_foldl_union, has_none, Bool.false_or]

/-- The members of a set. -/
def members (s : Facets) : List Facet := Facet.all.filter s.has

@[simp] theorem mem_members {s : Facets} {f : Facet} : f ∈ s.members ↔ s.has f = true := by
  simp [members, Facet.mem_all]

/-- The names are those of the members. -/
theorem names_eq (s : Facets) : s.names = s.members.map Facet.name := by
  obtain ⟨text, var, call⟩ := s
  cases text <;> cases var <;> cases call <;> rfl

end Facets

/-- A set of facets with at least one member. -/
structure SomeFacets where
  facets : Facets
  nonempty : facets ≠ Facets.none
deriving DecidableEq

namespace SomeFacets

/-- The set itself, if it has a member. -/
def of? (facets : Facets) : Option SomeFacets :=
  if h : facets = Facets.none then Option.none else some ⟨facets, h⟩

/-- There is no such set exactly when no facet is present. -/
theorem of?_eq_none_iff {facets : Facets} : of? facets = Option.none ↔ facets = Facets.none := by
  unfold of?
  split <;> simp_all

/-- A set with a member is the set itself. -/
theorem of?_eq_some_iff {facets : Facets} {s : SomeFacets} :
    of? facets = some s ↔ s.facets = facets := by
  by_cases h : facets = Facets.none
  · rw [of?, dif_pos h, h]
    -- The empty set is none of these sets.
    exact iff_of_false (by simp) s.nonempty
  · rw [of?, dif_neg h, Option.some.injEq]
    constructor
    · rintro rfl
      rfl
    · rintro rfl
      rfl

/-- All seven sets. -/
def all : List SomeFacets :=
  [⟨true, false, false⟩, ⟨true, true, false⟩, ⟨true, false, true⟩, ⟨true, true, true⟩,
    ⟨false, true, false⟩, ⟨false, true, true⟩, ⟨false, false, true⟩].filterMap of?

/-- The label of the arguments of one call: the names of the facets, or the single name as the
    only one. -/
def shapeLabel (s : SomeFacets) : String :=
  match s.facets.names with
  | [name] => name ++ "_ONLY"
  | names => "_".intercalate names

/-- The label of what an update changed. -/
def updateLabel (s : SomeFacets) : String :=
  "_".intercalate ("UPDATED" :: s.facets.names)

/-- A label is made of the names of the members and of no others: as a shape, of the single name as
    the only one, or of all names; as what an update changed, of all names in any case. -/
theorem labels_eq (s : SomeFacets) :
    s.updateLabel = "_".intercalate ("UPDATED" :: s.facets.members.map Facet.name) ∧
    s.shapeLabel = match s.facets.members with
      | [f] => f.name ++ "_ONLY"
      | fs => "_".intercalate (fs.map Facet.name) := by
  rw [updateLabel, shapeLabel, Facets.names_eq]
  refine ⟨rfl, ?_⟩
  rcases s.facets.members with _ | ⟨f, _ | ⟨g, fs⟩⟩ <;> rfl

/-- The set with the given shape label. -/
def ofShapeLabel? (label : String) : Option SomeFacets := all.find? (·.shapeLabel = label)

/-- The set with the given update label. -/
def ofUpdateLabel? (label : String) : Option SomeFacets := all.find? (·.updateLabel = label)

end SomeFacets

end LogDrift
