import LogDrift.Method

/-! # Matching methods

The methods of two versions of a file are matched in three passes over the methods whose text
occurs in one version only. Each pass joins two lists by first fit (`firstFit`): every old method
takes the first new method left that fits it, and what neither side could place goes on to the next
pass. Methods fit

1. with equal signatures: such a pair is compared;
2. with equal names and different parameters: such a pair is compared if the bodies differ;
3. with different names, different parameters and equal bodies: a rename, not compared.

What no pass placed is present in one version only.
-/

namespace LogDrift

/-! ## Joining two lists by first fit -/

/-- Cuts the first element that satisfies `p` out of a list. -/
def takeFirst {α : Type} (p : α → Bool) : List α → Option (α × List α)
  | [] => none
  | a :: as => if p a then some (a, as) else (takeFirst p as).map fun r => (r.1, a :: r.2)

/-- A join of two lists: the pairs, and what is left on either side. -/
structure Join (α β : Type) where
  pairs : List (α × β)
  left : List α
  right : List β

/-- Joins two lists: in order, each element on the left takes the first element left on the right
    that fits it. -/
def firstFit {α β : Type} (fits : α → β → Bool) : List α → List β → Join α β
  | [], right => ⟨[], [], right⟩
  | a :: left, right =>
    match takeFirst (fits a) right with
    | some (b, rest) =>
      let join := firstFit fits left rest
      { join with pairs := (a, b) :: join.pairs }
    | none =>
      let join := firstFit fits left right
      { join with left := a :: join.left }

/-- What is taken satisfies the condition, and all before it do not. -/
theorem takeFirst_eq_append {α : Type} {p : α → Bool} {as rest : List α} {a : α}
    (h : takeFirst p as = some (a, rest)) :
    ∃ skipped later, as = skipped ++ a :: later ∧ rest = skipped ++ later ∧ p a = true ∧
      ∀ x ∈ skipped, p x = false := by
  induction as generalizing rest with
  | nil => simp [takeFirst] at h
  | cons x xs ih =>
    by_cases hx : p x = true
    · simp only [takeFirst, hx, if_true, Option.some.injEq, Prod.mk.injEq] at h
      obtain ⟨rfl, rfl⟩ := h
      exact ⟨[], xs, rfl, rfl, hx, by simp⟩
    · simp only [takeFirst, hx, Bool.false_eq_true, if_false, Option.map_eq_some_iff,
        Prod.mk.injEq] at h
      -- The element is skipped, and stands in front of the rest that is left over.
      obtain ⟨⟨y, ys⟩, hy, rfl, rfl⟩ := h
      obtain ⟨skipped, later, rfl, rfl, hp, hskipped⟩ := ih hy
      refine ⟨x :: skipped, later, rfl, rfl, hp, ?_⟩
      intro z hz
      rcases List.mem_cons.mp hz with rfl | hz
      · simpa using hx
      · exact hskipped z hz

/-- What is taken satisfies the condition, and together with the rest it is the whole list. -/
theorem takeFirst_eq_some {α : Type} {p : α → Bool} {as rest : List α} {a : α}
    (h : takeFirst p as = some (a, rest)) : p a = true ∧ as.Perm (a :: rest) := by
  obtain ⟨skipped, later, rfl, rfl, hp, -⟩ := takeFirst_eq_append h
  exact ⟨hp, List.perm_middle⟩

/-- Nothing is taken exactly when nothing fits. -/
theorem takeFirst_eq_none_iff {α : Type} {p : α → Bool} {as : List α} :
    takeFirst p as = none ↔ ∀ a ∈ as, p a = false := by
  induction as with
  | nil => simp [takeFirst]
  | cons x xs ih => by_cases hx : p x = true <;> simp [takeFirst, hx, ih]

/-- A join loses nothing on the left. -/
theorem firstFit_left_perm {α β : Type} (fits : α → β → Bool) (left : List α) (right : List β) :
    ((firstFit fits left right).pairs.map Prod.fst ++ (firstFit fits left right).left).Perm
      left := by
  induction left generalizing right with
  | nil => simp [firstFit]
  | cons a left ih =>
    simp only [firstFit]
    split
    · exact (ih _).cons a
    · exact List.perm_middle.trans ((ih _).cons a)

/-- A join loses nothing on the right. -/
theorem firstFit_right_perm {α β : Type} (fits : α → β → Bool) (left : List α) (right : List β) :
    ((firstFit fits left right).pairs.map Prod.snd ++ (firstFit fits left right).right).Perm
      right := by
  induction left generalizing right with
  | nil => simp [firstFit]
  | cons a left ih =>
    simp only [firstFit]
    split
    · rename_i b rest h
      exact ((ih rest).cons b).trans (takeFirst_eq_some h).2.symm
    · exact ih right

/-! ## The three passes -/

/-- Which rule made a pair of methods. -/
inductive PairingRule where
  | exactSignature
  | sameName
deriving DecidableEq, Repr

namespace PairingRule

def label : PairingRule → String
  | exactSignature => "ExactSignature"
  | sameName => "SameName"

end PairingRule

/-- A method and its position in its version. -/
abbrev PlacedMethod := Method × Nat

/-- Two methods taken for versions of one. -/
structure MethodPair where
  old : PlacedMethod
  new : PlacedMethod
  rule : PairingRule

/-- A matching of the methods of two versions. -/
structure MethodMatching where
  /-- The pairs to compare. -/
  pairs : List MethodPair
  /-- The pairs with equal bodies, which need no comparison. -/
  untouched : List (PlacedMethod × PlacedMethod)
  onlyOld : List PlacedMethod
  onlyNew : List PlacedMethod

namespace MethodMatching

/-- The methods whose text does not occur in the other version, with their positions. -/
def changed (methods other : List Method) : List PlacedMethod :=
  methods.zipIdx.filter fun placed => !other.any (·.source == placed.1.source)

def sameSignature (old new : PlacedMethod) : Bool := new.1.signature = old.1.signature

def sameBody (old new : PlacedMethod) : Bool := old.1.bodySource = new.1.bodySource

/-- Equal names with different parameters. -/
def sameNameOnly (old new : PlacedMethod) : Bool :=
  old.1.signature.name = new.1.signature.name
    && old.1.signature.parameters ≠ new.1.signature.parameters

/-- Different names and parameters over the same body. -/
def renamed (old new : PlacedMethod) : Bool :=
  old.1.signature.name ≠ new.1.signature.name
    && old.1.signature.parameters ≠ new.1.signature.parameters && sameBody old new

end MethodMatching

open MethodMatching in
/-- Matches the methods of an old and a new version. -/
def matchMethods (old new : List Method) : MethodMatching :=
  let exact := firstFit sameSignature (changed old new) (changed new old)
  let named := firstFit sameNameOnly exact.left exact.right
  let moved := firstFit renamed named.left named.right
  let resigned := named.pairs.partition fun pair => sameBody pair.1 pair.2
  { pairs := exact.pairs.map (fun pair => ⟨pair.1, pair.2, .exactSignature⟩)
      ++ resigned.2.map (fun pair => ⟨pair.1, pair.2, .sameName⟩)
    untouched := resigned.1 ++ moved.pairs
    onlyOld := moved.left
    onlyNew := moved.right }

end LogDrift
