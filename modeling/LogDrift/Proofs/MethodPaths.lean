import LogDrift.Java.Methods
import LogDrift.Proofs.TreePaths

/-!
# Methods and their calls by paths

The methods of a tree are found in one walk over all of it, and the calls of a method in another one
over its body. Both are said here of paths alone: which method is declared at a path (`methodAt?`)
depends on the nodes there and directly above, and the calls of a method are those of the statements
that lie within its body (`callPaths`). Either list is in the order of the text, and has every path
once.

## Key results

- `methods_eq`, `map_some_methods`: the methods of a tree are those that are declared at its paths
- `calls_eq`, `map_some_calls`: the calls of a method are those of the statements within its body
-/

namespace LogDrift

/-- What a walk finds is found at one place each, if there is something everywhere. -/
theorem map_some_filterMap {α β : Type} {f : α → Option β} {as : List α}
    (h : ∀ a ∈ as, (f a).isSome = true) : (as.filterMap f).map some = as.map f := by
  induction as with
  | nil => rfl
  | cons a as ih =>
    obtain ⟨b, hb⟩ := Option.isSome_iff_exists.mp (h a List.mem_cons_self)
    rw [List.filterMap_cons_some hb, List.map_cons, List.map_cons, hb,
      ih fun a' ha' => h a' (List.mem_cons_of_mem a ha')]

/-- A walk finds nothing where there is nothing. -/
theorem filterMap_filter_isSome {α β : Type} (f : α → Option β) (as : List α) :
    (as.filter fun a => (f a).isSome).filterMap f = as.filterMap f := by
  rw [List.filterMap_filter]
  apply List.filterMap_congr
  intro a _
  cases f a <;> rfl

/-! ## Calls of bodies -/

namespace BodyNode

/-- The calls of nodes in a row are those of each, in order. -/
theorem callsOf_append (nodes more : List BodyNode) :
    callsOf (nodes ++ more) = callsOf nodes ++ callsOf more := by
  simp only [callsOf_eq_flatMap, List.flatMap_append]

/-- In which blocks calls stand does not matter. -/
private theorem callsOf_blockOf (nodes : List BodyNode) :
    callsOf (Java.Tree.blockOf nodes) = callsOf nodes := by
  cases nodes with
  | nil => rfl
  | cons node nodes => exact List.append_nil _

end BodyNode

namespace Java.Tree

/-! ## Methods -/

/-- The kind of the node at a path. -/
def kindAt? (t : Tree) (p : List Nat) : Option Kind := (t.at? p).map kind

theorem kindAt?_cons (t : Tree) (i : Nat) (p : List Nat) :
    t.kindAt? (i :: p) = t.children[i]?.bind fun child => child.kindAt? p := by
  rw [kindAt?, at?_cons]
  cases t.children[i]? <;> rfl

theorem mem_paths_of_kindAt? {t : Tree} {p : List Nat} {k : Kind} (h : t.kindAt? p = some k) :
    p ∈ t.paths := by
  rw [mem_paths, ← Option.isSome_map (f := kind)]
  exact Option.isSome_of_eq_some h

/-- The method that is declared at a path: by a method declaration with a body, which stands
    directly in the body of a class declaration. -/
def methodAt? (t : Tree) (p : List Nat) : Option Method :=
  if t.kindAt? p.dropLast.dropLast = some .classDeclaration ∧
      t.kindAt? p.dropLast = some .classBody ∧ t.kindAt? p = some .methodDeclaration then
    (t.at? p).bind method?
  else none

/-- The paths of the methods of a tree, in the order of the text. -/
def methodPaths (t : Tree) : List (List Nat) := t.paths.filter fun p => (t.methodAt? p).isSome

/-- What it takes for a method to be declared at a path. -/
theorem methodAt?_eq_some_iff {t : Tree} {p : List Nat} {m : Method} :
    t.methodAt? p = some m ↔
      (t.kindAt? p.dropLast.dropLast = some .classDeclaration ∧
        t.kindAt? p.dropLast = some .classBody ∧ t.kindAt? p = some .methodDeclaration) ∧
      ∃ decl, t.at? p = some decl ∧ decl.method? = some m := by
  rw [methodAt?, Option.ite_none_right_eq_some, Option.bind_eq_some_iff]

/-- The paths of methods are those where one is declared. -/
theorem mem_methodPaths {t : Tree} {p : List Nat} :
    p ∈ t.methodPaths ↔ (t.methodAt? p).isSome = true := by
  rw [methodPaths, List.mem_filter, and_iff_right_iff_imp]
  intro hmethod
  obtain ⟨m, hm⟩ := Option.isSome_iff_exists.mp hmethod
  exact mem_paths_of_kindAt? (methodAt?_eq_some_iff.mp hm).1.2.2

theorem nodup_methodPaths (t : Tree) : t.methodPaths.Nodup := t.nodup_paths.filter _

/-- The method at a path, found on the way to it, given the kinds of the parent and of the
    grandparent of the tree. -/
def methodBelow? (grandparent parent : Option Kind) (t : Tree) : List Nat → Option Method
  | [] =>
    if t.kind = .methodDeclaration ∧ parent = some .classBody ∧
        grandparent = some .classDeclaration then t.method? else none
  | i :: p => t.children[i]?.bind fun child => methodBelow? parent (some t.kind) child p

/-- On the way to a declaration, only its body and its class above it matter. -/
private theorem methodBelow?_concat (grandparent parent : Option Kind) (t : Tree) (p : List Nat)
    (i j : Nat) :
    methodBelow? grandparent parent t (p ++ [i, j]) =
      if t.kindAt? p = some .classDeclaration ∧ t.kindAt? (p ++ [i]) = some .classBody ∧
          t.kindAt? (p ++ [i, j]) = some .methodDeclaration then
        (t.at? (p ++ [i, j])).bind method?
      else none := by
  -- By the way to the class. Above it nothing is looked at, and below it are only its body and the
  -- declaration.
  induction p generalizing grandparent parent t with
  | nil =>
    simp only [List.nil_append, methodBelow?, kindAt?_cons, at?_cons]
    cases t.children[i]? with
    | none => simp
    | some child =>
      simp only [Option.bind_some]
      cases child.children[j]? with
      | none => simp
      | some decl => simp [kindAt?, and_comm, and_assoc]
  | cons k p ih =>
    simp only [List.cons_append, methodBelow?, kindAt?_cons, at?_cons]
    cases t.children[k]? with
    | none => simp
    | some child => exact ih parent (some t.kind) child

/-- What is above a method declaration is known from its path. -/
private theorem methodBelow?_eq_methodAt? (t : Tree) (p : List Nat) :
    methodBelow? none none t p = t.methodAt? p := by
  rw [methodAt?]
  rcases p.eq_nil_or_concat' with rfl | ⟨q, j, rfl⟩
  · rw [methodBelow?, if_neg (by simp), if_neg]
    -- One node is not of two kinds.
    rintro ⟨hclass, hbody, -⟩
    exact nomatch hclass.symm.trans hbody
  · rcases q.eq_nil_or_concat' with rfl | ⟨r, i, rfl⟩
    · have hnone : methodBelow? none none t [j] = none := by
        simp [methodBelow?]
      rw [List.nil_append, hnone, if_neg]
      rintro ⟨hclass, hbody, -⟩
      exact nomatch hclass.symm.trans hbody
    · rw [List.dropLast_concat, List.dropLast_concat, List.append_assoc]
      exact methodBelow?_concat none none t r i j

/-- The methods within trees in a row are those within each, in order. -/
private theorem methodsWithinAll_eq (grandparent : Option Kind) (parent : Kind)
    (trees : List Tree) :
    methodsWithinAll grandparent parent trees =
      trees.flatMap (methodsWithin grandparent (some parent)) := by
  induction trees with
  | nil => rfl
  | cons t trees ih => rw [methodsWithinAll, ih, List.flatMap_cons]

/-- The methods within a tree are found on the ways to its paths. -/
private theorem methodsWithin_eq (t : Tree) (grandparent parent : Option Kind) :
    methodsWithin grandparent parent t =
      t.paths.filterMap (methodBelow? grandparent parent t) := by
  induction t using induction generalizing grandparent parent with
  | node kind role text children ih =>
    have hbelow : ∀ i child, (node kind role text children).children[i]? = some child → ∀ p,
        methodBelow? grandparent parent (node kind role text children) (i :: p) =
          methodBelow? parent (some kind) child p := by
      intro i child hchild p
      rw [methodBelow?, hchild]
      rfl
    -- The root is looked at first, and then the children, to which it is the parent.
    rw [filterMap_paths hbelow, methodsWithin, methodsWithinAll_eq, methodBelow?]
    congr 1
    · by_cases hkind : (node kind role text children).kind = .methodDeclaration ∧
          parent = some .classBody ∧ grandparent = some .classDeclaration
      · rw [if_pos hkind, if_pos (by simpa [Tree.kind, and_assoc] using hkind)]
      · rw [if_neg hkind, if_neg (by simpa [Tree.kind, and_assoc] using hkind)]
        rfl
    · exact List.flatMap_congr fun child hchild => ih child hchild parent (some kind)

/-- A walk over a tree finds its methods. -/
theorem methods_eq_filterMap_paths (t : Tree) : t.methods = t.paths.filterMap t.methodAt? := by
  rw [methods, methodsWithin_eq, funext t.methodBelow?_eq_methodAt?]

/-- The methods of a tree are those at its paths, in the order of the text. -/
theorem methods_eq (t : Tree) : t.methods = t.methodPaths.filterMap t.methodAt? := by
  rw [methods_eq_filterMap_paths, methodPaths, filterMap_filter_isSome]

/-- There is one method for each of these paths. -/
theorem map_some_methods (t : Tree) : t.methods.map some = t.methodPaths.map t.methodAt? := by
  rw [methods_eq, map_some_filterMap fun p hp => mem_methodPaths.mp hp]

/-! ## Calls -/

/-- The call of the statement at a path, if the node there is one. -/
def callAt? (t : Tree) (p : List Nat) : Option Call := (t.at? p).bind statementCall?

/-- The path of the body of the declaration at a path. -/
def bodyPath? (t : Tree) (p : List Nat) : Option (List Nat) :=
  ((t.at? p).bind fun decl => decl.children.findIdx? (·.role = some .body)).map fun i => p ++ [i]

/-- Whether the statement at a path is a call of the method that is declared at another one: it lies
    within the body of the method. -/
def holdsCall (t : Tree) (p q : List Nat) : Bool :=
  (t.callAt? q).isSome && (t.bodyPath? p).any fun body => t.within body q

/-- The paths of the statements that are the calls of the method at a path, in the order of the
    text. -/
def callPaths (t : Tree) (p : List Nat) : List (List Nat) := t.paths.filter (t.holdsCall p)

/-- A method has the calls of the statements within its body. -/
theorem holdsCall_iff {t : Tree} {p q : List Nat} :
    t.holdsCall p q = true ↔
      (t.callAt? q).isSome = true ∧ ∃ a, t.bodyPath? p = some a ∧ t.within a q = true := by
  rw [holdsCall, Bool.and_eq_true, Option.any_eq_true]

theorem mem_paths_of_callAt? {t : Tree} {q : List Nat} (h : (t.callAt? q).isSome = true) :
    q ∈ t.paths :=
  mem_paths.mpr (Option.isSome_of_isSome_bind h)

/-- The paths of the calls of a method are those of the statements within its body. -/
theorem mem_callPaths {t : Tree} {p q : List Nat} :
    q ∈ t.callPaths p ↔ t.holdsCall p q = true := by
  rw [callPaths, List.mem_filter, and_iff_right_iff_imp]
  exact fun hholds => mem_paths_of_callAt? (holdsCall_iff.mp hholds).1

theorem nodup_callPaths (t : Tree) (p : List Nat) : (t.callPaths p).Nodup := t.nodup_paths.filter _

/-- The calls within trees in a row, comments aside, are those of each, in order. -/
private theorem callsOf_bodyNodesOf (trees : List Tree) :
    BodyNode.callsOf (bodyNodesOf trees) = trees.flatMap fun t =>
      if t.isComment then [] else t.statementCall?.toList ++ BodyNode.callsOf t.bodyNodes := by
  induction trees with
  | nil => rfl
  | cons t trees ih =>
    rw [bodyNodesOf, BodyNode.callsOf_append, ih, List.flatMap_cons]
    congr 1
    split
    · rfl
    · rw [BodyNode.callsOf_append, BodyNode.callsOf_blockOf]
      cases t.statementCall? <;> rfl

/-- The call of the statement at a path, unless a comment is on the way. -/
def callInside? (t : Tree) (p : List Nat) : Option Call := (t.inside? p).bind statementCall?

/-- The call below a child, unless the child is a comment. -/
private theorem callInside?_cons (t : Tree) (i : Nat) (p : List Nat) :
    t.callInside? (i :: p) =
      t.children[i]?.bind fun child => if child.isComment then none else child.callInside? p := by
  rw [callInside?, inside?_cons]
  cases t.children[i]? with
  | none => rfl
  | some child =>
    rw [Option.bind_some, Option.bind_some]
    split <;> rfl

/-- A walk over a tree that passes over comments finds its calls. -/
theorem filterMap_callInside? (t : Tree) :
    t.paths.filterMap t.callInside? =
      t.statementCall?.toList ++ BodyNode.callsOf t.bodyNodes := by
  induction t using induction with
  | node kind role text children ih =>
    have hbelow : ∀ i child, (node kind role text children).children[i]? = some child → ∀ p,
        (node kind role text children).callInside? (i :: p) =
          if child.isComment then none else child.callInside? p := by
      intro i child hchild p
      rw [callInside?_cons, hchild]
      rfl
    -- The root comes first on both sides; what is below is compared child by child.
    rw [filterMap_paths hbelow, bodyNodes, callsOf_bodyNodesOf]
    congr 1
    apply List.flatMap_congr
    intro child hchild
    split
    · simp
    · exact ih child hchild

/-- A walk over a body finds the calls below its root. -/
theorem callsOf_bodyNodes (t : Tree) :
    BodyNode.callsOf t.bodyNodes =
      t.paths.filterMap fun q => if q = [] then none else t.callInside? q := by
  have hbelow : (pathsFrom 0 t.children).filterMap
      (fun q => if q = [] then none else t.callInside? q) =
        (pathsFrom 0 t.children).filterMap t.callInside? := by
    apply List.filterMap_congr
    intro q hq
    obtain ⟨i, child, p, -, -, rfl⟩ := mem_pathsFrom.mp hq
    rw [if_neg (List.cons_ne_nil _ p)]
  have hroot : t.callInside? [] = t.statementCall? := rfl
  -- With the root, the walk would also find the call of the body itself, if it were a statement.
  have hwalk := t.filterMap_callInside?
  rw [paths_eq] at hwalk ⊢
  rw [List.filterMap_cons_none (by rfl), hbelow]
  cases hcall : t.statementCall? with
  | none =>
    rw [hcall, List.filterMap_cons_none (hroot.trans hcall)] at hwalk
    exact hwalk.symm
  | some call =>
    rw [hcall, List.filterMap_cons_some (hroot.trans hcall)] at hwalk
    exact (List.cons.inj hwalk).2.symm

/-- A method is made from a declaration and its body. -/
theorem exists_body_of_methodAt? {t : Tree} {p : List Nat} {m : Method}
    (h : t.methodAt? p = some m) :
    ∃ a body, t.bodyPath? p = some a ∧ t.at? a = some body ∧ m.body = body.bodyNodes := by
  obtain ⟨-, decl, hdecl, hmethod⟩ := methodAt?_eq_some_iff.mp h
  obtain ⟨body, hbody, rfl⟩ := Option.map_eq_some_iff.mp hmethod
  rw [child?, inRole?, List.find?_eq_bind_findIdx?_getElem?] at hbody
  obtain ⟨i, hi, hchild⟩ := Option.bind_eq_some_iff.mp hbody
  refine ⟨p ++ [i], body, ?_, ?_, rfl⟩
  · rw [bodyPath?, hdecl, Option.bind_some, hi, Option.map_some]
  · rw [at?_append, hdecl, Option.bind_some, at?_cons, hchild]
    rfl

/-- The calls of a method are those of the statements within its body, in the order of the text. -/
theorem calls_eq {t : Tree} {p : List Nat} {m : Method} (h : t.methodAt? p = some m) :
    m.calls = (t.callPaths p).filterMap t.callAt? := by
  obtain ⟨a, body, ha, hbody, hm⟩ := exists_body_of_methodAt? h
  have hholds (q : List Nat) : t.holdsCall p q = ((t.callAt? q).isSome && t.within a q) := by
    rw [holdsCall, ha]
    rfl
  -- The walk over the whole tree finds nothing but what is within the body.
  rw [Method.calls, hm, callsOf_bodyNodes, callPaths, List.filterMap_filter,
    filterMap_paths_at hbody]
  · apply List.filterMap_congr
    intro q _
    rw [hholds, within_append hbody, callAt?, callInside?, at?_append, hbody, Option.bind_some]
    by_cases hq : q = []
    · simp [hq]
    · cases hinside : body.inside? q with
      | none => simp [hq]
      | some s =>
        rw [at?_of_inside? hinside]
        cases hcall : s.statementCall? <;> simp [hq, hcall]
  · -- Outside the body the method has no calls.
    intro q hq
    rw [hholds, if_neg]
    intro hwithin
    obtain ⟨s, r, -, rfl, -⟩ := within_iff.mp (Bool.and_eq_true _ _ ▸ hwithin).2
    exact hq (List.prefix_append a r)

/-- There is one call for each of these paths. -/
theorem map_some_calls {t : Tree} {p : List Nat} {m : Method} (h : t.methodAt? p = some m) :
    m.calls.map some = (t.callPaths p).map t.callAt? := by
  rw [calls_eq h, map_some_filterMap fun q hq => (holdsCall_iff.mp (mem_callPaths.mp hq)).1]

end Java.Tree

end LogDrift
