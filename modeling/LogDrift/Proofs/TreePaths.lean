import Mathlib.Data.List.Infix
import Mathlib.Data.List.Nodup
import LogDrift.Java.Tree

/-!
# Paths in a syntax tree

A place in a tree is known by the path to it: the position of a child at each level (`Tree.at?`).
Two nodes that look alike are told apart by their paths. `Tree.paths` lists the paths of all nodes
in the order of the text, a node before what is inside it.

A walk over a tree that passes over comments sees of a node only what lies within it
(`Tree.within`): what is below it, with no comment on the way.

## Key results

- `mem_paths`, `pairwise_paths`: every node is listed by its path, in the order of the text
- `filterMap_paths`, `filterMap_paths_at`: a walk over a tree, by its children, and one that only
  looks below a path
- `within_trans`, `within_total`: the nodes that a node lies within lie within each other
-/

namespace LogDrift.Java.Tree

/-! ## Induction over trees -/

/-- What holds of a node if it holds of its children holds of every tree. -/
theorem induction {motive : Tree → Prop}
    (node : ∀ kind role text children, (∀ child ∈ children, motive child) →
      motive (node kind role text children)) : ∀ t, motive t
  | .node kind role text children => node kind role text children fun child hchild =>
    have : sizeOf child < sizeOf (Tree.node kind role text children) :=
      Nat.lt_of_lt_of_le (List.sizeOf_lt_of_mem hchild) (by simp)
    induction node child

/-! ## Paths -/

/-- The tree at a path. -/
def at? (t : Tree) : List Nat → Option Tree
  | [] => some t
  | i :: p => t.children[i]?.bind fun child => child.at? p

@[simp] theorem at?_nil (t : Tree) : t.at? [] = some t := rfl

theorem at?_cons (t : Tree) (i : Nat) (p : List Nat) :
    t.at? (i :: p) = t.children[i]?.bind fun child => child.at? p := rfl

/-- A path can be gone in two parts. -/
theorem at?_append (t : Tree) (p q : List Nat) : t.at? (p ++ q) = (t.at? p).bind (·.at? q) := by
  -- A level at a time, along the first part.
  induction p generalizing t with
  | nil => rfl
  | cons i p ih =>
    rw [List.cons_append, at?_cons, at?_cons]
    cases t.children[i]? with
    | none => rfl
    | some child => exact ih child

mutual

/-- The paths of all nodes of a tree, in the order of the text. -/
def paths : Tree → List (List Nat)
  | node _ _ _ children => [] :: pathsFrom 0 children

/-- The paths of all nodes of trees that are the children of a node from a position on. -/
def pathsFrom (i : Nat) : List Tree → List (List Nat)
  | [] => []
  | t :: trees => t.paths.map (i :: ·) ++ pathsFrom (i + 1) trees

end

theorem paths_eq (t : Tree) : t.paths = [] :: pathsFrom 0 t.children := by
  cases t
  rfl

/-- The paths of trees start with the positions of the trees. -/
theorem mem_pathsFrom {i : Nat} {trees : List Tree} {p : List Nat} :
    p ∈ pathsFrom i trees ↔ ∃ j t q, trees[j]? = some t ∧ q ∈ t.paths ∧ p = (i + j) :: q := by
  induction trees generalizing i with
  | nil => simp [pathsFrom]
  | cons t trees ih =>
    -- What is the first tree here is at the position `i`, the others are one further on.
    rw [pathsFrom, List.mem_append, List.mem_map, ih]
    constructor
    · rintro (⟨q, hq, rfl⟩ | ⟨j, s, q, hs, hq, rfl⟩)
      · exact ⟨0, t, q, rfl, hq, rfl⟩
      · exact ⟨j + 1, s, q, hs, hq, by rw [Nat.add_right_comm, Nat.add_assoc]⟩
    · rintro ⟨j, s, q, hs, hq, rfl⟩
      cases j with
      | zero =>
        obtain rfl := Option.some.inj hs
        exact .inl ⟨q, hq, rfl⟩
      | succ j => exact .inr ⟨j, s, q, hs, hq, by rw [Nat.add_right_comm, Nat.add_assoc]⟩

/-- The paths that are listed are those that lead to a node. -/
theorem mem_paths {t : Tree} {p : List Nat} : p ∈ t.paths ↔ (t.at? p).isSome = true := by
  -- By the path: its first position is that of a child, and the rest is a path of this child.
  induction p generalizing t with
  | nil => simp [paths_eq]
  | cons i p ih =>
    rw [paths_eq, List.mem_cons, mem_pathsFrom, at?_cons]
    cases hchild : t.children[i]? with
    | none =>
      simp only [Option.bind_none, Option.isSome_none, Bool.false_eq_true, iff_false]
      rintro (hnil | ⟨j, s, q, hs, -, hp⟩)
      · exact nomatch hnil
      · obtain ⟨rfl, -⟩ := List.cons.inj hp
        rw [Nat.zero_add, hs] at hchild
        exact nomatch hchild
    | some child =>
      rw [Option.bind_some, ← ih]
      constructor
      · rintro (hnil | ⟨j, s, q, hs, hq, hp⟩)
        · exact nomatch hnil
        · obtain ⟨rfl, rfl⟩ := List.cons.inj hp
          rw [Nat.zero_add, hs] at hchild
          exact Option.some.inj hchild ▸ hq
      · intro hp
        exact .inr ⟨i, child, p, hchild, hp, by rw [Nat.zero_add]⟩

/-- The paths of trees are listed in lexicographic order if those of each tree are. -/
private theorem pairwise_pathsFrom {trees : List Tree} (h : ∀ t ∈ trees, t.paths.Pairwise (· < ·))
    (i : Nat) : (pathsFrom i trees).Pairwise (· < ·) := by
  induction trees generalizing i with
  | nil => exact List.Pairwise.nil
  | cons t trees ih =>
    have hhead : (t.paths.map (i :: ·)).Pairwise (· < ·) := by
      rw [List.pairwise_map]
      exact (h t List.mem_cons_self).imp fun hlt => List.cons_lt_cons_iff.mpr (.inr ⟨rfl, hlt⟩)
    have htail : (pathsFrom (i + 1) trees).Pairwise (· < ·) :=
      ih (fun s hs => h s (List.mem_cons_of_mem t hs)) (i + 1)
    rw [pathsFrom, List.pairwise_append]
    refine ⟨hhead, htail, ?_⟩
    -- A path into the first tree starts with an earlier position than one into a later tree.
    intro p hp q hq
    obtain ⟨r, -, rfl⟩ := List.mem_map.mp hp
    obtain ⟨j, s, r', -, -, rfl⟩ := mem_pathsFrom.mp hq
    exact List.cons_lt_cons_iff.mpr (.inl (by omega))

/-- The paths are listed in lexicographic order: what is inside a node stands behind it, and before
    what is inside its later siblings. -/
theorem pairwise_paths (t : Tree) : t.paths.Pairwise (· < ·) := by
  induction t using induction with
  | node kind role text children ih =>
    rw [paths, List.pairwise_cons]
    refine ⟨fun p hp => ?_, pairwise_pathsFrom ih 0⟩
    obtain ⟨j, s, q, -, -, rfl⟩ := mem_pathsFrom.mp hp
    exact List.nil_lt_cons _ q

/-- No path is listed twice. -/
theorem nodup_paths (t : Tree) : t.paths.Nodup := by
  refine t.pairwise_paths.imp ?_
  rintro p q hlt rfl
  exact List.lt_irrefl p hlt

/-! ## Walks -/

section

variable {β : Type} {f : List Nat → Option β}

/-- A walk over trees is one over each of them. -/
private theorem filterMap_pathsFrom {g : Tree → List Nat → Option β} {trees : List Tree} {i : Nat}
    (h : ∀ j t, trees[j]? = some t → ∀ p, f ((i + j) :: p) = g t p) :
    (pathsFrom i trees).filterMap f = trees.flatMap fun t => t.paths.filterMap (g t) := by
  -- On the trees; what is at a position here is one further on for the trees behind the first.
  induction trees generalizing i with
  | nil => rfl
  | cons t trees ih =>
    have hhead : (f ∘ fun p => i :: p) = g t := funext fun p => h 0 t rfl p
    have htail : ∀ j s, trees[j]? = some s → ∀ p, f ((i + 1 + j) :: p) = g s p := by
      intro j s hs p
      rw [Nat.add_right_comm, Nat.add_assoc]
      exact h (j + 1) s hs p
    rw [pathsFrom, List.filterMap_append, List.filterMap_map, hhead, ih htail, List.flatMap_cons]

/-- A walk over a tree is one over the root and then over each of its children. -/
theorem filterMap_paths {t : Tree} {g : Tree → List Nat → Option β}
    (h : ∀ i child, t.children[i]? = some child → ∀ p, f (i :: p) = g child p) :
    t.paths.filterMap f =
      (f []).toList ++ t.children.flatMap fun child => child.paths.filterMap (g child) := by
  have hbelow : ∀ j s, t.children[j]? = some s → ∀ p, f ((0 + j) :: p) = g s p := by
    intro j s hs p
    rw [Nat.zero_add]
    exact h j s hs p
  rw [paths_eq, List.filterMap_cons, filterMap_pathsFrom hbelow]
  cases f [] <;> rfl

/-- A walk that looks at nothing but one of the trees is one over this tree. -/
private theorem filterMap_pathsFrom_at {trees : List Tree} {i j : Nat} {t : Tree}
    (ht : trees[j]? = some t) (hf : ∀ k p, k ≠ i + j → f (k :: p) = none) :
    (pathsFrom i trees).filterMap f = t.paths.filterMap fun p => f ((i + j) :: p) := by
  induction trees generalizing i j with
  | nil => exact nomatch ht
  | cons s trees ih =>
    -- Either this is the tree that is looked at and there is nothing in the others, or it is one of
    -- the others and there is nothing in this one.
    rw [pathsFrom, List.filterMap_append, List.filterMap_map]
    cases j with
    | zero =>
      obtain rfl := Option.some.inj ht
      have htail : (pathsFrom (i + 1) trees).filterMap f = [] := by
        rw [List.filterMap_eq_nil_iff]
        intro p hp
        obtain ⟨k, u, q, -, -, rfl⟩ := mem_pathsFrom.mp hp
        exact hf _ q (by omega)
      rw [htail, List.append_nil]
      rfl
    | succ j =>
      have hhead : s.paths.filterMap (f ∘ fun p => i :: p) = [] := by
        rw [List.filterMap_eq_nil_iff]
        intro p _
        exact hf i p (by omega)
      have hpos : i + (j + 1) = i + 1 + j := by omega
      rw [hhead, List.nil_append, hpos]
      exact ih ht fun k p hk => hf k p (by omega)

/-- A walk that looks at nothing but what is at a path or below is one over the tree there. -/
theorem filterMap_paths_at {t s : Tree} {a : List Nat} (h : t.at? a = some s)
    (hf : ∀ p, ¬ a <+: p → f p = none) :
    t.paths.filterMap f = s.paths.filterMap fun p => f (a ++ p) := by
  -- By the path, a level at a time: what is left of `f` below a child is again such a walk.
  induction a generalizing t f with
  | nil =>
    obtain rfl := Option.some.inj h
    rfl
  | cons i a ih =>
    obtain ⟨child, hchild, hs⟩ := Option.bind_eq_some_iff.mp h
    have hother : ∀ k p, k ≠ 0 + i → f (k :: p) = none := by
      intro k p hk
      refine hf _ fun hprefix => hk ?_
      rw [Nat.zero_add, (List.cons_prefix_cons.mp hprefix).1]
    have hroot : f [] = none := hf [] fun hprefix => nomatch List.prefix_nil.mp hprefix
    rw [paths_eq, List.filterMap_cons_none hroot, filterMap_pathsFrom_at hchild hother,
      Nat.zero_add]
    exact ih hs fun p hp => hf _ fun hprefix => hp (List.cons_prefix_cons.mp hprefix).2

end

/-! ## Comments -/

/-- The tree at a path, unless a comment is on the way. The tree at the start may be one. -/
def inside? (t : Tree) : List Nat → Option Tree
  | [] => some t
  | i :: p => t.children[i]?.bind fun child => if child.isComment then none else child.inside? p

@[simp] theorem inside?_nil (t : Tree) : t.inside? [] = some t := rfl

theorem inside?_cons (t : Tree) (i : Nat) (p : List Nat) :
    t.inside? (i :: p) =
      t.children[i]?.bind fun child => if child.isComment then none else child.inside? p := rfl

/-- A path without comments can be gone in two parts. -/
private theorem inside?_append (t : Tree) (p q : List Nat) :
    t.inside? (p ++ q) = (t.inside? p).bind (·.inside? q) := by
  induction p generalizing t with
  | nil => rfl
  | cons i p ih =>
    rw [List.cons_append, inside?_cons, inside?_cons]
    cases t.children[i]? with
    | none => rfl
    | some child =>
      rw [Option.bind_some, Option.bind_some]
      split
      · rfl
      · exact ih child

/-- A path without comments leads where the path leads. -/
theorem at?_of_inside? {t s : Tree} {p : List Nat} (h : t.inside? p = some s) :
    t.at? p = some s := by
  induction p generalizing t with
  | nil => exact h
  | cons i p ih =>
    obtain ⟨child, hchild, hinside⟩ := Option.bind_eq_some_iff.mp h
    -- The child is no comment, as the path goes on below it.
    split at hinside
    · exact nomatch hinside
    · rw [at?_cons, hchild, Option.bind_some, ih hinside]

/-- Whether a path leads from the node at another one to a node below, with no comment on the
    way. -/
def within (t : Tree) (a b : List Nat) : Bool :=
  a ≠ b && a.isPrefixOf b && ((t.at? a).bind (·.inside? (b.drop a.length))).isSome

/-- A node lies within another one if a path that is not empty leads to it with no comment on the
    way. -/
theorem within_iff {t : Tree} {a b : List Nat} :
    t.within a b = true ↔
      ∃ s p, t.at? a = some s ∧ b = a ++ p ∧ p ≠ [] ∧ (s.inside? p).isSome = true := by
  rw [within, Bool.and_eq_true, Bool.and_eq_true, decide_eq_true_eq, List.isPrefixOf_iff_prefix]
  constructor
  · rintro ⟨⟨hne, p, rfl⟩, hsome⟩
    rw [List.drop_left] at hsome
    obtain ⟨s, hs⟩ := Option.isSome_iff_exists.mp (Option.isSome_of_isSome_bind hsome)
    rw [hs] at hsome
    exact ⟨s, p, hs, rfl, fun hp => hne (by rw [hp, List.append_nil]), hsome⟩
  · rintro ⟨s, p, hs, rfl, hp, hsome⟩
    refine ⟨⟨fun hsame => hp (List.self_eq_append_right.mp hsame), List.prefix_append a p⟩, ?_⟩
    rwa [List.drop_left, hs]

/-- What lies within a node is known from the tree there. -/
theorem within_append {t s : Tree} {a : List Nat} (h : t.at? a = some s) (p : List Nat) :
    t.within a (a ++ p) = (p ≠ [] && (s.inside? p).isSome) := by
  rw [Bool.eq_iff_iff, within_iff, Bool.and_eq_true, decide_eq_true_eq]
  constructor
  · rintro ⟨s', p', hs', happend, hp'⟩
    obtain rfl := Option.some.inj (h.symm.trans hs')
    obtain rfl := List.append_cancel_left happend
    exact hp'
  · intro hp
    exact ⟨s, p, h, rfl, hp⟩

/-- What lies within a node lies within every node that this one lies within. -/
theorem within_trans {t : Tree} {a b c : List Nat} (hab : t.within a b = true)
    (hbc : t.within b c = true) : t.within a c = true := by
  obtain ⟨s, p, hs, rfl, hp, hinside⟩ := within_iff.mp hab
  obtain ⟨u, q, hu, rfl, -, hinside'⟩ := within_iff.mp hbc
  obtain ⟨u', hu'⟩ := Option.isSome_iff_exists.mp hinside
  -- The node in between is reached in the same way from both ends.
  obtain rfl : u' = u := by
    rw [at?_append, hs, Option.bind_some, at?_of_inside? hu'] at hu
    exact Option.some.inj hu
  refine within_iff.mpr ⟨s, p ++ q, hs, List.append_assoc a p q, ?_, ?_⟩
  · exact List.append_ne_nil_of_left_ne_nil hp q
  · rwa [inside?_append, hu']

/-- Of two nodes that a node lies within, one lies within the other. -/
theorem within_total {t : Tree} {a b c : List Nat} (hac : t.within a c = true)
    (hbc : t.within b c = true) : a = b ∨ t.within a b = true ∨ t.within b a = true := by
  -- It is enough to look at the shorter path first.
  wlog hle : a.length ≤ b.length generalizing a b
  · rcases this hbc hac (by omega) with h | h | h
    · exact .inl h.symm
    · exact .inr (.inr h)
    · exact .inr (.inl h)
  obtain ⟨s, p, hs, rfl, -, hinside⟩ := within_iff.mp hac
  obtain ⟨u, q, -, hc, -⟩ := within_iff.mp hbc
  obtain ⟨r, rfl⟩ := List.prefix_of_prefix_length_le (List.prefix_append a p) ⟨q, hc.symm⟩ hle
  by_cases hr : r = []
  · exact .inl (by rw [hr, List.append_nil])
  · refine .inr (.inl (within_iff.mpr ⟨s, r, hs, rfl, hr, ?_⟩))
    rw [List.append_assoc, List.append_cancel_left_eq] at hc
    rw [hc, inside?_append] at hinside
    exact Option.isSome_of_isSome_bind hinside

end LogDrift.Java.Tree
