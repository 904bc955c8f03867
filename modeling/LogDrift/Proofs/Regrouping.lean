import LogDrift.Change.Update
import LogDrift.Proofs.DocumentOrder

/-!
# Operands and how they are grouped

Binary operators and parentheses only group what they stand around. The leaves of an expression are
what is left without them (`Tree.leaves`), and the operands of an argument are its leaves, from left
to right, each read by its kind. An expression is grouped differently (`Regroups`) if operators
associate another way, or if parentheses and comments come or go, at any depth of the grouping. Then
the leaves stay, and so does all that is known from the operands: what an argument is made of, the
shape of a call, and how its arguments changed. Leaves are all that stays: of two expressions with
the same leaves each is the other one grouped differently.

## Key results

- `Tree.operands_eq_map_leaves`, `Tree.listsInOrder_leaves`: operands are leaves, in order
- `Regroups.leaves_eq`, `Regroups.of_leaves_eq`: the leaves know all but the grouping
- `Tree.arguments_call`, `CallSite.slots_congr`: calls are compared by operands
-/

namespace LogDrift

/-! ## Lists of lists -/

namespace ListsInOrder

variable {α β : Type}

/-- A list in order is one for any condition with the same paths, and any values that agree on
    them. -/
theorem congr {wanted wanted' : List Nat → Prop} {value? value?' : List Nat → Option β}
    {found : List β} (h : ListsInOrder wanted value? found) (hwanted : ∀ p, wanted p ↔ wanted' p)
    (hvalue : ∀ p, wanted p → value? p = value?' p) : ListsInOrder wanted' value?' found := by
  obtain ⟨ps, hsorted, hmem, hmap⟩ := h
  refine ⟨ps, hsorted, fun p => (hmem p).trans (hwanted p), hmap.trans ?_⟩
  exact List.map_congr_left fun p hp => hvalue p ((hmem p).mp hp)

/-- What is listed in order for each of some values is listed in order for all of them, if the
    position of the value comes first in the path. -/
theorem flatMap {as : List α} {wanted : α → List Nat → Prop} {value? : α → List Nat → Option β}
    {found : α → List β} (h : ∀ a ∈ as, ListsInOrder (wanted a) (value? a) (found a)) :
    ListsInOrder (fun p => ∃ i q a, p = i :: q ∧ as[i]? = some a ∧ wanted a q)
      (fun p => p.head?.bind fun i => as[i]?.bind fun a => value? a p.tail) (as.flatMap found) := by
  choose! places hsorted hmem hmap using h
  refine ⟨as.zipIdx.flatMap fun x => (places x.1).map (x.2 :: ·), ?_, fun p => ?_, ?_⟩
  · rw [List.pairwise_flatMap]
    constructor
    · intro x hx
      rw [List.pairwise_map]
      exact (hsorted x.1 (List.fst_mem_of_mem_zipIdx hx)).imp fun hlt =>
        List.cons_lt_cons_iff.mpr (.inr ⟨rfl, hlt⟩)
    · -- A path to an earlier value starts with an earlier position.
      have hpositions : as.zipIdx.Pairwise fun x y => x.2 < y.2 := by
        rw [← List.pairwise_map (f := Prod.snd), List.zipIdx_map_snd]
        exact List.pairwise_lt_range'
      refine hpositions.imp fun hlt p hp q hq => ?_
      obtain ⟨_, -, rfl⟩ := List.mem_map.mp hp
      obtain ⟨_, -, rfl⟩ := List.mem_map.mp hq
      exact List.cons_lt_cons_iff.mpr (.inl hlt)
  · simp only [List.mem_flatMap, List.mem_map, Prod.exists, List.mk_mem_zipIdx_iff_getElem?]
    constructor
    · rintro ⟨a, i, ha, q, hq, rfl⟩
      exact ⟨i, q, a, rfl, ha, (hmem a (List.mem_of_getElem? ha) q).mp hq⟩
    · rintro ⟨i, q, a, rfl, ha, hq⟩
      exact ⟨a, i, ha, q, (hmem a (List.mem_of_getElem? ha) q).mpr hq, rfl⟩
  · have hvalues : as.flatMap found = as.zipIdx.flatMap fun x => found x.1 := by
      rw [← List.flatMap_map Prod.fst found, List.zipIdx_map_fst]
    rw [hvalues, List.map_flatMap, List.map_flatMap]
    apply List.flatMap_congr
    rintro ⟨a, i⟩ hx
    have ha := List.mk_mem_zipIdx_iff_getElem?.mp hx
    rw [hmap a (List.mem_of_getElem? ha), List.map_map]
    simp [Function.comp_def, ha]

end ListsInOrder

/-! ## Calls by their operands -/

/-- What does not look at the text of an argument is known from the operands. -/
theorem Argument.map_congr_of_operands {β : Type} {f : Argument → β}
    (hf : ∀ a, f a = f ⟨"", a.operands⟩) {as bs : List Argument}
    (h : as.map (·.operands) = bs.map (·.operands)) : as.map f = bs.map f := by
  have hmap (cs : List Argument) :
      cs.map f = (cs.map (·.operands)).map fun operands => f ⟨"", operands⟩ := by
    rw [List.map_map]
    exact List.map_congr_left fun a _ => hf a
  rw [hmap, hmap, h]

/-- Calls are compared by the operands of their arguments. -/
theorem CallSite.slots_congr {s t : CallSite}
    (h : s.arguments.map (·.operands) = t.arguments.map (·.operands)) : s.slots = t.slots := by
  have hempty : s.arguments.isEmpty = t.arguments.isEmpty := by
    rw [← List.isEmpty_map (f := (·.operands)), h, List.isEmpty_map]
  rw [slots, slots, hempty, Argument.map_congr_of_operands (fun _ => rfl) h]

namespace Java.Tree

/-! ## Groups and leaves -/

/-- Whether a tree only groups operands. -/
def isGroup (t : Tree) : Bool := t.kind = .binary || t.kind = .parenthesized

/-- What a group holds, from left to right: the two operands of an operator, or what is in
    parentheses, comments aside. Other trees hold nothing. -/
def members (t : Tree) : List Tree :=
  match t.kind with
  | .binary => (t.child? .left).toList ++ (t.child? .right).toList
  | .parenthesized => t.children.filter (!·.isComment)
  | _ => []

/-- The operand that a leaf is, by its kind. -/
def operandOf (t : Tree) : Operand :=
  match t.kind with
  | .textLiteral => .text t.text
  | .identifier | .fieldAccess | .arrayAccess | .thisReference => .var (compact t.text)
  | .methodInvocation => .call t.call
  | _ => .other t.text

/-- Members are children. -/
theorem mem_children_of_mem_members {t m : Tree} (h : m ∈ t.members) : m ∈ t.children := by
  -- The operands of an operator are found among the children, contents of parentheses are left of
  -- them.
  unfold members at h
  split at h
  · rcases List.mem_append.mp h with h | h <;>
      exact List.mem_of_find?_eq_some (Option.mem_toList.mp h)
  · exact List.mem_of_mem_filter h
  · exact nomatch h

/-- So members are smaller, which is why leaves can be collected from them. -/
private theorem sizeOf_lt_of_mem_members {t m : Tree} (h : m ∈ t.members) :
    sizeOf m < sizeOf t := by
  have hchild := List.sizeOf_lt_of_mem (mem_children_of_mem_members h)
  cases t
  simp only [children] at hchild
  simp only [node.sizeOf_spec]
  omega

/-- What holds of a tree if it holds of the members of it holds of every tree. -/
theorem members_induction {motive : Tree → Prop}
    (tree : ∀ t : Tree, (∀ m ∈ t.members, motive m) → motive t) (t : Tree) : motive t := by
  induction t using induction with
  | node kind role text children ih =>
    exact tree _ fun m hm => ih m (mem_children_of_mem_members hm)

/-- The leaves of an expression, from left to right. -/
def leaves (t : Tree) : List Tree :=
  if t.isGroup then t.members.attach.flatMap fun m => m.1.leaves else [t]
termination_by t
decreasing_by exact sizeOf_lt_of_mem_members m.2

/-- The leaves of a group are those of its members, one after the other. -/
theorem leaves_of_isGroup {t : Tree} (h : t.isGroup = true) :
    t.leaves = t.members.flatMap leaves := by
  rw [leaves, if_pos h]
  simp

/-- What is no group is its own only leaf. -/
theorem leaves_of_not_isGroup {t : Tree} (h : t.isGroup = false) : t.leaves = [t] := by
  rw [leaves, if_neg (by simp [h])]

/-- What is no group has no members. -/
theorem members_of_not_isGroup {t : Tree} (h : t.isGroup = false) : t.members = [] := by
  cases t with
  -- Of all kinds, only operators and parentheses have members.
  | node kind role text children => cases kind <;> first | rfl | exact nomatch h

/-! ## Operands are leaves -/

/-- The operands of the child in a role, by look-up of the child. -/
private theorem operandsInRole_eq (role : Role) (trees : List Tree) :
    operandsInRole role trees = (inRole? role trees).toList.flatMap operands := by
  induction trees with
  | nil => rfl
  | cons t trees ih =>
    rw [operandsInRole, inRole?, List.find?_cons]
    by_cases h : t.role = some role
    · simp [h]
    · simp [h, ih, inRole?]

/-- The operands of a list of trees, comments aside, one tree after the other. -/
private theorem operandsOfAll_eq (trees : List Tree) :
    operandsOfAll trees = (trees.filter (!·.isComment)).flatMap operands := by
  induction trees with
  | nil => rfl
  | cons t trees ih =>
    rw [operandsOfAll, ih]
    cases h : t.isComment <;> simp [h]

/-- The operands of a group are those of its members, one after the other. -/
theorem operands_of_isGroup {t : Tree} (h : t.isGroup = true) :
    t.operands = t.members.flatMap operands := by
  cases t with
  -- Only the two kinds of groups remain.
  | node kind role text children =>
    cases kind
    case binary =>
      rw [operands, operandsInRole_eq, operandsInRole_eq, ← List.flatMap_append]
      rfl
    case parenthesized =>
      rw [operands, operandsOfAll_eq]
      rfl
    all_goals exact nomatch h

/-- What is no group is one operand. -/
theorem operands_of_not_isGroup {t : Tree} (h : t.isGroup = false) :
    t.operands = [t.operandOf] := by
  cases t with
  | node kind role text children => cases kind <;> first | rfl | exact nomatch h

/-- The operands of an expression are its leaves. -/
theorem operands_eq_map_leaves (t : Tree) : t.operands = t.leaves.map operandOf := by
  induction t using members_induction with
  | tree t ih =>
    cases hgroup : t.isGroup with
    | true =>
      rw [operands_of_isGroup hgroup, leaves_of_isGroup hgroup, List.map_flatMap]
      exact List.flatMap_congr ih
    | false => rw [operands_of_not_isGroup hgroup, leaves_of_not_isGroup hgroup, List.map_singleton]

/-- The tree at a place of an expression, which says for each group on the way the position of a
    member. -/
def memberAt? (t : Tree) : List Nat → Option Tree
  | [] => some t
  | i :: p => t.members[i]?.bind fun m => m.memberAt? p

/-- Whether there is a leaf at a place. -/
def IsLeafAt (t : Tree) (p : List Nat) : Prop := ∃ s, t.memberAt? p = some s ∧ s.isGroup = false

theorem memberAt?_cons (t : Tree) (i : Nat) (p : List Nat) :
    t.memberAt? (i :: p) = t.members[i]?.bind fun m => m.memberAt? p := rfl

/-- The leaves are listed from left to right. -/
theorem listsInOrder_leaves (t : Tree) : ListsInOrder t.IsLeafAt t.memberAt? t.leaves := by
  induction t using members_induction with
  | tree t ih =>
    cases hgroup : t.isGroup with
    | true =>
      -- A place of a leaf goes on in a member, and there it is a place of one of its leaves.
      rw [leaves_of_isGroup hgroup]
      refine (ListsInOrder.flatMap ih).congr (fun p => ?_) (fun p hp => ?_)
      · cases p with
        | nil => simp [IsLeafAt, memberAt?, hgroup]
        | cons i q =>
          simp only [List.cons.injEq, IsLeafAt, memberAt?_cons, Option.bind_eq_some_iff]
          constructor
          · rintro ⟨_, _, m, ⟨rfl, rfl⟩, hm, s, hs, hleaf⟩
            exact ⟨s, ⟨m, hm, hs⟩, hleaf⟩
          · rintro ⟨s, ⟨m, hm, hs⟩, hleaf⟩
            exact ⟨i, q, m, ⟨rfl, rfl⟩, hm, s, hs, hleaf⟩
      · obtain ⟨i, q, _, rfl, -, -⟩ := hp
        rfl
    | false =>
      -- There is no way on from a leaf.
      rw [leaves_of_not_isGroup hgroup]
      refine ⟨[[]], List.pairwise_singleton _ _, fun p => ?_, rfl⟩
      cases p with
      | nil => simp [IsLeafAt, memberAt?, hgroup]
      | cons i q => simp [IsLeafAt, memberAt?_cons, members_of_not_isGroup hgroup]

/-! ## Trees without their role -/

/-- A tree without the role that it plays in its parent. -/
def bare : Tree → Tree
  | node kind _ text children => node kind none text children

@[simp] theorem bare_withRole (t : Tree) (role : Role) : (t.withRole role).bare = t.bare := by
  cases t
  rfl

/-- The role of a tree says nothing about whether it is a group. -/
theorem isGroup_eq_of_bare_eq {s t : Tree} (h : s.bare = t.bare) : s.isGroup = t.isGroup := by
  cases s
  cases t
  obtain ⟨rfl, -, rfl, rfl⟩ := node.inj h
  rfl

/-- Nor does it say anything about the members. -/
theorem members_eq_of_bare_eq {s t : Tree} (h : s.bare = t.bare) : s.members = t.members := by
  cases s
  cases t
  obtain ⟨rfl, -, rfl, rfl⟩ := node.inj h
  rfl

@[simp] theorem operandOf_bare (t : Tree) : t.bare.operandOf = t.operandOf := by
  cases t
  rfl

/-- But for roles, trees that differ in their role have the same leaves. -/
theorem map_bare_leaves_of_bare_eq {s t : Tree} (h : s.bare = t.bare) :
    s.leaves.map bare = t.leaves.map bare := by
  have hgroup := isGroup_eq_of_bare_eq h
  cases ht : t.isGroup with
  | true =>
    rw [leaves_of_isGroup (hgroup.trans ht), leaves_of_isGroup ht, members_eq_of_bare_eq h]
  | false =>
    rw [leaves_of_not_isGroup (hgroup.trans ht), leaves_of_not_isGroup ht, List.map_singleton,
      List.map_singleton, h]

/-- The operands are known from the leaves, whatever role these play. -/
theorem operands_eq_of_leaves_eq {s t : Tree} (h : s.leaves.map bare = t.leaves.map bare) :
    s.operands = t.operands := by
  have hoperands (u : Tree) : u.operands = (u.leaves.map bare).map operandOf := by
    rw [operands_eq_map_leaves, List.map_map]
    exact List.map_congr_left fun m _ => (operandOf_bare m).symm
  rw [hoperands, hoperands, h]

/-! ## Groupings -/

/-- A tree is an operator between two operands. -/
structure Joins (t a b : Tree) : Prop where
  kind_eq : t.kind = .binary
  left : t.child? .left = some (a.withRole .left)
  right : t.child? .right = some (b.withRole .right)

/-- A tree is an expression in parentheses, with comments around it or not. -/
structure Encloses (t e : Tree) : Prop where
  kind_eq : t.kind = .parenthesized
  contents : t.children.filter (!·.isComment) = [e]

/-- Whether two expressions are the same but for how their operands are grouped. -/
inductive Regroups : Tree → Tree → Prop
  /-- The role of a tree belongs to what is around it. -/
  | role {s t : Tree} (h : s.bare = t.bare) : Regroups s t
  | symm {s t : Tree} (h : Regroups s t) : Regroups t s
  | trans {s t u : Tree} (h : Regroups s t) (h' : Regroups t u) : Regroups s u
  /-- An operator of an operator and a third operand, and one with the operator on the right. -/
  | assoc {s t l r a b c : Tree} (hs : Joins s l c) (hl : Joins l a b) (ht : Joins t a r)
      (hr : Joins r b c) : Regroups s t
  | parens {t e : Tree} (h : Encloses t e) : Regroups t e
  /-- Groups of the same members, whatever comments are between them. -/
  | comments {s t : Tree} (hgroup : s.isGroup = true) (hkind : s.kind = t.kind)
      (h : s.members = t.members) : Regroups s t
  /-- Groups in which one member is grouped differently. -/
  | inside {s t a b : Tree} {before after : List Tree} (hkind : s.kind = t.kind)
      (hs : s.members = before ++ a :: after) (ht : t.members = before ++ b :: after)
      (h : Regroups a b) : Regroups s t

namespace Joins

variable {t a b : Tree} (h : Joins t a b)

include h

/-- An operator between two operands is a group. -/
theorem isGroup : t.isGroup = true := by
  rw [Tree.isGroup, h.kind_eq]
  rfl

/-- Its members are the two operands, in the roles that they play in it. -/
theorem members_eq : t.members = [a.withRole .left, b.withRole .right] := by
  rw [members, h.kind_eq, h.left, h.right]
  rfl

/-- Its leaves are those of the operand on the left, and then those on the right. -/
theorem map_bare_leaves :
    t.leaves.map bare = a.leaves.map bare ++ b.leaves.map bare := by
  rw [leaves_of_isGroup h.isGroup, h.members_eq, List.flatMap_cons, List.flatMap_singleton,
    List.map_append, map_bare_leaves_of_bare_eq (bare_withRole a .left),
    map_bare_leaves_of_bare_eq (bare_withRole b .right)]

end Joins

namespace Encloses

variable {t e : Tree} (h : Encloses t e)

include h

/-- An expression in parentheses is a group. -/
theorem isGroup : t.isGroup = true := by
  rw [Tree.isGroup, h.kind_eq]
  rfl

/-- Its only member is what is in the parentheses. -/
theorem members_eq : t.members = [e] := by
  rw [members, h.kind_eq]
  exact h.contents

/-- Parentheses add no leaves. -/
theorem leaves_eq : t.leaves = e.leaves := by
  rw [leaves_of_isGroup h.isGroup, h.members_eq, List.flatMap_singleton]

end Encloses

namespace Regroups

/-- The leaves of an expression stay when it is grouped differently. -/
theorem leaves_eq {s t : Tree} (h : Regroups s t) : s.leaves.map bare = t.leaves.map bare := by
  induction h with
  | role h => exact map_bare_leaves_of_bare_eq h
  | symm _ ih => exact ih.symm
  | trans _ _ ih ih' => exact ih.trans ih'
  -- Both sides have the leaves of the three operands, in this order.
  | assoc hs hl ht hr =>
    rw [hs.map_bare_leaves, hl.map_bare_leaves, ht.map_bare_leaves, hr.map_bare_leaves,
      List.append_assoc]
  | parens h => rw [h.leaves_eq]
  | @comments s t hgroup hkind h =>
    have hgroup' : t.isGroup = true := by rwa [isGroup, ← hkind]
    rw [leaves_of_isGroup hgroup, leaves_of_isGroup hgroup', h]
  | @inside s t a b before after hkind hs ht _ ih =>
    -- A tree with members is a group.
    have hgroup {u m : Tree} (hu : u.members = before ++ m :: after) : u.isGroup = true := by
      by_contra hnot
      rw [members_of_not_isGroup (Bool.not_eq_true _ ▸ hnot)] at hu
      simp at hu
    rw [leaves_of_isGroup (hgroup hs), leaves_of_isGroup (hgroup ht), hs, ht]
    simp only [List.flatMap_append, List.flatMap_cons, List.map_append, ih]

theorem refl (t : Tree) : Regroups t t := .role rfl

/-- Expressions may play another role together. -/
theorem withRole {s t : Tree} (h : Regroups s t) (role : Role) :
    Regroups (s.withRole role) (t.withRole role) :=
  (Regroups.role (bare_withRole s role)).trans (h.trans (.role (bare_withRole t role).symm))

end Regroups

/-! ## Expressions with the same leaves -/

/-- Whether a tree is an expression: every operator in its grouping has two operands, and every pair
    of parentheses has one expression in it. -/
inductive IsExpression : Tree → Prop
  | leaf {t : Tree} (h : t.isGroup = false) : IsExpression t
  | joins {t a b : Tree} (h : Joins t a b) (ha : IsExpression a) (hb : IsExpression b) :
      IsExpression t
  | encloses {t e : Tree} (h : Encloses t e) (he : IsExpression e) : IsExpression t

/-- An operator between two operands, with the given text. -/
def joined (text : String) (a b : Tree) : Tree :=
  node .binary none text [a.withRole .left, b.withRole .right]

/-- An expression without parentheses whose operators associate to the right, by its leaves. -/
def chain : Tree → List Tree → Tree
  | a, [] => a
  | a, b :: bs => joined "" a (chain b bs)

@[simp] theorem role_withRole (t : Tree) (role : Role) : (t.withRole role).role = some role := by
  cases t
  rfl

/-- The built operator is one between its two operands. -/
theorem joins_joined (text : String) (a b : Tree) : Joins (joined text a b) a b where
  kind_eq := rfl
  left := by simp [child?, inRole?, joined, children]
  right := by simp [child?, inRole?, joined, children]

namespace Regroups

/-- The operands of an operator may be grouped differently. -/
theorem joins {s t a b a' b' : Tree} (hs : Joins s a b) (ht : Joins t a' b') (ha : Regroups a a')
    (hb : Regroups b b') : Regroups s t := by
  -- One operand after the other.
  have hmiddle := joins_joined "" a' b
  have hleft : Regroups s (joined "" a' b) :=
    @inside _ _ _ _ [] [b.withRole .right] (hs.kind_eq.trans hmiddle.kind_eq.symm) hs.members_eq
      hmiddle.members_eq (ha.withRole .left)
  have hright : Regroups (joined "" a' b) t :=
    @inside _ _ _ _ [a'.withRole .left] [] (hmiddle.kind_eq.trans ht.kind_eq.symm)
      hmiddle.members_eq ht.members_eq (hb.withRole .right)
  exact hleft.trans hright

/-- Two chains that an operator joins are one chain, grouped differently. -/
private theorem joined_chain (a b : Tree) (as bs : List Tree) :
    Regroups (joined "" (chain a as) (chain b bs)) (chain a (as ++ b :: bs)) := by
  induction as generalizing a with
  | nil => exact refl _
  | cons a' as ih =>
    -- The first leaf goes to the left of all others.
    refine trans (.assoc (joins_joined _ _ _) (joins_joined _ a (chain a' as))
      (joins_joined "" _ _) (joins_joined "" _ _)) ?_
    exact joins (joins_joined _ _ _) (joins_joined _ _ _) (refl a) (ih a')

/-- Chains of the same leaves are the same but for the roles of these. -/
private theorem chain_congr {a b : Tree} {as bs : List Tree}
    (h : (a :: as).map bare = (b :: bs).map bare) : Regroups (chain a as) (chain b bs) := by
  -- Both chains end at the same leaf, since they have equally many.
  induction as generalizing a b bs with
  | nil =>
    cases bs with
    | nil => exact .role (List.cons.inj h).1
    | cons b' bs => exact nomatch (List.cons.inj h).2
  | cons a' as ih =>
    cases bs with
    | nil => exact nomatch (List.cons.inj h).2
    | cons b' bs =>
      obtain ⟨hbare, hrest⟩ := List.cons.inj h
      exact joins (joins_joined _ _ _) (joins_joined _ _ _) (.role hbare) (ih hrest)

/-- Every expression is the chain of its leaves, grouped differently. -/
theorem exists_chain {t : Tree} (h : IsExpression t) :
    ∃ a as, t.leaves.map bare = (a :: as).map bare ∧ Regroups t (chain a as) := by
  induction h with
  | @leaf t h => exact ⟨t, [], by rw [leaves_of_not_isGroup h], refl t⟩
  -- Each operand is a chain, and the operator makes one of the two.
  | @joins t a b h _ _ iha ihb =>
    obtain ⟨a', as, ha, hachain⟩ := iha
    obtain ⟨b', bs, hb, hbchain⟩ := ihb
    refine ⟨a', as ++ b' :: bs, ?_, ?_⟩
    · rw [h.map_bare_leaves, ha, hb, ← List.map_append, List.cons_append]
    · exact (joins h (joins_joined _ _ _) hachain hbchain).trans (joined_chain a' b' as bs)
  | encloses h _ ih =>
    obtain ⟨a, as, hleaves, hchain⟩ := ih
    exact ⟨a, as, by rw [h.leaves_eq, hleaves], (Regroups.parens h).trans hchain⟩

/-- Expressions with the same leaves differ in their grouping only. -/
theorem of_leaves_eq {s t : Tree} (hs : IsExpression s) (ht : IsExpression t)
    (h : s.leaves.map bare = t.leaves.map bare) : Regroups s t := by
  obtain ⟨a, as, ha, hachain⟩ := exists_chain hs
  obtain ⟨b, bs, hb, hbchain⟩ := exists_chain ht
  -- Both are grouped as chains, and these have the same leaves.
  rw [ha, hb] at h
  exact hachain.trans ((chain_congr h).trans hbchain.symm)

end Regroups

/-! ## Arguments -/

/-- The trees that are the arguments of an invocation. -/
def argumentTrees (t : Tree) : List Tree :=
  ((t.child? .arguments).map fun list => list.children.filter (!·.isComment)).getD []

/-- The arguments in a list of trees, comments aside, with their operands. -/
private theorem argumentsOfAll_eq (trees : List Tree) :
    argumentsOfAll trees =
      (trees.filter (!·.isComment)).map fun t => ⟨t.text, t.operands⟩ := by
  induction trees with
  | nil => rfl
  | cons t trees ih =>
    rw [argumentsOfAll, ih]
    cases h : t.isComment <;> simp [h]

/-- The arguments of a call are those of its argument trees. -/
theorem arguments_call (t : Tree) :
    t.call.arguments = t.argumentTrees.map fun a => ⟨a.text, a.operands⟩ := by
  rw [call, argumentTrees, child?]
  -- The argument list is the first child in that role, so both sides pass over the children before
  -- it.
  induction t.children with
  | nil => rfl
  | cons s trees ih =>
    obtain ⟨kind, role, text, children⟩ := s
    rw [argumentsOf, inRole?, List.find?_cons]
    by_cases h : role = some .arguments
    · simp [h, Tree.role, Tree.children, argumentsOfAll_eq]
    · simp only [h, if_false, Tree.role, decide_false]
      exact ih

/-- Arguments that are grouped differently, each by itself, have the same operands. -/
private theorem map_operands_of_regroups {trees trees' : List Tree}
    (h : List.Forall₂ Regroups trees trees') : trees.map operands = trees'.map operands := by
  induction h with
  | nil => rfl
  | cons h _ ih => rw [List.map_cons, List.map_cons, ih, operands_eq_of_leaves_eq h.leaves_eq]

/-- The operands of an expression are its leaves, from left to right, each read by its kind. They
    stay when the expression is grouped differently: when operators associate another way, and when
    parentheses, or comments in them, come or go at any depth. Expressions with the same leaves are
    of this kind. So for two calls whose arguments differ in their grouping only, the operands and
    the facets of the arguments are the same, and so are the shape of the call and what is reported
    when the arguments are compared with those of any other call, in either direction. -/
theorem operands_forget_grouping :
    (∀ t : Tree,
      ListsInOrder t.IsLeafAt (fun p => (t.memberAt? p).map operandOf) t.operands) ∧
    (∀ s t : Tree, Regroups s t → s.operands = t.operands) ∧
    (∀ s t : Tree, IsExpression s → IsExpression t →
      (Regroups s t ↔ s.leaves.map bare = t.leaves.map bare)) ∧
    ∀ s t : Tree, List.Forall₂ Regroups s.argumentTrees t.argumentTrees →
      s.call.arguments.map (·.operands) = t.call.arguments.map (·.operands) ∧
      s.call.arguments.map Argument.facets = t.call.arguments.map Argument.facets ∧
      (CallSite.ofCall s.call).shape? = (CallSite.ofCall t.call).shape? ∧
      ∀ other, argumentChange? (CallSite.ofCall s.call) other =
          argumentChange? (CallSite.ofCall t.call) other ∧
        argumentChange? other (CallSite.ofCall s.call) =
          argumentChange? other (CallSite.ofCall t.call) := by
  refine ⟨fun t => ?_, fun s t h => operands_eq_of_leaves_eq h.leaves_eq, fun s t hs ht => ?_,
    fun s t h => ?_⟩
  · rw [operands_eq_map_leaves]
    exact t.listsInOrder_leaves.map operandOf
  · exact ⟨Regroups.leaves_eq, Regroups.of_leaves_eq hs ht⟩
  · have hoperands : s.call.arguments.map (·.operands) = t.call.arguments.map (·.operands) := by
      rw [arguments_call, arguments_call, List.map_map, List.map_map]
      exact map_operands_of_regroups h
    -- All that is computed from the arguments is computed from their operands.
    have hslots : (CallSite.ofCall s.call).slots = (CallSite.ofCall t.call).slots :=
      CallSite.slots_congr hoperands
    have hfacets : s.call.arguments.map Argument.facets = t.call.arguments.map Argument.facets :=
      Argument.map_congr_of_operands (fun _ => rfl) hoperands
    refine ⟨hoperands, hfacets, ?_, fun other => ⟨?_, ?_⟩⟩
    · exact congrArg (fun sets => SomeFacets.of? (Facets.unions sets)) hfacets
    · rw [argumentChange?, argumentChange?, hslots]
    · rw [argumentChange?, argumentChange?, hslots]

/-- A variable. -/
def variableNamed (name : String) : Tree := node .identifier none name []

/-- A literal. -/
def literalOf (text : String) : Tree := node .textLiteral none text []

/-- An expression in parentheses, behind a comment. -/
def parenthesesOf (text comment : String) (e : Tree) : Tree :=
  node .parenthesized none text [node .comment none comment [], e]

/-- The argument `a + b + "x"`. -/
def argumentFromLeft : Tree :=
  joined "a + b + \"x\"" (joined "a + b" (variableNamed "a") (variableNamed "b"))
    (literalOf "\"x\"")

/-- The argument `a + (/* all */ b + "x")`. -/
def argumentFromRight : Tree :=
  joined "a + (/* all */ b + \"x\")" (variableNamed "a")
    (parenthesesOf "(/* all */ b + \"x\")" "/* all */"
      (joined "b + \"x\"" (variableNamed "b") (literalOf "\"x\"")))

/-- A logging call of one argument. -/
def loggingCallOf (argument : Tree) : Tree :=
  node .methodInvocation none ("Log.d(" ++ argument.text ++ ")")
    [node .identifier (some .object) "Log" [], node .identifier (some .name) "d" [],
      node .argumentList (some .arguments) ("(" ++ argument.text ++ ")") [argument]]

/-- Two groupings of the same three operands: the calls have different texts, but no change of the
    arguments is reported. -/
theorem operands_forget_grouping_of_three_operands :
    List.Forall₂ Regroups (loggingCallOf argumentFromLeft).argumentTrees
        (loggingCallOf argumentFromRight).argumentTrees ∧
      (loggingCallOf argumentFromLeft).call.arguments.map (·.operands) =
        (loggingCallOf argumentFromRight).call.arguments.map (·.operands) ∧
      argumentChange? (CallSite.ofCall (loggingCallOf argumentFromLeft).call)
          (CallSite.ofCall (loggingCallOf argumentFromRight).call) =
        argumentChange? (CallSite.ofCall (loggingCallOf argumentFromRight).call)
          (CallSite.ofCall (loggingCallOf argumentFromRight).call) := by
  -- The operators are associated first, and then the parentheses are put around the inner one.
  have hassoc : Regroups argumentFromLeft (joined "" (variableNamed "a")
      (joined "b + \"x\"" (variableNamed "b") (literalOf "\"x\""))) :=
    .assoc (joins_joined _ _ _) (joins_joined _ _ _) (joins_joined _ _ _) (joins_joined _ _ _)
  have hregroups : Regroups argumentFromLeft argumentFromRight :=
    hassoc.trans (.joins (joins_joined _ _ _) (joins_joined _ _ _) (.refl _)
      (.symm (.parens ⟨rfl, rfl⟩)))
  have harguments : List.Forall₂ Regroups (loggingCallOf argumentFromLeft).argumentTrees
      (loggingCallOf argumentFromRight).argumentTrees := .cons hregroups .nil
  obtain ⟨hoperands, -, -, hchange⟩ := operands_forget_grouping.2.2.2 _ _ harguments
  exact ⟨harguments, hoperands, (hchange _).1⟩

end Java.Tree

end LogDrift
