import LogDrift.Proofs.StatementOwners

/-!
# Methods and calls in the order of the text

What a walk over a tree lists is said here by what it looks for, without the walk: there is one
value for every node of a certain kind, and the values stand in the order of the text
(`ListsInOrder`). Paths are compared lexicographically for it, so a node stands before what is
inside it, and before its later siblings.

A method is listed for every declaration with a body that stands directly in the body of a class
declaration (`Tree.DeclaresMethod`), and the calls of a method are those of the statements inside
its body that are headed by an invocation (`Tree.IsCallStatement`), whatever blocks, lambdas and
classes they are nested in.

## Key results

- `Tree.inside?_eq_some_iff`: a walk that passes over comments comes to what is in none of them
- `Tree.methodAt?_eq_some_iff_declaresMethod`, `Tree.callBelow?_eq_some_iff`: what the walks look
  for
- `Tree.listsInOrder_methods`, `Tree.listsInOrder_callsOf_bodyNodes`: what the walks list
-/

namespace LogDrift

/-! ## Lists in the order of the text -/

/-- Whether a list holds one value for each of the nodes that are looked for, in the order of the
    text. The nodes are known by their paths. -/
def ListsInOrder {β : Type} (wanted : List Nat → Prop) (value? : List Nat → Option β)
    (found : List β) : Prop :=
  ∃ ps : List (List Nat), ps.Pairwise (· < ·) ∧ (∀ p, p ∈ ps ↔ wanted p) ∧
    found.map some = ps.map value?

namespace ListsInOrder

variable {β γ : Type} {wanted : List Nat → Prop} {value? : List Nat → Option β} {found : List β}

/-- Values may be mapped in a list in order. -/
theorem map (h : ListsInOrder wanted value? found) (f : β → γ) :
    ListsInOrder wanted (fun p => (value? p).map f) (found.map f) := by
  obtain ⟨ps, hsorted, hmem, hmap⟩ := h
  refine ⟨ps, hsorted, hmem, ?_⟩
  have hboth := congrArg (List.map (Option.map f)) hmap
  rw [List.map_map, List.map_map] at hboth
  rw [List.map_map]
  exact hboth

/-- Values may be left out: then there is one for each node whose value is kept. -/
theorem filter (h : ListsInOrder wanted value? found) (keep : β → Bool) :
    ListsInOrder (fun p => wanted p ∧ ∃ b, value? p = some b ∧ keep b = true) value?
      (found.filter keep) := by
  obtain ⟨ps, hsorted, hmem, hmap⟩ := h
  refine ⟨ps.filter fun p => (value? p).any keep, hsorted.filter _, fun p => ?_, ?_⟩
  · rw [List.mem_filter, hmem, Option.any_eq_true]
  · have hboth := congrArg (List.filter (Option.any keep)) hmap
    rw [List.filter_map, List.filter_map] at hboth
    exact hboth

end ListsInOrder

namespace Java.Tree

/-- A walk lists a value for each node that it looks for, in the order of the text, if it finds
    their values and nothing else. -/
theorem listsInOrder_filterMap {β : Type} {t : Tree} {wanted : List Nat → Prop}
    {find? value? : List Nat → Option β}
    (hfind : ∀ p b, find? p = some b ↔ wanted p ∧ value? p = some b)
    (hwanted : ∀ p, wanted p → p ∈ t.paths ∧ (value? p).isSome = true) :
    ListsInOrder wanted value? (t.paths.filterMap find?) := by
  have hsome (p : List Nat) : (find? p).isSome = true ↔ wanted p := by
    rw [Option.isSome_iff_exists]
    constructor
    · rintro ⟨b, hb⟩
      exact ((hfind p b).mp hb).1
    · intro hp
      obtain ⟨b, hb⟩ := Option.isSome_iff_exists.mp (hwanted p hp).2
      exact ⟨b, (hfind p b).mpr ⟨hp, hb⟩⟩
  -- The places are the paths at which something is found, as the walk comes to them.
  refine ⟨t.paths.filter fun p => (find? p).isSome, t.pairwise_paths.filter _, fun p => ?_, ?_⟩
  · rw [List.mem_filter, hsome, and_iff_right_iff_imp]
    exact fun hp => (hwanted p hp).1
  · rw [← filterMap_filter_isSome, map_some_filterMap fun p hp => (List.mem_filter.mp hp).2]
    apply List.map_congr_left
    intro p hp
    obtain ⟨b, hb⟩ := Option.isSome_iff_exists.mp (List.mem_filter.mp hp).2
    rw [hb, ((hfind p b).mp hb).2]

/-! ## Methods -/

/-- The node at a path is the declaration of a method with a body, and stands directly in the body
    of a class declaration. -/
structure DeclaresMethod (t : Tree) (p : List Nat) : Prop where
  kind_eq : t.kindAt? p = some .methodDeclaration
  in_class : ∃ r i j, p = r ++ [i, j] ∧ t.kindAt? r = some .classDeclaration ∧
    t.kindAt? (r ++ [i]) = some .classBody
  has_body : ∃ decl body, t.at? p = some decl ∧ decl.child? .body = some body

/-- The method that a declaration makes, given its path. -/
def methodOf? (t : Tree) (p : List Nat) : Option Method := (t.at? p).bind method?

/-- A declaration makes a method if it has a body. -/
theorem isSome_method? {t : Tree} : t.method?.isSome = (t.child? .body).isSome := by
  rw [method?, Option.isSome_map]

/-- Directly above a declaration in the body of a class are this body and the class. -/
private theorem exists_append_iff {t : Tree} {p : List Nat} :
    (t.kindAt? p.dropLast.dropLast = some .classDeclaration ∧
      t.kindAt? p.dropLast = some .classBody) ↔
      ∃ r i j, p = r ++ [i, j] ∧ t.kindAt? r = some .classDeclaration ∧
        t.kindAt? (r ++ [i]) = some .classBody := by
  constructor
  · rintro ⟨hclass, hbody⟩
    -- A path of less than two positions does not lead out of the class, which is no class body.
    obtain rfl | ⟨q, j, rfl⟩ := p.eq_nil_or_concat'
    · exact nomatch hclass.symm.trans hbody
    rw [List.dropLast_concat] at hclass hbody
    obtain rfl | ⟨r, i, rfl⟩ := q.eq_nil_or_concat'
    · exact nomatch hclass.symm.trans hbody
    rw [List.dropLast_concat] at hclass
    exact ⟨r, i, j, List.append_assoc r [i] [j], hclass, hbody⟩
  · rintro ⟨r, i, j, rfl, hclass, hbody⟩
    have happend : r ++ [i, j] = r ++ [i] ++ [j] := (List.append_assoc r [i] [j]).symm
    rw [happend, List.dropLast_concat, List.dropLast_concat]
    exact ⟨hclass, hbody⟩

/-- The walk over the declarations finds the methods of those with a body in a class declaration,
    and no other. -/
theorem methodAt?_eq_some_iff_declaresMethod {t : Tree} {p : List Nat} {m : Method} :
    t.methodAt? p = some m ↔ t.DeclaresMethod p ∧ t.methodOf? p = some m := by
  rw [methodAt?_eq_some_iff, methodOf?, Option.bind_eq_some_iff]
  constructor
  · rintro ⟨⟨hclass, hbody, hkind⟩, decl, hdecl, hm⟩
    obtain ⟨body, hchild⟩ : ∃ body, decl.child? .body = some body := by
      rw [← Option.isSome_iff_exists, ← isSome_method?, hm, Option.isSome_some]
    exact ⟨⟨hkind, exists_append_iff.mp ⟨hclass, hbody⟩, decl, body, hdecl, hchild⟩,
      decl, hdecl, hm⟩
  · rintro ⟨⟨hkind, habove, -⟩, hmethod⟩
    obtain ⟨hclass, hbody⟩ := exists_append_iff.mpr habove
    exact ⟨⟨hclass, hbody, hkind⟩, hmethod⟩

/-- The methods of a tree are listed for their declarations, in the order of the text. -/
theorem listsInOrder_methods (t : Tree) : ListsInOrder t.DeclaresMethod t.methodOf? t.methods := by
  rw [methods_eq_filterMap_paths]
  refine listsInOrder_filterMap (fun p m => methodAt?_eq_some_iff_declaresMethod) fun p hp => ?_
  obtain ⟨decl, body, hdecl, hbody⟩ := hp.has_body
  refine ⟨mem_paths_of_kindAt? hp.kind_eq, ?_⟩
  rw [methodOf?, hdecl, Option.bind_some, isSome_method?, hbody, Option.isSome_some]

/-! ## Calls -/

/-- The node at a path, which is not the root, is an expression statement whose first child is an
    invocation, and there is no comment on the way to it. -/
structure IsCallStatement (t : Tree) (q : List Nat) : Prop where
  ne_nil : q ≠ []
  kind_eq : t.kindAt? q = some .expressionStatement
  head_kind_eq : t.kindAt? (q ++ [0]) = some .methodInvocation
  outside_comments : ∀ r, r <+: q → r ≠ [] → t.kindAt? r ≠ some .comment

/-- The call of the invocation that heads the statement at a path. -/
def headCall? (t : Tree) (q : List Nat) : Option Call := (t.at? (q ++ [0])).map call

/-- What is on the way below a child is the child and what is on the way from there. -/
private theorem forall_prefix_cons_iff {P : List Nat → Prop} {i : Nat} {q : List Nat} :
    (∀ r, r <+: i :: q → r ≠ [] → P r) ↔ P [i] ∧ ∀ r, r <+: q → r ≠ [] → P (i :: r) := by
  constructor
  · intro h
    exact ⟨h [i] (List.prefix_append [i] q) (List.cons_ne_nil i []), fun r hr _ =>
      h (i :: r) (List.cons_prefix_cons.mpr ⟨rfl, hr⟩) (List.cons_ne_nil i r)⟩
  · -- What is on the way is the child itself or below it.
    intro ⟨hchild, hbelow⟩ r hr hne
    obtain rfl | ⟨r, rfl, hprefix⟩ := List.prefix_cons_iff.mp hr
    · exact absurd rfl hne
    · by_cases hnil : r = []
      · rwa [hnil]
      · exact hbelow r hprefix hnil

/-- A walk that passes over comments comes to the nodes that are in no comment. -/
theorem inside?_eq_some_iff {t s : Tree} {q : List Nat} :
    t.inside? q = some s ↔
      t.at? q = some s ∧ ∀ r, r <+: q → r ≠ [] → t.kindAt? r ≠ some .comment := by
  induction q generalizing t with
  | nil =>
    simp only [inside?_nil, at?_nil, List.prefix_nil, iff_self_and]
    intro _ r hr hne
    exact absurd hr hne
  | cons i q ih =>
    rw [inside?_cons, at?_cons, forall_prefix_cons_iff]
    cases hchild : t.children[i]? with
    | none => simp
    | some child =>
      have hbelow (r : List Nat) : t.kindAt? (i :: r) = child.kindAt? r := by
        rw [kindAt?_cons, hchild, Option.bind_some]
      have hkind : child.isComment = true ↔ t.kindAt? [i] = some .comment := by
        rw [hbelow, kindAt?, at?_nil, Option.map_some, Option.some_inj, isComment,
          decide_eq_true_eq]
      -- The child is passed over if it is a comment; else the walk goes on below it.
      rw [Option.bind_some, Option.bind_some, Option.ite_none_left_eq_some, ih, hkind]
      simp only [hbelow, and_left_comm]

/-- A statement has a call if an invocation heads it. -/
theorem statementCall?_eq_some_iff {t : Tree} {c : Call} :
    t.statementCall? = some c ↔ t.kind = .expressionStatement ∧
      ∃ head, t.children.head? = some head ∧ head.kind = .methodInvocation ∧ head.call = c := by
  rw [statementCall?, Option.ite_none_right_eq_some, Option.bind_eq_some_iff]
  simp only [Option.ite_none_right_eq_some, Option.some.injEq]

/-- A walk over what is inside a tree finds the calls of the statements there. -/
theorem callInside?_eq_some_iff {t : Tree} {q : List Nat} {c : Call} :
    (if q = [] then none else t.callInside? q) = some c ↔
      t.IsCallStatement q ∧ t.headCall? q = some c := by
  -- The head of the statement at a path is at the path that goes on with its first child.
  have hhead (s : Tree) (hs : t.at? q = some s) : t.at? (q ++ [0]) = s.children.head? := by
    rw [at?_append, hs, Option.bind_some, at?_cons, List.head?_eq_getElem?]
    cases s.children[0]? <;> rfl
  rw [Option.ite_none_left_eq_some, callInside?, Option.bind_eq_some_iff]
  constructor
  · rintro ⟨hne, s, hs, hcall⟩
    obtain ⟨hat, hnone⟩ := inside?_eq_some_iff.mp hs
    obtain ⟨hkind, head, hfirst, hinvocation, rfl⟩ := statementCall?_eq_some_iff.mp hcall
    rw [← hhead s hat] at hfirst
    refine ⟨⟨hne, ?_, ?_, hnone⟩, ?_⟩
    · rw [kindAt?, hat, Option.map_some, hkind]
    · rw [kindAt?, hfirst, Option.map_some, hinvocation]
    · rw [headCall?, hfirst, Option.map_some]
  · rintro ⟨⟨hne, hkind, hinvocation, hnone⟩, hcall⟩
    obtain ⟨s, hat, hkind⟩ := Option.map_eq_some_iff.mp hkind
    obtain ⟨head, hfirst, rfl⟩ := Option.map_eq_some_iff.mp hcall
    rw [kindAt?, hfirst, Option.map_some, Option.some_inj] at hinvocation
    rw [hhead s hat] at hfirst
    exact ⟨hne, s, inside?_eq_some_iff.mpr ⟨hat, hnone⟩,
      statementCall?_eq_some_iff.mpr ⟨hkind, head, hfirst, hinvocation, rfl⟩⟩

/-- The calls inside a tree are listed for its statements, in the order of the text. -/
theorem listsInOrder_callsOf_bodyNodes (t : Tree) :
    ListsInOrder t.IsCallStatement t.headCall? (BodyNode.callsOf t.bodyNodes) := by
  rw [callsOf_bodyNodes]
  refine listsInOrder_filterMap (fun q c => callInside?_eq_some_iff) fun q hq => ?_
  refine ⟨mem_paths_of_kindAt? hq.kind_eq, ?_⟩
  obtain ⟨head, hhead, -⟩ := Option.map_eq_some_iff.mp hq.head_kind_eq
  rw [headCall?, hhead, Option.map_some, Option.isSome_some]

end Java.Tree

/-- The methods of a tree are those of the declarations with a body that stand directly in the body
    of a class declaration: one for each, in the order of the text. A declaration makes a method if
    and only if it has a body. The calls of the method are those of the statements inside this body
    that are headed by an invocation and in no comment: one for each, in the order of the text, at
    whatever depth. Its sites are those of the calls among them that write to a log, in the same
    order. -/
theorem methods_and_calls_in_text_order (t : Java.Tree) :
    ListsInOrder t.DeclaresMethod t.methodOf? t.methods ∧
    (t.child? .body = none → t.method? = none) ∧
    ∀ body, t.child? .body = some body → ∃ m, t.method? = some m ∧
      ListsInOrder body.IsCallStatement body.headCall? m.calls ∧
      m.callSites = (m.calls.filter Call.logs).map CallSite.ofCall ∧
      ListsInOrder
        (fun q => body.IsCallStatement q ∧ ∃ call, body.headCall? q = some call ∧ call.logs = true)
        (fun q => (body.headCall? q).map CallSite.ofCall) m.callSites := by
  refine ⟨t.listsInOrder_methods, fun hnone => ?_, fun body hbody => ?_⟩
  · rw [Java.Tree.method?, hnone, Option.map_none]
  · obtain ⟨m, hm⟩ : ∃ m, t.method? = some m := by
      rw [← Option.isSome_iff_exists, Java.Tree.isSome_method?, hbody, Option.isSome_some]
    have hnodes : m.body = body.bodyNodes := by
      rw [Java.Tree.method?, hbody, Option.map_some, Option.some_inj] at hm
      rw [← hm]
    have hcalls : ListsInOrder body.IsCallStatement body.headCall? m.calls := by
      rw [Method.calls, hnodes]
      exact body.listsInOrder_callsOf_bodyNodes
    exact ⟨m, hm, hcalls, rfl, (hcalls.filter Call.logs).map CallSite.ofCall⟩

/-- A method with statements in a lambda, in a comment and in a method of a class in its body. -/
def sourceOfHiddenStatements : String :=
  "class A \x7b void f() \x7b run(() -> \x7b Log.d(x); \x7d); /* Log.e(y); */ " ++
    "class B \x7b void g() \x7b Log.i(z); \x7d \x7d \x7d void h(); \x7d"

/-- The statement in the lambda comes after the one that it is in, and the one of the inner class
    comes last. -/
theorem methods_and_calls_in_text_order_of_hidden_statements :
    ∃ t decl body m, Java.parse sourceOfHiddenStatements = some t ∧ t.at? [0, 1, 0] = some decl ∧
      decl.child? .body = some body ∧ decl.method? = some m ∧
      ListsInOrder body.IsCallStatement body.headCall? m.calls ∧
      m.calls.map (·.source) = ["run(() -> \x7b Log.d(x); \x7d)", "Log.d(x)", "Log.i(z)"] ∧
      m.callSites.map (·.source) = ["Log.d(x)", "Log.i(z)"] := by
  have hread : ((Java.parse sourceOfHiddenStatements).bind fun t =>
      (t.at? [0, 1, 0]).bind fun decl => (decl.child? .body).bind fun _ =>
        decl.method?.map fun m => (m.calls.map (·.source), m.callSites.map (·.source))) =
      some (["run(() -> \x7b Log.d(x); \x7d)", "Log.d(x)", "Log.i(z)"],
        ["Log.d(x)", "Log.i(z)"]) := by decide +kernel
  obtain ⟨t, hparse, hread⟩ := Option.bind_eq_some_iff.mp hread
  obtain ⟨decl, hdecl, hread⟩ := Option.bind_eq_some_iff.mp hread
  obtain ⟨body, hbody, hread⟩ := Option.bind_eq_some_iff.mp hread
  obtain ⟨m, hm, hcalls, -⟩ := (methods_and_calls_in_text_order decl).2.2 body hbody
  rw [hm, Option.map_some, Option.some_inj] at hread
  obtain ⟨hsources, hsites⟩ := Prod.mk.inj hread
  exact ⟨t, decl, body, m, hparse, hdecl, hbody, hm, hcalls, hsources, hsites⟩

end LogDrift
