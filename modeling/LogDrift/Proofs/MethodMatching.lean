import LogDrift.Proofs.MethodPasses

/-! # Matched methods are accounted for

Every method of either version is set aside because the other version has its text, or it is in one
pair, in one untouched pair, or left over (`unchanged_append_changed`, `matchMethods_old_perm`,
`matchMethods_new_perm`; by position, `matchMethods_accounts`). Untouched pairs have one body.

## Key results

- `matchMethods_old_perm`, `matchMethods_new_perm`: the three passes lose no method
- `matchMethods_accounts`: every position is set aside or has one part in the matching
- `mem_pairs_iff`, `mem_untouched_iff`: from which pass a pair comes
-/

namespace LogDrift

/-- Three passes, of which each goes on with what the one before left, lose nothing, even if the
    pairs of the second one are divided. -/
private theorem three_passes_perm {α : Type}
    {all first second₁ second₂ second third rest₁ rest₂ rest₃ : List α}
    (hfirst : (first ++ rest₁).Perm all) (hsecond : (second ++ rest₂).Perm rest₁)
    (hdivided : (second₁ ++ second₂).Perm second) (hthird : (third ++ rest₃).Perm rest₂) :
    ((first ++ second₂) ++ ((second₁ ++ third) ++ rest₃)).Perm all := by
  have hswap : (second₂ ++ second₁).Perm second := List.perm_append_comm.trans hdivided
  have hassoc : (first ++ second₂) ++ ((second₁ ++ third) ++ rest₃) =
      first ++ ((second₂ ++ second₁) ++ (third ++ rest₃)) := by simp only [List.append_assoc]
  rw [hassoc]
  -- Put the passes back together from the last one on.
  have hlast : (first ++ ((second₂ ++ second₁) ++ (third ++ rest₃))).Perm
      (first ++ (second ++ rest₂)) := (hswap.append hthird).append_left first
  have hlater : (first ++ (second ++ rest₂)).Perm (first ++ rest₁) := hsecond.append_left first
  exact (hlast.trans hlater).trans hfirst

/-- Both parts of a divided list together are the list. -/
private theorem partition_map_perm {α β : Type} (p : α → Bool) (f : α → β) (as : List α) :
    ((as.partition p).1.map f ++ (as.partition p).2.map f).Perm (as.map f) := by
  rw [List.partition_eq_filter_filter, ← List.map_append]
  exact (List.filter_append_perm p as).map f

namespace MethodMatching

/-- The methods that are set aside, as the other version has their text. -/
def unchanged (methods other : List Method) : List Method :=
  methods.filter fun m => other.any (·.source == m.source)

/-- A method is set aside or goes through the passes. -/
theorem unchanged_append_changed (methods other : List Method) :
    (unchanged methods other ++ (changed methods other).map Prod.fst).Perm methods := by
  -- Without their places, the methods that go through are those that are not set aside.
  have hchanged : (changed methods other).map Prod.fst =
      methods.filter fun m => !other.any (·.source == m.source) := by
    have hfst : methods.zipIdx.map Prod.fst = methods := List.zipIdx_map_fst 0 methods
    have hfilter := List.filter_map (f := Prod.fst) (l := methods.zipIdx)
      (p := fun m : Method => !other.any (·.source == m.source))
    rw [hfst] at hfilter
    exact hfilter.symm
  rw [hchanged]
  exact List.filter_append_perm _ methods

/-- A method is set aside if the other version has its text. -/
theorem mem_unchanged {methods other : List Method} {m : Method} :
    m ∈ unchanged methods other ↔ m ∈ methods ∧ ∃ n ∈ other, n.source = m.source := by
  simp only [unchanged, List.mem_filter, List.any_eq_true, beq_iff_eq]

/-- If no text occurs twice in a version, the same texts are set aside in both. -/
theorem unchanged_sources_perm {old new : List Method} (hold : (old.map (·.source)).Nodup)
    (hnew : (new.map (·.source)).Nodup) :
    ((unchanged old new).map (·.source)).Perm ((unchanged new old).map (·.source)) := by
  -- What is set aside is a part of its version, so no text occurs twice in it either.
  have hnodup {methods : List Method} (other : List Method)
      (hmethods : (methods.map (·.source)).Nodup) :
      ((unchanged methods other).map (·.source)).Nodup :=
    hmethods.sublist (List.filter_sublist.map _)
  rw [List.perm_ext_iff_of_nodup (hnodup new hold) (hnodup old hnew)]
  intro source
  simp only [List.mem_map, mem_unchanged]
  -- A text is set aside in one version if it occurs in both.
  constructor
  · intro h
    obtain ⟨m, ⟨hm, n, hn, hnm⟩, rfl⟩ := h
    exact ⟨n, ⟨hn, m, hm, hnm.symm⟩, hnm⟩
  · intro h
    obtain ⟨n, ⟨hn, m, hm, hnm⟩, rfl⟩ := h
    exact ⟨m, ⟨hm, n, hn, hnm.symm⟩, hnm⟩

/-- What goes through the passes are methods of the version. -/
theorem mem_of_mem_changed {methods other : List Method} {placed : PlacedMethod}
    (h : placed ∈ changed methods other) : placed.1 ∈ methods :=
  (unchanged_append_changed methods other).mem_iff.mp
    (List.mem_append_right _ (List.mem_map_of_mem h))

/-- A method goes through the passes, with its place, if the other version does not have its
    text. -/
theorem mem_changed {methods other : List Method} {placed : PlacedMethod} :
    placed ∈ changed methods other ↔
      methods[placed.2]? = some placed.1 ∧ placed.1.source ∉ other.map (·.source) := by
  simp [changed, List.mem_zipIdx_iff_getElem?]

/-- No place goes through the passes twice. -/
private theorem nodup_places_changed (methods other : List Method) :
    ((changed methods other).map Prod.snd).Nodup := by
  -- The places of all methods are numbered through.
  have hall : (methods.zipIdx.map Prod.snd).Nodup := by
    rw [List.zipIdx_map_snd]
    exact List.nodup_range'
  exact hall.sublist (List.filter_sublist.map _)

/-- If three lists together have the methods that go through the passes, a place is once in one of
    them unless its method is set aside. -/
private theorem count_place_of_perm {methods other : List Method}
    {pairs untouched only : List PlacedMethod}
    (h : (pairs ++ (untouched ++ only)).Perm (changed methods other)) {i : Nat} {m : Method}
    (hm : methods[i]? = some m) :
    (pairs.map (·.2)).count i + (untouched.map (·.2)).count i + (only.map (·.2)).count i =
      if m.source ∈ other.map (·.source) then 0 else 1 := by
  have hcount := (h.map Prod.snd).count_eq i
  rw [List.map_append, List.map_append, List.count_append, List.count_append,
    (nodup_places_changed methods other).count, ← Nat.add_assoc] at hcount
  rw [hcount]
  by_cases hsource : m.source ∈ other.map (·.source)
  · -- No method at this place goes through the passes.
    rw [if_pos hsource, if_neg]
    intro hi
    obtain ⟨placed, hplaced, rfl⟩ := List.mem_map.mp hi
    obtain ⟨hat, hnot⟩ := mem_changed.mp hplaced
    obtain rfl := Option.some.inj (hm.symm.trans hat)
    exact hnot hsource
  · -- The method at this place goes through them.
    rw [if_neg hsource, if_pos]
    exact List.mem_map.mpr ⟨(m, i), mem_changed.mpr ⟨hm, hsource⟩, rfl⟩

end MethodMatching

open MethodMatching

/-- Every old method that goes through the passes is in one pair, in one untouched pair or left
    over. -/
theorem matchMethods_old_perm (old new : List Method) :
    ((matchMethods old new).pairs.map (·.old) ++
      ((matchMethods old new).untouched.map Prod.fst ++ (matchMethods old new).onlyOld)).Perm
        (changed old new) := by
  simp only [matchMethods, List.map_append, List.map_map]
  -- The pairs of the second pass are divided by their bodies.
  apply three_passes_perm (firstFit_left_perm sameSignature _ _)
    (firstFit_left_perm sameNameOnly _ _) _ (firstFit_left_perm renamed _ _)
  exact partition_map_perm _ Prod.fst _

/-- Every new method that goes through the passes is in one pair, in one untouched pair or left
    over. -/
theorem matchMethods_new_perm (old new : List Method) :
    ((matchMethods old new).pairs.map (·.new) ++
      ((matchMethods old new).untouched.map Prod.snd ++ (matchMethods old new).onlyNew)).Perm
        (changed new old) := by
  simp only [matchMethods, List.map_append, List.map_map]
  apply three_passes_perm (firstFit_right_perm sameSignature _ _)
    (firstFit_right_perm sameNameOnly _ _) _ (firstFit_right_perm renamed _ _)
  exact partition_map_perm _ Prod.snd _

/-! ## What pairs have in common -/

/-- A pair comes from the first pass, or from the second one with different bodies. -/
theorem mem_pairs_iff {old new : List Method} {p : MethodPair} :
    p ∈ (matchMethods old new).pairs ↔
      p.rule = .exactSignature ∧ (p.old, p.new) ∈ (exactPass old new).pairs ∨
      p.rule = .sameName ∧ (p.old, p.new) ∈ (namePass old new).pairs ∧
        p.old.1.bodySource ≠ p.new.1.bodySource := by
  obtain ⟨o, n, rule⟩ := p
  simp only [matchMethods_pairs, List.mem_append, List.mem_map, List.mem_filter,
    Bool.not_eq_true', ← Bool.not_eq_true, sameBody_iff, MethodPair.mk.injEq]
  -- The rule of a pair tells which of the two passes made it.
  constructor
  · intro h
    rcases h with ⟨q, hq, rfl, rfl, rfl⟩ | ⟨q, hq, rfl, rfl, rfl⟩
    · exact .inl ⟨rfl, hq⟩
    · exact .inr ⟨rfl, hq⟩
  · intro h
    rcases h with ⟨rfl, hq⟩ | ⟨rfl, hq⟩
    · exact .inl ⟨(o, n), hq, rfl, rfl, rfl⟩
    · exact .inr ⟨(o, n), hq, rfl, rfl, rfl⟩

/-- An untouched pair comes from the second pass with one body, or from the third one. -/
theorem mem_untouched_iff {old new : List Method} {p : PlacedMethod × PlacedMethod} :
    p ∈ (matchMethods old new).untouched ↔
      p ∈ (namePass old new).pairs ∧ p.1.1.bodySource = p.2.1.bodySource ∨
      p ∈ (renamePass old new).pairs := by
  rw [matchMethods_untouched, List.mem_append, List.mem_filter, sameBody_iff]

/-- Untouched pairs have one body. -/
theorem sameBody_of_mem_untouched {old new : List Method} {p : PlacedMethod × PlacedMethod}
    (hp : p ∈ (matchMethods old new).untouched) : sameBody p.1 p.2 = true := by
  rw [sameBody_iff]
  rcases mem_untouched_iff.mp hp with ⟨-, hbody⟩ | hpass
  · exact hbody
  · exact (body_eq_of_renamePass hpass).2.2

/-- Untouched pairs have different parameters. -/
theorem parameters_ne_of_mem_untouched {old new : List Method} {p : PlacedMethod × PlacedMethod}
    (hp : p ∈ (matchMethods old new).untouched) :
    p.1.1.signature.parameters ≠ p.2.1.signature.parameters := by
  rcases mem_untouched_iff.mp hp with ⟨hpass, -⟩ | hpass
  · exact (name_eq_of_namePass hpass).2
  · exact (body_eq_of_renamePass hpass).2.1

/-! ## Every method has its place -/

/-- A matching accounts for every method of two versions, by position. -/
structure MethodMatching.Accounts (m : MethodMatching) (old new : List Method) : Prop where
  /-- An old method is set aside if its text is in the new version; otherwise it is in one pair, in
      one untouched pair or left over, and that once. -/
  old_count : ∀ i method, old[i]? = some method →
    (m.pairs.map (·.old.2)).count i + (m.untouched.map (·.1.2)).count i +
        (m.onlyOld.map (·.2)).count i =
      if method.source ∈ new.map (·.source) then 0 else 1
  /-- And so for a new method. -/
  new_count : ∀ j method, new[j]? = some method →
    (m.pairs.map (·.new.2)).count j + (m.untouched.map (·.2.2)).count j +
        (m.onlyNew.map (·.2)).count j =
      if method.source ∈ old.map (·.source) then 0 else 1
  /-- What the matching has at a place is the method there. -/
  old_placed : ∀ placed ∈ m.pairs.map (·.old) ++ (m.untouched.map Prod.fst ++ m.onlyOld),
    old[placed.2]? = some placed.1
  new_placed : ∀ placed ∈ m.pairs.map (·.new) ++ (m.untouched.map Prod.snd ++ m.onlyNew),
    new[placed.2]? = some placed.1

/-- The matching accounts for every method of both versions. -/
theorem matchMethods_accounts (old new : List Method) :
    (matchMethods old new).Accounts old new := by
  have hold := matchMethods_old_perm old new
  have hnew := matchMethods_new_perm old new
  -- Both counts follow from a permutation: all parts of a side together are its methods in their
  -- places.
  constructor
  · intro i m hm
    have hcount := count_place_of_perm hold hm
    rw [List.map_map, List.map_map] at hcount
    exact hcount
  · intro j m hm
    have hcount := count_place_of_perm hnew hm
    rw [List.map_map, List.map_map] at hcount
    exact hcount
  · intro placed hplaced
    exact (mem_changed.mp (hold.mem_iff.mp hplaced)).1
  · intro placed hplaced
    exact (mem_changed.mp (hnew.mem_iff.mp hplaced)).1

/-- Every method of two versions is accounted for once: an old method is set aside exactly if its
    text is in the new version, and every other one is in one pair, in one untouched pair or left
    over; and so for the new methods. Pairs of the first rule have the same signature, pairs of the
    second the same name, other parameters and another body. Untouched pairs have the same body and
    other parameters, where a method without a name has the parameters of no other. -/
theorem matchMethods_accounts_for_methods (old new : List Method) :
    (matchMethods old new).Accounts old new ∧
    (∀ p ∈ (matchMethods old new).pairs,
      (p.rule = .exactSignature → p.old.1.signature = p.new.1.signature) ∧
      (p.rule = .sameName → p.old.1.name = p.new.1.name ∧
        p.old.1.signature.parameters ≠ p.new.1.signature.parameters ∧
        p.old.1.parameterTypes ≠ p.new.1.parameterTypes ∧
        p.old.1.bodySource ≠ p.new.1.bodySource)) ∧
    ∀ p ∈ (matchMethods old new).untouched, p.1.1.bodySource = p.2.1.bodySource ∧
      p.1.1.signature.parameters ≠ p.2.1.signature.parameters ∧
      (p.1.1.name.isEmpty = p.2.1.name.isEmpty → p.1.1.parameterTypes ≠ p.2.1.parameterTypes) := by
  refine ⟨matchMethods_accounts old new, ?_, ?_⟩
  · intro p hp
    rcases mem_pairs_iff.mp hp with ⟨hrule, hpass⟩ | ⟨hrule, hpass, hbody⟩
    · exact ⟨fun _ => signature_eq_of_exactPass hpass,
        fun hother => absurd (hrule.symm.trans hother) nofun⟩
    · refine ⟨fun hother => absurd (hrule.symm.trans hother) nofun, fun _ => ?_⟩
      -- Equal types would give equal parameters, as the names are equal.
      obtain ⟨hname, hparameters⟩ := name_eq_of_namePass hpass
      refine ⟨hname, hparameters, ?_, hbody⟩
      intro htypes
      exact hparameters (Method.parameters_congr (congrArg String.isEmpty hname) htypes)
  · intro p hp
    have hparameters := parameters_ne_of_mem_untouched hp
    refine ⟨sameBody_iff.mp (sameBody_of_mem_untouched hp), hparameters, ?_⟩
    intro hname htypes
    exact hparameters (Method.parameters_congr hname htypes)

/-- Methods of which one is to stay; one `load` is to change its parameters, one its body. -/
def overloadsBefore : List Method :=
  [⟨"close", [], "void close() \x7b\x7d", "\x7b\x7d", []⟩,
    ⟨"load", ["int"], "void load(int a) \x7ba();\x7d", "\x7ba();\x7d", []⟩,
    ⟨"load", ["long"], "void load(long a) \x7bb();\x7d", "\x7bb();\x7d", []⟩]

def overloadsAfter : List Method :=
  [⟨"load", ["String"], "void load(String a) \x7ba();\x7d", "\x7ba();\x7d", []⟩,
    ⟨"load", ["long"], "void load(long a) \x7bc();\x7d", "\x7bc();\x7d", []⟩,
    ⟨"close", [], "void close() \x7b\x7d", "\x7b\x7d", []⟩]

/-- The method that stays is set aside, one `load` is paired and the other untouched. -/
theorem matchMethods_accounts_for_overloads :
    (matchMethods overloadsBefore overloadsAfter).pairs =
      [⟨(overloadsBefore[2], 2), (overloadsAfter[1], 1), .exactSignature⟩] ∧
    (matchMethods overloadsBefore overloadsAfter).untouched =
      [((overloadsBefore[1], 1), (overloadsAfter[0], 0))] ∧
    ((matchMethods overloadsBefore overloadsAfter).pairs.map (·.old.2)).count 0 +
        ((matchMethods overloadsBefore overloadsAfter).untouched.map (·.1.2)).count 0 +
        ((matchMethods overloadsBefore overloadsAfter).onlyOld.map (·.2)).count 0 = 0 ∧
    ((matchMethods overloadsBefore overloadsAfter).pairs.map (·.new.2)).count 0 +
        ((matchMethods overloadsBefore overloadsAfter).untouched.map (·.2.2)).count 0 +
        ((matchMethods overloadsBefore overloadsAfter).onlyNew.map (·.2)).count 0 = 1 ∧
    overloadsBefore[2].signature = overloadsAfter[1].signature ∧
    overloadsBefore[1].signature.parameters ≠ overloadsAfter[0].signature.parameters := by
  have hpairs : (matchMethods overloadsBefore overloadsAfter).pairs =
      [⟨(overloadsBefore[2], 2), (overloadsAfter[1], 1), .exactSignature⟩] := rfl
  have huntouched : (matchMethods overloadsBefore overloadsAfter).untouched =
      [((overloadsBefore[1], 1), (overloadsAfter[0], 0))] := rfl
  obtain ⟨haccounts, hrules, hbodies⟩ :=
    matchMethods_accounts_for_methods overloadsBefore overloadsAfter
  have hclose := haccounts.old_count 0 overloadsBefore[0] rfl
  have hload := haccounts.new_count 0 overloadsAfter[0] rfl
  rw [hpairs] at hrules
  rw [huntouched] at hbodies
  have hsignature := (hrules _ List.mem_cons_self).1 rfl
  have hparameters := (hbodies _ List.mem_cons_self).2.1
  exact ⟨hpairs, huntouched, hclose.trans (by decide), hload.trans (by decide), hsignature,
    hparameters⟩

end LogDrift
