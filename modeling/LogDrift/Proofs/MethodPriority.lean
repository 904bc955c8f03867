import LogDrift.Proofs.MethodMatching

/-!
# What the method matcher takes and leaves

Each pass takes all it can. Of a signature, the first pass takes as many methods as the version with
fewer of them has, in order; of a name, the first two passes together take as many as the version
with fewer of them has. So the methods that are left in one version only have no counterpart of
their name in the other, and none of their body unless it has their parameters.

Methods are counted among those that are not set aside (`MethodMatching.changed`).

## Key results

- `map_exactPairsOf`, `length_exactPairsOf`: the pairs of a signature join its methods in order
- `countP_name_eq_min`: how many pairs and untouched pairs a name has
-/

namespace LogDrift

open MethodMatching

variable (old new : List Method)

/-! ## Pairs of a signature -/

/-- The pairs of the first rule with a signature. -/
def MethodMatching.exactPairsOf (m : MethodMatching) (s : Signature) : List MethodPair :=
  m.pairs.filter fun p => p.rule = .exactSignature && p.old.1.signature = s

/-- They are the pairs of the first pass. -/
private theorem exactPairsOf_eq (s : Signature) :
    (matchMethods old new).exactPairsOf s =
      ((exactPass old new).pairs.filter fun p => p.1.1.signature = s).map
        (fun p => ⟨p.1, p.2, .exactSignature⟩) := by
  -- The pairs of the second pass have another rule.
  rw [exactPairsOf, matchMethods_pairs, List.filter_append, List.filter_map, List.filter_map]
  simp [Function.comp_def]

/-- The pairs of a signature join its methods in order. -/
theorem map_exactPairsOf (s : Signature) :
    ((matchMethods old new).exactPairsOf s).map (fun p => (p.old, p.new)) =
      ((changed old new).filter (·.1.signature = s)).zip
        ((changed new old).filter (·.1.signature = s)) := by
  rw [exactPairsOf_eq, List.map_map]
  -- In the first pass methods fit if they have one signature, so it joins those of each in order.
  have hzip := filter_pairs_firstFit (fun o n => sameSignature_iff (o := o) (n := n))
    (changed old new) (changed new old) s
  rw [← hzip]
  exact List.map_id _

/-- So they are as many as the version with fewer methods of the signature has. -/
theorem length_exactPairsOf (s : Signature) :
    ((matchMethods old new).exactPairsOf s).length =
      min ((changed old new).countP (·.1.signature = s))
        ((changed new old).countP (·.1.signature = s)) := by
  have hlength := congrArg List.length (map_exactPairsOf old new s)
  rw [List.length_map, List.length_zip, ← List.countP_eq_length_filter,
    ← List.countP_eq_length_filter] at hlength
  exact hlength

/-! ## Pairs of a name -/

variable (x : String)

/-- Of a name, the second pass leaves methods in one version at most. -/
private theorem countP_namePass_left_or_right :
    (namePass old new).left.countP (·.1.name = x) = 0 ∨
      (namePass old new).right.countP (·.1.name = x) = 0 := by
  rw [List.countP_eq_zero, List.countP_eq_zero]
  -- Were methods of the name left in both versions, the pass would have joined two of them.
  by_cases hleft : ∃ o ∈ (namePass old new).left, o.1.name = x
  · right
    obtain ⟨o, ho, rfl⟩ := hleft
    intro n hn hname
    exact name_ne_of_namePass ho hn (of_decide_eq_true hname).symm
  · left
    intro o ho hname
    exact hleft ⟨o, ho, of_decide_eq_true hname⟩

/-- The pairs of a name come from the first pass and from the second one. -/
private theorem countP_name_pairs :
    (matchMethods old new).pairs.countP (·.old.1.name = x) =
      (exactPass old new).pairs.countP (·.1.1.name = x) +
        ((namePass old new).pairs.filter fun p => !sameBody p.1 p.2).countP
          (·.1.1.name = x) := by
  rw [matchMethods_pairs, List.countP_append, List.countP_map, List.countP_map]
  rfl

/-- Untouched pairs of one name come from the second pass, as the third one renames. -/
private theorem countP_name_untouched :
    (matchMethods old new).untouched.countP (fun p => p.1.1.name = x && p.2.1.name = x) =
      ((namePass old new).pairs.filter fun p => sameBody p.1 p.2).countP
        (·.1.1.name = x) := by
  -- A pair that was renamed does not have the name on both sides.
  have hrenamed : (renamePass old new).pairs.countP
      (fun p => p.1.1.name = x && p.2.1.name = x) = 0 := by
    rw [List.countP_eq_zero]
    intro p hp hboth
    have hne := (body_eq_of_renamePass hp).1
    simp only [Bool.and_eq_true, decide_eq_true_eq] at hboth
    exact hne (hboth.1.trans hboth.2.symm)
  rw [matchMethods_untouched, List.countP_append, hrenamed, Nat.add_zero]
  apply List.countP_congr
  intro p hp
  have hname := (name_eq_of_namePass (List.mem_filter.mp hp).1).1
  simp [hname]

/-- The pairs and untouched pairs of a name are as many as the version with fewer methods of it
    has. -/
theorem countP_name_eq_min :
    (matchMethods old new).pairs.countP (·.old.1.name = x) +
        (matchMethods old new).untouched.countP (fun p => p.1.1.name = x && p.2.1.name = x) =
      min ((changed old new).countP (·.1.name = x)) ((changed new old).countP (·.1.name = x)) := by
  rw [countP_name_pairs, countP_name_untouched]
  -- Each pass divides the methods of the name into its pairs and what it leaves.
  have hexactOld := countP_firstFit_left sameSignature (changed old new) (changed new old)
    (·.1.name = x)
  have hexactNew := countP_firstFit_right sameSignature (changed old new) (changed new old)
    (·.1.name = x)
  have hnameOld := countP_firstFit_left sameNameOnly (exactPass old new).left
    (exactPass old new).right (·.1.name = x)
  have hnameNew := countP_firstFit_right sameNameOnly (exactPass old new).left
    (exactPass old new).right (·.1.name = x)
  rw [← exactPass] at hexactOld hexactNew
  rw [← namePass] at hnameOld hnameNew
  -- Its pairs have the name on both sides.
  have hexact : (exactPass old new).pairs.countP (·.1.1.name = x) =
      (exactPass old new).pairs.countP (·.2.1.name = x) := by
    apply List.countP_congr
    intro p hp
    have hname := congrArg Signature.name (signature_eq_of_exactPass hp)
    rw [Method.signature_name, Method.signature_name] at hname
    simp [hname]
  have hname : (namePass old new).pairs.countP (·.1.1.name = x) =
      (namePass old new).pairs.countP (·.2.1.name = x) := by
    apply List.countP_congr
    intro p hp
    simp [(name_eq_of_namePass hp).1]
  have hdivided := (List.filter_append_perm (fun p => sameBody p.1 p.2)
    (namePass old new).pairs).countP_eq (·.1.1.name = x)
  rw [List.countP_append] at hdivided
  -- And on one side nothing is left.
  rcases countP_namePass_left_or_right old new x with hleft | hright <;> omega

/-- The passes take all they can. What is left in one version differs in name from all that is left
    in the other, and in body unless the parameters are the same. The pairs of a signature join its
    methods in order, as many as the version with fewer of them has; the pairs and untouched pairs
    of a name are as many as the version with fewer methods of that name has. -/
theorem matchMethods_exhausts :
    (∀ o ∈ (matchMethods old new).onlyOld, ∀ n ∈ (matchMethods old new).onlyNew,
      o.1.signature.name ≠ n.1.signature.name ∧
        (o.1.signature.parameters = n.1.signature.parameters ∨
          o.1.bodySource ≠ n.1.bodySource)) ∧
    (∀ s, ((matchMethods old new).exactPairsOf s).map (fun p => (p.old, p.new)) =
        ((changed old new).filter (·.1.signature = s)).zip
          ((changed new old).filter (·.1.signature = s)) ∧
      ((matchMethods old new).exactPairsOf s).length =
        min ((changed old new).countP (·.1.signature = s))
          ((changed new old).countP (·.1.signature = s))) ∧
    ∀ x, (matchMethods old new).pairs.countP (·.old.1.signature.name = x) +
        (matchMethods old new).untouched.countP
          (fun p => p.1.1.signature.name = x && p.2.1.signature.name = x) =
      min ((changed old new).countP (·.1.signature.name = x))
        ((changed new old).countP (·.1.signature.name = x)) := by
  refine ⟨?_, fun s => ⟨map_exactPairsOf old new s, length_exactPairsOf old new s⟩, ?_⟩
  · intro o ho n hn
    rw [matchMethods_onlyOld] at ho
    rw [matchMethods_onlyNew] at hn
    obtain ⟨hname, hbody⟩ := body_ne_of_renamePass ho hn
    exact ⟨by simpa using hname, hbody⟩
  · intro x
    simp only [Method.signature_name]
    exact countP_name_eq_min old new x

/-- Methods of which the overloads of `run` are to change places and bodies, and one is to go. -/
def runsBefore : List Method :=
  [⟨"run", ["int"], "void run(int a) \x7ba();\x7d", "\x7ba();\x7d", []⟩,
    ⟨"run", ["long"], "void run(long a) \x7bb();\x7d", "\x7bb();\x7d", []⟩,
    ⟨"stop", [], "void stop() \x7bs();\x7d", "\x7bs();\x7d", []⟩]

/-- The same methods later. -/
def runsAfter : List Method :=
  [⟨"run", ["long"], "void run(long a) \x7ba();\x7d", "\x7ba();\x7d", []⟩,
    ⟨"run", ["int"], "void run(int a) \x7bc();\x7d", "\x7bc();\x7d", []⟩,
    ⟨"halt", [], "void halt() \x7bs();\x7d", "\x7bs();\x7d", []⟩]

/-- Both overloads are paired by their signatures, though one has the body that the other had. The
    methods that are left have one body, but their parameters are the same. -/
theorem matchMethods_exhausts_runs :
    (matchMethods runsBefore runsAfter).onlyOld = [(runsBefore[2], 2)] ∧
    (matchMethods runsBefore runsAfter).onlyNew = [(runsAfter[2], 2)] ∧
    runsBefore[2].signature.name ≠ runsAfter[2].signature.name ∧
    (runsBefore[2].signature.parameters = runsAfter[2].signature.parameters ∨
      runsBefore[2].bodySource ≠ runsAfter[2].bodySource) ∧
    ((matchMethods runsBefore runsAfter).exactPairsOf ⟨"run", "(int)"⟩).map
      (fun p => (p.old, p.new)) = [((runsBefore[0], 0), (runsAfter[1], 1))] ∧
    (matchMethods runsBefore runsAfter).pairs.countP (·.old.1.signature.name = "run") +
        (matchMethods runsBefore runsAfter).untouched.countP
          (fun p => p.1.1.signature.name = "run" && p.2.1.signature.name = "run") = 2 := by
  have hold : (matchMethods runsBefore runsAfter).onlyOld = [(runsBefore[2], 2)] := rfl
  have hnew : (matchMethods runsBefore runsAfter).onlyNew = [(runsAfter[2], 2)] := rfl
  obtain ⟨hleft, hsignatures, hnames⟩ := matchMethods_exhausts runsBefore runsAfter
  rw [hold, hnew] at hleft
  have hdiffer := hleft _ List.mem_cons_self _ List.mem_cons_self
  have hrun := (hsignatures ⟨"run", "(int)"⟩).1
  have hcount := hnames "run"
  exact ⟨hold, hnew, hdiffer.1, hdiffer.2, hrun.trans rfl, hcount.trans (by decide)⟩

end LogDrift
