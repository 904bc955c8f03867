import LogDrift.Proofs.FirstFit

/-!
# The passes of the method matcher

The three passes as joins of their own, each of what the one before left, and the matching in terms
of them (`matchMethods_pairs`, `matchMethods_untouched`). Each pass gives its pairs one property and
what it leaves another: the leftovers differ in signature after the first pass, in name after the
second, and after the third also in body unless their parameters are the same.

## Key results

- `signature_ne_of_exactPass`: what the first pass leaves differs in signature
- `name_ne_of_namePass`: what the second pass leaves differs in name
- `body_ne_of_renamePass`: what the third pass leaves differs in body or agrees in parameters
-/

namespace LogDrift

/-- Signatures are equal if their names and their parameters are. -/
theorem Signature.eq_iff {s t : Signature} :
    s = t ↔ s.name = t.name ∧ s.parameters = t.parameters := by
  cases s
  cases t
  simp

/-- The name in a signature is that of the method, also if it is empty. -/
@[simp] theorem Method.signature_name (m : Method) : m.signature.name = m.name := by
  rw [Method.signature]
  split
  · rename_i hempty
    exact (String.isEmpty_iff.mp hempty).symm
  · rfl

/-- Types decide the parameters of a signature, but for a method without a name, which has none. -/
theorem Method.parameters_congr {m n : Method} (hname : m.name.isEmpty = n.name.isEmpty)
    (htypes : m.parameterTypes = n.parameterTypes) :
    m.signature.parameters = n.signature.parameters := by
  rw [Method.signature, Method.signature, hname, htypes]
  split <;> rfl

namespace MethodMatching

/-- The condition of the first pass. -/
theorem sameSignature_iff {o n : PlacedMethod} :
    sameSignature o n = true ↔ o.1.signature = n.1.signature := by
  rw [sameSignature, decide_eq_true_iff, eq_comm]

/-- Whether a pair of the second pass needs no comparison. -/
theorem sameBody_iff {o n : PlacedMethod} :
    sameBody o n = true ↔ o.1.bodySource = n.1.bodySource := decide_eq_true_iff

/-- The condition of the second pass. -/
theorem sameNameOnly_iff {o n : PlacedMethod} :
    sameNameOnly o n = true ↔
      o.1.name = n.1.name ∧ o.1.signature.parameters ≠ n.1.signature.parameters := by
  simp [sameNameOnly]

/-- The condition of the third pass. -/
theorem renamed_iff {o n : PlacedMethod} :
    renamed o n = true ↔ o.1.name ≠ n.1.name ∧
      o.1.signature.parameters ≠ n.1.signature.parameters ∧
      o.1.bodySource = n.1.bodySource := by
  simp [renamed, sameBody_iff, and_assoc]

variable (old new : List Method)

/-- The first pass. -/
def exactPass : Join PlacedMethod PlacedMethod :=
  firstFit sameSignature (changed old new) (changed new old)

/-- The second pass, over what the first one left. -/
def namePass : Join PlacedMethod PlacedMethod :=
  firstFit sameNameOnly (exactPass old new).left (exactPass old new).right

/-- The third pass, over what the second one left. -/
def renamePass : Join PlacedMethod PlacedMethod :=
  firstFit renamed (namePass old new).left (namePass old new).right

/-- The pairs to compare are those of the first pass, and those of the second one with different
    bodies. -/
theorem matchMethods_pairs :
    (matchMethods old new).pairs =
      (exactPass old new).pairs.map (fun p => ⟨p.1, p.2, .exactSignature⟩) ++
        ((namePass old new).pairs.filter fun p => !sameBody p.1 p.2).map
          (fun p => ⟨p.1, p.2, .sameName⟩) := by
  rw [matchMethods, List.partition_eq_filter_filter]
  rfl

/-- Untouched are the pairs of the second pass with one body, and those of the third one. -/
theorem matchMethods_untouched :
    (matchMethods old new).untouched =
      ((namePass old new).pairs.filter fun p => sameBody p.1 p.2) ++
        (renamePass old new).pairs := by
  rw [matchMethods, List.partition_eq_filter_filter]
  rfl

/-- Only the old version has what the third pass leaves on the left. -/
theorem matchMethods_onlyOld : (matchMethods old new).onlyOld = (renamePass old new).left := rfl

/-- Only the new version has what it leaves on the right. -/
theorem matchMethods_onlyNew : (matchMethods old new).onlyNew = (renamePass old new).right := rfl

variable {old new : List Method}

/-! ## The pairs of a pass -/

/-- A pair of the first pass has one signature. -/
theorem signature_eq_of_exactPass {p : PlacedMethod × PlacedMethod}
    (hp : p ∈ (exactPass old new).pairs) : p.1.1.signature = p.2.1.signature :=
  sameSignature_iff.mp (firstFit_fits _ _ _ p hp)

/-- A pair of the second pass has one name, and different parameters. -/
theorem name_eq_of_namePass {p : PlacedMethod × PlacedMethod}
    (hp : p ∈ (namePass old new).pairs) :
    p.1.1.name = p.2.1.name ∧ p.1.1.signature.parameters ≠ p.2.1.signature.parameters :=
  sameNameOnly_iff.mp (firstFit_fits _ _ _ p hp)

/-- A pair of the third pass has one body, and different names and parameters. -/
theorem body_eq_of_renamePass {p : PlacedMethod × PlacedMethod}
    (hp : p ∈ (renamePass old new).pairs) :
    p.1.1.name ≠ p.2.1.name ∧ p.1.1.signature.parameters ≠ p.2.1.signature.parameters ∧
      p.1.1.bodySource = p.2.1.bodySource :=
  renamed_iff.mp (firstFit_fits _ _ _ p hp)

/-! ## What a pass leaves -/

/-- What the first pass leaves differs in signature. -/
theorem signature_ne_of_exactPass {o n : PlacedMethod} (ho : o ∈ (exactPass old new).left)
    (hn : n ∈ (exactPass old new).right) : o.1.signature ≠ n.1.signature := by
  intro hsignature
  -- With one signature they would fit, so the pass would not have left both.
  have hno := firstFit_residual sameSignature _ _ o ho n hn
  rw [sameSignature_iff.mpr hsignature] at hno
  exact nomatch hno

/-- What the second pass leaves differs in name. -/
theorem name_ne_of_namePass {o n : PlacedMethod} (ho : o ∈ (namePass old new).left)
    (hn : n ∈ (namePass old new).right) : o.1.name ≠ n.1.name := by
  intro hname
  -- The first pass left both, so with one name they have different parameters.
  have hsignature : o.1.signature ≠ n.1.signature :=
    signature_ne_of_exactPass (mem_of_mem_firstFit_left ho) (mem_of_mem_firstFit_right hn)
  have hparameters : o.1.signature.parameters ≠ n.1.signature.parameters := by
    intro hparameters
    exact hsignature (Signature.eq_iff.mpr ⟨by simpa using hname, hparameters⟩)
  have hno := firstFit_residual sameNameOnly _ _ o ho n hn
  rw [sameNameOnly_iff.mpr ⟨hname, hparameters⟩] at hno
  exact nomatch hno

/-- What the third pass leaves differs in name, and in body unless the parameters are the same. -/
theorem body_ne_of_renamePass {o n : PlacedMethod} (ho : o ∈ (renamePass old new).left)
    (hn : n ∈ (renamePass old new).right) :
    o.1.name ≠ n.1.name ∧
      (o.1.signature.parameters = n.1.signature.parameters ∨
        o.1.bodySource ≠ n.1.bodySource) := by
  have hname : o.1.name ≠ n.1.name :=
    name_ne_of_namePass (mem_of_mem_firstFit_left ho) (mem_of_mem_firstFit_right hn)
  refine ⟨hname, ?_⟩
  by_cases hparameters : o.1.signature.parameters = n.1.signature.parameters
  · exact .inl hparameters
  · right
    intro hbody
    -- With one body it would be a rename.
    have hno := firstFit_residual renamed _ _ o ho n hn
    rw [renamed_iff.mpr ⟨hname, hparameters, hbody⟩] at hno
    exact nomatch hno

end MethodMatching

end LogDrift
