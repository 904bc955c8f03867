import LogDrift.Proofs.MethodPasses
import LogDrift.Report

/-!
# Reverting a change of methods

Each pass of the method matcher starts from the old version, yet the matching does not depend on
which version is the old one: its conditions are symmetric, and a join by first fit is the same from
either side. So if a change is reverted, the same methods are compared, and what came goes.

## Key results

- `matchMethods_isReverse`: the matching with the versions exchanged
- `filter_records_withMethod`: the records of calls that came or went with their method
- `map_withdrawn_recordsOfMethod`: what came with a method, as what goes with it
-/

namespace LogDrift

/-- A pair with the versions exchanged. -/
def MethodPair.swap (p : MethodPair) : MethodPair := ⟨p.new, p.old, p.rule⟩

/-- `r` is the matching `m` with the versions exchanged, whatever the order of the pairs. -/
structure MethodMatching.IsReverse (m r : MethodMatching) : Prop where
  pairs : r.pairs.Perm (m.pairs.map MethodPair.swap)
  untouched : r.untouched.Perm (m.untouched.map Prod.swap)
  onlyOld : r.onlyOld = m.onlyNew
  onlyNew : r.onlyNew = m.onlyOld

/-- If the condition of fit is symmetric, exchanging the sides swaps the join. -/
private theorem firstFit_swap_of_symmetric {α : Type} {fits : α → α → Bool}
    (h : ∀ a b, fits b a = fits a b) (left right : List α) :
    (firstFit fits right left).Same (firstFit fits left right).swap := by
  have hflip : (fun b a => fits a b) = fits := by
    funext b a
    exact (h a b).symm
  have hswap := firstFit_swap fits left right
  rw [hflip] at hswap
  exact hswap

namespace MethodMatching

/-- The condition of the first pass is symmetric. -/
private theorem sameSignature_comm (o n : PlacedMethod) :
    sameSignature n o = sameSignature o n := by
  rw [Bool.eq_iff_iff, sameSignature_iff, sameSignature_iff, eq_comm]

/-- To have one body is symmetric. -/
private theorem sameBody_comm (o n : PlacedMethod) : sameBody n o = sameBody o n := by
  rw [Bool.eq_iff_iff, sameBody_iff, sameBody_iff, eq_comm]

/-- The condition of the second pass is symmetric. -/
private theorem sameNameOnly_comm (o n : PlacedMethod) : sameNameOnly n o = sameNameOnly o n := by
  rw [Bool.eq_iff_iff, sameNameOnly_iff, sameNameOnly_iff, eq_comm, ne_comm]

/-- The condition of the third pass is symmetric. -/
private theorem renamed_comm (o n : PlacedMethod) : renamed n o = renamed o n := by
  rw [Bool.eq_iff_iff, renamed_iff, renamed_iff, ne_comm,
    ne_comm (a := n.1.signature.parameters), eq_comm (a := n.1.bodySource)]

variable (old new : List Method)

/-- With the versions exchanged, the first pass is swapped. -/
private theorem exactPass_swap : (exactPass new old).Same (exactPass old new).swap :=
  firstFit_swap_of_symmetric sameSignature_comm _ _

/-- And so is the second one. -/
private theorem namePass_swap : (namePass new old).Same (namePass old new).swap := by
  -- The first pass leaves the same on both sides, exchanged.
  have hexact := exactPass_swap old new
  rw [namePass, hexact.left, hexact.right]
  exact firstFit_swap_of_symmetric sameNameOnly_comm _ _

/-- And so is the third one. -/
private theorem renamePass_swap : (renamePass new old).Same (renamePass old new).swap := by
  -- So does the second one.
  have hname := namePass_swap old new
  rw [renamePass, hname.left, hname.right]
  exact firstFit_swap_of_symmetric renamed_comm _ _

/-- The pairs of the second pass are divided by body in the same way on both sides. -/
private theorem filter_namePass_swap {p : PlacedMethod × PlacedMethod → Bool}
    (hp : ∀ pair, p pair.swap = p pair) :
    ((namePass new old).pairs.filter p).Perm
      (((namePass old new).pairs.filter p).map Prod.swap) := by
  have hfilter := (namePass_swap old new).pairs.filter p
  have hcomp : p ∘ Prod.swap = p := funext hp
  rw [Join.swap, List.filter_map, hcomp] at hfilter
  exact hfilter

end MethodMatching

open MethodMatching

/-- With the versions exchanged, the matching is reversed. -/
theorem matchMethods_isReverse (old new : List Method) :
    (matchMethods old new).IsReverse (matchMethods new old) := by
  have hexact := exactPass_swap old new
  have hrename := renamePass_swap old new
  have hbody : ∀ pair : PlacedMethod × PlacedMethod,
      sameBody pair.swap.1 pair.swap.2 = sameBody pair.1 pair.2 :=
    fun pair => sameBody_comm pair.1 pair.2
  constructor
  · -- The pairs of the first pass keep their rule, and so do those of the second.
    rw [matchMethods_pairs, matchMethods_pairs, List.map_append, List.map_map, List.map_map]
    have hfirst := hexact.pairs.map (fun p => (⟨p.1, p.2, .exactSignature⟩ : MethodPair))
    have hsecond := (filter_namePass_swap old new (p := fun p => !sameBody p.1 p.2)
      fun pair => congrArg (!·) (hbody pair)).map
        (fun p => (⟨p.1, p.2, .sameName⟩ : MethodPair))
    rw [Join.swap, List.map_map] at hfirst
    rw [List.map_map] at hsecond
    exact hfirst.append hsecond
  · -- The second pass is divided in the same way, and the third is swapped as a whole.
    rw [matchMethods_untouched, matchMethods_untouched, List.map_append]
    exact (filter_namePass_swap old new hbody).append hrename.pairs
  · rw [matchMethods_onlyOld, matchMethods_onlyNew]
    exact hrename.left
  · rw [matchMethods_onlyNew, matchMethods_onlyOld]
    exact hrename.right

/-! ## The records of whole methods -/

/-- Records of matched methods are of the three kinds of changes inside a method. -/
theorem kind_of_mem_compareSites {s : Settings} {oldPath newPath method : String}
    {old new : List CallSite} {added : Option (List (List Char))} {r : ChangeRecord}
    (hr : r ∈ compareSites s oldPath newPath method old new added) :
    r.kind = .deletedInsideMethod ∨ r.kind = .addedInsideMethod ∨ r.kind = .updated := by
  simp only [compareSites, List.mem_append, List.mem_filterMap, Option.map_eq_some_iff,
    Option.bind_eq_some_iff] at hr
  rcases hr with (⟨i, -, site, -, rfl⟩ | ⟨j, -, site, -, rfl⟩) | ⟨p, -, a, -, b, -, rfl⟩
  · exact .inl rfl
  · exact .inr (.inl rfl)
  · exact .inr (.inr rfl)

/-- Records of a method that came or went are of the kind that is asked for. -/
theorem kind_of_mem_recordsOfMethod {path : String} {kind : ChangeKind} {m : Method}
    {r : ChangeRecord} (hr : r ∈ recordsOfMethod path kind m) : r.kind = kind := by
  obtain ⟨site, -, rfl⟩ := List.mem_map.mp hr
  rfl

/-- Of the records of methods, all or none are of a kind. -/
private theorem filter_recordsOfMethod (path : String) (kind other : ChangeKind)
    (methods : List PlacedMethod) :
    (methods.flatMap fun m => recordsOfMethod path kind m.1).filter (·.kind = other) =
      if kind = other then methods.flatMap fun m => recordsOfMethod path kind m.1 else [] := by
  have hkind {r : ChangeRecord} (hr : r ∈ methods.flatMap fun m => recordsOfMethod path kind m.1) :
      r.kind = kind := by
    obtain ⟨m, -, hm⟩ := List.mem_flatMap.mp hr
    exact kind_of_mem_recordsOfMethod hm
  split
  · rename_i heq
    exact List.filter_eq_self.mpr fun r hr => by simp [hkind hr, heq]
  · rename_i hne
    exact List.filter_eq_nil_iff.mpr fun r hr => by simp [hkind hr, hne]

/-- The records of calls that went or came with their method are those of the methods that only one
    version has. -/
theorem filter_records_withMethod (s : Settings) (old new : FileVersion) (diff : Option String) :
    (Report.ofVersions s old new diff).records.filter (·.kind = .deletedWithMethod) =
        (matchMethods old.methods new.methods).onlyOld.flatMap
          (fun m => recordsOfMethod old.path .deletedWithMethod m.1) ∧
      (Report.ofVersions s old new diff).records.filter (·.kind = .addedWithMethod) =
        (matchMethods old.methods new.methods).onlyNew.flatMap
          (fun m => recordsOfMethod new.path .addedWithMethod m.1) := by
  -- The records of matched methods are of other kinds.
  have hmatched (kind : ChangeKind)
      (hkind : kind = .deletedWithMethod ∨ kind = .addedWithMethod) :
      ((matchMethods old.methods new.methods).pairs.flatMap fun pair =>
        compareMethods s old.path new.path pair.old.1 pair.new.1
          (addedLinesOf diff)).filter (·.kind = kind) = [] := by
    rw [List.filter_eq_nil_iff]
    intro r hr hrkind
    obtain ⟨pair, -, hpair⟩ := List.mem_flatMap.mp hr
    obtain rfl : r.kind = kind := of_decide_eq_true hrkind
    rcases kind_of_mem_compareSites hpair with h | h | h <;> simp [h] at hkind
  constructor
  · rw [Report.ofVersions, List.filter_append, List.filter_append, hmatched _ (.inl rfl),
      filter_recordsOfMethod, filter_recordsOfMethod, if_pos rfl, if_neg (by decide)]
    simp
  · rw [Report.ofVersions, List.filter_append, List.filter_append, hmatched _ (.inr rfl),
      filter_recordsOfMethod, filter_recordsOfMethod, if_pos rfl, if_neg (by decide)]
    simp

/-- The record of a call that came with its method, as the record of one that goes with it. -/
def ChangeRecord.withdrawn (r : ChangeRecord) : ChangeRecord :=
  { r with kind := .deletedWithMethod, before := r.after, after := none }

/-- The records of a method that came, withdrawn, are those of one that went. -/
theorem map_withdrawn_recordsOfMethod (path : String) (m : Method) :
    (recordsOfMethod path .addedWithMethod m).map ChangeRecord.withdrawn =
      recordsOfMethod path .deletedWithMethod m := by
  rw [recordsOfMethod, List.map_map]
  rfl

/-- Exchanging the versions exchanges the ends of every pair and every untouched pair, and the
    methods that only one version has. So if a change is reverted, the same methods are compared,
    and every call that came with its method goes with that method. -/
theorem reverting_swaps_methods (old new : List Method) :
    (matchMethods old new).IsReverse (matchMethods new old) ∧
    ∀ (s : Settings) (oldPath newPath : String) (diff reverseDiff : Option String),
      let change := Report.ofVersions s ⟨oldPath, old⟩ ⟨newPath, new⟩ diff
      let reverse := Report.ofVersions s ⟨newPath, new⟩ ⟨oldPath, old⟩ reverseDiff
      reverse.deletedMethods = change.addedMethods ∧
        reverse.addedMethods = change.deletedMethods ∧
        reverse.records.filter (·.kind = .deletedWithMethod) =
          (change.records.filter (·.kind = .addedWithMethod)).map ChangeRecord.withdrawn := by
  have hreverse := matchMethods_isReverse old new
  refine ⟨hreverse, ?_⟩
  intro s oldPath newPath diff reverseDiff change reverse
  refine ⟨congrArg (List.map _) hreverse.onlyOld, congrArg (List.map _) hreverse.onlyNew, ?_⟩
  -- What only the new version had is what only the old one has after the exchange.
  have hdeleted := (filter_records_withMethod s ⟨newPath, new⟩ ⟨oldPath, old⟩ reverseDiff).1
  have hadded := (filter_records_withMethod s ⟨oldPath, old⟩ ⟨newPath, new⟩ diff).2
  rw [hdeleted, hadded, hreverse.onlyOld, List.map_flatMap]
  simp only [map_withdrawn_recordsOfMethod]

end LogDrift
