import LogDrift.Proofs.MethodReversal
import LogDrift.Proofs.Patch

/-!
# The shape of change records

A record says by its kind which texts it has, of which version its path is, and what else it knows:
a call that is gone has a text before the change and the old path, a new one has a text after it and
the new path, an update has both, and they differ. All that a record says of a call is said of the
site that remains, or of the one that is gone if none does (`ChangeRecord.WellFormed`). The records
of two versions of a method follow the text (`InTextOrder`).

## Key results

- `isSome_isConsistent?_iff`: when there is a verdict on an update
- `compareSites_inTextOrder`: the records of a method are in the order of the text
- `HasSides.isAdded_eq`, `HasSides.isDeleted_eq`, `HasSides.isUpdated_eq`: the sides that a record
  has tell what became of the call
- `Report.ofFile_wellFormed`: every record of a report has the shape of its kind
-/

namespace LogDrift

/-! ## Verdicts on updates -/

/-- There is a verdict on an update if it changed variables in place, and there are lines to look
    at. -/
theorem isSome_isConsistent?_iff (site : CallSite) (change : Option ArgumentChange)
    (added : Option (List (List Char))) :
    (isConsistent? site (change.bind (·.changed?)) added).isSome = true ↔
      (∃ changed, change = some (.content changed) ∧ changed.facets.var = true) ∧
        added.isSome = true := by
  cases change with
  | none => simp [isConsistent?]
  | some change =>
    cases change with
    | added => simp [isConsistent?, ArgumentChange.changed?]
    | deleted => simp [isConsistent?, ArgumentChange.changed?]
    -- Only a change in place is looked at, and only if it is one of variables.
    | content changed =>
      cases added with
      | none => simp [isConsistent?, ArgumentChange.changed?]
      | some lines =>
        by_cases hvar : changed.facets.var = true <;>
          simp [isConsistent?, ArgumentChange.changed?, hvar]

/-! ## Records of sites -/

/-- A call is gone, new or updated, and one of these only. -/
theorem ChangeKind.isDeleted_or_isAdded_or_updated (kind : ChangeKind) :
    (kind.isDeleted = true ∧ kind.isAdded = false) ∨
      (kind.isAdded = true ∧ kind.isDeleted = false) ∨ kind = .updated := by
  cases kind <;> decide

namespace ChangeRecord

/-- What a record says of a call is said of this site. -/
structure Describes (r : ChangeRecord) (site : CallSite) : Prop where
  verbosity : r.verbosity = site.verbosity
  severity : r.severity = site.severity?
  shape : r.shape = site.shape?

theorem describes_ofSite (path method : String) (kind : ChangeKind) (site : CallSite) :
    (ofSite path method kind site).Describes site := ⟨rfl, rfl, rfl⟩

theorem describes_ofUpdate (path method : String) (added : Option (List (List Char)))
    (before after : CallSite) : (ofUpdate path method added before after).Describes after :=
  ⟨rfl, rfl, rfl⟩

/-- A record of a change of a file has the shape of its kind. -/
structure WellFormed (change : FileChange) (r : ChangeRecord) : Prop where
  of_deleted : r.kind.isDeleted = true →
    change.old.map (·.path) = some r.filePath ∧
      ∃ site ∈ change.oldSites, r.before = some site.text ∧ r.after = none ∧ r.Describes site
  of_added : r.kind.isAdded = true →
    change.new.map (·.path) = some r.filePath ∧
      ∃ site ∈ change.newSites, r.before = none ∧ r.after = some site.text ∧ r.Describes site
  of_updated : r.kind = .updated →
    change.new.map (·.path) = some r.filePath ∧
      ∃ before ∈ change.oldSites, ∃ after ∈ change.newSites, before.text ≠ after.text ∧
        r.before = some before.text ∧ r.after = some after.text ∧ r.Describes after ∧
        r.callerChange = callerChange? before after ∧
        r.argumentChange = argumentChange? before after
  /-- Only an update says how a call changed. -/
  of_ne_updated : r.kind ≠ .updated → r.callerChange = none ∧ r.argumentChange = none
  /-- There is a verdict exactly on an update that changed variables in place, if there is a
      diff. -/
  isConsistent_iff : r.isConsistent.isSome = true ↔
    r.kind = .updated ∧
      (∃ changed, r.argumentChange = some (.content changed) ∧ changed.facets.var = true) ∧
      change.unifiedDiff.isSome = true
  addedWithFile_iff : r.kind = .addedWithFile ↔ change.old = none
  deletedWithFile_iff : r.kind = .deletedWithFile ↔ change.new = none

/-! ## The sides of a record -/

namespace HasSides

variable {r : ChangeRecord} (h : r.HasSides)

include h

/-- A record is of a new call if and only if it has a text after the change only. -/
theorem isAdded_eq : r.kind.isAdded = (r.before.isNone && r.after.isSome) := by
  rw [← Option.not_isSome, h.1, h.2]
  cases r.kind <;> rfl

/-- A record is of a call that is gone if and only if it has a text before the change only. -/
theorem isDeleted_eq : r.kind.isDeleted = (r.before.isSome && r.after.isNone) := by
  rw [← Option.not_isSome, h.1, h.2]
  cases r.kind <;> rfl

/-- A record is of an update if and only if it has both texts. -/
theorem isUpdated_eq : decide (r.kind = .updated) = (r.before.isSome && r.after.isSome) := by
  rw [h.1, h.2]
  cases r.kind <;> rfl

end HasSides

/-- A record has the sides that its kind asks for. -/
theorem WellFormed.hasSides {change : FileChange} {r : ChangeRecord} (h : r.WellFormed change) :
    r.HasSides := by
  rcases r.kind.isDeleted_or_isAdded_or_updated with hkind | hkind | hkind
  · obtain ⟨-, site, -, hbefore, hafter, -⟩ := h.of_deleted hkind.1
    simp [HasSides, hkind, hbefore, hafter]
  · obtain ⟨-, site, -, hbefore, hafter, -⟩ := h.of_added hkind.1
    simp [HasSides, hkind, hbefore, hafter]
  · obtain ⟨-, before, -, after, -, -, hbefore, hafter, -⟩ := h.of_updated hkind
    simp [HasSides, hkind, hbefore, hafter, ChangeKind.isAdded, ChangeKind.isDeleted]

end ChangeRecord

/-! ## Two versions of a method -/

/-- Elements at growing positions are in the order of the list. -/
private theorem filterMap_getElem?_sublist_drop {α : Type} (as : List α) {is : List Nat}
    (h : is.Pairwise (· < ·)) {j : Nat} (hj : ∀ i ∈ is, j ≤ i) :
    (is.filterMap (as[·]?)).Sublist (as.drop j) := by
  -- On the positions: the first one starts what is left of the list, and the later ones lie behind
  -- it.
  induction is generalizing j with
  | nil => exact List.nil_sublist _
  | cons i is ih =>
    have htail : (is.filterMap (as[·]?)).Sublist (as.drop (i + 1)) :=
      ih (List.pairwise_cons.mp h).2 (List.pairwise_cons.mp h).1
    have hdrop : (as.drop i).Sublist (as.drop j) :=
      List.drop_sublist_drop_left as (hj i List.mem_cons_self)
    rw [List.filterMap_cons]
    split
    · exact htail.trans ((List.drop_sublist_drop_left as (Nat.le_succ i)).trans hdrop)
    · rename_i a ha
      obtain ⟨hlt, rfl⟩ := List.getElem?_eq_some_iff.mp ha
      rw [List.drop_eq_getElem_cons hlt] at hdrop
      exact (htail.cons_cons as[i]).trans hdrop

/-- The elements at positions in growing order are in the order of the list. -/
private theorem filterMap_getElem?_sublist {α : Type} (as : List α) {is : List Nat}
    (h : is.Pairwise (· < ·)) : (is.filterMap (as[·]?)).Sublist as :=
  filterMap_getElem?_sublist_drop as h fun i _ => Nat.zero_le i

/-- The records of two versions of a method follow the text: first the sites that are gone, in the
    order of the old text, then those that are new, in the order of the new text, then those that
    were updated, in the order of the old text again. -/
def InTextOrder (oldPath newPath method : String) (old new : List CallSite)
    (added : Option (List (List Char))) (records : List ChangeRecord) : Prop :=
  ∃ gone came : List CallSite, ∃ changed : List (CallSite × CallSite),
    gone.Sublist old ∧ came.Sublist new ∧ (changed.map Prod.fst).Sublist old ∧
    (∀ p ∈ changed, p.2 ∈ new ∧ p.1.text ≠ p.2.text) ∧
    records = gone.map (ChangeRecord.ofSite oldPath method .deletedInsideMethod) ++
      came.map (ChangeRecord.ofSite newPath method .addedInsideMethod) ++
      changed.map fun p => ChangeRecord.ofUpdate newPath method added p.1 p.2

section

variable (s : Settings) (oldPath newPath method : String) (old new : List CallSite)
  (added : Option (List (List Char)))

/-- The two sites of a pair. -/
def sitesOfPair (p : RatedPair Text.Similarity) : Option (CallSite × CallSite) :=
  (old[p.old]?).bind fun before => (new[p.new]?).map fun after => (before, after)

/-- The old sites of the updated pairs are in the order of the text. -/
private theorem map_fst_updated_sublist (admits : Text.Similarity → Bool) :
    ((((matchCalls admits old new).updated old new).filterMap (sitesOfPair old new)).map
      Prod.fst).Sublist old := by
  have hsorted : ((matchCalls admits old new).updated old new).Pairwise (·.old < ·.old) :=
    (matchCalls_isPartition admits old new).pairs_sorted.sublist List.filter_sublist
  -- Both positions of a pair have a site, so no pair is lost.
  have hfst : (((matchCalls admits old new).updated old new).filterMap
      (sitesOfPair old new)).map Prod.fst =
        (((matchCalls admits old new).updated old new).map (·.old)).filterMap (old[·]?) := by
    rw [List.map_filterMap, List.filterMap_map]
    apply List.filterMap_congr
    intro p hp
    obtain ⟨a, b, ha, hb, -⟩ := ratio_of_mem_matchCalls (List.mem_filter.mp hp).1
    simp [sitesOfPair, ha, hb]
  rw [hfst]
  exact filterMap_getElem?_sublist old (List.pairwise_map.mpr hsorted)

/-- The records of two versions of a method follow the text, whatever the threshold. -/
theorem compareSites_inTextOrder :
    InTextOrder oldPath newPath method old new added
      (compareSites s oldPath newPath method old new added) := by
  -- The positions of a matching are in growing order on either side.
  have hpart := matchCalls_isPartition (exceeds s.threshold) old new
  refine ⟨_, _, ((matchCalls (exceeds s.threshold) old new).updated old new).filterMap
    (sitesOfPair old new), filterMap_getElem?_sublist old hpart.unmatchedOld_sorted,
    filterMap_getElem?_sublist new hpart.unmatchedNew_sorted,
    map_fst_updated_sublist old new _, ?_, ?_⟩
  · intro p hp
    obtain ⟨q, hq, hsites⟩ := List.mem_filterMap.mp hp
    simp only [sitesOfPair, Option.bind_eq_some_iff, Option.map_eq_some_iff] at hsites
    obtain ⟨a, ha, b, hb, rfl⟩ := hsites
    have hdiffer := (List.mem_filter.mp hq).2
    rw [ha, hb] at hdiffer
    exact ⟨List.mem_of_getElem? hb, by simpa using hdiffer⟩
  · rw [compareSites, List.map_filterMap, List.map_filterMap, List.map_filterMap]
    simp only [sitesOfPair, Option.map_bind, Option.map_map, Function.comp_def]

end

namespace InTextOrder

variable {oldPath newPath method : String} {old new : List CallSite}
  {added : Option (List (List Char))} {records : List ChangeRecord}

/-- Each of these records is of a site that is gone, of one that is new, or of two sites with
    different texts. -/
theorem mem (h : InTextOrder oldPath newPath method old new added records) {r : ChangeRecord}
    (hr : r ∈ records) :
    (∃ site ∈ old, r = ChangeRecord.ofSite oldPath method .deletedInsideMethod site) ∨
    (∃ site ∈ new, r = ChangeRecord.ofSite newPath method .addedInsideMethod site) ∨
    ∃ before ∈ old, ∃ after ∈ new, before.text ≠ after.text ∧
      r = ChangeRecord.ofUpdate newPath method added before after := by
  obtain ⟨gone, came, changed, hgone, hcame, hchanged, hnew, rfl⟩ := h
  rcases List.mem_append.mp hr with hr | hr
  · rcases List.mem_append.mp hr with hr | hr
    · obtain ⟨site, hsite, rfl⟩ := List.mem_map.mp hr
      exact .inl ⟨site, hgone.mem hsite, rfl⟩
    · obtain ⟨site, hsite, rfl⟩ := List.mem_map.mp hr
      exact .inr (.inl ⟨site, hcame.mem hsite, rfl⟩)
  · obtain ⟨p, hp, rfl⟩ := List.mem_map.mp hr
    exact .inr (.inr ⟨p.1, hchanged.mem (List.mem_map_of_mem hp), p.2, (hnew p hp).1,
      (hnew p hp).2, rfl⟩)

end InTextOrder

/-! ## Every record has the shape of its kind -/

theorem ChangeKind.ne_of_isDeleted {kind : ChangeKind} (h : kind.isDeleted = true) :
    kind.isAdded ≠ true ∧ kind ≠ .updated ∧ kind ≠ .addedWithFile := by
  revert h
  cases kind <;> decide

theorem ChangeKind.ne_of_isAdded {kind : ChangeKind} (h : kind.isAdded = true) :
    kind.isDeleted ≠ true ∧ kind ≠ .updated ∧ kind ≠ .deletedWithFile := by
  revert h
  cases kind <;> decide

private theorem FileChange.old_ne_none_of_mem {change : FileChange} {site : CallSite}
    (h : site ∈ change.oldSites) : change.old ≠ none := by
  intro hnone
  simp [FileChange.oldSites, FileChange.oldMethods, hnone] at h

private theorem FileChange.new_ne_none_of_mem {change : FileChange} {site : CallSite}
    (h : site ∈ change.newSites) : change.new ≠ none := by
  intro hnone
  simp [FileChange.newSites, FileChange.newMethods, hnone] at h

namespace ChangeRecord

variable {change : FileChange} {path method : String}

/-- The record of an old site that is gone has the shape of its kind. -/
private theorem wellFormed_of_deleted {kind : ChangeKind} {site : CallSite}
    (hkind : kind.isDeleted = true) (hpath : change.old.map (·.path) = some path)
    (hsite : site ∈ change.oldSites) (hfile : kind = .deletedWithFile ↔ change.new = none) :
    (ofSite path method kind site).WellFormed change := by
  obtain ⟨hadded, hupdated, haddedFile⟩ := ChangeKind.ne_of_isDeleted hkind
  constructor
  case of_deleted =>
    intro _
    exact ⟨hpath, site, hsite, if_pos hkind, if_pos hkind, describes_ofSite path method kind site⟩
  case of_added => exact fun h => absurd h hadded
  case of_updated => exact fun h => absurd h hupdated
  case of_ne_updated => exact fun _ => ⟨rfl, rfl⟩
  case isConsistent_iff => exact ⟨nofun, fun h => absurd h.1 hupdated⟩
  case addedWithFile_iff =>
    exact ⟨fun h => absurd h haddedFile, fun h => absurd h (FileChange.old_ne_none_of_mem hsite)⟩
  case deletedWithFile_iff => exact hfile

/-- The record of a new site has the shape of its kind. -/
private theorem wellFormed_of_added {kind : ChangeKind} {site : CallSite}
    (hkind : kind.isAdded = true) (hpath : change.new.map (·.path) = some path)
    (hsite : site ∈ change.newSites) (hfile : kind = .addedWithFile ↔ change.old = none) :
    (ofSite path method kind site).WellFormed change := by
  obtain ⟨hdeleted, hupdated, hdeletedFile⟩ := ChangeKind.ne_of_isAdded hkind
  constructor
  case of_deleted => exact fun h => absurd h hdeleted
  case of_added =>
    intro _
    exact ⟨hpath, site, hsite, if_neg hdeleted, if_neg hdeleted,
      describes_ofSite path method kind site⟩
  case of_updated => exact fun h => absurd h hupdated
  case of_ne_updated => exact fun _ => ⟨rfl, rfl⟩
  case isConsistent_iff => exact ⟨nofun, fun h => absurd h.1 hupdated⟩
  case addedWithFile_iff => exact hfile
  case deletedWithFile_iff =>
    exact ⟨fun h => absurd h hdeletedFile,
      fun h => absurd h (FileChange.new_ne_none_of_mem hsite)⟩

/-- The record of two sites with different texts has the shape of an update. -/
private theorem wellFormed_of_updated {before after : CallSite}
    (hpath : change.new.map (·.path) = some path) (hbefore : before ∈ change.oldSites)
    (hafter : after ∈ change.newSites) (htext : before.text ≠ after.text) :
    (ofUpdate path method (addedLinesOf change.unifiedDiff) before after).WellFormed change := by
  have hdiff : (addedLinesOf change.unifiedDiff).isSome = change.unifiedDiff.isSome :=
    Option.isSome_map
  constructor
  case of_deleted => exact nofun
  case of_added => exact nofun
  case of_updated =>
    intro _
    exact ⟨hpath, before, hbefore, after, hafter, htext, rfl, rfl,
      describes_ofUpdate path method _ before after, rfl, rfl⟩
  case of_ne_updated => exact fun h => absurd rfl h
  case isConsistent_iff =>
    -- There are lines to look at if and only if there is a diff.
    have hverdict := isSome_isConsistent?_iff after (argumentChange? before after)
      (addedLinesOf change.unifiedDiff)
    rw [hdiff] at hverdict
    exact hverdict.trans (and_iff_right rfl).symm
  case addedWithFile_iff =>
    exact ⟨nofun, fun h => absurd h (FileChange.old_ne_none_of_mem hbefore)⟩
  case deletedWithFile_iff =>
    exact ⟨nofun, fun h => absurd h (FileChange.new_ne_none_of_mem hafter)⟩

/-- The records of the sites of methods are about sites of the file. -/
theorem mem_recordsOfMethod {kind : ChangeKind} {m : Method} {r : ChangeRecord}
    (hr : r ∈ recordsOfMethod path kind m) :
    ∃ site ∈ m.callSites, r = ofSite path m.fullSignature kind site := by
  obtain ⟨site, hsite, rfl⟩ := List.mem_map.mp hr
  exact ⟨site, hsite, rfl⟩

end ChangeRecord

/-! ## Reports -/

namespace Report

/-- The parts of the records of two versions: those of the compared pairs, and those of the methods
    that came or went. -/
theorem records_ofVersions (s : Settings) (old new : FileVersion) (diff : Option String) :
    ∃ (ofPair : MethodPair → List ChangeRecord) (whole : List ChangeRecord),
      (ofVersions s old new diff).records =
        (matchMethods old.methods new.methods).pairs.flatMap ofPair ++ whole ∧
      (∀ p ∈ (matchMethods old.methods new.methods).pairs,
        InTextOrder old.path new.path p.new.1.fullSignature p.old.1.callSites p.new.1.callSites
          (addedLinesOf diff) (ofPair p)) ∧
      ∀ r ∈ whole, r.kind = .deletedWithMethod ∨ r.kind = .addedWithMethod := by
  refine ⟨_, _, List.append_assoc _ _ _, ?_, ?_⟩
  · intro p _
    exact compareSites_inTextOrder s old.path new.path _ _ _ _
  · intro r hr
    rcases List.mem_append.mp hr with hr | hr
    · obtain ⟨m, -, hm⟩ := List.mem_flatMap.mp hr
      exact .inl (kind_of_mem_recordsOfMethod hm)
    · obtain ⟨m, -, hm⟩ := List.mem_flatMap.mp hr
      exact .inr (kind_of_mem_recordsOfMethod hm)

/-- The methods of a matching are methods of their version, and so are their sites. -/
private theorem mem_oldSites_of_matched (diff : Option String) {old new : FileVersion}
    {m : PlacedMethod} (hm : m ∈ (matchMethods old.methods new.methods).pairs.map (·.old) ++
      ((matchMethods old.methods new.methods).untouched.map Prod.fst ++
        (matchMethods old.methods new.methods).onlyOld))
    {site : CallSite} (hsite : site ∈ m.1.callSites) :
    site ∈ (⟨some old, some new, diff⟩ : FileChange).oldSites :=
  List.mem_flatMap.mpr ⟨m.1, List.mem_of_getElem?
    ((matchMethods_accounts old.methods new.methods).old_placed m hm), hsite⟩

/-- The same holds of the new version. -/
private theorem mem_newSites_of_matched (diff : Option String) {old new : FileVersion}
    {m : PlacedMethod} (hm : m ∈ (matchMethods old.methods new.methods).pairs.map (·.new) ++
      ((matchMethods old.methods new.methods).untouched.map Prod.snd ++
        (matchMethods old.methods new.methods).onlyNew))
    {site : CallSite} (hsite : site ∈ m.1.callSites) :
    site ∈ (⟨some old, some new, diff⟩ : FileChange).newSites :=
  List.mem_flatMap.mpr ⟨m.1, List.mem_of_getElem?
    ((matchMethods_accounts old.methods new.methods).new_placed m hm), hsite⟩

/-- The records of a compared pair have the shapes of their kinds. -/
private theorem compareMethods_wellFormed (s : Settings) {old new : FileVersion}
    {diff : Option String}
    {p : MethodPair} (hp : p ∈ (matchMethods old.methods new.methods).pairs) :
    ∀ r ∈ compareMethods s old.path new.path p.old.1 p.new.1 (addedLinesOf diff),
      r.WellFormed ⟨some old, some new, diff⟩ := by
  intro r hr
  have hold {site : CallSite} (hsite : site ∈ p.old.1.callSites) :=
    mem_oldSites_of_matched diff
      (List.mem_append_left _ (List.mem_map_of_mem (f := (·.old)) hp)) hsite
  have hnew {site : CallSite} (hsite : site ∈ p.new.1.callSites) :=
    mem_newSites_of_matched diff
      (List.mem_append_left _ (List.mem_map_of_mem (f := (·.new)) hp)) hsite
  -- The record is one of the three sorts that such a comparison has.
  rcases (compareSites_inTextOrder s old.path new.path _ _ _ _).mem hr with
    ⟨site, hsite, rfl⟩ | ⟨site, hsite, rfl⟩ | ⟨a, ha, b, hb, htext, rfl⟩
  · exact ChangeRecord.wellFormed_of_deleted rfl rfl (hold hsite) ⟨nofun, nofun⟩
  · exact ChangeRecord.wellFormed_of_added rfl rfl (hnew hsite) ⟨nofun, nofun⟩
  · exact ChangeRecord.wellFormed_of_updated rfl (hold ha) (hnew hb) htext

/-- The records of two versions of a file have the shapes of their kinds. -/
theorem ofVersions_wellFormed (s : Settings) (old new : FileVersion) (diff : Option String) :
    ∀ r ∈ (ofVersions s old new diff).records, r.WellFormed ⟨some old, some new, diff⟩ := by
  intro r hr
  rcases List.mem_append.mp hr with hr | hr
  · rcases List.mem_append.mp hr with hr | hr
    · -- A record of a compared pair.
      obtain ⟨p, hp, hr⟩ := List.mem_flatMap.mp hr
      exact compareMethods_wellFormed s hp r hr
    · -- A record of a method that is gone.
      obtain ⟨m, hm, hr⟩ := List.mem_flatMap.mp hr
      obtain ⟨site, hsite, rfl⟩ := ChangeRecord.mem_recordsOfMethod hr
      exact ChangeRecord.wellFormed_of_deleted rfl rfl
        (mem_oldSites_of_matched diff (List.mem_append_right _ (List.mem_append_right _ hm)) hsite)
        ⟨nofun, nofun⟩
  · -- A record of a method that is new.
    obtain ⟨m, hm, hr⟩ := List.mem_flatMap.mp hr
    obtain ⟨site, hsite, rfl⟩ := ChangeRecord.mem_recordsOfMethod hr
    exact ChangeRecord.wellFormed_of_added rfl rfl
      (mem_newSites_of_matched diff (List.mem_append_right _ (List.mem_append_right _ hm)) hsite)
      ⟨nofun, nofun⟩

/-- Every record of a report has the shape of its kind. -/
theorem ofFile_wellFormed {s : Settings} {change : FileChange} {report : Report}
    (h : ofFile s change = .ok report) : ∀ r ∈ report.records, r.WellFormed change := by
  obtain ⟨old, new, diff⟩ := change
  intro r hr
  -- A file without either version is refused. With one of them, all records are of its methods.
  cases old with
  | none =>
    cases new with
    | none => exact nomatch h
    | some new =>
      obtain rfl := Except.ok.inj h
      obtain ⟨m, hm, hr⟩ := List.mem_flatMap.mp hr
      obtain ⟨site, hsite, rfl⟩ := ChangeRecord.mem_recordsOfMethod hr
      exact ChangeRecord.wellFormed_of_added rfl rfl (List.mem_flatMap.mpr ⟨m, hm, hsite⟩)
        ⟨fun _ => rfl, fun _ => rfl⟩
  | some old =>
    cases new with
    | none =>
      obtain rfl := Except.ok.inj h
      obtain ⟨m, hm, hr⟩ := List.mem_flatMap.mp hr
      obtain ⟨site, hsite, rfl⟩ := ChangeRecord.mem_recordsOfMethod hr
      exact ChangeRecord.wellFormed_of_deleted rfl rfl (List.mem_flatMap.mpr ⟨m, hm, hsite⟩)
        ⟨fun _ => rfl, fun _ => rfl⟩
    | some new =>
      obtain rfl := Except.ok.inj h
      exact ofVersions_wellFormed s old new diff r hr

/-- A call is new, gone or updated. -/
theorem added_add_deleted_add_updated (report : Report) :
    report.added + report.deleted + report.updated = report.records.length := by
  rw [added, deleted, updated]
  induction report.records with
  | nil => rfl
  | cons r records ih =>
    simp only [List.countP_cons, List.length_cons, ← ih]
    -- Every kind is counted in one of the three numbers.
    cases r.kind <;> simp [ChangeKind.isAdded, ChangeKind.isDeleted] <;> omega

end Report

/-- Every record of a report has the shape of its kind. The numbers of a report are those of the
    records with a text after the change only, before it only, and on both sides, and these are all
    records. If the file has two versions, the records of the compared methods come first, one pair
    of methods after another, and those of a pair follow the text: first what is gone, then what is
    new, then what was updated. -/
theorem report_records_have_shapes (s : Settings) (change : FileChange) (report : Report)
    (hreport : Report.ofFile s change = .ok report) :
    (∀ r ∈ report.records, r.WellFormed change) ∧
    report.added = report.records.countP (fun r => r.before.isNone && r.after.isSome) ∧
    report.deleted = report.records.countP (fun r => r.before.isSome && r.after.isNone) ∧
    report.updated = report.records.countP (fun r => r.before.isSome && r.after.isSome) ∧
    report.added + report.deleted + report.updated = report.records.length ∧
    ∀ old new, change.old = some old → change.new = some new →
      ∃ (ofPair : MethodPair → List ChangeRecord) (whole : List ChangeRecord),
        report.records = (matchMethods old.methods new.methods).pairs.flatMap ofPair ++ whole ∧
        (∀ p ∈ (matchMethods old.methods new.methods).pairs,
          InTextOrder old.path new.path p.new.1.fullSignature p.old.1.callSites
            p.new.1.callSites (addedLinesOf change.unifiedDiff) (ofPair p)) ∧
        ∀ r ∈ whole, r.kind = .deletedWithMethod ∨ r.kind = .addedWithMethod := by
  have hshapes := Report.ofFile_wellFormed hreport
  refine ⟨hshapes, ?_, ?_, ?_, report.added_add_deleted_add_updated, ?_⟩
  · exact List.countP_congr fun r hr => by rw [(hshapes r hr).hasSides.isAdded_eq]
  · exact List.countP_congr fun r hr => by rw [(hshapes r hr).hasSides.isDeleted_eq]
  · exact List.countP_congr fun r hr => by rw [(hshapes r hr).hasSides.isUpdated_eq]
  · intro old new hold hnew
    obtain ⟨_, _, diff⟩ := change
    obtain rfl := hold
    obtain rfl := hnew
    obtain rfl := Except.ok.inj hreport
    exact Report.records_ofVersions s old new diff

/-- The change that logs another variable in one method and takes another method away. -/
def FileChange.ofRenamedVariable : FileChange where
  old := some ⟨"Old.java",
    [⟨"load", ["int"], "void load(int a) \x7bLog.d(\"n\" + a);\x7d", "\x7bLog.d(\"n\" + a);\x7d",
        [.call ⟨"Log.d", "Log.d(\"n\" + a)", [⟨"\"n\" + a", [.text "\"n\"", .var "a"]⟩]⟩]⟩,
      ⟨"close", [], "void close() \x7bLog.i(c);\x7d", "\x7bLog.i(c);\x7d",
        [.call ⟨"Log.i", "Log.i(c)", [⟨"c", [.var "c"]⟩]⟩]⟩]⟩
  new := some ⟨"New.java",
    [⟨"load", ["int"], "void load(int a) \x7bint b = a;Log.d(\"n\" + b);\x7d",
        "\x7bint b = a;Log.d(\"n\" + b);\x7d",
        [.call ⟨"Log.d", "Log.d(\"n\" + b)", [⟨"\"n\" + b", [.text "\"n\"", .var "b"]⟩]⟩]⟩]⟩
  unifiedDiff := some "+int b = a;"

/-- The report has an update, on which there is a verdict, and a call that is gone. -/
theorem report_records_have_shapes_of_renamed_variable :
    ∃ report, Report.ofFile Settings.standard FileChange.ofRenamedVariable = .ok report ∧
      report.records.map (fun r => (r.kind, r.filePath, r.isConsistent)) =
        [(.updated, "New.java", some true), (.deletedWithMethod, "Old.java", none)] ∧
      (∀ r ∈ report.records, r.WellFormed FileChange.ofRenamedVariable) ∧
      report.added + report.deleted + report.updated = 2 := by
  have hreport : Report.ofFile Settings.standard FileChange.ofRenamedVariable = .ok
      (Report.ofVersions Settings.standard (FileChange.ofRenamedVariable.old.get rfl)
        (FileChange.ofRenamedVariable.new.get rfl) FileChange.ofRenamedVariable.unifiedDiff) := rfl
  obtain ⟨hshapes, -, -, -, hsum, -⟩ := report_records_have_shapes _ _ _ hreport
  exact ⟨_, hreport, by decide +kernel, hshapes, hsum.trans (by decide +kernel)⟩

end LogDrift
