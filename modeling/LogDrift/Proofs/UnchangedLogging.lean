import Mathlib.Logic.Equiv.Basic
import LogDrift.Proofs.ExactMatch
import LogDrift.Proofs.MethodMatching
import LogDrift.Proofs.Patch

/-!
# Edits that leave the logging alone

Methods may move in the file, calls may move in a method, and all other code may change: as long as
every method keeps its signature and its logging calls, nothing is reported. In such an edit a
method is set aside together with its counterpart, the first pass pairs all others with theirs, and
the sites of a pair have permuted texts.

## Key results

- `MatchingLogs.signature_mem_changed`: a method is set aside together with its counterpart
- `MatchingLogs.exactPass_leftovers`: the first pass leaves nothing over
- `MatchingLogs.ofVersions_eq`: the report of versions with the same logging is empty
-/

namespace LogDrift

open MethodMatching

/-- Two methods with one signature and the same logging calls, in any order. -/
structure Method.LogsAs (m n : Method) : Prop where
  signature : m.signature = n.signature
  siteTexts : m.siteTexts.Perm n.siteTexts

/-- Two versions of the methods of a class in which every method has a counterpart that logs the
    same. Signatures tell the methods of a version apart. -/
structure MatchingLogs (old new : List Method) : Prop where
  old_nodup : (old.map Method.signature).Nodup
  new_nodup : (new.map Method.signature).Nodup
  signature_of_source : ∀ m ∈ old, ∀ n ∈ new, m.source = n.source → m.signature = n.signature
  exists_new : ∀ m ∈ old, ∃ n ∈ new, m.LogsAs n
  exists_old : ∀ n ∈ new, ∃ m ∈ old, m.LogsAs n

namespace MatchingLogs

variable {old new : List Method}

/-- The other way round the versions log the same as well. -/
theorem symm (h : MatchingLogs old new) : MatchingLogs new old where
  old_nodup := h.new_nodup
  new_nodup := h.old_nodup
  signature_of_source n hn m hm hsource :=
    (h.signature_of_source m hm n hn hsource.symm).symm
  exists_new n hn := by
    obtain ⟨m, hm, hlogs⟩ := h.exists_old n hn
    exact ⟨m, hm, hlogs.signature.symm, hlogs.siteTexts.symm⟩
  exists_old m hm := by
    obtain ⟨n, hn, hlogs⟩ := h.exists_new m hm
    exact ⟨n, hn, hlogs.signature.symm, hlogs.siteTexts.symm⟩

/-- Methods of one signature are counterparts. -/
theorem logsAs (h : MatchingLogs old new) {m n : Method} (hm : m ∈ old) (hn : n ∈ new)
    (hsignature : m.signature = n.signature) : m.LogsAs n := by
  obtain ⟨n', hn', hlogs⟩ := h.exists_new m hm
  -- Of the new methods only one has this signature.
  obtain rfl := List.inj_on_of_nodup_map h.new_nodup hn' hn (hlogs.signature.symm.trans hsignature)
  exact hlogs

/-- A method goes through the passes together with its counterpart. -/
theorem signature_mem_changed (h : MatchingLogs old new) {s : Signature}
    (hs : s ∈ (changed old new).map (·.1.signature)) :
    s ∈ (changed new old).map (·.1.signature) := by
  obtain ⟨⟨m, i⟩, hplaced, rfl⟩ := List.mem_map.mp hs
  obtain ⟨hat, hsource⟩ := mem_changed.mp hplaced
  obtain ⟨n, hn, hlogs⟩ := h.exists_new m (List.mem_of_getElem? hat)
  obtain ⟨j, hj⟩ := List.mem_iff_getElem?.mp hn
  refine List.mem_map.mpr ⟨(n, j), mem_changed.mpr ⟨hj, ?_⟩, hlogs.signature.symm⟩
  -- An old method with the text of the counterpart has its signature, so it is the method itself.
  intro hold
  obtain ⟨m', hm', hsame⟩ := List.mem_map.mp hold
  have hsignature := (h.signature_of_source m' hm' n hn hsame).trans hlogs.signature.symm
  obtain rfl := List.inj_on_of_nodup_map h.old_nodup hm' (List.mem_of_getElem? hat) hsignature
  exact hsource (List.mem_map.mpr ⟨n, hn, hsame.symm⟩)

/-- The signatures tell apart the methods that go through the passes. -/
private theorem nodup_changed (h : MatchingLogs old new) :
    ((changed old new).map (·.1.signature)).Nodup := by
  have hall := (unchanged_append_changed old new).map Method.signature
  rw [List.map_append, List.map_map] at hall
  exact (hall.nodup_iff.mpr h.old_nodup).of_append_right

/-- The first pass leaves no method over on either side. -/
theorem exactPass_leftovers (h : MatchingLogs old new) :
    (exactPass old new).left = [] ∧ (exactPass old new).right = [] := by
  -- The signatures on both sides are the same, and each stands there once.
  apply firstFit_leftovers_of_perm (fun o n => sameSignature_iff (o := o) (n := n))
  rw [List.perm_ext_iff_of_nodup h.nodup_changed h.symm.nodup_changed]
  exact fun s => ⟨h.signature_mem_changed, h.symm.signature_mem_changed⟩

/-- So the second pass has nothing to pair. -/
private theorem namePass_eq (h : MatchingLogs old new) : namePass old new = ⟨[], [], []⟩ := by
  rw [namePass, h.exactPass_leftovers.1, h.exactPass_leftovers.2]
  rfl

/-- Neither has the third one. -/
private theorem renamePass_eq (h : MatchingLogs old new) : renamePass old new = ⟨[], [], []⟩ := by
  rw [renamePass, h.namePass_eq]
  rfl

/-- The methods of a pair are counterparts. -/
private theorem logsAs_of_mem_pairs (h : MatchingLogs old new) {p : MethodPair}
    (hp : p ∈ (matchMethods old new).pairs) : p.old.1.LogsAs p.new.1 := by
  -- Only the first pass has pairs.
  rcases mem_pairs_iff.mp hp with ⟨-, hpass⟩ | ⟨-, hpass, -⟩
  · have haccounts := matchMethods_accounts old new
    have hold := haccounts.old_placed p.old (List.mem_append_left _ (List.mem_map_of_mem hp))
    have hnew := haccounts.new_placed p.new (List.mem_append_left _ (List.mem_map_of_mem hp))
    exact h.logsAs (List.mem_of_getElem? hold) (List.mem_of_getElem? hnew)
      (signature_eq_of_exactPass hpass)
  · rw [h.namePass_eq] at hpass
    exact absurd hpass List.not_mem_nil

/-- Two versions with the same logging have an empty report. -/
theorem ofVersions_eq {old new : FileVersion} (h : MatchingLogs old.methods new.methods)
    (s : Settings) (hs : s.threshold < 1.0) (diff : Option String) :
    Report.ofVersions s old new diff = ⟨new.path, [], [], []⟩ := by
  have hold : (matchMethods old.methods new.methods).onlyOld = [] := by
    rw [matchMethods_onlyOld, h.renamePass_eq]
  have hnew : (matchMethods old.methods new.methods).onlyNew = [] := by
    rw [matchMethods_onlyNew, h.renamePass_eq]
  -- The sites of a pair are the same up to their order, so it has no record.
  have hpairs : (matchMethods old.methods new.methods).pairs.flatMap (fun pair =>
      compareMethods s old.path new.path pair.old.1 pair.new.1 (addedLinesOf diff)) = [] := by
    rw [List.flatMap_eq_nil_iff]
    intro p hp
    exact compareSites_eq_nil s (exceeds_of_isFull (.inl hs)) old.path new.path _ _
      (h.logsAs_of_mem_pairs hp).siteTexts
  rw [Report.ofVersions, hpairs, hold, hnew]
  rfl

/-- A correspondence of the methods, one to one by position. -/
private theorem of_equiv (hold : (old.map Method.signature).Nodup)
    (hnew : (new.map Method.signature).Nodup)
    (hsource : ∀ m ∈ old, ∀ n ∈ new, m.source = n.source → m.signature = n.signature)
    (σ : Fin old.length ≃ Fin new.length) (hσ : ∀ i, (old.get i).LogsAs (new.get (σ i))) :
    MatchingLogs old new where
  old_nodup := hold
  new_nodup := hnew
  signature_of_source := hsource
  exists_new m hm := by
    obtain ⟨i, rfl⟩ := List.mem_iff_get.mp hm
    exact ⟨new.get (σ i), List.get_mem _ _, hσ i⟩
  exists_old n hn := by
    obtain ⟨j, rfl⟩ := List.mem_iff_get.mp hn
    have hlogs := hσ (σ.symm j)
    rw [Equiv.apply_symm_apply] at hlogs
    exact ⟨old.get (σ.symm j), List.get_mem _ _, hlogs⟩

end MatchingLogs

/-- An edit that touches no logging is not reported, whatever the diff. If signatures tell the
    methods of either version apart, texts determine signatures, and the methods of the two versions
    correspond one to one with the same signature and the same logging calls in any order, then at
    every threshold below one the report has no record and no method that came or went. -/
theorem ofFile_eq_of_same_logging (s : Settings) (hs : s.threshold < 1.0) (old new : FileVersion)
    (hold : (old.methods.map Method.signature).Nodup)
    (hnew : (new.methods.map Method.signature).Nodup)
    (hsource : ∀ m ∈ old.methods, ∀ n ∈ new.methods,
      m.source = n.source → m.signature = n.signature)
    (σ : Fin old.methods.length ≃ Fin new.methods.length)
    (hσ : ∀ i, (old.methods.get i).LogsAs (new.methods.get (σ i))) (diff : Option String) :
    Report.ofFile s ⟨some old, some new, diff⟩ = .ok ⟨new.path, [], [], []⟩ := by
  have hlogs := MatchingLogs.of_equiv hold hnew hsource σ hσ
  have hreport := hlogs.ofVersions_eq s hs diff
  simp only [Report.ofFile, hreport]

/-- A version with a method that logs twice and one that logs once. -/
def FileVersion.ofLoadAndClose : FileVersion :=
  ⟨"A.java",
    [⟨"load", ["int"], "void load(int a) \x7bLog.d(a);Log.e(b);\x7d",
        "\x7bLog.d(a);Log.e(b);\x7d",
        [.call ⟨"Log.d", "Log.d(a)", [⟨"a", [.var "a"]⟩]⟩,
          .call ⟨"Log.e", "Log.e(b)", [⟨"b", [.var "b"]⟩]⟩]⟩,
      ⟨"close", [], "void close() \x7bLog.i(c);\x7d", "\x7bLog.i(c);\x7d",
        [.call ⟨"Log.i", "Log.i(c)", [⟨"c", [.var "c"]⟩]⟩]⟩]⟩

/-- A version in which the methods have changed places, and the calls of one have, too. -/
def FileVersion.ofCloseAndLoad : FileVersion :=
  ⟨"A.java",
    [⟨"close", [], "void close() \x7bLog.i(c);\x7d", "\x7bLog.i(c);\x7d",
        [.call ⟨"Log.i", "Log.i(c)", [⟨"c", [.var "c"]⟩]⟩]⟩,
      ⟨"load", ["int"], "void load(int a) \x7bLog.e( b );run();Log.d(a);\x7d",
        "\x7bLog.e( b );run();Log.d(a);\x7d",
        [.call ⟨"Log.e", "Log.e( b )", [⟨"b", [.var "b"]⟩]⟩, .call ⟨"run", "run()", []⟩,
          .call ⟨"Log.d", "Log.d(a)", [⟨"a", [.var "a"]⟩]⟩]⟩]⟩

/-- Methods and calls that change places are not reported. -/
theorem ofFile_eq_of_same_logging_reordered :
    Settings.standard.threshold < 1.0 ∧
    (∀ i : Fin 2, (FileVersion.ofLoadAndClose.methods.get i).LogsAs
      (FileVersion.ofCloseAndLoad.methods.get ((Equiv.swap 0 1 : Equiv.Perm (Fin 2)) i))) ∧
    Report.ofFile Settings.standard
        ⟨some FileVersion.ofLoadAndClose, some FileVersion.ofCloseAndLoad, some "+ run();"⟩ =
      .ok ⟨"A.java", [], [], []⟩ := by
  have hthreshold : Settings.standard.threshold < 1.0 := by decide
  have hlogs : ∀ i : Fin 2, (FileVersion.ofLoadAndClose.methods.get i).LogsAs
      (FileVersion.ofCloseAndLoad.methods.get ((Equiv.swap 0 1 : Equiv.Perm (Fin 2)) i)) := by
    intro i
    constructor
    · revert i
      decide
    · revert i
      decide +kernel
  exact ⟨hthreshold, hlogs, ofFile_eq_of_same_logging Settings.standard hthreshold
    FileVersion.ofLoadAndClose FileVersion.ofCloseAndLoad (by decide) (by decide) (by decide)
    (Equiv.swap 0 1 : Equiv.Perm (Fin 2)) hlogs (some "+ run();")⟩

end LogDrift
