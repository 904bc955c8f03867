import LogDrift.Proofs.CallMatching
import LogDrift.Proofs.MethodMatching
import LogDrift.Report

/-! # Change records are a patch

Taking the texts before the changes away from the texts of the old version, and adding the texts
after the changes, gives the texts of the new version, each as often as it occurs (`IsPatch`). A
patch is put together from the patches of its parts, as the records are.

## Key results

- `IsPatch.count_eq`: a patch adds what the new version has more
- `compareSites_isPatch`: the records of two versions of a method are a patch
- `ofFile_isPatch`: the records of a file are a patch, if texts determine bodies
-/

namespace LogDrift

/-! ## Patches -/

/-- A record has the text before the change unless the call is new, and the text after it unless
    the call is gone. -/
def ChangeRecord.HasSides (r : ChangeRecord) : Prop :=
  r.before.isSome = !r.kind.isAdded ∧ r.after.isSome = !r.kind.isDeleted

instance (r : ChangeRecord) : Decidable r.HasSides :=
  inferInstanceAs (Decidable
    (r.before.isSome = !r.kind.isAdded ∧ r.after.isSome = !r.kind.isDeleted))

/-- Records lead from some texts to others, each as often as it occurs. -/
structure IsPatch (old new : List String) (records : List ChangeRecord) : Prop where
  texts : (old ++ records.filterMap (·.after)).Perm (new ++ records.filterMap (·.before))
  hasSides : ∀ r ∈ records, r.HasSides

namespace IsPatch

variable {old old' new new' : List String} {records records' : List ChangeRecord}

theorem refl (texts : List String) : IsPatch texts texts [] :=
  ⟨List.Perm.refl _, by simp⟩

theorem of_perm (h : IsPatch old new records) (hold : old.Perm old') (hnew : new.Perm new') :
    IsPatch old' new' records :=
  ⟨(hold.symm.append_right _).trans (h.texts.trans (hnew.append_right _)), h.hasSides⟩

/-- Patches of two parts are a patch of the whole. -/
theorem append (h : IsPatch old new records) (h' : IsPatch old' new' records') :
    IsPatch (old ++ old') (new ++ new') (records ++ records') := by
  -- The middle two of four lists change places.
  have hmiddle (as bs cs ds : List String) :
      ((as ++ bs) ++ (cs ++ ds)).Perm ((as ++ cs) ++ (bs ++ ds)) := by
    rw [List.append_assoc, List.append_assoc, ← List.append_assoc bs, ← List.append_assoc cs]
    exact (List.perm_append_comm.append_right ds).append_left as
  constructor
  · rw [List.filterMap_append, List.filterMap_append]
    exact (hmiddle _ _ _ _).trans ((h.texts.append h'.texts).trans (hmiddle _ _ _ _))
  · intro r hr
    rcases List.mem_append.mp hr with hr | hr
    · exact h.hasSides r hr
    · exact h'.hasSides r hr

/-- Patches of many parts are a patch of the whole. -/
theorem flatMap {α : Type} (xs : List α) {old new : α → List String}
    {records : α → List ChangeRecord} (h : ∀ x ∈ xs, IsPatch (old x) (new x) (records x)) :
    IsPatch (xs.flatMap old) (xs.flatMap new) (xs.flatMap records) := by
  induction xs with
  | nil => exact refl []
  | cons x xs ih =>
    have hhead := h x List.mem_cons_self
    have htail := ih fun y hy => h y (List.mem_cons_of_mem x hy)
    exact hhead.append htail

/-- Texts that are gone part by part are gone as a whole. -/
theorem flatMap_deleted {α : Type} (xs : List α) {old : α → List String}
    {records : α → List ChangeRecord} (h : ∀ x ∈ xs, IsPatch (old x) [] (records x)) :
    IsPatch (xs.flatMap old) [] (xs.flatMap records) := by
  -- The new sides of the parts are empty, and so are they together.
  have hnil : xs.flatMap (fun _ => ([] : List String)) = [] :=
    List.flatMap_eq_nil_iff.mpr fun _ _ => rfl
  have hall := flatMap xs h
  rw [hnil] at hall
  exact hall

/-- Texts that are new part by part are new as a whole. -/
theorem flatMap_added {α : Type} (xs : List α) {new : α → List String}
    {records : α → List ChangeRecord} (h : ∀ x ∈ xs, IsPatch [] (new x) (records x)) :
    IsPatch [] (xs.flatMap new) (xs.flatMap records) := by
  have hnil : xs.flatMap (fun _ => ([] : List String)) = [] :=
    List.flatMap_eq_nil_iff.mpr fun _ _ => rfl
  have hall := flatMap xs h
  rw [hnil] at hall
  exact hall

/-- The record of a site that is gone takes its text away. -/
theorem of_deleted {kind : ChangeKind} (hkind : kind.isDeleted = true) (path method : String)
    (site : CallSite) : IsPatch [site.text] [] [ChangeRecord.ofSite path method kind site] := by
  have hadded : kind.isAdded = false := by cases kind <;> first | rfl | exact nomatch hkind
  constructor
  · simp [ChangeRecord.ofSite, hkind]
  · simp [ChangeRecord.HasSides, ChangeRecord.ofSite, hkind, hadded]

/-- The record of a site that is new adds its text. -/
theorem of_added {kind : ChangeKind} (hkind : kind.isAdded = true) (path method : String)
    (site : CallSite) : IsPatch [] [site.text] [ChangeRecord.ofSite path method kind site] := by
  have hdeleted : kind.isDeleted = false := by cases kind <;> first | rfl | exact nomatch hkind
  constructor
  · simp [ChangeRecord.ofSite, hdeleted]
  · simp [ChangeRecord.HasSides, ChangeRecord.ofSite, hkind, hdeleted]

/-- The record of an updated site takes the old text away and adds the new one. -/
theorem of_updated (path method : String) (added : Option (List (List Char)))
    (before after : CallSite) :
    IsPatch [before.text] [after.text] [ChangeRecord.ofUpdate path method added before after] := by
  constructor
  · -- The old text and the one after the change are the new text and the one before it.
    exact List.Perm.swap after.text before.text []
  · simp [ChangeRecord.HasSides, ChangeRecord.ofUpdate, ChangeKind.isAdded,
      ChangeKind.isDeleted]

/-- A patch adds what the new version has more. -/
theorem count_eq (h : IsPatch old new records) :
    (records.countP (·.kind.isAdded) : Int) - records.countP (·.kind.isDeleted) =
      new.length - old.length := by
  -- Every record but those of a gone call has a text after the change, and so on.
  have hafter : (records.filterMap (·.after)).length =
      records.countP (fun r => !r.kind.isDeleted) := by
    rw [List.length_filterMap_eq_countP]
    exact List.countP_congr fun r hr => by rw [(h.hasSides r hr).2]
  have hbefore : (records.filterMap (·.before)).length =
      records.countP (fun r => !r.kind.isAdded) := by
    rw [List.length_filterMap_eq_countP]
    exact List.countP_congr fun r hr => by rw [(h.hasSides r hr).1]
  have hdeleted := List.length_eq_countP_add_countP (fun r : ChangeRecord => r.kind.isDeleted)
    (l := records)
  have hadded := List.length_eq_countP_add_countP (fun r : ChangeRecord => r.kind.isAdded)
    (l := records)
  have hlength := h.texts.length_eq
  rw [List.length_append, List.length_append, hafter, hbefore] at hlength
  simp only [decide_not, Bool.decide_eq_true] at hdeleted hadded
  omega

end IsPatch

/-! ## Two versions of a method -/

/-- The text of the site at a position, if there is one. -/
def textAt (sites : List CallSite) (i : Nat) : List String := (sites[i]?.map (·.text)).toList

/-- The texts at all positions are the texts of the sites. -/
private theorem flatMap_textAt_range (sites : List CallSite) :
    (List.range sites.length).flatMap (textAt sites) = sites.map (·.text) := by
  induction sites with
  | nil => rfl
  | cons site sites ih =>
    rw [List.length_cons, List.range_succ_eq_map, List.flatMap_cons, List.flatMap_map,
      List.map_cons, ← ih]
    rfl

section

variable (s : Settings) (oldPath newPath method : String) (old new : List CallSite)
  (added : Option (List (List Char)))

/-- An unmatched old site is gone. -/
private theorem isPatch_unmatchedOld (i : Nat) :
    IsPatch (textAt old i) []
      (old[i]?.map (ChangeRecord.ofSite oldPath method .deletedInsideMethod)).toList := by
  rw [textAt]
  cases old[i]? with
  | none => exact IsPatch.refl []
  | some site => exact IsPatch.of_deleted rfl oldPath method site

/-- An unmatched new site is new. -/
private theorem isPatch_unmatchedNew (j : Nat) :
    IsPatch [] (textAt new j)
      (new[j]?.map (ChangeRecord.ofSite newPath method .addedInsideMethod)).toList := by
  rw [textAt]
  cases new[j]? with
  | none => exact IsPatch.refl []
  | some site => exact IsPatch.of_added rfl newPath method site

/-- A pair has a record if its texts differ. -/
private theorem isPatch_pair {p : RatedPair Text.Similarity} {a b : CallSite}
    (ha : old[p.old]? = some a) (hb : new[p.new]? = some b) :
    IsPatch (textAt old p.old) (textAt new p.new)
      (if (old[p.old]?.map (·.text) != new[p.new]?.map (·.text)) = true then
        (old[p.old]?).bind fun before => (new[p.new]?).map fun after =>
          ChangeRecord.ofUpdate newPath method added before after
      else none).toList := by
  simp only [textAt, ha, hb, Option.map_some, Option.bind_some, Option.toList_some]
  by_cases htext : a.text = b.text
  · rw [htext, bne_self_eq_false]
    exact IsPatch.refl [b.text]
  · rw [if_pos (by simpa using htext)]
    exact IsPatch.of_updated newPath method added a b

/-- The records of two versions of a method are a patch. -/
theorem compareSites_isPatch :
    IsPatch (old.map (·.text)) (new.map (·.text))
      (compareSites s oldPath newPath method old new added) := by
  have hpart := matchCalls_isPartition (exceeds s.threshold) old new
  -- The positions of either version are those of the pairs and the unmatched ones.
  have hold := hpart.old_perm.flatMap_right (textAt old)
  have hnew := hpart.new_perm.flatMap_right (textAt new)
  rw [flatMap_textAt_range, List.flatMap_append, List.flatMap_map] at hold hnew
  -- The unmatched sites are gone or new, and a pair has a record if its texts differ.
  have hdeleted := IsPatch.flatMap_deleted (matchCalls (exceeds s.threshold) old new).unmatchedOld
    fun i _ => isPatch_unmatchedOld oldPath method old i
  have hadded := IsPatch.flatMap_added (matchCalls (exceeds s.threshold) old new).unmatchedNew
    fun j _ => isPatch_unmatchedNew newPath method new j
  have hpairs := IsPatch.flatMap (matchCalls (exceeds s.threshold) old new).pairs
    fun p hp => by
      obtain ⟨a, b, ha, hb, -⟩ := ratio_of_mem_matchCalls hp
      exact isPatch_pair newPath method old new added ha hb
  have hall := (hdeleted.append hadded).append hpairs
  rw [List.append_nil, List.nil_append] at hall
  rw [compareSites, CallMatching.updated, List.filterMap_filter]
  simp only [List.filterMap_eq_flatMap_toList]
  exact hall.of_perm (List.perm_append_comm.trans hold) (List.perm_append_comm.trans hnew)

end

/-! ## Two versions of a file -/

/-- The texts of the sites of a method. -/
def Method.siteTexts (m : Method) : List String := m.callSites.map (·.text)

/-- The sites of a method are in its body. -/
private theorem siteTexts_eq_of_body {m n : Method} (h : m.body = n.body) :
    m.siteTexts = n.siteTexts := by
  simp only [Method.siteTexts, Method.callSites, Method.calls, h]

/-- If all sites of a method are recorded as gone, their texts are taken away. -/
theorem recordsOfMethod_isPatch_deleted {kind : ChangeKind} (hkind : kind.isDeleted = true)
    (path : String) (m : Method) : IsPatch m.siteTexts [] (recordsOfMethod path kind m) := by
  rw [Method.siteTexts, recordsOfMethod, List.map_eq_flatMap, List.map_eq_flatMap]
  exact IsPatch.flatMap_deleted m.callSites fun site _ =>
    IsPatch.of_deleted hkind path m.fullSignature site

/-- If all sites of a method are recorded as new, their texts are added. -/
theorem recordsOfMethod_isPatch_added {kind : ChangeKind} (hkind : kind.isAdded = true)
    (path : String) (m : Method) : IsPatch [] m.siteTexts (recordsOfMethod path kind m) := by
  rw [Method.siteTexts, recordsOfMethod, List.map_eq_flatMap, List.map_eq_flatMap]
  exact IsPatch.flatMap_added m.callSites fun site _ =>
    IsPatch.of_added hkind path m.fullSignature site

/-- Methods as they are read from the text of a file: their texts determine their bodies, and so do
    the texts of their bodies. -/
structure AreParsed (methods : List Method) : Prop where
  body_of_source : ∀ m ∈ methods, ∀ n ∈ methods, m.source = n.source → m.body = n.body
  body_of_bodySource :
    ∀ m ∈ methods, ∀ n ∈ methods, m.bodySource = n.bodySource → m.body = n.body

/-- The texts of the sites of the first method with a text. -/
def siteTextsOfSource (methods : List Method) (source : String) : List String :=
  ((methods.find? (·.source == source)).map Method.siteTexts).getD []

namespace AreParsed

/-- The first method with a text stands for all methods with the text. -/
private theorem siteTextsOfSource_eq {methods : List Method} (h : AreParsed methods) {m : Method}
    (hm : m ∈ methods) : siteTextsOfSource methods m.source = m.siteTexts := by
  rw [siteTextsOfSource]
  cases hfind : methods.find? (·.source == m.source) with
  | none =>
    have hnot := List.find?_eq_none.mp hfind m hm
    simp at hnot
  | some n =>
    have hn := List.mem_of_find?_eq_some hfind
    have hsource : n.source = m.source := by simpa using List.find?_some hfind
    exact siteTexts_eq_of_body (h.body_of_source n hn m hm hsource)

variable {old new : List Method} (h : AreParsed (old ++ new))

include h

/-- Untouched methods have the same sites in both versions, as their bodies are the same text. -/
theorem untouched_siteTexts :
    (matchMethods old new).untouched.flatMap (·.1.1.siteTexts) =
      (matchMethods old new).untouched.flatMap (·.2.1.siteTexts) := by
  apply List.flatMap_congr
  intro p hp
  -- Both methods of the pair are methods of their version.
  have hold : p.1 ∈ MethodMatching.changed old new :=
    (matchMethods_old_perm old new).mem_iff.mp
      (List.mem_append_right _ (List.mem_append_left _ (List.mem_map_of_mem hp)))
  have hnew : p.2 ∈ MethodMatching.changed new old :=
    (matchMethods_new_perm old new).mem_iff.mp
      (List.mem_append_right _ (List.mem_append_left _ (List.mem_map_of_mem hp)))
  have hbody := sameBody_of_mem_untouched hp
  simp only [MethodMatching.sameBody, decide_eq_true_eq] at hbody
  exact siteTexts_eq_of_body (h.body_of_bodySource _
    (List.mem_append_left _ (MethodMatching.mem_of_mem_changed hold)) _
    (List.mem_append_right _ (MethodMatching.mem_of_mem_changed hnew)) hbody)

/-- If no text occurs twice in a version, the methods that are set aside have the same sites in
    both. -/
theorem unchanged_siteTexts (hold : (old.map (·.source)).Nodup)
    (hnew : (new.map (·.source)).Nodup) :
    ((MethodMatching.unchanged old new).flatMap Method.siteTexts).Perm
      ((MethodMatching.unchanged new old).flatMap Method.siteTexts) := by
  -- The sites of a method are a function of its text, and the texts are the same.
  have htexts {methods : List Method} (hsub : ∀ m ∈ methods, m ∈ old ++ new) :
      methods.flatMap Method.siteTexts =
        (methods.map (·.source)).flatMap (siteTextsOfSource (old ++ new)) := by
    rw [List.flatMap_map]
    apply List.flatMap_congr
    intro m hm
    exact (h.siteTextsOfSource_eq (hsub m hm)).symm
  have hleft := htexts fun m (hm : m ∈ MethodMatching.unchanged old new) =>
    List.mem_append_left new (MethodMatching.mem_unchanged.mp hm).1
  have hright := htexts fun m (hm : m ∈ MethodMatching.unchanged new old) =>
    List.mem_append_right old (MethodMatching.mem_unchanged.mp hm).1
  -- So it is enough that the texts that are set aside are the same on both sides.
  rw [hleft, hright]
  exact (MethodMatching.unchanged_sources_perm hold hnew).flatMap_right _

end AreParsed

/-- The sites of a version are those of the methods that are set aside, paired, untouched and left
    over. -/
private theorem siteTexts_perm {methods other : List Method}
    {pairs untouched only : List PlacedMethod}
    (h : (pairs ++ (untouched ++ only)).Perm (MethodMatching.changed methods other)) :
    ((MethodMatching.unchanged methods other).flatMap Method.siteTexts ++
      (pairs.flatMap (·.1.siteTexts) ++
        (untouched.flatMap (·.1.siteTexts) ++ only.flatMap (·.1.siteTexts)))).Perm
      (methods.flatMap Method.siteTexts) := by
  have hchanged := h.flatMap_right (·.1.siteTexts)
  rw [List.flatMap_append, List.flatMap_append] at hchanged
  -- What is not set aside goes through the passes.
  have hall := (MethodMatching.unchanged_append_changed methods other).flatMap_right
    Method.siteTexts
  rw [List.flatMap_append, List.flatMap_map] at hall
  exact (hchanged.append_left _).trans hall

/-- The records of two versions of a file are a patch, if the methods are read from their text and
    no text occurs twice in a version. -/
theorem ofVersions_isPatch (s : Settings) (old new : FileVersion) (diff : Option String)
    (hparsed : AreParsed (old.methods ++ new.methods))
    (hold : (old.methods.map (·.source)).Nodup) (hnew : (new.methods.map (·.source)).Nodup) :
    IsPatch (old.methods.flatMap Method.siteTexts) (new.methods.flatMap Method.siteTexts)
      (Report.ofVersions s old new diff).records := by
  have hpairs := IsPatch.flatMap (matchMethods old.methods new.methods).pairs fun pair _ =>
    compareSites_isPatch s old.path new.path pair.new.1.fullSignature pair.old.1.callSites
      pair.new.1.callSites (addedLinesOf diff)
  have hdeleted : ChangeKind.deletedWithMethod.isDeleted = true := rfl
  have hadded : ChangeKind.addedWithMethod.isAdded = true := rfl
  have hgone := IsPatch.flatMap_deleted (matchMethods old.methods new.methods).onlyOld fun m _ =>
    recordsOfMethod_isPatch_deleted hdeleted old.path m.1
  have hcame := IsPatch.flatMap_added (matchMethods old.methods new.methods).onlyNew fun m _ =>
    recordsOfMethod_isPatch_added hadded new.path m.1
  -- Methods that are set aside or untouched have no records, and the same sites in both versions.
  have hset := (IsPatch.refl _).of_perm (List.Perm.refl _) (hparsed.unchanged_siteTexts hold hnew)
  have huntouched := IsPatch.refl
    ((matchMethods old.methods new.methods).untouched.flatMap (·.1.1.siteTexts))
  have hall := hset.append (hpairs.append (huntouched.append (hgone.append hcame)))
  rw [List.append_nil, List.nil_append, List.nil_append, List.nil_append] at hall
  -- The parts are in the order of the report; the sites are in that of the file.
  have holdTexts := siteTexts_perm (matchMethods_old_perm old.methods new.methods)
  have hnewTexts := siteTexts_perm (matchMethods_new_perm old.methods new.methods)
  rw [List.flatMap_map, List.flatMap_map] at holdTexts hnewTexts
  rw [← hparsed.untouched_siteTexts] at hnewTexts
  have hresult := hall.of_perm holdTexts hnewTexts
  rw [← List.append_assoc] at hresult
  exact hresult

/-! ## The report of a file -/

namespace FileChange

/-- The methods of the old version; a version that is missing has none. -/
def oldMethods (change : FileChange) : List Method := (change.old.map (·.methods)).getD []

/-- The methods of the new version; a version that is missing has none. -/
def newMethods (change : FileChange) : List Method := (change.new.map (·.methods)).getD []

/-- The sites of the old version. -/
def oldSites (change : FileChange) : List CallSite := change.oldMethods.flatMap Method.callSites

/-- The sites of the new version. -/
def newSites (change : FileChange) : List CallSite := change.newMethods.flatMap Method.callSites

end FileChange

/-- The texts of all sites are those of the sites of each method. -/
private theorem map_text_flatMap_callSites (methods : List Method) :
    (methods.flatMap Method.callSites).map (·.text) = methods.flatMap Method.siteTexts := by
  rw [List.map_flatMap]
  rfl

/-- A file that has a version has a report, and its records are a patch. -/
theorem ofFile_isPatch (s : Settings) (change : FileChange)
    (hversion : change.old.isSome = true ∨ change.new.isSome = true)
    (hparsed : AreParsed (change.oldMethods ++ change.newMethods))
    (hold : (change.oldMethods.map (·.source)).Nodup)
    (hnew : (change.newMethods.map (·.source)).Nodup) :
    ∃ report, Report.ofFile s change = .ok report ∧
      IsPatch (change.oldSites.map (·.text)) (change.newSites.map (·.text)) report.records := by
  simp only [FileChange.oldSites, FileChange.newSites, map_text_flatMap_callSites]
  obtain ⟨old, new, diff⟩ := change
  cases old with
  | none =>
    cases new with
    | none => simp at hversion
    | some new =>
      -- A file that is new has all its methods added.
      refine ⟨_, rfl, ?_⟩
      exact IsPatch.flatMap_added new.methods fun m _ =>
        recordsOfMethod_isPatch_added rfl new.path m
  | some old =>
    cases new with
    | none =>
      -- A file that is gone has all its methods deleted.
      refine ⟨_, rfl, ?_⟩
      exact IsPatch.flatMap_deleted old.methods fun m _ =>
        recordsOfMethod_isPatch_deleted rfl old.path m
    | some new => exact ⟨_, rfl, ofVersions_isPatch s old new diff hparsed hold hnew⟩

/-- The records of two versions of a method, and of a file that has a version, are a patch: taking
    away the texts before the changes and adding those after them leads from the old texts to the
    new ones, each as often as it occurs. So the calls that are new less those that are gone are the
    calls that the new version has more. For a file, the methods have to be read from their text,
    and no text may occur twice in a version. -/
theorem records_are_patch (s : Settings) :
    (∀ (oldPath newPath method : String) (old new : List CallSite)
        (added : Option (List (List Char))),
      IsPatch (old.map (·.text)) (new.map (·.text))
          (compareSites s oldPath newPath method old new added) ∧
        ((compareSites s oldPath newPath method old new added).countP (·.kind.isAdded) : Int) -
            (compareSites s oldPath newPath method old new added).countP (·.kind.isDeleted) =
          new.length - old.length) ∧
    ∀ change : FileChange, change.old.isSome = true ∨ change.new.isSome = true →
      AreParsed (change.oldMethods ++ change.newMethods) →
      (change.oldMethods.map (·.source)).Nodup → (change.newMethods.map (·.source)).Nodup →
      ∃ report, Report.ofFile s change = .ok report ∧
        IsPatch (change.oldSites.map (·.text)) (change.newSites.map (·.text)) report.records ∧
        (report.added : Int) - report.deleted =
          change.newSites.length - change.oldSites.length := by
  constructor
  · intro oldPath newPath method old new added
    have hpatch := compareSites_isPatch s oldPath newPath method old new added
    have hcount := hpatch.count_eq
    rw [List.length_map, List.length_map] at hcount
    exact ⟨hpatch, hcount⟩
  · intro change hversion hparsed hold hnew
    obtain ⟨report, hreport, hpatch⟩ := ofFile_isPatch s change hversion hparsed hold hnew
    have hcount := hpatch.count_eq
    rw [List.length_map, List.length_map] at hcount
    exact ⟨report, hreport, hpatch, hcount⟩

/-- The change that takes the only call out of a method. -/
def FileChange.ofRemovedCall : FileChange where
  old := some ⟨"A.java", [⟨"run", [], "void run() \x7bLog.d(x);\x7d", "\x7bLog.d(x);\x7d",
    [.call ⟨"Log.d", "Log.d(x)", [⟨"x", [.var "x"]⟩]⟩]⟩]⟩
  new := some ⟨"A.java", [⟨"run", [], "void run() \x7b\x7d", "\x7b\x7d", []⟩]⟩
  unifiedDiff := none

/-- A call that is taken out of a method is one call less. -/
theorem records_are_patch_of_removed_call :
    AreParsed (FileChange.ofRemovedCall.oldMethods ++ FileChange.ofRemovedCall.newMethods) ∧
    ∃ report, Report.ofFile Settings.standard FileChange.ofRemovedCall = .ok report ∧
      IsPatch (FileChange.ofRemovedCall.oldSites.map (·.text))
        (FileChange.ofRemovedCall.newSites.map (·.text)) report.records ∧
      (report.added : Int) - report.deleted = -1 := by
  have hparsed :
      AreParsed (FileChange.ofRemovedCall.oldMethods ++ FileChange.ofRemovedCall.newMethods) := by
    constructor <;>
      simp [FileChange.ofRemovedCall, FileChange.oldMethods, FileChange.newMethods]
  have hnew : FileChange.ofRemovedCall.newSites.length = 0 := by decide
  have hold : FileChange.ofRemovedCall.oldSites.length = 1 := by decide
  obtain ⟨report, hreport, hpatch, hcount⟩ := (records_are_patch Settings.standard).2
    FileChange.ofRemovedCall (.inl rfl) hparsed (by decide) (by decide)
  rw [hnew, hold] at hcount
  exact ⟨hparsed, report, hreport, hpatch, hcount⟩

end LogDrift
