import Mathlib.Data.List.Nodup
import LogDrift.Store.Database

/-!
# The rows of a commit by kind

Two readers look at the rows of a commit. `recordsOf` makes a record of each row, one after the
other, and fails at the first row whose kind has an unknown label. `countsOf` counts the rows of
each label, and enters the counts of the known labels in a table of all kinds. Whatever labels the
rows have, each reader tells what the other one finds.

## Key results

- `lookup_labelCounts`: each label is counted as often as it occurs
- `foldl_enterCount`: what is entered for each kind
- `countsOf_of_rowsOf`: each kind has as many rows as are counted
- `mapM_stored_eq_error_iff`: where reading the records fails
- `totalOf_countP`: the counts of some kinds add up to the elements of these kinds
- `readers_of_logs_agree`: what the readers have to do with each other
-/

namespace LogDrift

/-! ## Totals of counts -/

/-- What the counts of some kinds add up to. -/
def totalOf (group : ChangeKind → Bool) (counts : List (ChangeKind × Nat)) : Nat :=
  (counts.filter fun count => group count.1).foldr (fun count total => count.2 + total) 0

section

variable {α : Type} (kindOf : α → ChangeKind)

/-- One more kind adds its elements, if it was not among the kinds. -/
private theorem countP_kind_cons {kind : ChangeKind} {kinds : List ChangeKind} (h : kind ∉ kinds)
    (as : List α) :
    as.countP (kindOf · ∈ kind :: kinds) =
      as.countP (kindOf · = kind) + as.countP (kindOf · ∈ kinds) := by
  induction as with
  | nil => rfl
  | cons a as ih =>
    simp only [List.countP_cons, List.mem_cons, decide_eq_true_eq] at ih ⊢
    by_cases ha : kindOf a = kind
    · simp only [ha, h, if_true, if_false, true_or]
      omega
    · simp only [ha, if_false, false_or]
      omega

/-- The numbers of elements of different kinds add up to that of the elements of these kinds. -/
private theorem foldr_countP_kind {kinds : List ChangeKind} (h : kinds.Nodup) (as : List α) :
    kinds.foldr (fun kind total => as.countP (kindOf · = kind) + total) 0 =
      as.countP (kindOf · ∈ kinds) := by
  induction kinds with
  | nil => simp
  | cons kind kinds ih =>
    obtain ⟨hkind, htail⟩ := List.nodup_cons.mp h
    rw [List.foldr_cons, ih htail, countP_kind_cons kindOf hkind]

/-- The counts of some kinds add up to the number of elements of these kinds. -/
theorem totalOf_countP (group : ChangeKind → Bool) (as : List α) :
    totalOf group (ChangeKind.all.map fun kind => (kind, as.countP (kindOf · = kind))) =
      as.countP fun a => group (kindOf a) := by
  have hall : ChangeKind.all.Nodup := by decide
  rw [totalOf, List.filter_map, List.foldr_map]
  exact (foldr_countP_kind kindOf (List.Nodup.filter group hall) as).trans
    (List.countP_congr fun a _ => by simp [ChangeKind.mem_all])

end

namespace Database

/-! ## Counting labels -/

/-- A label is looked up in the first group that has it. -/
private theorem lookup_cons_ite (label : String) (group : String × Nat)
    (groups : List (String × Nat)) :
    (group :: groups).lookup label =
      if label = group.1 then some group.2 else groups.lookup label := by
  rw [List.lookup_cons]
  by_cases hlabel : label = group.1
  · simp [hlabel]
  · simp [hlabel, beq_eq_false_iff_ne.mpr hlabel]

/-- Counting a label adds one to its count and leaves the others. -/
private theorem lookup_countLabel (label other : String) (groups : List (String × Nat)) :
    (countLabel label groups).lookup other =
      if other = label then some ((groups.lookup label).getD 0 + 1) else groups.lookup other := by
  induction groups with
  | nil => simp [countLabel, lookup_cons_ite]
  | cons group groups ih =>
    unfold countLabel
    split
    · rename_i hgroup
      simp only [lookup_cons_ite, hgroup, if_true, Option.getD_some]
      split <;> rfl
    · rename_i hgroup
      simp only [lookup_cons_ite, ih, if_neg (Ne.symm hgroup)]
      -- The label that is counted is not that of the first group.
      by_cases hother : other = group.1 <;> simp [hother, hgroup]

/-- After counting a label there is a group for it, and there are those from before. -/
private theorem mem_keys_countLabel {label other : String} {groups : List (String × Nat)} :
    other ∈ (countLabel label groups).map (·.1) ↔ other = label ∨ other ∈ groups.map (·.1) := by
  induction groups with
  | nil => simp [countLabel]
  | cons group groups ih =>
    unfold countLabel
    split
    · -- The label is that of the first group, which stays where it is.
      rename_i hfirst
      simp [hfirst]
    · simp only [List.map_cons, List.mem_cons, ih]
      exact or_left_comm

/-- A label that is counted does not get a second group. -/
private theorem nodup_keys_countLabel (label : String) {groups : List (String × Nat)}
    (h : (groups.map (·.1)).Nodup) : ((countLabel label groups).map (·.1)).Nodup := by
  induction groups with
  | nil => simp [countLabel]
  | cons group groups ih =>
    obtain ⟨hgroup, htail⟩ := List.nodup_cons.mp h
    unfold countLabel
    split
    · rename_i hfirst
      exact hfirst ▸ h
    · rename_i hfirst
      rw [List.map_cons, List.nodup_cons, mem_keys_countLabel]
      -- The first group keeps its label, which is neither the counted one nor one behind it.
      exact ⟨fun hmem => hmem.elim hfirst hgroup, ih htail⟩

/-- What is counted of rows is added to what was counted before. -/
private theorem lookup_foldl_countLabel (rows : List LogRow) (groups : List (String × Nat))
    (label : String) :
    ((rows.foldl (fun groups row => countLabel row.kindLabel groups) groups).lookup label).getD 0 =
      (groups.lookup label).getD 0 + rows.countP (·.kindLabel = label) := by
  induction rows generalizing groups with
  | nil => simp
  | cons row rows ih =>
    rw [List.foldl_cons, ih, lookup_countLabel, List.countP_cons]
    by_cases hrow : row.kindLabel = label
    · simp [hrow]
      omega
    · simp [hrow, Ne.symm hrow]

/-- However many rows are counted, no label gets a second group. -/
private theorem nodup_keys_foldl_countLabel (rows : List LogRow) {groups : List (String × Nat)}
    (h : (groups.map (·.1)).Nodup) :
    ((rows.foldl (fun groups row => countLabel row.kindLabel groups) groups).map (·.1)).Nodup := by
  induction rows generalizing groups with
  | nil => exact h
  | cons row rows ih => exact ih (nodup_keys_countLabel row.kindLabel h)

/-- Each label is counted as often as it occurs. -/
theorem lookup_labelCounts (rows : List LogRow) (label : String) :
    ((labelCounts rows).lookup label).getD 0 = rows.countP (·.kindLabel = label) := by
  simp [labelCounts, lookup_foldl_countLabel]

/-! ## Entering counts -/

/-- The count of a label is entered for the kind that has it. -/
private theorem enterCount_map (numbers : ChangeKind → Nat) (group : String × Nat) :
    enterCount (ChangeKind.all.map fun kind => (kind, numbers kind)) group =
      ChangeKind.all.map fun kind =>
        (kind, if kind.label = group.1 then group.2 else numbers kind) := by
  unfold enterCount
  cases hkind : ChangeKind.ofLabel? group.1 with
  -- A label of no kind is entered nowhere.
  | none =>
    apply List.map_congr_left
    intro kind _
    have hne : kind.label ≠ group.1 := by
      intro hsame
      simp [← hsame] at hkind
    rw [if_neg hne]
  | some known =>
    have hgroup : group.1 = known.label := ChangeKind.ofLabel?_eq_some_iff.mp hkind
    simp only [List.map_map, hgroup]
    apply List.map_congr_left
    intro kind _
    by_cases hsame : kind = known
    · simp [hsame]
    · have hlabel : kind.label ≠ known.label := fun h => hsame (ChangeKind.label_injective h)
      simp [hsame, hlabel]

/-- After all groups are entered, each kind has the count of its label, or what was there before. -/
theorem foldl_enterCount {groups : List (String × Nat)} (h : (groups.map (·.1)).Nodup)
    (numbers : ChangeKind → Nat) :
    groups.foldl enterCount (ChangeKind.all.map fun kind => (kind, numbers kind)) =
      ChangeKind.all.map fun kind =>
        (kind, (groups.lookup kind.label).getD (numbers kind)) := by
  induction groups generalizing numbers with
  | nil => simp
  | cons group groups ih =>
    obtain ⟨hgroup, htail⟩ := List.nodup_cons.mp h
    rw [List.foldl_cons, enterCount_map, ih htail]
    apply List.map_congr_left
    intro kind _
    by_cases hkind : kind.label = group.1
    · -- No later group has the same label.
      have hnone : groups.lookup group.1 = none := by
        rw [List.lookup_eq_none_iff]
        intro other hother
        exact bne_iff_ne.mpr fun hsame =>
          hgroup (List.mem_map.mpr ⟨other, hother, hsame.symm⟩)
      simp [lookup_cons_ite, hkind, hnone]
    · simp [lookup_cons_ite, hkind]

/-- Each kind has as many rows as are counted. -/
theorem countsOf_of_rowsOf {db : Database} {commitId : String} {rows : List LogRow}
    (h : db.rowsOf commitId = .ok rows) :
    db.countsOf commitId = .ok (ChangeKind.all.map fun kind =>
      (kind, rows.countP (·.kindLabel = kind.label))) := by
  have hnodup : ((labelCounts rows).map (·.1)).Nodup :=
    nodup_keys_foldl_countLabel rows List.nodup_nil
  have hcounts : db.countsOf commitId = .ok
      ((labelCounts rows).foldl enterCount (ChangeKind.all.map fun kind => (kind, 0))) := by
    rw [countsOf, h]
    rfl
  simp only [hcounts, foldl_enterCount hnodup, lookup_labelCounts]

end Database

/-! ## Reading rows -/

/-- Reading rows fails at the first one whose kind has an unknown label. -/
theorem mapM_stored_eq_error_iff {rows : List LogRow} {error : Error} :
    rows.mapM LogRow.stored = .error error ↔
      ∃ row, rows.find? (fun row => (ChangeKind.ofLabel? row.kindLabel).isNone) = some row ∧
        error = .unknownKind row.kindLabel := by
  induction rows with
  | nil => simp [pure, Except.pure]
  | cons row rows ih =>
    rw [List.mapM_cons, List.find?_cons, LogRow.stored]
    cases hkind : ChangeKind.ofLabel? row.kindLabel with
    | none => simp [bind, Except.bind, eq_comm]
    | some kind =>
      simp only [Option.isNone_some, ← ih]
      cases hrows : rows.mapM LogRow.stored <;> simp [bind, Except.bind, pure, Except.pure]

/-- Rows that are read give a record each, of the kind that is read from its label. -/
theorem map_label_of_mapM_stored {rows : List LogRow} {records : List StoredRecord}
    (h : rows.mapM LogRow.stored = .ok records) :
    records.map (·.kind.label) = rows.map (·.kindLabel) := by
  induction rows generalizing records with
  | nil =>
    obtain rfl : [] = records := Except.ok.inj h
    rfl
  | cons row rows ih =>
    rw [List.mapM_cons, LogRow.stored] at h
    cases hkind : ChangeKind.ofLabel? row.kindLabel with
    | none => simp [hkind, bind, Except.bind] at h
    -- The row is read, so all later ones are.
    | some kind =>
      cases hrows : rows.mapM LogRow.stored with
      | error error => simp [hkind, hrows, bind, Except.bind] at h
      | ok more =>
        simp only [hkind, hrows, bind, Except.bind, pure, Except.pure, Except.ok.injEq] at h
        subst h
        simp [ih hrows, ChangeKind.ofLabel?_eq_some_iff.mp hkind]

namespace Database

/-- If there is a table of logs, the rows of a commit are read from it. -/
theorem rowsOf_eq {db : Database} {logs : List LogRow} (h : db.logs = some logs)
    (commitId : String) : db.rowsOf commitId = .ok (logs.filter (·.commitId = commitId)) := by
  rw [rowsOf, h]
  rfl

theorem recordsOf_of_rowsOf {db : Database} {commitId : String} {rows : List LogRow}
    (h : db.rowsOf commitId = .ok rows) :
    db.recordsOf commitId = rows.mapM LogRow.stored := by
  rw [recordsOf, h]

end Database

/-- The readers of the rows of a commit agree, whatever labels the rows have. The records are not
    read if and only if the label of some row is that of no kind, and then the first such label is
    reported. All kinds are counted in any case, each with the number of the rows that have its
    label. If the records are read, these are the numbers of records of each kind, and they add up
    to the number of all records. -/
theorem readers_of_logs_agree {db : Database} {logs : List LogRow} (h : db.logs = some logs)
    (commitId : String) :
    let rows := logs.filter (·.commitId = commitId)
    ((∃ error, db.recordsOf commitId = .error error) ↔
      ∃ row ∈ rows, ChangeKind.ofLabel? row.kindLabel = none) ∧
    (∀ error, db.recordsOf commitId = .error error →
      ∃ before row after, rows = before ++ row :: after ∧
        (∀ earlier ∈ before, ChangeKind.ofLabel? earlier.kindLabel ≠ none) ∧
        ChangeKind.ofLabel? row.kindLabel = none ∧ error = .unknownKind row.kindLabel ∧
        error.message = "Database error: unknown change_type " ++ Text.quoted row.kindLabel) ∧
    db.countsOf commitId = .ok (ChangeKind.all.map fun kind =>
      (kind, rows.countP (·.kindLabel = kind.label))) ∧
    ∀ records, db.recordsOf commitId = .ok records → ∃ counts,
      db.countsOf commitId = .ok counts ∧
      counts = (ChangeKind.all.map fun kind => (kind, records.countP (·.kind = kind))) ∧
      totalOf (fun _ => true) counts = records.length := by
  intro rows
  have hrows : db.rowsOf commitId = .ok rows := Database.rowsOf_eq h commitId
  have hcounts := Database.countsOf_of_rowsOf hrows
  have herror (error : Error) := @mapM_stored_eq_error_iff rows error
  rw [Database.recordsOf_of_rowsOf hrows]
  refine ⟨?_, ?_, hcounts, ?_⟩
  · simp only [herror, exists_comm, exists_and_left, exists_eq, and_true]
    rw [← Option.isSome_iff_exists, List.find?_isSome]
    simp only [Option.isNone_iff_eq_none]
  · intro error hfails
    obtain ⟨row, hfind, rfl⟩ := (herror error).mp hfails
    obtain ⟨hunknown, before, after, hsplit, hbefore⟩ := List.find?_eq_some_iff_append.mp hfind
    refine ⟨before, row, after, hsplit, ?_, Option.isNone_iff_eq_none.mp hunknown, rfl, rfl⟩
    intro earlier hearlier hnone
    simpa [hnone] using hbefore earlier hearlier
  · intro records hrecords
    have hlabels := map_label_of_mapM_stored hrecords
    -- A record has a kind if and only if its row has the label of this kind.
    have hkinds : ∀ kind : ChangeKind,
        rows.countP (·.kindLabel = kind.label) = records.countP (·.kind = kind) := by
      intro kind
      have hrow := List.countP_map (p := fun label => decide (label = kind.label))
        (f := LogRow.kindLabel) (l := rows)
      rw [← hlabels, List.countP_map] at hrow
      have hrecord : ∀ r : StoredRecord, r.kind.label = kind.label ↔ r.kind = kind := fun r =>
        ⟨ChangeKind.label_injective, congrArg ChangeKind.label⟩
      simpa [Function.comp_def, hrecord] using hrow.symm
    simp only [hkinds] at hcounts
    refine ⟨_, hcounts, rfl, ?_⟩
    rw [totalOf_countP StoredRecord.kind, List.countP_true]

/-- A row of a commit whose kind has any label. -/
def LogRow.ofLabel (fingerprint commitId kindLabel : String) : LogRow :=
  ⟨fingerprint, commitId, "A.java", "run()", kindLabel, "Log.d(x)", none, none, "d", none, none,
    none⟩

/-- Rows of two commits, one of which has labels of no kind. -/
def Database.ofMixedLabels : Database :=
  { Database.empty with
    logs := some [.ofLabel "f1" "c1" "UPDATED", .ofLabel "f2" "c2" "MOVED",
      .ofLabel "f3" "c1" "ADDED_WITH_FILE", .ofLabel "f4" "c2" "UPDATED",
      .ofLabel "f5" "c1" "UPDATED", .ofLabel "f6" "c2" "updated"] }

/-- The rows of the other commit are read and counted, and of this one they are counted alone. -/
theorem readers_of_logs_agree_of_mixed_labels :
    (∃ records counts, Database.ofMixedLabels.recordsOf "c1" = .ok records ∧
      Database.ofMixedLabels.countsOf "c1" = .ok counts ∧ records.length = 3 ∧
      totalOf (fun _ => true) counts = 3) ∧
    (∃ error, Database.ofMixedLabels.recordsOf "c2" = .error error ∧
      error.message = "Database error: unknown change_type \"MOVED\"") ∧
    Database.ofMixedLabels.countsOf "c2" = .ok [(.addedWithFile, 0), (.deletedWithFile, 0),
      (.addedWithMethod, 0), (.deletedWithMethod, 0), (.addedInsideMethod, 0),
      (.deletedInsideMethod, 0), (.updated, 1)] := by
  have hlogs : Database.ofMixedLabels.logs = some (Database.ofMixedLabels.logs.getD []) := rfl
  obtain ⟨-, -, -, hcounts⟩ := readers_of_logs_agree hlogs "c1"
  obtain ⟨-, hfirst, hall, -⟩ := readers_of_logs_agree hlogs "c2"
  refine ⟨?_, ?_, hall⟩
  · obtain ⟨counts, hread, -, htotal⟩ := hcounts _ rfl
    exact ⟨_, counts, rfl, hread, rfl, htotal⟩
  · obtain ⟨_, row, _, -, -, -, hlabel, hmessage⟩ := hfirst (.unknownKind "MOVED") rfl
    rw [← Error.unknownKind.inj hlabel] at hmessage
    exact ⟨_, rfl, hmessage.trans (by decide +kernel)⟩

end LogDrift
