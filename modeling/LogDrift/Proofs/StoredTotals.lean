import LogDrift.Proofs.KindCounts
import LogDrift.Proofs.ReadBack

/-!
# The totals and the rows of a commit

A commit is recorded with the totals of its reports, and then the records of every report are
inserted (`storing`). The totals count all records, but the rows count every identity once: a call
that stands twice in a method, or in two methods of one signature, has one row. So the rows of a
commit add up to at most its totals, and to its totals if no two of the records counted have the same
identity. No identity is without a row.

## Key results

- `Report.total_countP`: the totals count the records of all reports
- `CommitHistory.of_storing`: what is there of a commit after its reports are stored
- `StoredRecord.identity_ofRecord`: the identity of a record is read back
- `totalOf_firstOfEach`: the rows of some kinds are as many as the identities of these kinds
-/

namespace LogDrift

/-! ## Counting -/

/-- The totals count the records of all reports. -/
theorem Report.total_countP (p : ChangeRecord → Bool) (reports : List Report) :
    Report.total (·.records.countP p) reports = (reports.flatMap (·.records)).countP p := by
  induction reports with
  | nil => rfl
  | cons report reports ih =>
    rw [List.flatMap_cons, List.countP_append, ← ih]
    rfl

/-! ## Storing the reports of a commit -/

/-- Records a commit with the totals of its reports, then inserts the records of each report. -/
def storing (info : CommitInfo) (reports : List Report) : List StoreOperation :=
  .recordCommit info (Summary.ofReports reports) ::
    reports.map fun report => .insertRecords info.commitId report.records

namespace CommitHistory

/-- No operation leaves records of a commit that is not recorded. -/
private theorem step_records_eq_nil {commitId : String} {h : CommitHistory}
    (hnone : h.row = none → h.records = []) (op : StoreOperation) :
    (step commitId h op).row = none → (step commitId h op).records = [] := by
  cases op with
  | initialise => exact hnone
  | recordCommit info summary =>
    rw [step]
    split
    · exact fun hrow => absurd hrow (Option.some_ne_none _)
    · exact hnone
  | insertRecords other records =>
    rw [step]
    split
    · -- Records are inserted for recorded commits only.
      rename_i hsame
      intro hrow
      rw [recorded, hrow] at hsame
      exact absurd hsame.2 Bool.false_ne_true
    · exact hnone
  | deleteCommit other =>
    rw [step]
    split
    · exact fun _ => rfl
    · exact hnone

/-- After every run there are no records of a commit that is not recorded. -/
private theorem records_eq_nil {commitId : String} {ops : List StoreOperation} :
    (of commitId ops).row = none → (of commitId ops).records = [] := by
  induction ops using List.reverseRecOn with
  | nil => exact fun _ => rfl
  | append_singleton ops op ih =>
    rw [of_concat]
    exact step_records_eq_nil ih op

/-- Inserting the records of reports for a recorded commit adds all of them to its history. -/
private theorem foldl_insertRecords {commitId : String} (reports : List Report) (h : CommitHistory)
    (hrecorded : h.recorded = true) :
    (reports.map fun report => StoreOperation.insertRecords commitId report.records).foldl
        (step commitId) h =
      { h with records := h.records ++ reports.flatMap (·.records) } := by
  induction reports generalizing h with
  | nil => simp
  | cons report reports ih =>
    rw [List.map_cons, List.foldl_cons, step, if_pos ⟨rfl, hrecorded⟩,
      ih ⟨h.row, h.records ++ report.records⟩ hrecorded, List.flatMap_cons, List.append_assoc]

/-- After the reports of a commit are stored, it is recorded with their totals, and all their
    records are inserted. -/
theorem of_storing {info : CommitInfo} {ops : List StoreOperation}
    (h : (of info.commitId ops).row = none) (reports : List Report) :
    of info.commitId (ops ++ storing info reports) =
      ⟨some (.ofSummary info (Summary.ofReports reports)), reports.flatMap (·.records)⟩ := by
  rw [of, List.foldl_append, ← of, storing, List.foldl_cons, step, if_pos rfl,
    foldl_insertRecords reports _ rfl, records_eq_nil h, List.nil_append]

end CommitHistory

/-! ## What is read of the commit -/

/-- The identity of a record that was read back. -/
def StoredRecord.identity (commitId : String) (r : StoredRecord) : RecordIdentity :=
  ⟨commitId, r.filePath, r.method, r.kind, r.before, r.after⟩

/-- The identity of a record is read back. -/
theorem StoredRecord.identity_ofRecord (commitId : String) {r : ChangeRecord} (h : r.HasSides) :
    (ofRecord r).identity commitId = r.identity commitId := by
  rw [identity, before_ofRecord h, after_ofRecord h]
  rfl

namespace Database.Follows

variable {db : Database} {ops : List StoreOperation} {commits : List CommitRow}
  {logs : List LogRow} (h : db.Follows ops commits logs)

include h

/-- Of every commit, each identity is counted once. -/
private theorem countsOf_eq (commitId : String) :
    db.countsOf commitId = .ok (ChangeKind.all.map fun kind =>
      (kind, (firstOfEach (ChangeRecord.identity commitId)
        (CommitHistory.of commitId ops).records).countP (·.kind = kind))) := by
  rw [countsOf_of_rowsOf (h.rowsOf_eq commitId)]
  refine congrArg Except.ok (List.map_congr_left fun kind _ => Prod.ext rfl ?_)
  change ((firstOfEach (ChangeRecord.identity commitId) _).map (logRow commitId)).countP
    (·.kindLabel = kind.label) = _
  rw [List.countP_map]
  apply List.countP_congr
  intro r _
  change decide (r.kind.label = kind.label) = true ↔ decide (r.kind = kind) = true
  rw [decide_eq_true_eq, decide_eq_true_eq]
  exact ⟨ChangeKind.label_injective, congrArg ChangeKind.label⟩

end Database.Follows

/-! ## Rows against totals -/

/-- The identities of the records of some kinds, one for each record. -/
def identitiesOf (commitId : String) (group : ChangeKind → Bool) (records : List ChangeRecord) :
    List RecordIdentity :=
  (records.map (ChangeRecord.identity commitId)).filter (group ·.kind)

/-- The total counts all records, and the rows every identity once. -/
structure CountsOnce (rows total : Nat) (identities : List RecordIdentity) : Prop where
  total_eq : total = identities.length
  rows_eq : rows = identities.toFinset.card
  rows_le : rows ≤ total
  rows_eq_total_iff : rows = total ↔ identities.Nodup

/-- The two numbers are all that has to be known. -/
theorem CountsOnce.of_eq {rows total : Nat} {identities : List RecordIdentity}
    (htotal : total = identities.length) (hrows : rows = identities.toFinset.card) :
    CountsOnce rows total identities := by
  obtain rfl := htotal
  obtain rfl := hrows
  exact ⟨rfl, rfl, identities.toFinset_card_le, Multiset.toFinset_card_eq_card_iff_nodup⟩

/-- The counts of some kinds add up to the number of different identities of these kinds. -/
theorem totalOf_firstOfEach (commitId : String) (group : ChangeKind → Bool)
    (records : List ChangeRecord) :
    totalOf group (ChangeKind.all.map fun kind => (kind,
        (firstOfEach (ChangeRecord.identity commitId) records).countP (·.kind = kind))) =
      (identitiesOf commitId group records).toFinset.card := by
  have hkind : ∀ r r' : ChangeRecord, r.identity commitId = r'.identity commitId →
      group r.kind = group r'.kind :=
    fun r r' hidentity => congrArg (fun i => group i.kind) hidentity
  -- The kind is part of the identity, so the kinds can be selected before the first of each is
  -- taken.
  rw [totalOf_countP ChangeRecord.kind, List.countP_eq_length_filter, filter_firstOfEach _ hkind,
    length_firstOfEach, identitiesOf, List.filter_map]
  rfl

/-- The totals have one identity for each record of their kinds. -/
private theorem length_identitiesOf (commitId : String) (group : ChangeKind → Bool)
    (reports : List Report) :
    Report.total (·.records.countP (group ·.kind)) reports =
      (identitiesOf commitId group (reports.flatMap (·.records))).length := by
  rw [Report.total_countP, identitiesOf, ← List.countP_eq_length_filter, List.countP_map]
  rfl

/-- The identities of records with the sides of their kinds are read back. -/
theorem map_identity_ofRecord (commitId : String) {records : List ChangeRecord}
    (h : ∀ r ∈ records, r.HasSides) :
    ((firstOfEach (ChangeRecord.identity commitId) records).map StoredRecord.ofRecord).map
        (StoredRecord.identity commitId) =
      (firstOfEach (ChangeRecord.identity commitId) records).map
        (ChangeRecord.identity commitId) := by
  rw [List.map_map]
  apply List.map_congr_left
  intro r hr
  exact StoredRecord.identity_ofRecord commitId (h r ((firstOfEach_sublist _ _).mem hr))

/-- The rows of a commit agree with its totals up to repeated records. After the reports of a commit
    that was not there are stored, the summary counts all their records, but the counts of the added,
    the deleted and the updated kinds add up to the number of different identities among them. That
    is the number of the summary if and only if no two of these records have the same identity. Every
    identity is read back, and once. -/
theorem stored_totals_count_identities (ops : List StoreOperation) (info : CommitInfo)
    (reports : List Report)
    (hreports : ∀ report ∈ reports, ∃ s change, Report.ofFile s change = .ok report)
    (hnew : (Database.initialised.after ops).commit? info.commitId = .ok none)
    (happart : TellsApart (ops ++ storing info reports))
    (hsize : (reports.flatMap (·.records)).length < UInt64.size) :
    let db := (Database.initialised.after ops).after (storing info reports)
    let identities group := identitiesOf info.commitId group (reports.flatMap (·.records))
    ∃ counts summary stored,
      db.countsOf info.commitId = .ok counts ∧
      db.summary? info.commitId = .ok (some summary) ∧
      db.recordsOf info.commitId = .ok stored ∧
      CountsOnce (totalOf (·.isAdded) counts) summary.added (identities (·.isAdded)) ∧
      CountsOnce (totalOf (·.isDeleted) counts) summary.deleted (identities (·.isDeleted)) ∧
      CountsOnce (totalOf (· = .updated) counts) summary.updated (identities (· = .updated)) ∧
      (stored.map (·.identity info.commitId)).Nodup ∧
      ∀ i, i ∈ stored.map (·.identity info.commitId) ↔ i ∈ identities fun _ => true := by
  intro db identities
  obtain ⟨_, _, hbefore⟩ := Database.follows_after ops happart.of_append
  have hrow : (CommitHistory.of info.commitId ops).row = none :=
    Except.ok.inj ((hbefore.commit?_eq info.commitId).symm.trans hnew)
  have hhistory := CommitHistory.of_storing hrow reports
  obtain ⟨_, _, hafter⟩ := Database.follows_after (ops ++ storing info reports) happart
  rw [Database.after_append] at hafter
  have hcounts := hafter.countsOf_eq info.commitId
  have hcommit := hafter.commit?_eq info.commitId
  have hstored := hafter.recordsOf_eq info.commitId
  rw [hhistory] at hcounts hcommit hstored
  have hsummary : db.summary? info.commitId =
      .ok (some (CommitRow.ofSummary info (Summary.ofReports reports)).summary) := by
    rw [Database.summary?, hcommit]
    rfl
  -- Every record of a report has the sides of its kind, so its identity is read back.
  have hsides : ∀ r ∈ reports.flatMap (·.records), r.HasSides := by
    intro r hr
    obtain ⟨report, hreport, hr⟩ := List.mem_flatMap.mp hr
    obtain ⟨s, change, hok⟩ := hreports report hreport
    exact (Report.ofFile_wellFormed hok r hr).hasSides
  -- The totals are read back, as there are no more records than a word can count.
  have htotal (group : ChangeKind → Bool) :
      CommitRow.ofColumn (CommitRow.toColumn
          (Report.total (·.records.countP (group ·.kind)) reports)) =
        (identities group).length := by
    have hlength := length_identitiesOf info.commitId group reports
    rw [← hlength]
    apply CommitRow.ofColumn_toColumn
    rw [Report.total_countP]
    exact List.countP_le_length.trans_lt hsize
  refine ⟨_, _, _, hcounts, hsummary, hstored,
    .of_eq (htotal (·.isAdded)) (totalOf_firstOfEach _ _ _),
    .of_eq (htotal (·.isDeleted)) (totalOf_firstOfEach _ _ _),
    .of_eq (htotal (· = .updated)) (totalOf_firstOfEach _ _ _), ?_, ?_⟩
  · rw [map_identity_ofRecord info.commitId hsides]
    exact nodup_map_firstOfEach _ _
  · intro i
    rw [map_identity_ofRecord info.commitId hsides, mem_map_firstOfEach]
    simp only [identities, identitiesOf, List.filter_true]

/-- A new file that logs one call twice in a method. -/
def FileVersion.ofRepeatedCall : FileVersion :=
  ⟨"A.java", [⟨"run", [], "void run() \x7bLog.d(x);Log.d(x);\x7d", "\x7bLog.d(x);Log.d(x);\x7d",
    [.call ⟨"Log.d", "Log.d(x)", [⟨"x", [.var "x"]⟩]⟩,
      .call ⟨"Log.d", "Log.d(x)", [⟨"x", [.var "x"]⟩]⟩]⟩]⟩

/-- The reports of a commit that adds this file and changes another one. -/
def reportsOfRepeatedCall : List Report :=
  [⟨"A.java", recordsOfFile .addedWithFile .ofRepeatedCall, [], []⟩,
    .ofVersions Settings.standard (FileChange.ofRenamedVariable.old.get rfl)
      (FileChange.ofRenamedVariable.new.get rfl) FileChange.ofRenamedVariable.unifiedDiff]

/-- The call that stands twice has one row. The call that is gone and the one that was updated have
    one row each, as in the summary. -/
theorem stored_totals_count_identities_of_repeated_call :
    ∃ counts summary,
      ((Database.initialised.after [.initialise]).after
        (storing ⟨"c1", none, false⟩ reportsOfRepeatedCall)).countsOf "c1" = .ok counts ∧
      ((Database.initialised.after [.initialise]).after
        (storing ⟨"c1", none, false⟩ reportsOfRepeatedCall)).summary? "c1" =
          .ok (some summary) ∧
      (summary.added = 2 ∧ totalOf (·.isAdded) counts = 1) ∧
      (summary.deleted = 1 ∧ totalOf (·.isDeleted) counts = 1) ∧
      summary.updated = 1 ∧ totalOf (· = .updated) counts = 1 := by
  have hreports : ∀ report ∈ reportsOfRepeatedCall,
      ∃ s change, Report.ofFile s change = .ok report := by
    intro report hreport
    rcases List.mem_pair.mp hreport with rfl | rfl
    · exact ⟨Settings.standard, ⟨none, some .ofRepeatedCall, none⟩, rfl⟩
    · exact ⟨Settings.standard, .ofRenamedVariable, rfl⟩
  have hidentities : (reportsOfRepeatedCall.flatMap (·.records)).map (ChangeRecord.identity "c1") =
      [⟨"c1", "A.java", "run()", .addedWithFile, none, some "Log.d(x)"⟩,
        ⟨"c1", "A.java", "run()", .addedWithFile, none, some "Log.d(x)"⟩,
        ⟨"c1", "New.java", "load(int)", .updated, some "Log.d(\"n\"+a)", some "Log.d(\"n\"+b)"⟩,
        ⟨"c1", "Old.java", "close()", .deletedWithMethod, some "Log.i(c)", none⟩] := by
    decide +kernel
  have hsize : (reportsOfRepeatedCall.flatMap (·.records)).length < UInt64.size := by
    rw [← List.length_map (ChangeRecord.identity "c1"), hidentities]
    decide
  obtain ⟨counts, summary, -, hcounts, hsummary, -, hadded, hdeleted, hupdated, -⟩ :=
    stored_totals_count_identities [.initialise] ⟨"c1", none, false⟩ reportsOfRepeatedCall
      hreports rfl (by decide +kernel) hsize
  simp only [identitiesOf, hidentities] at hadded hdeleted hupdated
  exact ⟨counts, summary, hcounts, hsummary, ⟨hadded.total_eq, hadded.rows_eq⟩,
    ⟨hdeleted.total_eq, hdeleted.rows_eq⟩, hupdated.total_eq, hupdated.rows_eq⟩

/-- The summary of a commit that adds the file counts a call that has no row. -/
theorem repeated_call_has_one_row :
    Database.initialised.commit? "c1" = .ok none ∧
    ∃ report counts summary,
      Report.ofFile Settings.standard ⟨none, some .ofRepeatedCall, none⟩ = .ok report ∧
      (Database.initialised.after (storing ⟨"c1", none, false⟩ [report])).countsOf "c1" =
        .ok counts ∧
      (Database.initialised.after (storing ⟨"c1", none, false⟩ [report])).summary? "c1" =
        .ok (some summary) ∧
      totalOf (·.isAdded) counts = 1 ∧ summary.added = 2 := by
  refine ⟨rfl, ⟨"A.java", recordsOfFile .addedWithFile .ofRepeatedCall, [], []⟩,
    [(.addedWithFile, 1), (.deletedWithFile, 0), (.addedWithMethod, 0), (.deletedWithMethod, 0),
      (.addedInsideMethod, 0), (.deletedInsideMethod, 0), (.updated, 0)], ⟨1, 2, 0, 0, 2⟩, rfl,
    ?_, ?_, rfl, rfl⟩
  · decide +kernel
  · decide +kernel

end LogDrift
