import LogDrift.Proofs.StoreIntegrity

/-!
# The totals of a commit

The row of a commit is a register: recording the commit writes it, deleting the commit clears it,
and no other operation of a run touches it (`RowStep.find?_eq`). So after a run it holds what was
recorded last since the last deletion (`lastRecording`), whatever was done to other commits and to
the logs in between.

The counts of a summary are stored as signed words. A count above the largest of them is stored as a
negative number, and is read back as it was.

## Key results

- `CommitRow.summary_ofSummary`: a summary is read back from its row
- `filter_putRow`: a recording leaves the rows of the other commits
- `Has.commit?_after`: the row of a commit after a run
-/

namespace LogDrift

/-! ## Summaries in words -/

/-- Every count of a summary fits into a word. -/
structure Summary.FitsWords (s : Summary) : Prop where
  files : s.files < UInt64.size
  added : s.added < UInt64.size
  deleted : s.deleted < UInt64.size
  updated : s.updated < UInt64.size
  churn : s.churn < UInt64.size

/-- A summary is read back from its row. -/
theorem CommitRow.summary_ofSummary (info : CommitInfo) {s : Summary} (h : s.FitsWords) :
    (CommitRow.ofSummary info s).summary = s := by
  rw [summary, ofSummary, ofColumn_toColumn h.files, ofColumn_toColumn h.added,
    ofColumn_toColumn h.deleted, ofColumn_toColumn h.updated, ofColumn_toColumn h.churn]

/-! ## What a run records of a commit -/

/-- What an operation makes of a commit: what it records of it, or nothing if it deletes it. An
    operation that does neither leaves the commit alone. -/
def StoreOperation.recording? (commitId : String) :
    StoreOperation → Option (Option (CommitInfo × Summary))
  | initialise => none
  | recordCommit info summary =>
    if info.commitId = commitId then some (some (info, summary)) else none
  | insertRecords _ _ => none
  | deleteCommit other => if other = commitId then some none else none

/-- What a run records of a commit last, and does not delete again. -/
def lastRecording (commitId : String) (ops : List StoreOperation) : Option (CommitInfo × Summary) :=
  (ops.reverse.findSome? (StoreOperation.recording? commitId)).join

namespace Database

/-- The row of what is recorded. -/
def rowOf (recording : CommitInfo × Summary) : CommitRow :=
  CommitRow.ofSummary recording.1 recording.2

/-- An operation leaves the row of a commit, unless it records the commit or deletes it. -/
theorem RowStep.find?_eq {commits commits' : List CommitRow} {logs logs' : List LogRow}
    {op : StoreOperation} (hstep : RowStep commits logs op commits' logs') (commitId : String) :
    commits'.find? (·.commitId = commitId) =
      ((op.recording? commitId).map (·.map rowOf)).getD
        (commits.find? (·.commitId = commitId)) := by
  cases hstep with
  | initialised => rfl
  | inserted hrecorded records => rfl
  | refused hrecorded records => rfl
  | recorded info summary =>
    have hid : (CommitRow.ofSummary info summary).commitId = info.commitId := rfl
    rw [find?_putRow, hid, StoreOperation.recording?]
    split <;> rfl
  | deleted other =>
    rw [List.find?_filter, StoreOperation.recording?]
    split
    · rename_i hsame
      subst hsame
      simp
    · -- What is deleted has another id than what is looked for.
      rename_i hother
      change _ = commits.find? (·.commitId = commitId)
      congr 1
      funext row
      by_cases hrow : row.commitId = commitId
      · simp [hrow, Ne.symm hother]
      · simp [hrow]

/-- The row of a commit after a run is the one that was recorded last. If the run neither records
    the commit nor deletes it, it is the row that was there. -/
theorem Has.find?_after {db : Database} {commits : List CommitRow} {logs : List LogRow}
    (h : db.Has commits logs) (ops : List StoreOperation) (commitId : String) :
    ∃ commits' logs', (db.after ops).Has commits' logs' ∧
      commits'.find? (·.commitId = commitId) =
        ((ops.reverse.findSome? (StoreOperation.recording? commitId)).map (·.map rowOf)).getD
          (commits.find? (·.commitId = commitId)) := by
  -- By the run from its end: the last operation that says something of the commit decides.
  induction ops using List.reverseRecOn with
  | nil => exact ⟨commits, logs, h, rfl⟩
  | append_singleton ops op ih =>
    obtain ⟨commits₁, logs₁, hhas, hfind⟩ := ih
    obtain ⟨commits₂, logs₂, hstep, hhas'⟩ := hhas.rowStep op
    refine ⟨commits₂, logs₂, ?_, ?_⟩
    · rwa [after_concat]
    · rw [hstep.find?_eq, hfind, List.reverse_concat, List.findSome?_cons]
      cases op.recording? commitId <;> rfl

/-- What is read of a commit after a run of a store with tables. -/
theorem Has.commit?_after {db : Database} {commits : List CommitRow} {logs : List LogRow}
    (h : db.Has commits logs) (ops : List StoreOperation) (commitId : String) :
    (db.after ops).commit? commitId =
      .ok (((ops.reverse.findSome? (StoreOperation.recording? commitId)).map (·.map rowOf)).getD
        (commits.find? (·.commitId = commitId))) := by
  obtain ⟨commits', logs', hhas, hfind⟩ := h.find?_after ops commitId
  rw [hhas.commit?_eq, hfind]

/-- After a run of an initialised store only recordings are found. -/
theorem commit?_after_initialised (ops : List StoreOperation) (commitId : String) :
    (initialised.after ops).commit? commitId = .ok ((lastRecording commitId ops).map rowOf) := by
  rw [has_initialised.commit?_after, lastRecording]
  cases ops.reverse.findSome? (StoreOperation.recording? commitId) <;> rfl

/-! ## What operations leave alone -/

/-- A recording leaves the rows of the other commits. -/
theorem filter_putRow (row : CommitRow) (rows : List CommitRow) :
    (putRow row rows).filter (·.commitId ≠ row.commitId) =
      rows.filter (·.commitId ≠ row.commitId) := by
  induction rows with
  | nil => simp [putRow]
  | cons r rows ih =>
    rw [putRow]
    split
    · rename_i hsame
      simp [hsame]
    · rw [List.filter_cons, List.filter_cons, ih]

/-- On a store with tables a recording succeeds. -/
theorem Has.result_recordCommit {db : Database} {commits : List CommitRow} {logs : List LogRow}
    (h : db.Has commits logs) (info : CommitInfo) (summary : Summary) :
    (StoreOperation.recordCommit info summary).result db = .ok 0 := by
  have hchange := congrArg (Except.map fun db => ((), db)) (h.recordCommit_eq info summary)
  rw [StoreOperation.result, StoreOperation.session, StoreOperation.run_map, Session.recordCommit,
    Session.run_change_of_ok hchange]
  rfl

/-- A recording leaves the logs and the rows of the other commits, with tables or without. -/
theorem recordCommit_frame (db : Database) (info : CommitInfo) (summary : Summary) :
    let db' := (StoreOperation.recordCommit info summary).apply db
    db'.logs = db.logs ∧
      db'.commits.map (·.filter (·.commitId ≠ info.commitId)) =
        db.commits.map (·.filter (·.commitId ≠ info.commitId)) := by
  intro db'
  obtain ⟨metaTable, commits, logs, indexes⟩ := db
  cases commits with
  -- Without the table the recording fails and changes nothing.
  | none =>
    have hdb : db' = _ := StoreOperation.apply_eq_of_fails ⟨_, rfl⟩
    rw [hdb]
    exact ⟨rfl, rfl⟩
  | some commits =>
    have hdb : db' = _ := StoreOperation.apply_recordCommit_of_ok rfl
    rw [hdb]
    exact ⟨rfl, congrArg some (filter_putRow (CommitRow.ofSummary info summary) commits)⟩

/-- An insertion leaves all commits, whether or not it succeeds. -/
theorem insertRecords_frame (db : Database) (commitId : String) (records : List ChangeRecord) :
    ((StoreOperation.insertRecords commitId records).apply db).commits = db.commits := by
  cases hinsert : db.insertRecords commitId records with
  | error fault => rw [StoreOperation.apply_insertRecords_of_error hinsert]
  | ok inserted =>
    rw [StoreOperation.apply_insertRecords_of_ok hinsert]
    obtain ⟨metaTable, commits, logs, indexes⟩ := db
    cases records with
    | nil =>
      obtain rfl := Except.ok.inj hinsert
      rfl
    | cons r records =>
      -- With records to insert, both tables have to exist.
      cases logs with
      | none => exact nomatch hinsert
      | some logs =>
        cases commits with
        | none => exact nomatch hinsert
        | some commits =>
          have hhas : Has ⟨metaTable, some commits, some logs, indexes⟩ commits logs := ⟨rfl, rfl⟩
          obtain ⟨logs', hhas'⟩ := hhas.of_insertRecords hinsert
          exact hhas'.commits_eq

end Database

/-- The totals of a commit are what was recorded last. After every run of an initialised store, the
    row of a commit is that of its last recording since it was last deleted, and there is none
    without one. Its summary is read back count by count, if each fits into a word. Recording a
    commit never fails, and leaves the logs and the rows of the other commits; inserting records
    leaves all commits. -/
theorem commit_totals_are_last_recorded (ops : List StoreOperation) (commitId : String) :
    let db := Database.initialised.after ops
    db.commit? commitId =
      .ok ((lastRecording commitId ops).map fun (info, summary) => .ofSummary info summary) ∧
    ((∀ recording ∈ lastRecording commitId ops, recording.2.FitsWords) →
      db.summary? commitId = .ok ((lastRecording commitId ops).map (·.2))) ∧
    (∀ info summary, (StoreOperation.recordCommit info summary).result db = .ok 0) ∧
    (∀ (store : Database) (info : CommitInfo) (summary : Summary),
      let store' := (StoreOperation.recordCommit info summary).apply store
      store'.logs = store.logs ∧
        store'.commits.map (·.filter (·.commitId ≠ info.commitId)) =
          store.commits.map (·.filter (·.commitId ≠ info.commitId))) ∧
    ∀ (store : Database) (other : String) (records : List ChangeRecord),
      ((StoreOperation.insertRecords other records).apply store).commits = store.commits := by
  intro db
  have hcommit := Database.commit?_after_initialised ops commitId
  refine ⟨hcommit, fun hfits => ?_, fun info summary => ?_, Database.recordCommit_frame,
    Database.insertRecords_frame⟩
  · -- The counts come back from the columns, as each of them fits into a word.
    rw [Database.summary?, hcommit]
    change Except.ok (((lastRecording commitId ops).map Database.rowOf).map CommitRow.summary) = _
    rw [Option.map_map]
    congr 1
    apply Option.map_congr
    intro recording hrecording
    exact CommitRow.summary_ofSummary recording.1 (hfits recording hrecording)
  · obtain ⟨commits, logs, hhas, -⟩ := Database.has_initialised.find?_after ops commitId
    exact hhas.result_recordCommit info summary

/-- A summary with counts about the largest signed word and up to the largest word. -/
def Summary.full : Summary :=
  ⟨UInt64.size - 1, UInt64.size / 2, UInt64.size / 2 - 1, 0, UInt64.size - 1⟩

/-- A run that records two commits again and again, deletes one of them, and inserts records for
    both. -/
def runWithTotals : List StoreOperation :=
  [.recordCommit ⟨"c1", none, false⟩ ⟨1, 1, 0, 0, 1⟩, .insertRecords "c1" [.ofNewCall],
    .deleteCommit "c1", .recordCommit ⟨"c1", some "c0", true⟩ ⟨2, 0, 0, 0, 0⟩,
    .recordCommit ⟨"c2", none, false⟩ ⟨3, 0, 0, 1, 2⟩, .recordCommit ⟨"c1", none, false⟩ .full,
    .insertRecords "c1" [.ofNewCall, .ofChangedCall], .deleteCommit "c2", .initialise,
    .insertRecords "c2" [.ofNewCall]]

/-- Counts above the largest signed word are read back as they were. -/
theorem commit_totals_are_last_recorded_of_full :
    let db := Database.initialised.after runWithTotals
    db.summary? "c1" = .ok (some .full) ∧ db.summary? "c2" = .ok none := by
  intro db
  obtain ⟨-, hfirst, -⟩ := commit_totals_are_last_recorded runWithTotals "c1"
  obtain ⟨-, hsecond, -⟩ := commit_totals_are_last_recorded runWithTotals "c2"
  have hlast : lastRecording "c1" runWithTotals = some (⟨"c1", none, false⟩, .full) := rfl
  have hnone : lastRecording "c2" runWithTotals = none := rfl
  rw [hlast] at hfirst
  rw [hnone] at hsecond
  refine ⟨hfirst ?_, hsecond fun recording hrecording => nomatch hrecording⟩
  rintro recording ⟨⟩
  exact ⟨by decide, by decide, by decide, by decide, by decide⟩

end LogDrift
