import LogDrift.Proofs.ReadBack

/-!
# Integrity of a store

Every row of the logs belongs to a recorded commit, no two of them have the same fingerprint, and no
commit has two rows (`Intact`). An empty database is intact, and every operation keeps it so: what
an operation does to the rows is one of five things (`RowStep`), each with its own reason. An
operation that fails leaves the database as it was.

An insertion fails at the first record that is to be added to a commit that is not recorded. A
record whose fingerprint is in the logs is passed over before its commit is looked at, so an
insertion for such a commit fails if and only if one of its records has a fingerprint that is not
there.

## Key results

- `StoreOperation.apply_eq_of_fails`: an operation that fails changes nothing
- `Has.rowStep`: what an operation does to the rows
- `RowStep.intact`: every operation keeps the rows intact
- `keeps_after`: what is there after a run from an empty database
- `Has.insertRecords_eq_error_iff`: when an insertion fails
-/

namespace LogDrift

/-! ## Results of operations -/

/-- A change that fails leaves the database as it was. -/
private theorem Session.run_map_change_of_error {α β : Type} {f : α → β}
    {g : Database → Except DatabaseFault (α × Database)} {db : Database} {e : Error}
    (h : ((f <$> change g).run.run db).1 = .error e) : ((f <$> change g).run.run db).2 = db := by
  rw [StoreOperation.run_map] at h ⊢
  cases hg : g db with
  | ok r =>
    rw [run_change_of_ok hg] at h
    exact nomatch h
  | error fault => rw [run_change_of_error hg]

namespace StoreOperation

/-- What an operation gives: a number, or an error. -/
def result (op : StoreOperation) (db : Database) : Except Error Nat := (op.session.run.run db).1

/-- Whether an operation gives an error. -/
def Fails (op : StoreOperation) (db : Database) : Prop := ∃ e, op.result db = .error e

/-- An operation that fails leaves the database as it was. -/
theorem apply_eq_of_fails {op : StoreOperation} {db : Database} (h : op.Fails db) :
    op.apply db = db := by
  obtain ⟨e, h⟩ := h
  rw [result] at h
  rw [apply]
  cases op with
  | initialise =>
    -- Initialising never fails.
    rw [session, run_map, Session.run_initialise] at h
    cases h
  | recordCommit info summary => exact Session.run_map_change_of_error h
  | insertRecords commitId records =>
    rw [session, ← id_map (Session.insertRecords commitId records)] at h ⊢
    exact Session.run_map_change_of_error h
  | deleteCommit commitId =>
    rw [session, ← id_map (Session.change _)] at h ⊢
    exact Session.run_map_change_of_error h

/-- An insertion fails if and only if the database refuses the records. -/
theorem fails_insertRecords_iff {db : Database} {commitId : String} {records : List ChangeRecord} :
    (insertRecords commitId records).Fails db ↔
      ∃ fault, db.insertRecords commitId records = .error fault := by
  rw [Fails, result, session, Session.insertRecords]
  cases h : db.insertRecords commitId records with
  | ok inserted =>
    rw [Session.run_change_of_ok h]
    simp
  | error fault =>
    rw [Session.run_change_of_error h]
    exact ⟨fun _ => ⟨fault, rfl⟩, fun _ => ⟨_, rfl⟩⟩

end StoreOperation

namespace Database

/-! ## Steps of the rows -/

/-- What an operation does to the rows of the commits and of the logs. -/
inductive RowStep (commits : List CommitRow) (logs : List LogRow) :
    StoreOperation → List CommitRow → List LogRow → Prop
  | initialised : RowStep commits logs .initialise commits logs
  | recorded (info : CommitInfo) (summary : Summary) :
    RowStep commits logs (.recordCommit info summary)
      (putRow (CommitRow.ofSummary info summary) commits) logs
  | inserted {commitId : String} (hrecorded : commits.any (·.commitId = commitId) = true)
    (records : List ChangeRecord) :
    RowStep commits logs (.insertRecords commitId records) commits
      (logs ++ newRows logs (records.map (logRow commitId)))
  | refused {commitId : String} (hrecorded : commits.any (·.commitId = commitId) = false)
    (records : List ChangeRecord) :
    RowStep commits logs (.insertRecords commitId records) commits logs
  | deleted (commitId : String) :
    RowStep commits logs (.deleteCommit commitId)
      (commits.filter (·.commitId ≠ commitId)) (logs.filter (·.commitId ≠ commitId))

/-- Every operation makes one of these steps. -/
theorem Has.rowStep {db : Database} {commits : List CommitRow} {logs : List LogRow}
    (h : db.Has commits logs) (op : StoreOperation) :
    ∃ commits' logs', RowStep commits logs op commits' logs' ∧
      (op.apply db).Has commits' logs' := by
  cases op with
  | initialise => exact ⟨_, _, .initialised, h.initialise⟩
  | recordCommit info summary => exact ⟨_, _, .recorded info summary, h.recordCommit info summary⟩
  | deleteCommit commitId => exact ⟨_, _, .deleted commitId, h.deleteCommit commitId⟩
  | insertRecords commitId records =>
    cases hrecorded : commits.any (·.commitId = commitId) with
    | true => exact ⟨_, _, .inserted hrecorded records, h.insertRecords hrecorded records⟩
    | false =>
      exact ⟨_, _, .refused hrecorded records, h.insertRecords_not_recorded hrecorded records⟩

/-! ## Integrity -/

/-- Every row of the logs belongs to a recorded commit. No commit has two rows, and no fingerprint
    has. -/
structure Intact (commits : List CommitRow) (logs : List LogRow) : Prop where
  nodup_commitIds : (commits.map (·.commitId)).Nodup
  nodup_fingerprints : (logs.map (·.fingerprint)).Nodup
  recorded : ∀ row ∈ logs, row.commitId ∈ commits.map (·.commitId)

/-- Recording a commit adds its id to those of the commits, unless it is there. -/
private theorem map_commitId_putRow (row : CommitRow) (rows : List CommitRow) :
    (putRow row rows).map (·.commitId) =
      if row.commitId ∈ rows.map (·.commitId) then rows.map (·.commitId)
      else rows.map (·.commitId) ++ [row.commitId] := by
  induction rows with
  | nil => rfl
  | cons r rows ih =>
    rw [putRow]
    by_cases hr : r.commitId = row.commitId
    · rw [if_pos hr, List.map_cons, List.map_cons, hr, if_pos List.mem_cons_self]
    · rw [if_neg hr, List.map_cons, ih, List.map_cons]
      by_cases hrow : row.commitId ∈ rows.map (·.commitId)
      · rw [if_pos hrow, if_pos (List.mem_cons_of_mem _ hrow)]
      · rw [if_neg hrow, if_neg (by simpa [Ne.symm hr] using hrow)]
        rfl

theorem any_commitId_iff {commits : List CommitRow} {commitId : String} :
    commits.any (·.commitId = commitId) = true ↔ commitId ∈ commits.map (·.commitId) := by
  simp

/-- The new rows are rows of the insertion, and no fingerprint is there twice. -/
private theorem newRows_sublist (logs rows : List LogRow) : (newRows logs rows).Sublist rows :=
  List.filter_sublist.trans (firstOfEach_sublist _ _)

/-- The new rows bring no fingerprint twice. -/
private theorem nodup_fingerprints_newRows {logs : List LogRow}
    (h : (logs.map (·.fingerprint)).Nodup) (rows : List LogRow) :
    ((logs ++ newRows logs rows).map (·.fingerprint)).Nodup := by
  rw [List.map_append, List.nodup_append]
  refine ⟨h, (nodup_map_firstOfEach _ rows).sublist (List.filter_sublist.map _), ?_⟩
  -- A fingerprint that is there is not among those of the new rows.
  rintro fingerprint hold other hnew rfl
  obtain ⟨row, hrow, hsame⟩ := List.mem_map.mp hnew
  have hany := (List.mem_filter.mp hrow).2
  obtain ⟨oldRow, holdRow, hfingerprint⟩ := List.mem_map.mp hold
  simp only [Bool.not_eq_true', List.any_eq_false, decide_eq_true_eq] at hany
  exact hany oldRow holdRow (hfingerprint.trans hsame.symm)

/-- Every operation keeps the rows intact. -/
theorem RowStep.intact {commits commits' : List CommitRow} {logs logs' : List LogRow}
    {op : StoreOperation} (hstep : RowStep commits logs op commits' logs')
    (h : Intact commits logs) : Intact commits' logs' := by
  cases hstep with
  | initialised => exact h
  | refused hrecorded records => exact h
  | recorded info summary =>
    have hids := map_commitId_putRow (CommitRow.ofSummary info summary) commits
    refine ⟨?_, h.nodup_fingerprints, fun row hrow => ?_⟩
    · rw [hids]
      split
      · exact h.nodup_commitIds
      · rename_i hnew
        exact List.nodup_append.mpr ⟨h.nodup_commitIds, List.nodup_singleton _,
          fun a ha b hb hab => hnew ((List.mem_singleton.mp hb) ▸ hab ▸ ha)⟩
    · have hold := h.recorded row hrow
      rw [hids]
      split
      · exact hold
      · exact List.mem_append_left _ hold
  | @inserted commitId hrecorded records =>
    refine ⟨h.nodup_commitIds, nodup_fingerprints_newRows h.nodup_fingerprints _, ?_⟩
    intro row hrow
    -- New rows are all of the commit, which is recorded.
    rcases List.mem_append.mp hrow with hold | hnew
    · exact h.recorded row hold
    · rw [commitId_of_mem_logRows ((newRows_sublist _ _).mem hnew)]
      exact any_commitId_iff.mp hrecorded
  | deleted commitId =>
    refine ⟨h.nodup_commitIds.sublist (List.filter_sublist.map _),
      h.nodup_fingerprints.sublist (List.filter_sublist.map _), ?_⟩
    -- The rows of the commit go with it.
    intro row hrow
    obtain ⟨hold, hother⟩ := List.mem_filter.mp hrow
    obtain ⟨c, hc, hsame⟩ := List.mem_map.mp (h.recorded row hold)
    refine List.mem_map.mpr ⟨c, List.mem_filter.mpr ⟨hc, ?_⟩, hsame⟩
    rwa [hsame]

/-! ## Runs from an empty database -/

/-- What is there after a run: intact rows, and those of the logs were made from records of the
    run. -/
structure Keeps (ops : List StoreOperation) (commits : List CommitRow) (logs : List LogRow) : Prop
    extends Intact commits logs where
  made : ∀ row ∈ logs, ∃ p ∈ insertions ops, row = logRow p.1 p.2

/-- Every operation keeps what is there after a run. -/
private theorem RowStep.keeps {commits commits' : List CommitRow} {logs logs' : List LogRow}
    {ops : List StoreOperation} {op : StoreOperation}
    (hstep : RowStep commits logs op commits' logs') (h : Keeps ops commits logs) :
    Keeps (ops ++ [op]) commits' logs' := by
  refine ⟨hstep.intact h.toIntact, ?_⟩
  have hold : ∀ row ∈ logs, ∃ p ∈ insertions (ops ++ [op]), row = logRow p.1 p.2 := by
    intro row hrow
    obtain ⟨p, hp, hmade⟩ := h.made row hrow
    exact ⟨p, mem_insertions_append hp, hmade⟩
  -- Only an insertion brings rows, and they are made from its records.
  cases hstep with
  | initialised => exact hold
  | refused hrecorded records => exact hold
  | recorded info summary => exact hold
  | deleted commitId => exact fun row hrow => hold row (List.mem_filter.mp hrow).1
  | @inserted commitId hrecorded records =>
    intro row hrow
    rcases List.mem_append.mp hrow with hrow | hnew
    · exact hold row hrow
    · obtain ⟨r, hr, rfl⟩ := List.mem_map.mp ((newRows_sublist _ _).mem hnew)
      exact ⟨(commitId, r), mem_insertions_concat hr, rfl⟩

/-- Without tables every operation but the initialisation fails, or has nothing to do. -/
private theorem apply_empty {op : StoreOperation} (h : op ≠ .initialise) :
    op.apply empty = empty := by
  cases op with
  | initialise => exact absurd rfl h
  | recordCommit info summary => exact StoreOperation.apply_eq_of_fails ⟨_, rfl⟩
  | deleteCommit commitId => exact StoreOperation.apply_eq_of_fails ⟨_, rfl⟩
  | insertRecords commitId records =>
    cases records with
    | nil => exact StoreOperation.apply_insertRecords_of_ok rfl
    | cons r records => exact StoreOperation.apply_eq_of_fails ⟨_, rfl⟩

/-- A run from an empty database leaves it empty until it initialises it, and from then on there are
    tables with intact rows. -/
theorem keeps_after (ops : List StoreOperation) :
    (.initialise ∉ ops ∧ empty.after ops = empty) ∨
      (.initialise ∈ ops ∧ ∃ commits logs, (empty.after ops).Has commits logs ∧
        Keeps ops commits logs) := by
  induction ops using List.reverseRecOn with
  | nil => exact .inl ⟨List.not_mem_nil, rfl⟩
  | append_singleton ops op ih =>
    rw [after_concat]
    rcases ih with ⟨hnone, hempty⟩ | ⟨hmem, commits, logs, hhas, hkeeps⟩
    · rw [hempty]
      -- The store is initialised with this operation, or is still empty.
      by_cases hop : op = .initialise
      · subst hop
        refine .inr ⟨List.mem_append_right _ List.mem_cons_self, [], [], ?_, ?_⟩
        · rw [StoreOperation.apply_initialise]
          exact has_initialised
        · exact ⟨⟨List.nodup_nil, List.nodup_nil, fun _ hrow => nomatch hrow⟩,
            fun _ hrow => nomatch hrow⟩
      · refine .inl ⟨fun hmem => ?_, apply_empty hop⟩
        rcases List.mem_append.mp hmem with hold | hlast
        · exact hnone hold
        · exact hop (List.mem_singleton.mp hlast).symm
    · obtain ⟨commits', logs', hstep, hhas'⟩ := hhas.rowStep op
      exact .inr ⟨List.mem_append_left _ hmem, commits', logs', hhas', hstep.keeps hkeeps⟩

/-! ## When an insertion fails -/

/-- Rows of a commit that is not recorded are passed over as long as their fingerprints are there,
    and refused at the first one whose fingerprint is not. -/
private theorem addRows_of_not_recorded {commits : List CommitRow} {rows : List LogRow}
    (h : ∀ row ∈ rows, commits.any (·.commitId = row.commitId) = false) (logs : List LogRow) :
    addRows commits logs rows =
      if ∀ row ∈ rows, logs.any (·.fingerprint = row.fingerprint) = true then .ok (0, logs)
      else .error .foreignKey := by
  induction rows with
  | nil => rfl
  | cons row rows ih =>
    have htail := ih fun other hother => h other (List.mem_cons_of_mem row hother)
    cases hpresent : logs.any (·.fingerprint = row.fingerprint) with
    | true =>
      rw [addRows_cons_of_mem hpresent, htail]
      simp only [List.forall_mem_cons, hpresent, true_and]
    -- The first row that is new is refused, as its commit is not recorded.
    | false =>
      rw [addRows_cons_of_not_recorded hpresent (h row List.mem_cons_self), if_neg]
      intro hall
      exact Bool.false_ne_true (hpresent.symm.trans (hall row List.mem_cons_self))

/-- An insertion fails if and only if its commit is not recorded and one of its records has a
    fingerprint that is not there. -/
theorem Has.insertRecords_eq_error_iff {db : Database} {commits : List CommitRow}
    {logs : List LogRow} (h : db.Has commits logs) {commitId : String}
    {records : List ChangeRecord} {fault : DatabaseFault} :
    db.insertRecords commitId records = .error fault ↔
      fault = .foreignKey ∧ commitId ∉ commits.map (·.commitId) ∧
        ∃ r ∈ records, fingerprint commitId r ∉ logs.map (·.fingerprint) := by
  cases hrecorded : commits.any (·.commitId = commitId) with
  -- For a recorded commit the insertion succeeds.
  | true =>
    rw [h.insertRecords_eq hrecorded]
    constructor
    · intro herror
      cases herror
    · rintro ⟨-, hnot, -⟩
      exact absurd (any_commitId_iff.mp hrecorded) hnot
  | false =>
    have hall : ∀ row ∈ records.map (logRow commitId),
        commits.any (·.commitId = row.commitId) = false := by
      intro row hrow
      rwa [commitId_of_mem_logRows hrow]
    have hnot : commitId ∉ commits.map (·.commitId) := by
      rw [← any_commitId_iff, hrecorded]
      exact Bool.false_ne_true
    -- Otherwise it fails unless all fingerprints are there.
    have hpresent : (∀ row ∈ records.map (logRow commitId),
        logs.any (·.fingerprint = row.fingerprint) = true) ↔
          ¬ ∃ r ∈ records, fingerprint commitId r ∉ logs.map (·.fingerprint) := by
      simp [logRow]
    rw [h.insertRecords_eq_addRows, addRows_of_not_recorded hall]
    split
    · rename_i hthere
      constructor
      · intro herror
        cases herror
      · rintro ⟨-, -, hnew⟩
        exact absurd hnew (hpresent.mp hthere)
    · rename_i hmissing
      rw [hpresent, not_not] at hmissing
      constructor
      · intro herror
        exact ⟨(Except.error.inj herror).symm, hnot, hmissing⟩
      · rintro ⟨rfl, -, -⟩
        rfl

/-- An insertion fails if and only if its commit is not recorded and one of its records has a
    fingerprint that is not there. -/
theorem Has.fails_insertRecords_iff {db : Database} {commits : List CommitRow}
    {logs : List LogRow} (h : db.Has commits logs) {commitId : String}
    {records : List ChangeRecord} :
    (StoreOperation.insertRecords commitId records).Fails db ↔
      commitId ∉ commits.map (·.commitId) ∧
        ∃ r ∈ records, fingerprint commitId r ∉ logs.map (·.fingerprint) := by
  simp only [StoreOperation.fails_insertRecords_iff, h.insertRecords_eq_error_iff, exists_eq_left]

/-- A commit is read from its row. -/
theorem Has.commit?_eq {db : Database} {commits : List CommitRow} {logs : List LogRow}
    (h : db.Has commits logs) (commitId : String) :
    db.commit? commitId = .ok (commits.find? (·.commitId = commitId)) := by
  rw [commit?, h.commits_eq]
  rfl

/-- Nothing is read of a commit if and only if it has no row. -/
theorem Has.commit?_eq_none_iff {db : Database} {commits : List CommitRow} {logs : List LogRow}
    (h : db.Has commits logs) (commitId : String) :
    db.commit? commitId = .ok none ↔ commitId ∉ commits.map (·.commitId) := by
  rw [h.commit?_eq, Except.ok.injEq, List.find?_eq_none]
  simp

/-- As long as fingerprints tell records apart, none of a commit that is not recorded is there. -/
private theorem Keeps.fingerprint_not_mem {ops : List StoreOperation} {commits : List CommitRow}
    {logs : List LogRow} (h : Keeps ops commits logs) {commitId : String}
    {records : List ChangeRecord} (happart : TellsApart (ops ++ [.insertRecords commitId records]))
    (hnot : commitId ∉ commits.map (·.commitId)) {r : ChangeRecord} (hr : r ∈ records) :
    fingerprint commitId r ∉ logs.map (·.fingerprint) := by
  intro hmem
  obtain ⟨row, hrow, hsame⟩ := List.mem_map.mp hmem
  obtain ⟨p, hp, rfl⟩ := h.made row hrow
  have hidentity := happart p (mem_insertions_append hp) (commitId, r) (mem_insertions_concat hr)
    hsame
  -- The row would be one of this commit, and so the commit would be recorded.
  have hcommit : p.1 = commitId := congrArg RecordIdentity.commitId hidentity
  exact hnot (hcommit ▸ h.recorded _ hrow)

end Database

/-- A store stays intact. After every run from an empty database, every row of the logs belongs to a
    recorded commit and no fingerprint has two rows. An operation that fails then leaves the
    database as it was. Once the store is initialised, an insertion fails if and only if its commit
    is not recorded and one of its records has a fingerprint that is not there; as long as
    fingerprints tell the records of the run apart, if and only if its commit is not recorded and it
    has records. -/
theorem store_stays_intact (ops : List StoreOperation) :
    let db := Database.empty.after ops
    Database.Intact (db.commits.getD []) (db.logs.getD []) ∧
    (∀ op : StoreOperation, op.Fails db → op.apply db = db) ∧
    (.initialise ∈ ops → ∀ commitId records,
      ((StoreOperation.insertRecords commitId records).Fails db ↔
        db.commit? commitId = .ok none ∧
          ∃ r ∈ records, fingerprint commitId r ∉ (db.logs.getD []).map (·.fingerprint)) ∧
      (TellsApart (ops ++ [.insertRecords commitId records]) →
        ((StoreOperation.insertRecords commitId records).Fails db ↔
          db.commit? commitId = .ok none ∧ records ≠ []))) := by
  intro db
  -- The database is still empty, or has tables with intact rows.
  rcases Database.keeps_after ops with ⟨hnone, hempty⟩ | ⟨-, commits, logs, hhas, hkeeps⟩
  · refine ⟨?_, fun op => StoreOperation.apply_eq_of_fails, fun hmem => absurd hmem hnone⟩
    have hdb : db = .empty := hempty
    rw [hdb]
    exact ⟨List.nodup_nil, List.nodup_nil, fun _ hrow => nomatch hrow⟩
  · refine ⟨?_, fun op => StoreOperation.apply_eq_of_fails, fun _ commitId records => ?_⟩
    · rw [hhas.commits_eq, hhas.logs_eq]
      exact hkeeps.toIntact
    · have hfails : (StoreOperation.insertRecords commitId records).Fails db ↔ _ :=
        hhas.fails_insertRecords_iff
      rw [hhas.commit?_eq_none_iff, hhas.logs_eq]
      refine ⟨hfails, fun happart => hfails.trans (and_congr_right fun hnot => ?_)⟩
      constructor
      · rintro ⟨r, hr, -⟩
        exact List.ne_nil_of_mem hr
      · intro hrecords
        obtain ⟨r, hr⟩ := List.exists_mem_of_ne_nil records hrecords
        exact ⟨r, hr, hkeeps.fingerprint_not_mem happart hnot hr⟩

/-- A run with an insertion that fails before the store is initialised, and one that fails after its
    commit is deleted. -/
def runWithRefusals : List StoreOperation :=
  [.insertRecords "c1" [.ofNewCall], .initialise, .recordCommit ⟨"c1", none, false⟩ ⟨1, 1, 0, 0, 1⟩,
    .insertRecords "c1" [.ofNewCall], .recordCommit ⟨"c2", some "c1", false⟩ ⟨1, 0, 0, 1, 2⟩,
    .deleteCommit "c1", .insertRecords "c1" [.ofNewCall]]

/-- The deleted commit takes its rows along and then gets no others. -/
theorem store_stays_intact_of_refusals :
    let db := Database.empty.after runWithRefusals
    db.commit? "c1" = .ok none ∧
    (StoreOperation.insertRecords "c1" [.ofChangedCall]).Fails db ∧
    (StoreOperation.insertRecords "c1" [.ofChangedCall]).apply db = db ∧
    ¬ (StoreOperation.insertRecords "c2" [.ofChangedCall]).Fails db := by
  intro db
  obtain ⟨-, hatomic, hinsert⟩ := store_stays_intact runWithRefusals
  have hmem : .initialise ∈ runWithRefusals := List.mem_cons_of_mem _ List.mem_cons_self
  have hdeleted : db.commit? "c1" = .ok none := by decide +kernel
  have hfails := ((hinsert hmem "c1" [.ofChangedCall]).2 (by decide +kernel)).mpr
    ⟨hdeleted, List.cons_ne_nil _ _⟩
  refine ⟨hdeleted, hfails, hatomic _ hfails, fun hfails' => ?_⟩
  have hthere := ((hinsert hmem "c2" [.ofChangedCall]).1.mp hfails').1
  exact absurd hthere (by decide +kernel)

/-- A new call in a file of any path. -/
def ChangeRecord.ofNewCallIn (path : String) : ChangeRecord :=
  ⟨path, "run()", .addedWithFile, none, some "Log.d(x)", "d", none, none, none, none, none⟩

/-- A run with a record whose path holds the byte that separates the parts of an identity. -/
def runWithSeparator : List StoreOperation :=
  [.initialise, .recordCommit ⟨"a", none, false⟩ ⟨0, 0, 0, 0, 0⟩,
    .insertRecords "a" [.ofNewCallIn "b\x1fc"]]

/-- A record of a commit that is not recorded is passed over, if the rest of its identity reads like
    that of a record that is there. -/
theorem insertion_for_missing_commit_succeeds :
    .initialise ∈ runWithSeparator ∧
    (Database.empty.after runWithSeparator).commit? "a\x1fb" = .ok none ∧
    [ChangeRecord.ofNewCallIn "c"] ≠ [] ∧
    ¬ (StoreOperation.insertRecords "a\x1fb" [.ofNewCallIn "c"]).Fails
      (Database.empty.after runWithSeparator) := by
  refine ⟨List.mem_cons_self, by decide +kernel, List.cons_ne_nil _ _, ?_⟩
  have hinsert : (Database.empty.after runWithSeparator).insertRecords "a\x1fb" [.ofNewCallIn "c"] =
      .ok (0, Database.empty.after runWithSeparator) := by decide +kernel
  rw [StoreOperation.fails_insertRecords_iff, hinsert]
  rintro ⟨fault, herror⟩
  exact nomatch herror

end LogDrift
