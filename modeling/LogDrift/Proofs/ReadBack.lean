import Mathlib.Data.List.Induction
import LogDrift.Proofs.RecordShapes
import LogDrift.Proofs.StoreRun

/-!
# Reading back what was inserted

A store keeps of every commit the records that were inserted since it was last deleted, each identity
once, in the order in which the identities came first (`Follows`). That is so as long as the
fingerprints tell the records of the run apart (`TellsApart`): nothing else is compared when records
are inserted.

## Key results

- `follows_after`: a run leaves the rows of the records that were inserted
- `Follows.commit?_eq`, `Follows.recordsOf_eq`: what is read back
- `Follows.insertRecords_eq`: how many records an insertion adds
- `Follows.insertRecords_again`: records that were inserted are not inserted again
- `StoredRecord.before_ofRecord`, `StoredRecord.after_ofRecord`: the texts of a record are read back
-/

namespace LogDrift

/-! ## Identities -/

/-- What tells the records of all commits apart. -/
structure RecordIdentity where
  commitId : String
  filePath : String
  method : String
  kind : ChangeKind
  before : Option String
  after : Option String
deriving DecidableEq

/-- The identity of a record of a commit. -/
def ChangeRecord.identity (commitId : String) (r : ChangeRecord) : RecordIdentity :=
  ⟨commitId, r.filePath, r.method, r.kind, r.before, r.after⟩

/-- Records with one identity have one fingerprint. -/
theorem fingerprint_eq_of_identity {commitId : String} {r r' : ChangeRecord}
    (h : r.identity commitId = r'.identity commitId) :
    fingerprint commitId r = fingerprint commitId r' := by
  simp only [ChangeRecord.identity, RecordIdentity.mk.injEq, true_and] at h
  obtain ⟨hpath, hmethod, hkind, hbefore, hafter⟩ := h
  simp only [fingerprint, identityBytes, identityParts, hpath, hmethod, hkind, hbefore, hafter]

/-- The records that are to be inserted in a run, with their commits. -/
def insertions (ops : List StoreOperation) : List (String × ChangeRecord) :=
  ops.flatMap fun
    | .insertRecords commitId records => records.map fun r => (commitId, r)
    | _ => []

theorem insertions_append (ops more : List StoreOperation) :
    insertions (ops ++ more) = insertions ops ++ insertions more := List.flatMap_append

/-- More operations take nothing back that was to be inserted. -/
theorem mem_insertions_append {p : String × ChangeRecord} {ops more : List StoreOperation}
    (hp : p ∈ insertions ops) : p ∈ insertions (ops ++ more) := by
  rw [insertions_append]
  exact List.mem_append_left _ hp

/-- What the last operation is to insert is among the insertions. -/
theorem mem_insertions_concat {commitId : String} {ops : List StoreOperation}
    {records : List ChangeRecord} {r : ChangeRecord} (hr : r ∈ records) :
    (commitId, r) ∈ insertions (ops ++ [.insertRecords commitId records]) := by
  rw [insertions_append]
  exact List.mem_append_right _ (List.mem_append_left _ (List.mem_map_of_mem hr))

/-- The fingerprints tell the records of a run apart. -/
def TellsApart (ops : List StoreOperation) : Prop :=
  ∀ p ∈ insertions ops, ∀ q ∈ insertions ops,
    fingerprint p.1 p.2 = fingerprint q.1 q.2 → p.2.identity p.1 = q.2.identity q.1

instance (ops : List StoreOperation) : Decidable (TellsApart ops) :=
  inferInstanceAs (Decidable (∀ p ∈ insertions ops, ∀ q ∈ insertions ops,
    fingerprint p.1 p.2 = fingerprint q.1 q.2 → p.2.identity p.1 = q.2.identity q.1))

/-- What tells the records of a run apart tells those of its first operations apart. -/
theorem TellsApart.of_append {ops more : List StoreOperation} (h : TellsApart (ops ++ more)) :
    TellsApart ops := by
  intro p hp q hq
  exact h p (mem_insertions_append hp) q (mem_insertions_append hq)

/-! ## The history of a commit -/

/-- What a run has done for one commit: how it was recorded, and which records were inserted for
    it, both since it was last deleted. -/
structure CommitHistory where
  row : Option CommitRow
  records : List ChangeRecord

namespace CommitHistory

/-- Whether the commit is recorded. -/
def recorded (h : CommitHistory) : Bool := h.row.isSome

/-- What an operation does for a commit. Records of a commit that is not recorded are refused. -/
def step (commitId : String) (h : CommitHistory) : StoreOperation → CommitHistory
  | .initialise => h
  | .recordCommit info summary =>
    if info.commitId = commitId then { h with row := some (.ofSummary info summary) } else h
  | .insertRecords other records =>
    if other = commitId ∧ h.recorded then { h with records := h.records ++ records } else h
  | .deleteCommit other => if other = commitId then ⟨none, []⟩ else h

/-- The history of a commit in a run. -/
def of (commitId : String) (ops : List StoreOperation) : CommitHistory :=
  ops.foldl (step commitId) ⟨none, []⟩

theorem of_concat (commitId : String) (ops : List StoreOperation) (op : StoreOperation) :
    of commitId (ops ++ [op]) = step commitId (of commitId ops) op := List.foldl_append

/-- Every record in the history of a commit was to be inserted in the run. -/
theorem mem_insertions {commitId : String} {ops : List StoreOperation} {r : ChangeRecord}
    (hr : r ∈ (of commitId ops).records) : (commitId, r) ∈ insertions ops := by
  -- On the run, from its last operation: what this one leaves of the history was there before, or
  -- was inserted with it.
  induction ops using List.reverseRecOn with
  | nil => exact nomatch hr
  | append_singleton ops op ih =>
    rw [of_concat] at hr
    cases op with
    | initialise => exact mem_insertions_append (ih hr)
    | recordCommit info summary =>
      rw [step] at hr
      split at hr <;> exact mem_insertions_append (ih hr)
    | insertRecords other records =>
      rw [step] at hr
      split at hr
      · rename_i hsame
        obtain ⟨rfl, -⟩ := hsame
        rcases List.mem_append.mp hr with hold | hnew
        · exact mem_insertions_append (ih hold)
        · exact mem_insertions_concat hnew
      · exact mem_insertions_append (ih hr)
    | deleteCommit other =>
      rw [step] at hr
      split at hr
      · exact nomatch hr
      · exact mem_insertions_append (ih hr)

end CommitHistory

/-! ## Reading a row -/

namespace StoredRecord

/-- What is stored of a record. -/
def ofRecord (r : ChangeRecord) : StoredRecord where
  filePath := r.filePath
  method := r.method
  kind := r.kind
  content := r.content
  contentBefore := if r.kind = .updated then r.before else none
  updateType := r.updateType
  verbosity := some r.verbosity
  severity := r.severity.map (·.label)
  shape := r.shape.map (·.shapeLabel)
  isConsistent := r.isConsistent

/-- The text before the change: that of an update is stored apart, and that of a call that is gone
    is its content. -/
def before (r : StoredRecord) : Option String :=
  if r.kind = .updated then r.contentBefore else if r.kind.isDeleted then some r.content else none

/-- The text after the change. -/
def after (r : StoredRecord) : Option String :=
  if r.kind.isDeleted then none else some r.content

/-- The text before the change is read back. -/
theorem before_ofRecord {r : ChangeRecord} (h : r.HasSides) :
    (ofRecord r).before = r.before := by
  obtain ⟨hbefore, hafter⟩ := h
  rcases r.kind.isDeleted_or_isAdded_or_updated with hkind | hkind | hkind
  · -- Of a call that is gone, the content is the text before the change.
    have hne := (ChangeKind.ne_of_isDeleted hkind.1).2.1
    obtain ⟨text, htext⟩ := Option.isSome_iff_exists.mp (hbefore.trans (by simp [hkind]))
    have hnone : r.after = none := by simpa [hkind] using hafter
    simp [StoredRecord.before, ofRecord, ChangeRecord.content, hne, hkind, htext, hnone]
  · have hne := (ChangeKind.ne_of_isAdded hkind.1).2.1
    have hnone : r.before = none := by simpa [hkind] using hbefore
    simp [StoredRecord.before, ofRecord, hne, hkind, hnone]
  · simp [StoredRecord.before, ofRecord, hkind]

/-- The text after the change is read back. -/
theorem after_ofRecord {r : ChangeRecord} (h : r.HasSides) : (ofRecord r).after = r.after := by
  have hafter := h.2
  cases hdeleted : r.kind.isDeleted with
  | true =>
    have hnone : r.after = none := by simpa [hdeleted] using hafter
    simp [StoredRecord.after, ofRecord, hdeleted, hnone]
  | false =>
    obtain ⟨text, htext⟩ := Option.isSome_iff_exists.mp (hafter.trans (by simp [hdeleted]))
    simp [StoredRecord.after, ofRecord, ChangeRecord.content, hdeleted, htext]

end StoredRecord

/-- The row of a record is read as what is stored of the record. -/
private theorem stored_logRow (commitId : String) (r : ChangeRecord) :
    (Database.logRow commitId r).stored = .ok (StoredRecord.ofRecord r) := by
  rw [LogRow.stored, Database.logRow, ChangeKind.ofLabel?_label]
  rfl

/-- So are the rows of all records, and none of them is refused. -/
private theorem mapM_stored (commitId : String) (records : List ChangeRecord) :
    (records.map (Database.logRow commitId)).mapM LogRow.stored =
      .ok (records.map StoredRecord.ofRecord) := by
  induction records with
  | nil => rfl
  | cons r records ih =>
    rw [List.map_cons, List.mapM_cons, stored_logRow, ih]
    rfl

namespace Database

/-- The rows of one commit stay when those of another one are left out. -/
private theorem filter_filter_ne {α : Type} (key : α → String) {commitId other : String}
    (h : commitId ≠ other) (rows : List α) :
    (rows.filter (key · ≠ commitId)).filter (key · = other) = rows.filter (key · = other) := by
  rw [List.filter_filter]
  apply List.filter_congr
  intro row _
  by_cases hrow : key row = other
  · simp [hrow, Ne.symm h]
  · simp [hrow]

/-- The rows of a database are those of the records that a run has inserted. -/
structure Follows (db : Database) (ops : List StoreOperation) (commits : List CommitRow)
    (logs : List LogRow) : Prop extends db.Has commits logs where
  found : ∀ commitId,
    commits.find? (·.commitId = commitId) = (CommitHistory.of commitId ops).row
  rows : ∀ commitId, logs.filter (·.commitId = commitId) =
    (firstOfEach (ChangeRecord.identity commitId) (CommitHistory.of commitId ops).records).map
      (logRow commitId)

namespace Follows

variable {db : Database} {ops : List StoreOperation} {commits : List CommitRow}
  {logs : List LogRow} (h : db.Follows ops commits logs)

include h

/-- A commit has a row if and only if the run has recorded it. -/
theorem recorded (commitId : String) :
    commits.any (·.commitId = commitId) = (CommitHistory.of commitId ops).recorded := by
  rw [CommitHistory.recorded, ← h.found, List.isSome_find?]

/-- Every row is that of a record of its commit. -/
private theorem exists_record_of_mem {row : LogRow} (hrow : row ∈ logs) :
    ∃ commitId, ∃ r ∈ (CommitHistory.of commitId ops).records, row = logRow commitId r := by
  have hmem : row ∈ logs.filter (·.commitId = row.commitId) :=
    List.mem_filter.mpr ⟨hrow, decide_eq_true rfl⟩
  rw [h.rows] at hmem
  obtain ⟨r, hr, heq⟩ := List.mem_map.mp hmem
  exact ⟨row.commitId, r, (firstOfEach_sublist _ _).mem hr, heq.symm⟩

/-- A fingerprint is there if and only if the identity is. -/
private theorem any_fingerprint {commitId : String} {records : List ChangeRecord}
    (happart : TellsApart (ops ++ [.insertRecords commitId records])) {r : ChangeRecord}
    (hr : r ∈ records) :
    logs.any (·.fingerprint = fingerprint commitId r) = true ↔
      r.identity commitId ∈
        (CommitHistory.of commitId ops).records.map (ChangeRecord.identity commitId) := by
  constructor
  · -- A row with the fingerprint is one of a record with the identity, as fingerprints tell records
    -- apart.
    intro hany
    obtain ⟨row, hrow, hsame⟩ := List.any_eq_true.mp hany
    obtain ⟨other, r', hr', rfl⟩ := h.exists_record_of_mem hrow
    have hidentity := happart (other, r')
      (mem_insertions_append (CommitHistory.mem_insertions hr')) (commitId, r)
      (mem_insertions_concat hr) (of_decide_eq_true hsame)
    obtain rfl : other = commitId := congrArg RecordIdentity.commitId hidentity
    exact List.mem_map.mpr ⟨r', hr', hidentity⟩
  · -- The first record with the identity has a row, and the same fingerprint.
    intro hmem
    obtain ⟨r', hr', hidentity⟩ := List.mem_map.mp
      ((mem_map_firstOfEach (ChangeRecord.identity commitId)).mpr hmem)
    have hrow : logRow commitId r' ∈ logs.filter (·.commitId = commitId) := by
      rw [h.rows]
      exact List.mem_map_of_mem hr'
    exact List.any_eq_true.mpr ⟨_, (List.mem_filter.mp hrow).1,
      decide_eq_true (fingerprint_eq_of_identity hidentity)⟩

/-- The new rows are those of the records with new identities. -/
private theorem newRows_eq {commitId : String} {records : List ChangeRecord}
    (happart : TellsApart (ops ++ [.insertRecords commitId records])) :
    newRows logs (records.map (logRow commitId)) =
      ((firstOfEach (ChangeRecord.identity commitId) records).filter fun r =>
        r.identity commitId ∉
          (CommitHistory.of commitId ops).records.map (ChangeRecord.identity commitId)).map
        (logRow commitId) := by
  -- Among the records to be inserted, fingerprints and identities tell the same ones apart.
  have hkey : ∀ r ∈ records, ∀ r' ∈ records,
      (logRow commitId r).fingerprint = (logRow commitId r').fingerprint ↔
        r.identity commitId = r'.identity commitId := by
    intro r hr r' hr'
    exact ⟨happart (commitId, r) (mem_insertions_concat hr) (commitId, r')
      (mem_insertions_concat hr'), fingerprint_eq_of_identity⟩
  have hfirst := firstOfEach_map (logRow commitId) (ChangeRecord.identity commitId)
    LogRow.fingerprint hkey
  rw [newRows, hfirst, List.filter_map]
  congr 1
  apply List.filter_congr
  intro r hr
  have hany := h.any_fingerprint happart ((firstOfEach_sublist _ _).mem hr)
  rw [Bool.eq_iff_iff, Function.comp_apply, Bool.not_eq_true', ← Bool.not_eq_true,
    decide_eq_true_iff, not_iff_not]
  exact hany

/-! ### What one operation does -/

/-- Initialising the store again changes no history and no row. -/
theorem initialise : (StoreOperation.initialise.apply db).Follows (ops ++ [.initialise]) commits
    logs := by
  refine ⟨h.toHas.initialise, ?_, ?_⟩
  · intro commitId
    rw [CommitHistory.of_concat]
    exact h.found commitId
  · intro commitId
    rw [CommitHistory.of_concat]
    exact h.rows commitId

/-- Recording a commit changes its row only. -/
theorem recordCommit (info : CommitInfo) (summary : Summary) :
    ((StoreOperation.recordCommit info summary).apply db).Follows
      (ops ++ [.recordCommit info summary])
      (putRow (CommitRow.ofSummary info summary) commits) logs := by
  refine ⟨h.toHas.recordCommit info summary, ?_, ?_⟩
  · intro commitId
    rw [find?_putRow, h.found, CommitHistory.of_concat, CommitHistory.step]
    -- The row is put in place for this commit, and looked up as before for any other one.
    change (if info.commitId = commitId then _ else _) = _
    split <;> rfl
  · intro commitId
    rw [h.rows, CommitHistory.of_concat, CommitHistory.step]
    split <;> rfl

/-- Deleting a commit takes its row and its records out of the database, and out of its history. -/
theorem deleteCommit (commitId : String) :
    ((StoreOperation.deleteCommit commitId).apply db).Follows (ops ++ [.deleteCommit commitId])
      (commits.filter (·.commitId ≠ commitId)) (logs.filter (·.commitId ≠ commitId)) := by
  refine ⟨h.toHas.deleteCommit commitId, ?_, ?_⟩
  · -- Of the deleted commit nothing is left, and of another one everything.
    intro other
    rw [CommitHistory.of_concat, CommitHistory.step]
    split
    · rename_i hsame
      obtain rfl := hsame
      simp [List.find?_filter]
    · rename_i hother
      rw [← List.head?_filter, filter_filter_ne CommitRow.commitId hother, List.head?_filter]
      exact h.found other
  · intro other
    rw [CommitHistory.of_concat, CommitHistory.step]
    split
    · rename_i hsame
      obtain rfl := hsame
      simp [List.filter_filter, firstOfEach]
    · rename_i hother
      rw [filter_filter_ne LogRow.commitId hother]
      exact h.rows other

/-- Records of a commit that is not recorded are refused, and are in no history. -/
theorem insertRecords_not_recorded {commitId : String}
    (hrecorded : (CommitHistory.of commitId ops).recorded = false) (records : List ChangeRecord) :
    ((StoreOperation.insertRecords commitId records).apply db).Follows
      (ops ++ [.insertRecords commitId records]) commits logs := by
  -- The records are refused, so the histories are those from before.
  have hstep (other : String) :
      CommitHistory.of other (ops ++ [.insertRecords commitId records]) =
        CommitHistory.of other ops := by
    rw [CommitHistory.of_concat, CommitHistory.step, if_neg]
    rintro ⟨rfl, hother⟩
    exact Bool.false_ne_true (hrecorded.symm.trans hother)
  refine ⟨h.toHas.insertRecords_not_recorded ((h.recorded commitId).trans hrecorded) records,
    ?_, ?_⟩
  · intro other
    rw [hstep, h.found]
  · intro other
    rw [hstep, h.rows]

/-- The rows of a recorded commit get those of the records with new identities. -/
theorem insertRecords {commitId : String}
    (hrecorded : (CommitHistory.of commitId ops).recorded = true) {records : List ChangeRecord}
    (happart : TellsApart (ops ++ [.insertRecords commitId records])) :
    ((StoreOperation.insertRecords commitId records).apply db).Follows
      (ops ++ [.insertRecords commitId records]) commits
      (logs ++ newRows logs (records.map (logRow commitId))) := by
  refine ⟨h.toHas.insertRecords ((h.recorded commitId).trans hrecorded) records, ?_, ?_⟩
  · intro other
    rw [h.found, CommitHistory.of_concat, CommitHistory.step]
    split <;> rfl
  · intro other
    rw [List.filter_append, h.rows, CommitHistory.of_concat, CommitHistory.step,
      h.newRows_eq happart]
    split
    · -- The new rows are all of this commit, and come after those that were there.
      rename_i hsame
      obtain ⟨rfl, -⟩ := hsame
      rw [firstOfEach_append, List.map_append, List.append_cancel_left_eq, List.filter_eq_self]
      intro row hrow
      exact decide_eq_true (commitId_of_mem_logRows hrow)
    · -- None of the new rows is of another commit.
      rename_i hother
      rw [List.filter_eq_nil_iff.mpr, List.append_nil]
      intro row hrow hsame
      obtain rfl : commitId = other :=
        (commitId_of_mem_logRows hrow).symm.trans (of_decide_eq_true hsame)
      exact hother ⟨rfl, hrecorded⟩

end Follows

/-- An operation leaves the rows of the records that were inserted with it. -/
theorem Follows.apply {db : Database} {ops : List StoreOperation} {commits : List CommitRow}
    {logs : List LogRow} (h : db.Follows ops commits logs) {op : StoreOperation}
    (happart : TellsApart (ops ++ [op])) :
    ∃ commits logs, (op.apply db).Follows (ops ++ [op]) commits logs := by
  cases op with
  | initialise => exact ⟨_, _, h.initialise⟩
  | recordCommit info summary => exact ⟨_, _, h.recordCommit info summary⟩
  | deleteCommit commitId => exact ⟨_, _, h.deleteCommit commitId⟩
  | insertRecords commitId records =>
    cases hrecorded : (CommitHistory.of commitId ops).recorded with
    | true => exact ⟨_, _, h.insertRecords hrecorded happart⟩
    | false => exact ⟨_, _, h.insertRecords_not_recorded hrecorded records⟩

/-- After a run the rows are those of the records that it inserted. -/
theorem follows_after (ops : List StoreOperation) (happart : TellsApart ops) :
    ∃ commits logs, (initialised.after ops).Follows ops commits logs := by
  -- Operation by operation. The fingerprints of the first ones are told apart as well.
  induction ops using List.reverseRecOn with
  | nil => exact ⟨[], [], has_initialised, fun _ => rfl, fun _ => rfl⟩
  | append_singleton ops op ih =>
    obtain ⟨commits, logs, h⟩ := ih happart.of_append
    rw [after_concat]
    exact h.apply happart

/-! ## What is read -/

namespace Follows

variable {db : Database} {ops : List StoreOperation} {commits : List CommitRow}
  {logs : List LogRow} (h : db.Follows ops commits logs)

include h

/-- The rows of a commit are those of the first record of each identity, in order. -/
theorem rowsOf_eq (commitId : String) :
    db.rowsOf commitId = .ok ((firstOfEach (ChangeRecord.identity commitId)
      (CommitHistory.of commitId ops).records).map (logRow commitId)) := by
  rw [Database.rowsOf, h.logs_eq, ← h.rows]
  rfl

/-- The records of a commit are read back: the first one of each identity, in order. -/
theorem recordsOf_eq (commitId : String) :
    db.recordsOf commitId = .ok ((firstOfEach (ChangeRecord.identity commitId)
      (CommitHistory.of commitId ops).records).map StoredRecord.ofRecord) := by
  rw [Database.recordsOf, h.rowsOf_eq]
  exact mapM_stored commitId _

/-- A commit is read back as it was last recorded. -/
theorem commit?_eq (commitId : String) :
    db.commit? commitId = .ok (CommitHistory.of commitId ops).row := by
  rw [Database.commit?, h.commits_eq, ← h.found]
  rfl

/-- An insertion for a recorded commit adds as many records as there are new identities. -/
theorem insertRecords_eq {commitId : String}
    (hrecorded : (CommitHistory.of commitId ops).recorded = true) {records : List ChangeRecord}
    (happart : TellsApart (ops ++ [.insertRecords commitId records])) :
    db.insertRecords commitId records =
      .ok (((records.map (ChangeRecord.identity commitId)).toFinset \
        ((CommitHistory.of commitId ops).records.map (ChangeRecord.identity commitId)).toFinset).card,
        (StoreOperation.insertRecords commitId records).apply db) := by
  have hinsert := h.toHas.insertRecords_eq ((h.recorded commitId).trans hrecorded) records
  rw [StoreOperation.apply_insertRecords_of_ok hinsert, hinsert, h.newRows_eq happart,
    List.length_map, length_filter_firstOfEach]

/-- An insertion of records that were inserted adds none, and leaves the database as it was. -/
theorem insertRecords_again {commitId : String}
    (hrecorded : (CommitHistory.of commitId ops).recorded = true) {records : List ChangeRecord}
    (happart : TellsApart (ops ++ [.insertRecords commitId records]))
    (hsub : records ⊆ (CommitHistory.of commitId ops).records) :
    db.insertRecords commitId records = .ok (0, db) := by
  have hnone : newRows logs (records.map (logRow commitId)) = [] := by
    rw [h.newRows_eq happart, List.map_eq_nil_iff, List.filter_eq_nil_iff]
    intro r hr hnew
    have hold := List.mem_map_of_mem (f := ChangeRecord.identity commitId)
      (hsub ((firstOfEach_sublist _ _).mem hr))
    exact of_decide_eq_true hnew hold
  have hinsert := h.toHas.insertRecords_eq ((h.recorded commitId).trans hrecorded) records
  rw [hnone, List.append_nil, ← h.logs_eq] at hinsert
  exact hinsert

end Follows

end Database

/-- A store reads back what was inserted. After every run, a commit is there as it was recorded since
    it was last deleted, and what is read back of it are the first records of each identity that were
    inserted since, in order. An insertion for a commit that is recorded adds as many records as it
    has new identities. It may be made in several parts, and adds nothing if the records were
    inserted before. Of a record with the sides of its kind, as a
    report has them, what is stored tells the texts before and after the change. -/
theorem store_reads_back_records (ops : List StoreOperation) (commitId : String)
    (records : List ChangeRecord)
    (happart : TellsApart (ops ++ [.insertRecords commitId records])) :
    let db := Database.initialised.after ops
    let history := CommitHistory.of commitId ops
    db.commit? commitId = .ok history.row ∧
    db.recordsOf commitId = .ok ((firstOfEach (ChangeRecord.identity commitId)
      history.records).map StoredRecord.ofRecord) ∧
    (history.recorded = true → db.insertRecords commitId records =
      .ok (((records.map (ChangeRecord.identity commitId)).toFinset \
          (history.records.map (ChangeRecord.identity commitId)).toFinset).card,
        db.after [.insertRecords commitId records])) ∧
    (∀ parts, parts.flatten = records →
      db.insertParts commitId parts = db.insertRecords commitId records) ∧
    (history.recorded = true → records ⊆ history.records →
      db.insertRecords commitId records = .ok (0, db)) ∧
    (∀ s change report, Report.ofFile s change = .ok report → ∀ r ∈ report.records, r.HasSides) ∧
    ∀ r r' : ChangeRecord, r.HasSides → r'.HasSides →
      (StoredRecord.ofRecord r).kind = (StoredRecord.ofRecord r').kind →
      (StoredRecord.ofRecord r).content = (StoredRecord.ofRecord r').content →
      (StoredRecord.ofRecord r).contentBefore = (StoredRecord.ofRecord r').contentBefore →
      r.before = r'.before ∧ r.after = r'.after := by
  intro db history
  obtain ⟨commits, logs, hfollows⟩ := Database.follows_after ops happart.of_append
  refine ⟨hfollows.commit?_eq commitId, hfollows.recordsOf_eq commitId,
    fun hrecorded => hfollows.insertRecords_eq hrecorded happart, ?_,
    fun hrecorded => hfollows.insertRecords_again hrecorded happart, ?_, ?_⟩
  · rintro parts rfl
    exact hfollows.toHas.insertParts_eq commitId parts
  · intro s change report hreport r hr
    exact (Report.ofFile_wellFormed hreport r hr).hasSides
  · -- The texts are read from kind and content alone.
    intro r r' hr hr' hkind hcontent hbefore
    rw [← StoredRecord.before_ofRecord hr, ← StoredRecord.before_ofRecord hr',
      ← StoredRecord.after_ofRecord hr, ← StoredRecord.after_ofRecord hr']
    simp only [StoredRecord.before, StoredRecord.after, hkind, hcontent, hbefore, and_self]

/-- A call that is new in a method. -/
def ChangeRecord.ofNewCall : ChangeRecord :=
  ⟨"A.java", "run()", .addedInsideMethod, none, some "Log.d(x)", "d", none, none, none, none, none⟩

/-- The same call, now logging another variable. -/
def ChangeRecord.ofChangedCall : ChangeRecord :=
  ⟨"A.java", "run()", .updated, some "Log.d(x)", some "Log.d(y)", "d", none, none, none, none, none⟩

/-- A commit that is recorded twice, with a deletion in between. -/
def recordedAgain : List StoreOperation :=
  [.recordCommit ⟨"c1", none, false⟩ ⟨1, 1, 0, 0, 1⟩, .insertRecords "c1" [.ofNewCall, .ofNewCall],
    .deleteCommit "c1", .initialise, .recordCommit ⟨"c1", none, false⟩ ⟨1, 0, 0, 1, 2⟩,
    .insertRecords "c1" [.ofChangedCall, .ofChangedCall]]

/-- What was inserted before the deletion counts as new again. -/
theorem store_reads_back_records_of_recordedAgain :
    TellsApart (recordedAgain ++
      [.insertRecords "c1" [.ofNewCall, .ofChangedCall, .ofNewCall]]) ∧
    (Database.initialised.after recordedAgain).recordsOf "c1" =
      .ok [StoredRecord.ofRecord .ofChangedCall] ∧
    (Database.initialised.after recordedAgain).insertParts "c1"
        [[.ofNewCall], [.ofChangedCall, .ofNewCall]] =
      .ok (1, (Database.initialised.after recordedAgain).after
        [.insertRecords "c1" [.ofNewCall, .ofChangedCall, .ofNewCall]]) := by
  have happart : TellsApart (recordedAgain ++
      [.insertRecords "c1" [.ofNewCall, .ofChangedCall, .ofNewCall]]) := by decide +kernel
  obtain ⟨-, hread, hinsert, hparts, -⟩ := store_reads_back_records recordedAgain "c1"
    [.ofNewCall, .ofChangedCall, .ofNewCall] happart
  refine ⟨happart, hread.trans (congrArg Except.ok ?_), (hparts _ rfl).trans ((hinsert ?_).trans ?_)⟩
  · rfl
  · rfl
  · rfl

end LogDrift
