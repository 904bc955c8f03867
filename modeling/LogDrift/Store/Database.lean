import LogDrift.Report
import LogDrift.Store.Identity

/-! # The database of change records

A database holds up to three tables: the meta table with the schema version, the commits with their
totals, and the logs, one row per record. Every operation is all or nothing: it gives the changed
database, or a fault, and then the database stays as it was.

A log row belongs to a commit row, and no two log rows have the same fingerprint. `insertRecords`
keeps both: a record whose fingerprint is present is passed over, and one whose commit is not
recorded fails the whole insertion. `deleteCommit` takes the log rows of the commit along.
-/

namespace LogDrift

/-- A commit, its parent, and whether it merges branches. -/
structure CommitInfo where
  commitId : String
  parent : Option String
  isMerge : Bool

/-- A row of the commits table. Counts are stored as signed words. -/
structure CommitRow where
  commitId : String
  parent : Option String
  isMerge : Bool
  files : Int64
  added : Int64
  deleted : Int64
  updated : Int64
  churn : Int64
deriving DecidableEq

/-- A row of the logs table. -/
structure LogRow where
  fingerprint : String
  commitId : String
  filePath : String
  method : String
  kindLabel : String
  content : String
  /-- The text before the change, for an update. -/
  contentBefore : Option String
  updateType : Option String
  verbosity : Option String
  severity : Option String
  shape : Option String
  isConsistent : Option Bool
deriving DecidableEq

/-- An index over the logs table. -/
inductive LogIndex where
  | byCommit
  | byKind
  | byFile
deriving DecidableEq, Repr

/-- The meta table: texts by their keys. A text may be null. -/
structure MetaTable where
  rows : List (String × Option String)
deriving DecidableEq

/-- A database. A table that is `none` has not been created. -/
structure Database where
  metaTable : Option MetaTable
  commits : Option (List CommitRow)
  logs : Option (List LogRow)
  indexes : List LogIndex
deriving DecidableEq

namespace CommitRow

/-- A count as a signed word. -/
def toColumn (n : Nat) : Int64 := (UInt64.ofNat n).toInt64

/-- The count that a signed word stands for. -/
def ofColumn (x : Int64) : Nat := x.toUInt64.toNat

/-- Every count of one word is read back as it was written. -/
theorem ofColumn_toColumn {n : Nat} (h : n < UInt64.size) : ofColumn (toColumn n) = n := by
  simpa [ofColumn, toColumn] using Nat.mod_eq_of_lt h

/-- The row of a commit and its totals. -/
def ofSummary (info : CommitInfo) (summary : Summary) : CommitRow where
  commitId := info.commitId
  parent := info.parent
  isMerge := info.isMerge
  files := toColumn summary.files
  added := toColumn summary.added
  deleted := toColumn summary.deleted
  updated := toColumn summary.updated
  churn := toColumn summary.churn

/-- The totals of a commit. -/
def summary (row : CommitRow) : Summary where
  files := ofColumn row.files
  added := ofColumn row.added
  deleted := ofColumn row.deleted
  updated := ofColumn row.updated
  churn := ofColumn row.churn

end CommitRow

namespace MetaTable

/-- The table without a row. -/
def empty : MetaTable := ⟨[]⟩

/-- The key of the schema version. -/
def versionKey : String := "schema_version"

/-- The text of the schema version, which may be missing or null. -/
def version (t : MetaTable) : Option (Option String) := t.rows.lookup versionKey

/-- Replaces the text of a key, or adds it. -/
def putText (key : String) (text : Option String) :
    List (String × Option String) → List (String × Option String)
  | [] => [(key, text)]
  | row :: rows => if row.1 = key then (key, text) :: rows else row :: putText key text rows

/-- Writes the text of the schema version. -/
def withVersion (t : MetaTable) (text : Option String) : MetaTable :=
  ⟨putText versionKey text t.rows⟩

theorem lookup_putText (key : String) (text : Option String)
    (rows : List (String × Option String)) : (putText key text rows).lookup key = some text := by
  induction rows with
  | nil => simp [putText]
  | cons row rows ih =>
    obtain ⟨other, value⟩ := row
    rw [putText]
    split
    · exact List.lookup_cons_self
    · rename_i hother
      rw [List.lookup_cons, beq_eq_false_iff_ne.mpr (Ne.symm hother)]
      exact ih

/-- What is written last is all there is of a key. -/
theorem putText_putText (key : String) (text other : Option String)
    (rows : List (String × Option String)) :
    putText key text (putText key other rows) = putText key text rows := by
  induction rows with
  | nil => simp [putText]
  | cons row rows ih =>
    rw [putText, putText]
    split
    · simp [putText]
    · rename_i hrow
      rw [putText, if_neg hrow, ih]

/-- The rows of all other keys stay. -/
theorem filter_putText (key : String) (text : Option String)
    (rows : List (String × Option String)) :
    (putText key text rows).filter (·.1 ≠ key) = rows.filter (·.1 ≠ key) := by
  induction rows with
  | nil => simp [putText]
  | cons row rows ih =>
    rw [putText]
    split
    · rename_i hrow
      simp [hrow]
    · rw [List.filter_cons, List.filter_cons, ih]

@[simp] theorem version_withVersion (t : MetaTable) (text : Option String) :
    (t.withVersion text).version = some text :=
  lookup_putText versionKey text t.rows

@[simp] theorem withVersion_withVersion (t : MetaTable) (text other : Option String) :
    (t.withVersion other).withVersion text = t.withVersion text :=
  congrArg MetaTable.mk (putText_putText versionKey text other t.rows)

end MetaTable

namespace Database

/-- The database of an empty file. -/
def empty : Database := ⟨none, none, none, []⟩

/-! ## Tables -/

/-- The name of the meta table in messages. -/
def metaName : String := "store_meta"

/-- The name of the commits table in messages. -/
def commitsName : String := "commits"

/-- The name of the logs table in messages. -/
def logsName : String := "logs"

/-- The name of a table within the main database, as messages about dependent objects give it. -/
def mainName (table : String) : String := "main." ++ table

/-- The rows of a table that has been created. -/
def require {α : Type} (name : String) (table : Option α) : Except DatabaseFault α :=
  match table with
  | some rows => .ok rows
  | none => .error (.noSuchTable name)

/-! ## Commits -/

/-- Replaces the row of the same commit, or adds one. -/
def putRow (row : CommitRow) : List CommitRow → List CommitRow
  | [] => [row]
  | r :: rows => if r.commitId = row.commitId then row :: rows else r :: putRow row rows

/-- Records a commit with its totals, in place of what was recorded for it. -/
def recordCommit (db : Database) (info : CommitInfo) (summary : Summary) :
    Except DatabaseFault Database := do
  let rows ← require commitsName db.commits
  return { db with commits := some (putRow (CommitRow.ofSummary info summary) rows) }

/-- The row of a commit. -/
def commit? (db : Database) (commitId : String) : Except DatabaseFault (Option CommitRow) := do
  let rows ← require commitsName db.commits
  return rows.find? (·.commitId = commitId)

/-- The totals of a commit, if it is recorded. -/
def summary? (db : Database) (commitId : String) : Except DatabaseFault (Option Summary) := do
  return (← db.commit? commitId).map CommitRow.summary

/-- Deletes a commit and its log rows; the number of commit rows deleted. -/
def deleteCommit (db : Database) (commitId : String) : Except DatabaseFault (Nat × Database) := do
  let rows ← require commitsName db.commits
  let kept := rows.filter (·.commitId ≠ commitId)
  return (rows.length - kept.length,
    { db with
      commits := some kept
      logs := db.logs.map (·.filter (·.commitId ≠ commitId)) })

/-! ## Logs -/

/-- The row of a record. -/
def logRow (commitId : String) (r : ChangeRecord) : LogRow where
  fingerprint := fingerprint commitId r
  commitId := commitId
  filePath := r.filePath
  method := r.method
  kindLabel := r.kind.label
  content := r.content
  contentBefore := if r.kind = .updated then r.before else none
  updateType := r.updateType
  verbosity := some r.verbosity
  severity := r.severity.map (·.label)
  shape := r.shape.map (·.shapeLabel)
  isConsistent := r.isConsistent

/-- Adds a row, unless its fingerprint is present; whether it was added. The commit of a row that is
    added has to be among the recorded ones. -/
def addRow (commits : List CommitRow) (rows : List LogRow) (row : LogRow) :
    Except DatabaseFault (Bool × List LogRow) :=
  if rows.any (·.fingerprint = row.fingerprint) then .ok (false, rows)
  else if commits.any (·.commitId = row.commitId) then .ok (true, rows ++ [row])
  else .error .foreignKey

/-- Adds rows in order; the number of those added. -/
def addRows (commits : List CommitRow) :
    List LogRow → List LogRow → Except DatabaseFault (Nat × List LogRow)
  | rows, [] => .ok (0, rows)
  | rows, row :: more => do
    let (isNew, rows) ← addRow commits rows row
    let (count, rows) ← addRows commits rows more
    return (if isNew then count + 1 else count, rows)

/-- Inserts the records of a recorded commit that are not present yet; the number inserted. -/
def insertRecords (db : Database) (commitId : String) (records : List ChangeRecord) :
    Except DatabaseFault (Nat × Database) := do
  -- Without records not even the tables have to exist.
  if records.isEmpty then return (0, db)
  let rows ← require logsName db.logs
  let commits ← require (mainName commitsName) db.commits
  let (count, rows) ← addRows commits rows (records.map (logRow commitId))
  return (count, { db with logs := some rows })

/-- The rows of a commit, in the order of insertion. -/
def rowsOf (db : Database) (commitId : String) : Except DatabaseFault (List LogRow) := do
  let rows ← require logsName db.logs
  return rows.filter (·.commitId = commitId)

/-- Gives the rows of a commit that have one kind label another one; the number of those rows. -/
def relabel (db : Database) (commitId old new : String) :
    Except DatabaseFault (Nat × Database) := do
  let rows ← require logsName db.logs
  let isMeant (row : LogRow) : Bool := row.commitId = commitId && row.kindLabel = old
  return (rows.countP isMeant,
    { db with logs := some (rows.map fun row =>
        if isMeant row then { row with kindLabel := new } else row) })

end Database

/-! ## Reading records -/

/-- A record as it is read back. -/
structure StoredRecord where
  filePath : String
  method : String
  kind : ChangeKind
  content : String
  contentBefore : Option String
  updateType : Option String
  verbosity : Option String
  severity : Option String
  shape : Option String
  isConsistent : Option Bool

/-- The record of a row, if the label of its kind is known. -/
def LogRow.stored (row : LogRow) : Except Error StoredRecord :=
  match ChangeKind.ofLabel? row.kindLabel with
  | some kind => .ok {
      filePath := row.filePath
      method := row.method
      kind := kind
      content := row.content
      contentBefore := row.contentBefore
      updateType := row.updateType
      verbosity := row.verbosity
      severity := row.severity
      shape := row.shape
      isConsistent := row.isConsistent }
  | none => .error (.unknownKind row.kindLabel)

namespace Database

/-- The records of a commit, in the order of insertion. The first row of an unknown kind makes the
    whole reading fail. -/
def recordsOf (db : Database) (commitId : String) : Except Error (List StoredRecord) :=
  match db.rowsOf commitId with
  | .error fault => .error (.database fault)
  | .ok rows => rows.mapM LogRow.stored

/-! ## Counting by kind -/

/-- Counts one more row of a label. -/
def countLabel (label : String) : List (String × Nat) → List (String × Nat)
  | [] => [(label, 1)]
  | group :: groups =>
    if group.1 = label then (label, group.2 + 1) :: groups else group :: countLabel label groups

/-- The kind labels of rows, each with the number of its rows. -/
def labelCounts (rows : List LogRow) : List (String × Nat) :=
  rows.foldl (fun groups row => countLabel row.kindLabel groups) []

/-- Enters the count of a label in a table of counts by kind, unless the label is unknown. -/
def enterCount (counts : List (ChangeKind × Nat)) (group : String × Nat) :
    List (ChangeKind × Nat) :=
  match ChangeKind.ofLabel? group.1 with
  | some kind => counts.map fun count => if count.1 = kind then (kind, group.2) else count
  | none => counts

/-- How many rows of a commit each kind has. Rows of an unknown kind are not counted. -/
def countsOf (db : Database) (commitId : String) :
    Except DatabaseFault (List (ChangeKind × Nat)) := do
  let rows ← db.rowsOf commitId
  -- Every kind is listed, also one that has no rows.
  return (labelCounts rows).foldl enterCount (ChangeKind.all.map fun kind => (kind, 0))

end Database

end LogDrift
