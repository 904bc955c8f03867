import LogDrift.Store.Database

/-! # Schema and migration

The schema is made by statements that can be run again (`schemaStatements`) and brought to the
current version by steps of one version each (`migrate`). A step works on a savepoint: it does its
work, writes the new version and gives the savepoint up (`migrationBody`), and if one of these fails
it goes back to the savepoint, so that what the others have done is lost. A migration that fails
keeps the steps before the one that failed. A version that is missing, null or no number of 32 bits
counts as zero.
-/

namespace LogDrift.Database

/-- The version that migration leads to. -/
def schemaVersion : Int := 2

/-- A statement that makes a part of the schema unless it is there. -/
inductive SchemaStatement where
  | createMeta
  | createCommits
  | createLogs
  | createIndex (index : LogIndex)
deriving DecidableEq, Repr

/-- The statements of the schema, in order. -/
def schemaStatements : List SchemaStatement :=
  [.createMeta, .createCommits, .createLogs, .createIndex .byCommit, .createIndex .byKind]

/-- Makes an index over the logs, unless it is there. -/
def createIndex (db : Database) (index : LogIndex) : Except DatabaseFault Database := do
  let _ ← require (mainName logsName) db.logs
  return { db with indexes := db.indexes.insert index }

/-- Runs a statement of the schema. -/
def runStatement (db : Database) : SchemaStatement → Except DatabaseFault Database
  | .createMeta => .ok { db with metaTable := some (db.metaTable.getD .empty) }
  | .createCommits => .ok { db with commits := some (db.commits.getD []) }
  | .createLogs => .ok { db with logs := some (db.logs.getD []) }
  | .createIndex index => db.createIndex index

/-- Runs statements up to the first that fails, whose fault is given with the database before
    it. -/
def runStatements (db : Database) : List SchemaStatement → Database × Option DatabaseFault
  | [] => (db, none)
  | statement :: more =>
    match db.runStatement statement with
    | .ok db => runStatements db more
    | .error fault => (db, some fault)

/-! ## Versions -/

/-- Whether a number fits into 32 bits. -/
def isInt32 (n : Int) : Bool := -2147483648 ≤ n && n ≤ 2147483647

/-- The number that a text writes: decimal digits with a sign in front if wanted, within 32
    bits. -/
def readVersion? (text : String) : Option Int :=
  let (negative, digits) := Decimal.takeSign text.toList
  if !digits.isEmpty && digits.all Char.isDigit then
    let magnitude : Int := Decimal.natOfDigits digits
    let version := if negative then -magnitude else magnitude
    if isInt32 version then some version else none
  else none

/-- A version that was read fits into 32 bits. -/
theorem isInt32_of_readVersion? {text : String} {n : Int} (h : readVersion? text = some n) :
    isInt32 n = true := by
  obtain ⟨-, h⟩ := Option.ite_none_right_eq_some.mp h
  obtain ⟨hfits, hn⟩ := Option.ite_none_right_eq_some.mp h
  obtain rfl := Option.some.inj hn
  exact hfits

/-- A version that fits into 32 bits is read as it was written. -/
theorem readVersion?_toString {n : Int} (h : isInt32 n = true) :
    readVersion? (toString n) = some n := by
  have hdigits (m : Nat) : ∀ c ∈ Nat.toDigits 10 m, c.isDigit = true :=
    fun _ hc => Nat.isDigit_of_mem_toDigits (by decide) (by decide) hc
  -- A number is read from its sign and its digits.
  have hread (negative : Bool) (m : Nat)
      (hsign : Decimal.takeSign (toString n).toList = (negative, Nat.toDigits 10 m))
      (hn : (if negative then -(m : Int) else m) = n) : readVersion? (toString n) = some n := by
    rw [readVersion?, hsign]
    simpa [Decimal.natOfDigits_toDigits, hn, h] using hdigits m
  rw [Int.toString_eq_repr, Int.repr_eq_if] at hread ⊢
  by_cases hneg : 0 ≤ n
  · rw [if_pos hneg] at hread ⊢
    refine hread false n.toNat ?_ (Int.toNat_of_nonneg hneg)
    rw [Nat.toList_repr, Decimal.takeSign_of_isDigit (hdigits _)]
  · rw [if_neg hneg] at hread ⊢
    refine hread true (-n).toNat ?_ (by simp only [if_true]; omega)
    rw [String.toList_append, Nat.toList_repr]
    rfl

/-- The version of the schema; zero if there is none to be read. -/
def version (db : Database) : Int :=
  ((((db.metaTable.bind (·.version)).getD none).bind readVersion?).getD 0)

/-- Writes a text, or null, as the version. -/
def setVersionText (db : Database) (text : Option String) : Except DatabaseFault Database := do
  let table ← require metaName db.metaTable
  return { db with metaTable := some (table.withVersion text) }

/-! ## Savepoints -/

/-- A database in a transaction: as it is, and as it was at each open savepoint, the last one
    first. -/
structure Transaction where
  current : Database
  savepoints : List Database

namespace Transaction

/-- A transaction without savepoints. -/
def begin (db : Database) : Transaction := ⟨db, []⟩

/-- Opens a savepoint. -/
def savepoint (t : Transaction) : Transaction := { t with savepoints := t.current :: t.savepoints }

/-- Gives up the last savepoint, and keeps what was done since. -/
def release (t : Transaction) : Transaction := { t with savepoints := t.savepoints.tail }

/-- Goes back to the last savepoint, which stays open. It is assumed of the database engine that
    nothing of what was done since is left, be it rows or indexes. -/
def rollback (t : Transaction) : Transaction :=
  { t with current := t.savepoints.head?.getD t.current }

/-- Changes the database, or fails and leaves it as it is. -/
def execute (change : Database → Except DatabaseFault Database) (t : Transaction) :
    Except DatabaseFault Transaction := do
  return { t with current := ← change t.current }

/-- Takes actions up to the first that fails, whose fault is given with what the ones before it have
    done. -/
def run (t : Transaction) :
    List (Transaction → Except DatabaseFault Transaction) → Transaction × Option DatabaseFault
  | [] => (t, none)
  | action :: more =>
    match action t with
    | .ok t => t.run more
    | .error fault => (t, some fault)

end Transaction

/-! ## Migration -/

/-- The work of the step to a version: the second one adds the index over file paths. -/
def migrationWork (db : Database) (next : Int) : Except DatabaseFault Database :=
  if next = 2 then db.createIndex .byFile else .ok db

/-- What the step to a version does on its savepoint. -/
def migrationBody (next : Int) : List (Transaction → Except DatabaseFault Transaction) :=
  [Transaction.execute (·.migrationWork next),
    Transaction.execute (·.setVersionText (some (toString next))),
    fun t => .ok t.release]

/-- The step to a version; the fault if it fails. -/
def migrationStep (db : Database) (next : Int) : Database × Option DatabaseFault :=
  match (Transaction.begin db).savepoint.run (migrationBody next) with
  | (t, none) => (t.current, none)
  | (t, some fault) => (t.rollback.release.current, some fault)

/-- The last steps before the current version, as many as given. -/
def migrationSteps : Nat → Database → Database × Option DatabaseFault
  | 0, db => (db, none)
  | n + 1, db =>
    match db.migrationStep (schemaVersion - n) with
    | (db, none) => migrationSteps n db
    | (db, some fault) => (db, some fault)

/-- Brings the schema to the current version, if it is older; the fault if a step fails. -/
def migrate (db : Database) : Database × Option DatabaseFault :=
  migrationSteps (schemaVersion - db.version).toNat db

/-- Makes the schema and brings it to the current version. -/
def initialise (db : Database) : Database × Option DatabaseFault :=
  match db.runStatements schemaStatements with
  | (db, none) => db.migrate
  | failed => failed

end LogDrift.Database
