import LogDrift.Store.Schema

/-! # Databases in a directory

A store is a file in a directory tree. Opening a store makes the directories above it; its file is
made when it is first used. A database is used by an action that may fail and keeps what it changed
before (`Session`).
-/

namespace LogDrift

/-- Actions on a database that may fail. What was changed before a failure stays changed. -/
abbrev Session := ExceptT Error (StateM Database)

namespace Session

/-- Runs an operation that changes the database or fails. -/
def change {α : Type} (f : Database → Except DatabaseFault (α × Database)) : Session α := do
  match f (← get) with
  | .ok (a, db) => set db; return a
  | .error fault => throw (.database fault)

/-- Runs an operation that reads the database or fails. -/
def read {α : Type} (f : Database → Except DatabaseFault α) : Session α :=
  change fun db => (f db).map fun a => (a, db)

/-- Makes the schema and brings it to the current version. -/
def initialise : Session Unit := do
  let (db, fault) := (← get).initialise
  set db
  match fault with
  | some fault => throw (.database fault)
  | none => return

/-- Records a commit with its totals. -/
def recordCommit (info : CommitInfo) (summary : Summary) : Session Unit :=
  change fun db => (db.recordCommit info summary).map fun db => ((), db)

/-- Inserts the records of a commit; the number inserted. -/
def insertRecords (commitId : String) (records : List ChangeRecord) : Session Nat :=
  change fun db => db.insertRecords commitId records

/-- The records of a commit, in the order of insertion. -/
def records (commitId : String) : Session (List StoredRecord) := do
  match (← get).recordsOf commitId with
  | .ok records => return records
  | .error e => throw e

/-- Records a commit with the totals of its reports, and inserts the records of each; the numbers
    inserted. -/
def storeReports (commitId : String) (reports : List Report) : Session (List Nat) := do
  recordCommit ⟨commitId, none, false⟩ (Summary.ofReports reports)
  reports.mapM fun report => insertRecords commitId report.records

end Session

/-! ## Directories -/

/-- A place in a directory tree, by the names on the way to it. -/
abbrev Place := List String

/-- The place that a path leads to. -/
def placeOf (path : String) : Place :=
  ((Text.fields (· = '/') path.toList).map String.ofList).filter (· ≠ ".")

/-- A directory tree of databases. -/
structure Directory where
  /-- The name of the top directory in messages. -/
  root : String
  directories : List Place
  files : List (Place × Database)

namespace Directory

def empty (root : String) : Directory := ⟨root, [], []⟩

def isDirectory (d : Directory) (p : Place) : Bool := p.isEmpty || d.directories.contains p

def file? (d : Directory) (p : Place) : Option Database := (d.files.find? (·.1 = p)).map (·.2)

def isFile (d : Directory) (p : Place) : Bool := (d.file? p).isSome

/-- Whether there is anything at a place. -/
def has (d : Directory) (p : Place) : Bool := d.isDirectory p || d.isFile p

/-- Puts a file at a place, over what is there. -/
def put (d : Directory) (p : Place) (db : Database) : Directory :=
  { d with files := (p, db) :: d.files.filter (·.1 ≠ p) }

/-- The places on the way to a place, the place included. -/
def wayTo (p : Place) : List Place := (List.range p.length).map fun n => p.take (n + 1)

/-- Makes a directory and all above it. A file in the way is a fault: at the place itself because it
    exists, above it because it is no directory. -/
def makeDirectories (d : Directory) (p : Place) : Except FileFault Directory :=
  match (wayTo p).find? d.isFile with
  | some inTheWay => .error (if inTheWay = p then .exists else .notDirectory)
  | none => .ok { d with directories := d.directories ++ (wayTo p).filter fun q =>
      !d.directories.contains q }

/-- Writes an empty file, whose directory has to exist. -/
def touch (d : Directory) (path : String) : Except FileFault Directory :=
  let p := placeOf path
  if d.isDirectory p then .error .isDirectory
  else if (wayTo p.dropLast).any d.isFile then .error .notDirectory
  else if !d.isDirectory p.dropLast then .error .notFound
  else .ok (d.put p Database.empty)

/-- Makes the directories above a store; whether there is anything at its own place. -/
def openStore (d : Directory) (path : String) : Except FileFault (Bool × Directory) := do
  let d ← d.makeDirectories (placeOf path).dropLast
  return (d.has (placeOf path), d)

/-- Runs an action on the database at a path, which is empty if there is none yet. -/
def use {α : Type} (d : Directory) (path : String) (action : Session α) :
    Except Error α × Directory :=
  let p := placeOf path
  if d.isDirectory p then
    (.error (.database (.cannotOpen (d.root ++ "/" ++ path))), d)
  else
    let (result, db) := action.run.run ((d.file? p).getD Database.empty)
    (result, d.put p db)

/-- Inserts the records of a commit into the database at a path. Without records there is nothing to
    do, and the database is not even looked for. -/
def insertRecords (d : Directory) (path commitId : String) (records : List ChangeRecord) :
    Except Error Nat × Directory :=
  if records.isEmpty then (.ok 0, d) else d.use path (Session.insertRecords commitId records)

end Directory

end LogDrift
