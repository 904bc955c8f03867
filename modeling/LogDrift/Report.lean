import LogDrift.Change.Record
import LogDrift.Change.UnifiedDiff
import LogDrift.Matching.Calls
import LogDrift.Matching.Methods
import LogDrift.Settings

/-! # Reports

What became of the logging calls of a file between two versions. Methods are matched first; the
sites of two matched methods are matched in turn (`compareSites`), and all sites of a method, or of
a file, that only one version has came or went with it. `Report.ofFile` reports one file,
`Report.ofFiles` many, and `Summary.ofReports` adds the reports of a commit up.
-/

namespace LogDrift

/-- One version of a file. -/
structure FileVersion where
  path : String
  methods : List Method

/-- Two versions of a file. One of them is missing if the file came or went. -/
structure FileChange where
  old : Option FileVersion
  new : Option FileVersion
  /-- The unified diff of the two versions, if it is known. -/
  unifiedDiff : Option String

/-- What became of the logging calls of a file. -/
structure Report where
  path : String
  records : List ChangeRecord
  /-- The full signatures of the methods that only the new version has. -/
  addedMethods : List String
  /-- The full signatures of the methods that only the old version has. -/
  deletedMethods : List String

namespace Report

/-- The number of calls that are new. -/
def added (r : Report) : Nat := r.records.countP (·.kind.isAdded)

/-- The number of calls that are gone. -/
def deleted (r : Report) : Nat := r.records.countP (·.kind.isDeleted)

/-- The number of calls that were updated. -/
def updated (r : Report) : Nat := r.records.countP (·.kind = .updated)

end Report

/-- The changes between the sites of two versions of a method: first the sites that are gone, then
    those that are new, then those that were updated, each in the order of the text. Matched sites
    of equal text are no change. -/
def compareSites (s : Settings) (oldPath newPath method : String) (old new : List CallSite)
    (added : Option (List (List Char))) : List ChangeRecord :=
  let matching := matchCalls (exceeds s.threshold) old new
  matching.unmatchedOld.filterMap (fun i =>
      old[i]?.map (ChangeRecord.ofSite oldPath method .deletedInsideMethod))
    ++ matching.unmatchedNew.filterMap (fun j =>
      new[j]?.map (ChangeRecord.ofSite newPath method .addedInsideMethod))
    ++ (matching.updated old new).filterMap (fun pair =>
      (old[pair.old]?).bind fun before => (new[pair.new]?).map fun after =>
        ChangeRecord.ofUpdate newPath method added before after)

/-- The changes between two versions of a method, which is known by its new signature. -/
def compareMethods (s : Settings) (oldPath newPath : String) (old new : Method)
    (added : Option (List (List Char))) : List ChangeRecord :=
  compareSites s oldPath newPath new.fullSignature old.callSites new.callSites added

/-- The records of all sites of a method that came or went as a whole. -/
def recordsOfMethod (path : String) (kind : ChangeKind) (m : Method) : List ChangeRecord :=
  m.callSites.map (ChangeRecord.ofSite path m.fullSignature kind)

/-- The records of all sites of a file that came or went as a whole. -/
def recordsOfFile (kind : ChangeKind) (version : FileVersion) : List ChangeRecord :=
  version.methods.flatMap (recordsOfMethod version.path kind)

/-- The added lines of a unified diff. -/
def addedLinesOf (diff : Option String) : Option (List (List Char)) :=
  diff.map fun diff => UnifiedDiff.addedLines diff.toList

namespace Report

/-- The report of a file that has both versions. -/
def ofVersions (s : Settings) (old new : FileVersion) (diff : Option String) : Report :=
  let matching := matchMethods old.methods new.methods
  { path := new.path
    records :=
      matching.pairs.flatMap (fun pair =>
          compareMethods s old.path new.path pair.old.1 pair.new.1 (addedLinesOf diff))
        ++ matching.onlyOld.flatMap (fun m => recordsOfMethod old.path .deletedWithMethod m.1)
        ++ matching.onlyNew.flatMap (fun m => recordsOfMethod new.path .addedWithMethod m.1)
    addedMethods := matching.onlyNew.map (·.1.fullSignature)
    deletedMethods := matching.onlyOld.map (·.1.fullSignature) }

/-- The report of a file. There has to be a version of it. -/
def ofFile (s : Settings) (change : FileChange) : Except Error Report :=
  match change.old, change.new with
  | none, none => .error .noVersion
  | none, some new => .ok ⟨new.path, recordsOfFile .addedWithFile new, [], []⟩
  | some old, none => .ok ⟨old.path, recordsOfFile .deletedWithFile old, [], []⟩
  | some old, some new => .ok (ofVersions s old new change.unifiedDiff)

/-- The reports of many files, in order; files without a report are left out. -/
def ofFiles (s : Settings) (changes : List FileChange) : List Report :=
  changes.filterMap fun change => (ofFile s change).toOption

end Report

/-- The totals of a commit. -/
structure Summary where
  files : Nat
  added : Nat
  deleted : Nat
  updated : Nat
  /-- The logging lines touched, where an update touches two. -/
  churn : Nat
deriving DecidableEq, Repr

/-- Adds a number of every report up. -/
def Report.total (number : Report → Nat) (reports : List Report) : Nat :=
  reports.foldr (fun report total => number report + total) 0

/-- The totals of the reports of a commit. -/
def Summary.ofReports (reports : List Report) : Summary :=
  let added := Report.total Report.added reports
  let deleted := Report.total Report.deleted reports
  let updated := Report.total Report.updated reports
  ⟨reports.length, added, deleted, updated, added + deleted + 2 * updated⟩

end LogDrift
