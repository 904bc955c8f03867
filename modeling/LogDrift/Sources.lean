import LogDrift.Java.Program
import LogDrift.Report

/-! # Reports on source texts

The two versions of a file are given as Java source texts, which are parsed into methods first. The
reports only need some syntax tree for each text (`Report.ofSourcesBy`), be it that of a parser that
mends texts with syntax errors. `Report.ofSources` uses the parser of this library, which does not.
-/

namespace LogDrift

/-- The version of a file whose source text has the given syntax tree. -/
def FileVersion.ofTree (path : String) (t : Java.Tree) : FileVersion := ⟨path, t.methods⟩

/-- Two versions of a file by their source texts. One of them is missing if the file came or
    went. -/
structure SourceChange where
  path : String
  old : Option String
  new : Option String
  /-- The unified diff of the two versions, if it is known. -/
  unifiedDiff : Option String

/-- The same change with the sources parsed. -/
def SourceChange.parsedBy (treeOf : String → Java.Tree) (change : SourceChange) : FileChange where
  old := change.old.map fun source => FileVersion.ofTree change.path (treeOf source)
  new := change.new.map fun source => FileVersion.ofTree change.path (treeOf source)
  unifiedDiff := change.unifiedDiff

/-- The report of a file given by its source texts, with the trees that a parser gives them. -/
def Report.ofSourcesBy (treeOf : String → Java.Tree) (s : Settings) (change : SourceChange) :
    Except Error Report :=
  Report.ofFile s (change.parsedBy treeOf)

/-- The report of a file given by its source texts. -/
def Report.ofSources (s : Settings) (change : SourceChange) : Except Error Report :=
  Report.ofSourcesBy Java.treeOf s change

end LogDrift
