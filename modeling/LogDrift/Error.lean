import LogDrift.Decimal.Notation
import LogDrift.Text.Quoted

/-! # Errors

What can go wrong, by cause, and the message for each cause.
-/

namespace LogDrift

/-- Why a JSON text was refused. -/
inductive JsonFault where
  /-- The text ends too early. -/
  | truncated
  /-- The text is not JSON. -/
  | malformed
  /-- The text is JSON of another form than asked for. -/
  | mistyped
deriving DecidableEq, Repr

/-- The class of a fault, as messages give it. -/
def JsonFault.category : JsonFault → String
  | truncated => "eof"
  | malformed => "syntax"
  | mistyped => "data"

/-- Why a file or directory could not be made. -/
inductive FileFault where
  | notFound
  | exists
  | notDirectory
  | isDirectory
deriving DecidableEq, Repr

/-- The message and the number by which the operating system knows a fault. -/
def FileFault.message : FileFault → String
  | notFound => "No such file or directory (os error 2)"
  | .exists => "File exists (os error 17)"
  | notDirectory => "Not a directory (os error 20)"
  | isDirectory => "Is a directory (os error 21)"

/-- Why the database refused a statement. -/
inductive DatabaseFault where
  | noSuchTable (table : String)
  | foreignKey
  | cannotOpen (path : String)
deriving DecidableEq, Repr

def DatabaseFault.message : DatabaseFault → String
  | noSuchTable table => "no such table: " ++ table
  | foreignKey => "FOREIGN KEY constraint failed"
  | cannotOpen path => "unable to open database file: " ++ path

/-- Everything that can go wrong. -/
inductive Error where
  /-- A threshold outside its range. -/
  | thresholdOutOfRange (threshold : Float)
  /-- A threshold setting that is no number. -/
  | thresholdNotNumber (text : String)
  /-- A comparison with neither an old nor a new version. -/
  | noVersion
  /-- A stored record whose kind has an unknown label. -/
  | unknownKind (label : String)
  | file (fault : FileFault)
  | database (fault : DatabaseFault)
  | json (fault : JsonFault)

/-- The variable of the environment that sets the threshold. -/
def thresholdVariable : String := "LOGEVO_SIMILARITY_THRESHOLD"

/-- What is said of an error. The database's own messages stand alone. -/
def Error.message : Error → String
  | thresholdOutOfRange threshold =>
    "Config error: similarity_threshold must be in (0, 1], got " ++ Decimal.plain threshold
  | thresholdNotNumber text =>
    "Config error: " ++ thresholdVariable ++ " is not a number: " ++ Text.quoted text
  | noVersion => "Invalid input: file comparison needs an old or a new version"
  | unknownKind label => "Database error: unknown change_type " ++ Text.quoted label
  | file fault => "IO error: " ++ fault.message
  | database fault => fault.message
  | json fault => "JSON error: " ++ fault.category

end LogDrift
