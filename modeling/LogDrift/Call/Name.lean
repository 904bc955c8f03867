import LogDrift.Text.CaseFold

/-! # Call names

A call name is cut at its last dot into the caller and the level, as `Log.d` into `Log` and `d`; a
name without a dot is all caller. `isLogging` decides by the name whether a call writes to a log,
`Severity.ofName?` how severe its message is.
-/

namespace LogDrift

/-- A call name cut at its last dot: the caller and, if there is a dot, the level. -/
def splitName (name : String) : String × Option String :=
  match Text.splitLast '.' name.toList with
  | some halves => (String.ofList halves.1, some (String.ofList halves.2))
  | none => (name, none)

/-- A name with a dot is cut at the last one. -/
theorem splitName_eq_some_iff {name caller level : String} :
    splitName name = (caller, some level) ↔
      name.toList = caller.toList ++ '.' :: level.toList ∧ '.' ∉ level.toList := by
  rw [splitName, ← Text.splitLast_eq_some_iff]
  cases Text.splitLast '.' name.toList with
  | none => simp
  | some halves =>
    obtain ⟨before, after⟩ := halves
    simp only [Prod.mk.injEq, Option.some.injEq, ← String.toList_inj, String.toList_ofList]

/-- A name without a dot is all caller. -/
theorem splitName_of_not_mem {name : String} (h : '.' ∉ name.toList) :
    splitName name = (name, none) := by
  rw [splitName, Text.splitLast_eq_none_iff.mpr h]

/-- What stands before the last dot of a call name, or the whole name. -/
def callerOf (name : String) : String := (splitName name).1

/-- What stands after the last dot of a call name, or the whole name. -/
def verbosityOf (name : String) : String := (splitName name).2.getD name

/-- A logging caller has one of these in it. -/
def loggingCallers : List String := ["log", "system.out", "system.err", "timber"]

/-- A caller with one of these in it logs nothing, though `log` occurs in it. -/
def nonLoggingCallers : List String :=
  ["dialog", "login", "logout", "loggedin", "loggedout", "catalog", "logical", "blog", "logo"]

/-- The levels of logging calls. -/
def loggingLevels : List String :=
  ["w", "e", "v", "i", "d", "wtf", "warn", "warning", "error", "verbose", "info", "debug",
    "severe", "fine", "fatal", "trace", "print", "printf", "println", "log"]

/-- Whether a call of this name writes to a log, case aside: it has arguments, its caller is a
    logging one, and its level, if it has any, is a logging level. -/
def isLogging (name : String) (hasArguments : Bool) : Bool :=
  let caller := (callerOf name).toList
  hasArguments && Text.mentions loggingCallers caller && !Text.mentions nonLoggingCallers caller
    && (splitName name).2.all fun level => Text.isOneOf loggingLevels level.toList

/-- How severe a message is. -/
inductive Severity where
  | verbose | debug | info | warn | error
deriving DecidableEq, Repr

namespace Severity

def label : Severity → String
  | verbose => "VERBOSE"
  | debug => "DEBUG"
  | info => "INFO"
  | warn => "WARN"
  | error => "ERROR"

def all : List Severity := [verbose, debug, info, warn, error]

/-- The severity with the given label. -/
def ofLabel? (label : String) : Option Severity := all.find? (·.label = label)

/-- The severities and their levels, all in small letters. -/
def levels : List (Severity × List String) :=
  [(verbose, ["v", "verbose", "trace", "finest", "finer"]),
    (debug, ["d", "debug", "fine", "config"]),
    (info, ["i", "info"]),
    (warn, ["w", "warn", "warning"]),
    (error, ["e", "error", "severe", "fatal", "wtf"])]

/-- The levels that print to a stream and leave the severity to it. -/
def printLevels : List String := ["print", "printf", "println"]

/-- What a caller that prints errors ends with. -/
def errorStream : String := "system.err"

/-- The severity of a call with the given level and name. A printing call is an error if its caller
    is the error stream and information otherwise; unknown levels have none. Only ASCII letters
    are compared without regard to case. -/
def of? (level name : String) : Option Severity :=
  let level := String.ofList (Text.lowerAscii level.toList)
  match levels.find? (·.2.contains level) with
  | some row => some row.1
  | none =>
    if printLevels.contains level then
      let caller := Text.lowerAscii (callerOf name).toList
      if errorStream.toList.isSuffixOf caller then some error else some info
    else none

end Severity

end LogDrift
