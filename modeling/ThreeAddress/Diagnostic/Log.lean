import ThreeAddress.Diagnostic.Basic

/-!
# Logs of diagnostics

A log keeps the diagnostics in the order in which they were reported, a running count for
each severity, and the names of source files.  Names are looked up only when the log is
printed, so a name that is registered late is used for earlier diagnostics too.
-/

namespace ThreeAddress

/-- How many diagnostics there are of each severity. -/
structure Tally where
  notes : Nat := 0
  warnings : Nat := 0
  errors : Nat := 0
deriving DecidableEq, Repr

namespace Tally

/-- The count of one severity. -/
def count (t : Tally) : Severity → Nat
  | .note => t.notes
  | .warning => t.warnings
  | .error => t.errors

/-- One more diagnostic of a severity. -/
def add (t : Tally) : Severity → Tally
  | .note => { t with notes := t.notes + 1 }
  | .warning => { t with warnings := t.warnings + 1 }
  | .error => { t with errors := t.errors + 1 }

end Tally

/-- Reported diagnostics, their counts, and the names of files. -/
structure Log where
  diagnostics : List Diagnostic := []
  tally : Tally := {}
  /-- File numbers with their names, the latest registration first. -/
  files : List (Nat × String) := []
deriving Repr

namespace Log

/-- Give a file number a name; an earlier name of the number is superseded. -/
def nameFile (log : Log) (file : Nat) (name : String) : Log :=
  { log with files := (file, name) :: log.files }

/-- The latest name of a file number, empty if it has none. -/
def fileName (log : Log) (file : Nat) : String :=
  (log.files.lookup file).getD ""

/-- Add a diagnostic at the end. -/
def report (log : Log) (d : Diagnostic) : Log :=
  { log with diagnostics := log.diagnostics ++ [d], tally := log.tally.add d.severity }

/-- An error has been reported. -/
def hasErrors (log : Log) : Bool :=
  log.tally.errors != 0

/-- The file name printed with a location; file zero has no name. -/
def placeName (log : Log) (loc : SourceLoc) : String :=
  if loc.isValid then log.fileName loc.file else ""

/-- All diagnostics in order, one line each. -/
def render (log : Log) : String :=
  String.join (log.diagnostics.map fun d => d.render (log.placeName d.loc))

end Log
end ThreeAddress
