import ThreeAddress.SourceLoc

/-!
# Diagnostics

A diagnostic is a message with a severity and the location it is about.  It is written on
one line: what is known of the location, the severity and the message.
-/

namespace ThreeAddress

/-- How grave a diagnostic is. -/
inductive Severity where
  | note
  | warning
  | error
deriving DecidableEq, Repr

/-- The word for a severity. -/
def Severity.text : Severity → String
  | .note => "note"
  | .warning => "warning"
  | .error => "error"

/-- One message about one location. -/
structure Diagnostic where
  severity : Severity
  message : String
  loc : SourceLoc
deriving DecidableEq, Repr

namespace Diagnostic

/-- The known parts of a location: the file, the line, and the column of a known line. -/
def placeParts (file : String) (loc : SourceLoc) : List String :=
  (if file = "" then [] else [file]) ++
    (if loc.hasLine then
      loc.line.repr :: (if loc.hasColumn then [loc.column.repr] else [])
    else [])

/-- The line for a diagnostic in a file; an empty file name is left out. -/
def render (file : String) (d : Diagnostic) : String :=
  let parts := placeParts file d.loc
  let place := if parts.isEmpty then "" else ":".intercalate parts ++ ": "
  place ++ d.severity.text ++ ": " ++ d.message ++ "\n"

end Diagnostic
end ThreeAddress
