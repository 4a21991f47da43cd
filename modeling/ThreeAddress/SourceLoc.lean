/-!
# Source locations

A location is a file number, a line and a column; zero stands for an unknown part.
-/

namespace ThreeAddress

/-- Where in a source text something is. -/
structure SourceLoc where
  file : Nat := 0
  line : Nat := 0
  column : Nat := 0
deriving DecidableEq, Repr, Inhabited

namespace SourceLoc

/-- The location names a file. -/
def isValid (loc : SourceLoc) : Bool := loc.file != 0

/-- The line is known. -/
def hasLine (loc : SourceLoc) : Bool := loc.line != 0

/-- The column is known. -/
def hasColumn (loc : SourceLoc) : Bool := loc.column != 0

end SourceLoc
end ThreeAddress
