import ThreeAddress.Builder.Fault
import ThreeAddress.Diagnostic.Log

/-!
# Build errors

What a failing call leaves: the kind of the failure, a message, and the location that was
current.  A reader of the message sees it up to its first NUL character.  A build error
becomes an error diagnostic whose message starts with the kind.
-/

namespace ThreeAddress

/-- The failure of a call. -/
structure BuildError where
  kind : FaultKind
  message : String
  loc : SourceLoc := {}
deriving DecidableEq, Repr

/-- The failure that a cause makes at a location. -/
def Fault.raisedAt (f : Fault) (loc : SourceLoc) : BuildError :=
  ⟨f.kind, f.message, loc⟩

namespace BuildError

/-- The message up to its first NUL character. -/
def what (e : BuildError) : String :=
  String.ofList (e.message.toList.takeWhile (· != '\x00'))

/-- The diagnostic about a failure. -/
def toDiagnostic (e : BuildError) : Diagnostic :=
  ⟨.error, e.kind.text ++ ": " ++ e.what, e.loc⟩

end BuildError

/-- Report a failure as a diagnostic. -/
def Log.reportFailure (log : Log) (e : BuildError) : Log :=
  log.report e.toDiagnostic

end ThreeAddress
