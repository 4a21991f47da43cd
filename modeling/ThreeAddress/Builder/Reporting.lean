import ThreeAddress.Builder.BuildError

/-!
# Failures as diagnostics

A computation that may fail can be run so that a failure becomes a diagnostic in its result,
or so that the diagnostic is also handed on, for example to a log.  What was done before the
failure stays done in both.
-/

namespace ThreeAddress
namespace Reporting

variable {α : Type} {m : Type → Type} [Monad m]

/-- Run a computation; a failure becomes a diagnostic. -/
def expected (act : ExceptT BuildError m α) : m (Except Diagnostic α) := do
  match ← act.run with
  | .ok a => pure (.ok a)
  | .error e => pure (.error e.toDiagnostic)

/-- Run a computation; a failure becomes a diagnostic, which is handed on as well. -/
def reported (sink : Diagnostic → m Unit) (act : ExceptT BuildError m α) :
    m (Except Diagnostic α) := do
  match ← expected act with
  | .ok a => pure (.ok a)
  | .error d => do
      sink d
      pure (.error d)

end Reporting
end ThreeAddress
