import StaticDispatch.Lowering.Unit

/-!
# Batches of units

Units that do not depend on one another, each in a session of its own, so that
introduced names start at zero in every unit.
-/

namespace StaticDispatch

/-- What lowering one unit of a batch gave. -/
structure UnitOutcome where
  result : Except LoweringError CompilationUnit
  session : Session

def lowerUnits (settings : Settings) (units : List CompilationUnit) : List UnitOutcome :=
  units.map fun unit =>
    let (result, session) := (unit.lower settings).run {}
    { result, session }

def totalStats (outcomes : List UnitOutcome) : Stats :=
  Stats.sum (outcomes.map fun outcome => outcome.session.stats)

/-- What all units reported, in the order of the source. -/
def allDiagnostics (outcomes : List UnitOutcome) : List Diagnostic :=
  Diagnostic.sortByPosition (outcomes.flatMap fun outcome => outcome.session.diagnostics)

end StaticDispatch
