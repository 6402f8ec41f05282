import StaticDispatch.Tree.StaticType
import StaticDispatch.Tree.Capture
import StaticDispatch.Config.Basic
import StaticDispatch.Diagnostic
import StaticDispatch.Lowering.Adapters
import StaticDispatch.Lowering.Stats

/-!
# Sessions

What a lowering is given and what it keeps while it runs: the counter behind
the names it introduces, the counts of applied rules, the scopes of the
closures it registered and the diagnostics it reported.
-/

namespace StaticDispatch

/-- What a lowering is given. -/
structure Settings where
  types : TypeTable
  adapters : Adapters
  config : Config

/-- What a lowering keeps while it runs. -/
structure Session where
  nextName : Nat := 0
  stats : Stats := {}
  scopes : List VariableScope := []
  diagnostics : List Diagnostic := []
deriving DecidableEq, Inhabited

abbrev LowerM := StateM Session

/-- The `number`-th introduced name, which begins with `stem`. -/
def syntheticName (stem : String) (number : Nat) : String :=
  stem ++ "$" ++ toString number

/-- Draws the next name; no two names drawn in a session have the same number. -/
def freshName (stem : String) : LowerM String :=
  modifyGet fun session =>
    (syntheticName stem session.nextName, { session with nextName := session.nextName + 1 })

def count (applied : Stats) : LowerM Unit :=
  modify fun session => { session with stats := session.stats + applied }

def report (diagnostic : Diagnostic) : LowerM Unit :=
  modify fun session => { session with diagnostics := session.diagnostics ++ [diagnostic] }

/-- Works out the scope of a closure and records it. -/
def registerScope (params : List Param) (body : Block) : LowerM VariableScope :=
  modifyGet fun session =>
    let scope := VariableScope.ofClosure params body
    (scope, { session with scopes := session.scopes ++ [scope] })

/-! ## Nodes without facts -/

def Span.info (span : Span) : Info := { span }

/-- Position and inferred type only. -/
def Info.typed (span : Span) (type : Option TypeId) : Info :=
  { span, facts := { inferredType := type } }

/-- The declaration of a fresh temporary that holds `value`, and a reference to it. -/
def bindTemporary (settings : Settings) (cls : TypeId) (value : Expr) :
    LowerM (Expr × Expr) := do
  let type := value.staticType? settings.types cls
  let name ← freshName settings.config.temporaryStem
  return (.declaration value.span.info name type value, .var value.span.info name type)

end StaticDispatch
