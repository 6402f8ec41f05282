import StaticDispatch.Lowering.Tree

/-!
# Lowering units

Classes and methods are lowered as a whole, an inner class in its own
context.  A field by itself is no unit of work: it is reported and rejected.
-/

namespace StaticDispatch

/-- How every message about static compilation begins. -/
def staticErrorLead : String := "[Static type checking] - "

inductive LoweringError where
  | unsupportedUnit (kind : String) (span : Span)
deriving DecidableEq, Repr

def LoweringError.message : LoweringError → String
  | .unsupportedUnit kind span =>
    staticErrorLead ++ "Unimplemented node type: " ++ kind ++ " at " ++ toString span.line
      ++ ":" ++ toString span.column

def FieldUnit.lower (settings : Settings) (cls : TypeId) (field : FieldUnit) :
    LowerM FieldUnit :=
  match field.initializer with
  | none => return field
  | some initializer => do
    let initializer ← initializer.lower settings cls
    return { field with initializer := some initializer }

def MethodUnit.lower (settings : Settings) (cls : TypeId) (method : MethodUnit) :
    LowerM MethodUnit := do
  let body ← lowerStmts settings cls method.body
  return { method with body }

def lowerFields (settings : Settings) (cls : TypeId) :
    List FieldUnit → LowerM (List FieldUnit)
  | [] => return []
  | field :: rest => do
    let field ← field.lower settings cls
    let rest ← lowerFields settings cls rest
    return field :: rest

def lowerMethods (settings : Settings) (cls : TypeId) :
    List MethodUnit → LowerM (List MethodUnit)
  | [] => return []
  | method :: rest => do
    let method ← method.lower settings cls
    let rest ← lowerMethods settings cls rest
    return method :: rest

mutual

def ClassUnit.lower (settings : Settings) : ClassUnit → LowerM ClassUnit
  | .mk type fields constructors methods inner span => do
    let fields ← lowerFields settings type fields
    let constructors ← lowerMethods settings type constructors
    let methods ← lowerMethods settings type methods
    let inner ← lowerClasses settings inner
    return .mk type fields constructors methods inner span

def lowerClasses (settings : Settings) : List ClassUnit → LowerM (List ClassUnit)
  | [] => return []
  | unit :: rest => do
    let unit ← unit.lower settings
    let rest ← lowerClasses settings rest
    return unit :: rest

end

def CompilationUnit.lower (settings : Settings) :
    CompilationUnit → LowerM (Except LoweringError CompilationUnit)
  | .classUnit unit => do
    let unit ← unit.lower settings
    return .ok (.classUnit unit)
  | .methodUnit unit => do
    let unit ← unit.lower settings unit.declaringType
    return .ok (.methodUnit unit)
  | .fieldUnit unit => do
    report (.error unit.span (staticErrorLead ++ "Unimplemented node type"))
    return .error (.unsupportedUnit (CompilationUnit.fieldUnit unit).kindName unit.span)

end StaticDispatch
