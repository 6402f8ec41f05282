import StaticDispatch.Lowering.Session

/-!
# Overloaded operators

An operator that was resolved to a method becomes a call of that method.  A
comparison goes through its routine of the bytecode adapter, where there is
one.  An assignment that carries an operator becomes a plain assignment of the
call's value, with the parts of the target that could have side effects bound
to temporaries first, so that they are evaluated once.
-/

namespace StaticDispatch

def operatorCall (span : Span) (type : Option TypeId) (target : OperatorTarget)
    (left right : Expr) : Expr :=
  .methodCall
    { span, facts := { callTarget := some (.method target.method), inferredType := type } }
    left target.name [right] false false

def adapterCall (types : TypeTable) (span : Span) (type : Option TypeId) (routine : MethodId)
    (left right : Expr) : Expr :=
  .methodCall
    { span, facts := { callTarget := some (.method routine), inferredType := type } }
    (.classRef span.info (types.methodOwner routine)) (types.methodName routine)
    [left, right] false false

/-! ## Assignment targets -/

/-- An operand that can be evaluated twice, after the declarations that make it so. -/
def stableOperand (settings : Settings) (cls : TypeId) (operand : Expr) :
    LowerM (List Stmt × Expr) := do
  if operand.isSideEffectFree then return ([], operand)
  let (declaration, reference) ← bindTemporary settings cls operand
  return ([.expr declaration], reference)

/-- A target that can be read and written without evaluating its parts twice, after the
declarations that make it so. -/
def stableTarget (settings : Settings) (cls : TypeId) :
    Expr → LowerM (List Stmt × Expr)
  | .property info receiver name => do
    let (before, receiver) ← stableOperand settings cls receiver
    return (before, .property info receiver name)
  | .binary info .index opSpan left right => do
    let (before, left) ← stableOperand settings cls left
    let (between, right) ← stableOperand settings cls right
    return (before ++ between, .binary info .index opSpan left right)
  | target => return ([], target)

/-- The assignment, in a block of its own if there are declarations before it. -/
def assignmentAfter (span : Span) (type : Option TypeId) (before : List Stmt)
    (assignment : Expr) : Expr :=
  if before.isEmpty then assignment
  else .block (.typed span type) (before ++ [.expr assignment])

def lowerOperatorAssignment (settings : Settings) (cls : TypeId) (span opSpan : Span)
    (type : Option TypeId) (target : OperatorTarget) (left right : Expr) : LowerM Expr := do
  let (before, place) ← stableTarget settings cls left
  count { compoundAssignments := 1 }
  let value := operatorCall span type target place right
  return assignmentAfter span type before
    (.binary (.typed place.span type) .assign opSpan place value)

/-! ## The rule -/

def lowerOperatorCall (span : Span) (type : Option TypeId) (target : OperatorTarget)
    (left right : Expr) : LowerM Expr := do
  count { operatorCalls := 1 }
  return operatorCall span type target left right

/-- The rule for an operator that was resolved to `target`; the operands are lowered
already. -/
def lowerResolvedOperator (settings : Settings) (cls : TypeId) (info : Info)
    (target : OperatorTarget) (op : BinaryOp) (opSpan : Span) (left right : Expr) :
    LowerM Expr :=
  let type := info.facts.inferredType
  match op with
  | .comparison comparison =>
    match settings.adapters.routine? comparison with
    | some routine => do
      count { comparisons := 1 }
      return adapterCall settings.types info.span type routine left right
    | none => lowerOperatorCall info.span type target left right
  | .assign => lowerOperatorAssignment settings cls info.span opSpan type target left right
  | .compound _ => lowerOperatorAssignment settings cls info.span opSpan type target left right
  | _ => lowerOperatorCall info.span type target left right

def lowerBinary (settings : Settings) (cls : TypeId) (info : Info) (op : BinaryOp)
    (opSpan : Span) (left right : Expr) : LowerM Expr :=
  match info.facts.operatorTarget with
  | some target =>
    if settings.config.isEnabled .binaryOperators then
      lowerResolvedOperator settings cls info target op opSpan left right
    else return .binary info op opSpan left right
  | none => return .binary info op opSpan left right

end StaticDispatch
