import StaticDispatch.Eval.Heap
import StaticDispatch.Types.Query

/-!
# Evaluation

What evaluation keeps, how it can fail, and the steps on scopes and on the
heap that the rest of the evaluator is made of.
-/

namespace StaticDispatch

/-! ## Failures -/

inductive EvalError where
  | unknownName (name : String)
  | returnInBlock
  | wrongCount (callee : String) (expected actual : Nat)
  | notIterable (kind : String)
  | notSpreadable (kind : String)
  | thrown (text : String)
  | unknownStatic (key : String)
  | callOnNull (method : String)
  | noConstructor (type : String) (count : Nat)
  | notTwoOperands (routine : String)
  | unknownRoutine (routine : String)
  | unordered
  | badOrdering (kind : String)
  | notAssignable
  | propertyOfNull (name : String)
  | noProperty (name kind : String)
  | elementOfNull
  | notIndexable (kind : String)
  | textIndex (index : Int64)
  | arrayIndex (index : Int64)
  | setPropertyOfNull (name : String)
  | noField (name type : String)
  | notWritable (name kind : String)
  | setElementOfNull
  | badIndex (kind : String)
  | indexRange (index : Int64)
  | noMethod (kind method : String) (count : Nat)
  | noNumberMethod (kind method : String)
  | notANumber (kind : String)
  | divisionByZero
  | native (message : String)
deriving DecidableEq, Repr

def EvalError.message : EvalError → String
  | .unknownName name => "No such property: " ++ name
  | .returnInBlock => "return inside a block expression"
  | .wrongCount callee expected actual =>
    callee ++ " expects " ++ toString expected ++ " argument(s), got " ++ toString actual
  | .notIterable kind => "Cannot iterate over " ++ kind
  | .notSpreadable kind => "Cannot spread over " ++ kind
  | .thrown text => "thrown: " ++ text
  | .unknownStatic key => "No static method " ++ key
  | .callOnNull method => "Cannot invoke method " ++ method ++ "() on null object"
  | .noConstructor type count =>
    "No constructor of " ++ type ++ " for " ++ toString count ++ " argument(s)"
  | .notTwoOperands routine => routine ++ "() expects two arguments"
  | .unknownRoutine routine => "Unknown adapter method " ++ routine
  | .unordered => "NaN is not ordered"
  | .badOrdering kind => "compareTo returned " ++ kind
  | .notAssignable => "expression is not assignable"
  | .propertyOfNull name => "Cannot get property '" ++ name ++ "' on null object"
  | .noProperty name kind => "No such property: " ++ name ++ " for " ++ kind
  | .elementOfNull => "Cannot get element of null object"
  | .notIndexable kind => "Cannot index " ++ kind
  | .textIndex index => "String index out of range: " ++ toString index.toInt
  | .arrayIndex index => "Array index out of bounds: " ++ toString index.toInt
  | .setPropertyOfNull name => "Cannot set property '" ++ name ++ "' on null object"
  | .noField name type => "No such property: " ++ name ++ " for class " ++ type
  | .notWritable name kind => "Cannot set property " ++ name ++ " on " ++ kind
  | .setElementOfNull => "Cannot set element of null object"
  | .badIndex kind => "index must be an integer, got " ++ kind
  | .indexRange index => "index " ++ toString index.toInt ++ " out of range"
  | .noMethod kind method count =>
    "No signature of method: " ++ kind ++ "." ++ method ++ "() for " ++ toString count
      ++ " argument(s)"
  | .noNumberMethod kind method => "No signature of method: " ++ kind ++ "." ++ method ++ "()"
  | .notANumber kind => kind ++ " is not a number"
  | .divisionByZero => "Division by zero"
  | .native message => message

/-- Why an evaluation ends without a value. -/
inductive Halt where
  /-- The program failed. -/
  | failed (error : EvalError)
  /-- The evaluator gave up: an integer that does not fit, a list that no memory holds, or
  a container that contains itself where its text or its equality was asked for. -/
  | aborted
  /-- The budget for repetitions and nested closure calls was used up. -/
  | exhausted
deriving DecidableEq, Repr

/-! ## State -/

structure State where
  heap : Heap := {}
  scopes : Array (OrderedMap Value) := #[{}]
  env : Env := [0]
  this : Value := .null
  /-- The names of the methods called so far. -/
  log : Array String := #[]

instance : Inhabited State := ⟨{}⟩

abbrev EvalM := ExceptT Halt (StateM State)

def fail {α : Type} (error : EvalError) : EvalM α :=
  throw (.failed error)

/-- A method from outside the program.  It may change the heap. -/
structure Native where
  call : Value → List Value → Heap → Except String Value × Heap

/-- What a program can use besides its own code.  A native is found by the name of the
method, by class and name for a static method, by the type for a constructor. -/
structure Library where
  types : TypeTable
  natives : OrderedMap Native

/-! ## Steps -/

/-- Makes a new container. -/
def allocate (make : Heap → Heap × Value) : EvalM Value :=
  modifyGet fun state =>
    let (heap, value) := make state.heap
    (value, { state with heap })

def modifyHeap (change : Heap → Heap) : EvalM Unit :=
  modify fun state => { state with heap := change state.heap }

def getHeap : EvalM Heap := do
  return (← get).heap

def logCall (name : String) : EvalM Unit :=
  modify fun state => { state with log := state.log.push name }

def callNative (native : Native) (receiver : Value) (args : List Value) : EvalM Value := do
  let (result, heap) := native.call receiver args (← getHeap)
  modifyHeap fun _ => heap
  match result with
  | .ok value => return value
  | .error message => fail (.native message)

def textOf (value : Value) : EvalM String := do
  match (← getHeap).text? value with
  | some text => return text
  | none => throw .aborted

def valuesEqual (a b : Value) : EvalM Bool := do
  match (← getHeap).equal? a b with
  | some answer => return answer
  | none => throw .aborted

def isTruthy (value : Value) : EvalM Bool := do
  return (← getHeap).isTruthy value

/-! ## Scopes -/

def Scopes.get? (scopes : Array (OrderedMap Value)) (id : ScopeId) (name : String) :
    Option Value :=
  (scopes[id]?).bind (·.get? name)

/-- The value of a name in the innermost visible scope that has it. -/
def Scopes.lookup? (scopes : Array (OrderedMap Value)) (name : String) : Env → Option Value
  | [] => none
  | id :: outer =>
    match Scopes.get? scopes id name with
    | some value => some value
    | none => Scopes.lookup? scopes name outer

/-- The innermost visible scope that has a name. -/
def Scopes.owner? (scopes : Array (OrderedMap Value)) (name : String) (env : Env) :
    Option ScopeId :=
  env.find? fun id => (Scopes.get? scopes id name).isSome

def Scopes.set (scopes : Array (OrderedMap Value)) (id : ScopeId) (name : String)
    (value : Value) : Array (OrderedMap Value) :=
  scopes.modify id fun scope => scope.insert name value

namespace State

def lookup? (state : State) (name : String) : Option Value :=
  Scopes.lookup? state.scopes name state.env

/-- Declares a name in the innermost scope. -/
def define (state : State) (name : String) (value : Value) : State :=
  match state.env with
  | [] => state
  | id :: _ => { state with scopes := Scopes.set state.scopes id name value }

/-- Writes to the innermost visible scope that has the name, or declares it. -/
def assign (state : State) (name : String) (value : Value) : State :=
  match Scopes.owner? state.scopes name state.env with
  | some id => { state with scopes := Scopes.set state.scopes id name value }
  | none => state.define name value

end State

/-- Runs `body` where `env` is visible; what was visible before is visible again
afterwards, however `body` ends. -/
def withEnv {α : Type} (env : Env) (body : EvalM α) : EvalM α :=
  ExceptT.mk fun state =>
    let (result, after) := body.run { state with env }
    (result, { after with env := state.env })

/-- Runs `body` with a new scope inside of `outer` that starts with the given variables. -/
def withScope {α : Type} (outer : Env) (vars : OrderedMap Value) (body : EvalM α) :
    EvalM α := do
  let id := (← get).scopes.size
  modify fun state => { state with scopes := state.scopes.push vars }
  withEnv (id :: outer) body

/-- Runs `body` in a new scope inside of the current one. -/
def inChildScope {α : Type} (vars : OrderedMap Value) (body : EvalM α) : EvalM α := do
  withScope (← get).env vars body

/-- Runs `body` with another `this`, however it ends. -/
def withThis {α : Type} (this : Value) (body : EvalM α) : EvalM α :=
  ExceptT.mk fun state =>
    let (result, after) := body.run { state with this }
    (result, { after with this := state.this })

end StaticDispatch
