import StaticDispatch.Eval.Builtin

/-!
# Calls

How a method is found.  A static method is a native under the name of its
class, save for the routines of the bytecode adapter; on other values a native
of that name comes before the built-in methods.  Every call is logged.
-/

namespace StaticDispatch

/-- How statements ended: in order, with the value of the last one if that was an
expression, or by a return. -/
inductive Flow where
  | normal (value : Option Value)
  | returned (value : Value)

/-- The value of a body whose last expression counts as its result. -/
def Flow.value : Flow → Value
  | .normal value => value.getD .null
  | .returned value => value

/-! ## Closures -/

/-- The variables that a closure starts with.  Without parameters it takes up to one
argument under the name `it`. -/
def closureArguments (params : List String) (args : List Value) :
    Except EvalError (OrderedMap Value) :=
  if params.isEmpty && args.length ≤ 1 then
    .ok (OrderedMap.empty.insert "it" (args.headD .null))
  else if params.length = args.length then
    .ok (OrderedMap.empty.insertAll (params.zip args))
  else .error (.wrongCount "closure" params.length args.length)

/-- Calls a closure; `runBody` runs its statements. -/
def callClosure (runBody : Block → EvalM Flow) (a : Address) (args : List Value) :
    EvalM Value := do
  match (← getHeap).closures[a]? with
  | none => return .null
  | some code =>
    let vars ← liftFailure (closureArguments code.params args)
    let flow ← withScope code.env vars (runBody code.body)
    return flow.value

/-! ## Methods -/

/-- Finds a method and calls it; `routine` runs a routine of the bytecode adapter. -/
def invokeWith (lib : Library) (runBody : Block → EvalM Flow)
    (routine : String → List Value → EvalM Value) (receiver : Value) (name : String)
    (args : List Value) : EvalM Value := do
  logCall name
  match receiver with
  | .classRef type =>
    if type = .bytecodeAdapter then routine name args
    else
      let key := lib.types.name type ++ "." ++ name
      match lib.natives.get? key with
      | some native => callNative native receiver args
      | none => fail (.unknownStatic key)
  | .null => fail (.callOnNull name)
  | _ => invokeValue lib runBody receiver name args
where
  /-- A method of a value that is neither null nor a class. -/
  invokeValue (lib : Library) (runBody : Block → EvalM Flow) (receiver : Value)
      (name : String) (args : List Value) : EvalM Value :=
    match receiver, name with
    | .closure a, "call" => callClosure runBody a args
    | _, _ =>
      match lib.natives.get? name with
      | some native => callNative native receiver args
      | none => builtin receiver name args

/-! ## Comparisons -/

/-- The order that the `compareTo` of the left value gives.  It passes one argument, and
no routine of the adapter takes one. -/
def compareByMethod (lib : Library) (runBody : Block → EvalM Flow) (left right : Value) :
    EvalM Ordering := do
  let answer ← invokeWith lib runBody (fun name _ => fail (.notTwoOperands name)) left
    "compareTo" [right]
  match answer with
  | .int n => return Number.compareInts n 0
  | other => fail (.badOrdering other.kindName)

/-- The order of two values: null first, numbers as numbers, texts by code points, false
before true, anything else by `compareTo`. -/
def compareValues (lib : Library) (runBody : Block → EvalM Flow) (left right : Value) :
    EvalM Ordering :=
  match left, right with
  | .null, .null => return .eq
  | .null, _ => return .lt
  | _, .null => return .gt
  | .int a, .int b => return Number.compareInts a b
  | .int a, .decimal b => liftHalt (Number.compareDecimals (.ofInt64 a) b)
  | .decimal a, .int b => liftHalt (Number.compareDecimals a (.ofInt64 b))
  | .decimal a, .decimal b => liftHalt (Number.compareDecimals a b)
  | .text a, .text b => return compareTexts a b
  | .bool a, .bool b => return compare a.toNat b.toNat
  | _, _ => compareByMethod lib runBody left right

/-- The value of a comparison of two values. -/
def comparison (lib : Library) (runBody : Block → EvalM Flow) (op : Comparison)
    (left right : Value) : EvalM Value :=
  match op with
  | .equal => do return .bool (← valuesEqual left right)
  | .notEqual => do return .bool (!(← valuesEqual left right))
  | .threeWay => do return .int (Number.orderingToInt (← compareValues lib runBody left right))
  | op => do return .bool (op.holds (← compareValues lib runBody left right))

/-- Runs a routine of the bytecode adapter, which are the comparisons under the names
that the adapter gives them. -/
def adapterRoutine (lib : Library) (runBody : Block → EvalM Flow) (name : String)
    (args : List Value) : EvalM Value :=
  match args with
  | [left, right] =>
    match Comparison.all.find? fun op => op.adapterName == name with
    | some op => comparison lib runBody op left right
    | none => fail (.unknownRoutine name)
  | _ => fail (.notTwoOperands name)

def invoke (lib : Library) (runBody : Block → EvalM Flow) (receiver : Value) (name : String)
    (args : List Value) : EvalM Value :=
  invokeWith lib runBody (adapterRoutine lib runBody) receiver name args

/-! ## Constructors -/

/-- What a field holds before it is written. -/
def defaultValue (types : TypeTable) (type : TypeId) : Value :=
  match types.type? type with
  | some { shape := .primitive .boolean, .. } => .bool false
  | some { shape := .primitive .float, .. } => .decimal .zero
  | some { shape := .primitive .double, .. } => .decimal .zero
  | some { shape := .primitive .void, .. } => .null
  | some { shape := .primitive _, .. } => .int 0
  | _ => .null

/-- The fields of a new object: those of the topmost class first, each at the default of
its most derived declaration. -/
def defaultFields (types : TypeTable) (type : TypeId) : OrderedMap Value :=
  (types.lineage type).reverse.foldl
    (fun fields info =>
      fields.insertAll (info.fields.entries.map fun field =>
        (field.1, defaultValue types field.2)))
    {}

def instantiate (types : TypeTable) (type : TypeId) : EvalM Value :=
  allocate fun heap => heap.newObject type (defaultFields types type)

/-- Sets the properties named by the entries in turn. -/
def setProperties (types : TypeTable) (receiver : Value) :
    List (String × Value) → EvalM Unit
  | [] => return ()
  | (name, value) :: rest => do
    writeProperty types receiver name value
    setProperties types receiver rest

/-- A native under `new` and the type comes first; otherwise an object can be made from
nothing and from a map of its properties. -/
def construct (lib : Library) (type : TypeId) (args : List Value) : EvalM Value := do
  let key := "new " ++ lib.types.name type
  match lib.natives.get? key with
  | some native =>
    logCall key
    callNative native (.classRef type) args
  | none =>
    let object ← instantiate lib.types type
    match args with
    | [] => return object
    | [.map a] =>
      setProperties lib.types object ((← getHeap).entries a).entries
      return object
    | _ => fail (.noConstructor (lib.types.name type) args.length)

end StaticDispatch
