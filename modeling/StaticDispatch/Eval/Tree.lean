import StaticDispatch.Eval.Call

/-!
# Evaluation of trees

Expressions give values and statements a flow.  Evaluation goes down the tree;
a loop repeats at most `loops` times, and the body of a closure, which is no
part of the tree at its call, is run by `runBody`.
-/

namespace StaticDispatch

def Literal.eval : Literal → Value
  | .null => .null
  | .boolean value => .bool value
  | .integer value => .int value
  | .decimal value => .decimal value
  | .string value => .text value

/-- Repeats `step` while it asks for more, at most so many times. -/
def repeatLoop (step : EvalM (Option Flow)) : Nat → EvalM Flow
  | 0 => throw .exhausted
  | more + 1 => do
    match ← step with
    | some flow => return flow
    | none => repeatLoop step more

/-- Runs `body` on each value, until one returns. -/
def forEach (body : Value → EvalM Flow) : List Value → EvalM Flow
  | [] => return .normal none
  | item :: rest => do
    match ← body item with
    | .returned value => return .returned value
    | .normal _ => forEach body rest

/-- One round of a loop: `none` asks for another. -/
def loopStep (condition : EvalM Value) (body : EvalM Flow) : EvalM (Option Flow) := do
  let value ← condition
  if ← isTruthy value then
    match ← inChildScope {} body with
    | .returned value => return some (.returned value)
    | .normal _ => return none
  else return some (.normal none)

/-- What a loop over a value runs through. -/
def iterationValues (value : Value) : EvalM (List Value) := do
  match value with
  | .list a => return ((← getHeap).items a).toList
  | .array a => return ((← getHeap).items a).toList
  | .map a => return ((← getHeap).entries a).values
  | .null => return []
  | other => fail (.notIterable other.kindName)

/-! ## Calls -/

/-- Calls the method on each value in turn. -/
def invokeEach (lib : Library) (runBody : Block → EvalM Flow) (name : String)
    (args : List Value) : List Value → EvalM (List Value)
  | [] => return []
  | item :: rest => do
    let result ← invoke lib runBody item name args
    let results ← invokeEach lib runBody name args rest
    return result :: results

def invokeSpread (lib : Library) (runBody : Block → EvalM Flow) (receiver : Value)
    (name : String) (args : List Value) : EvalM Value := do
  match receiver with
  | .list a => overItems ((← getHeap).items a).toList
  | .array a => overItems ((← getHeap).items a).toList
  | .null => return .null
  | other => fail (.notSpreadable other.kindName)
where
  overItems (items : List Value) : EvalM Value := do
    let results ← invokeEach lib runBody name args items
    allocate fun heap => heap.newList results

/-- A call whose receiver and arguments are evaluated. -/
def invokeCall (lib : Library) (runBody : Block → EvalM Flow) (receiver : Value)
    (name : String) (args : List Value) (spread : Bool) : EvalM Value :=
  if spread then invokeSpread lib runBody receiver name args
  else invoke lib runBody receiver name args

/-! ## Operators -/

/-- The value of a comparison from what its resolved method returned: an integer tells
the order of the operands. -/
def comparisonResult (op : Comparison) (result : Value) : Value :=
  match op, result with
  | .threeWay, result => result
  | op, .int n => .bool (op.holds (Number.compareInts n 0))
  | _, result => result

/-- An arithmetic operator: the method that it was resolved to, or the built-in one. -/
def arithmetic (lib : Library) (runBody : Block → EvalM Flow)
    (target : Option OperatorTarget) (op : Arithmetic) (left right : Value) : EvalM Value :=
  match target with
  | some target => invoke lib runBody left target.name [right]
  | none => builtin left op.methodName [right]

def evalComparison (lib : Library) (runBody : Block → EvalM Flow)
    (target : Option OperatorTarget) (op : Comparison) (left right : Value) : EvalM Value :=
  match target with
  | some target => do
    let result ← invoke lib runBody left target.name [right]
    return comparisonResult op result
  | none => comparison lib runBody op left right

def negate (lib : Library) (runBody : Block → EvalM Flow) (operand : Value) : EvalM Value :=
  match operand with
  | .int n => liftHalt (Number.negate n)
  | .decimal d => return .decimal (-d)
  | other => invoke lib runBody other "negative" []

/-- The value of a block expression; it is no place to return from. -/
def blockValue : Flow → EvalM Value
  | .normal value => return value.getD .null
  | .returned _ => fail .returnInBlock

/-- Closes a body over the scopes that are visible now. -/
def makeClosure (params : List Param) (body : Block) : EvalM Value := do
  let env := (← get).env
  allocate fun heap => heap.newClosure { params := params.map Param.name, body, env }

/-! ## The tree -/

mutual

def Expr.eval (lib : Library) (loops : Nat) (runBody : Block → EvalM Flow) :
    Expr → EvalM Value
  | .literal _ value => return value.eval
  | .var _ name _ => readVariable name
  | .this _ => do return (← get).this
  | .classRef _ type => return .classRef type
  | .property _ receiver name => do
    let receiver ← receiver.eval lib loops runBody
    readPlace (.property receiver name)
  | .methodCall _ receiver name args safe spread => do
    let receiver ← receiver.eval lib loops runBody
    if receiver.isNull && safe then return .null
    let args ← evalExprs lib loops runBody args
    invokeCall lib runBody receiver name args spread
  | .staticCall _ owner name args => do
    let args ← evalExprs lib loops runBody args
    invoke lib runBody (.classRef owner) name args
  | .constructorCall _ type args => do
    let args ← evalExprs lib loops runBody args
    construct lib type args
  | .binary info op _ left right =>
    match op with
    | .assign => do
      let place ← left.evalPlace lib loops runBody
      let value ← right.eval lib loops runBody
      writePlace lib.types place value
      return value
    | .compound op => do
      let place ← left.evalPlace lib loops runBody
      let current ← readPlace place
      let operand ← right.eval lib loops runBody
      let value ← arithmetic lib runBody info.facts.operatorTarget op current operand
      writePlace lib.types place value
      return value
    | .and => do
      let left ← left.eval lib loops runBody
      if ← isTruthy left then
        let right ← right.eval lib loops runBody
        return .bool (← isTruthy right)
      else return .bool false
    | .or => do
      let left ← left.eval lib loops runBody
      if ← isTruthy left then return .bool true
      else
        let right ← right.eval lib loops runBody
        return .bool (← isTruthy right)
    | .index => do
      let receiver ← left.eval lib loops runBody
      let index ← right.eval lib loops runBody
      readPlace (.element receiver index)
    | .comparison op => do
      let left ← left.eval lib loops runBody
      let right ← right.eval lib loops runBody
      evalComparison lib runBody info.facts.operatorTarget op left right
    | .arithmetic op => do
      let left ← left.eval lib loops runBody
      let right ← right.eval lib loops runBody
      arithmetic lib runBody info.facts.operatorTarget op left right
  | .ternary _ condition yes no => do
    let condition ← condition.eval lib loops runBody
    if ← isTruthy condition then yes.eval lib loops runBody else no.eval lib loops runBody
  | .closure _ params body _ => makeClosure params body
  | .block _ body => do
    let flow ← inChildScope {} (evalStmts lib loops runBody none body)
    blockValue flow
  | .map _ entries => do
    let entries ← evalEntries lib loops runBody {} entries
    allocate fun heap => heap.newMap entries
  | .list _ items => do
    let items ← evalExprs lib loops runBody items
    allocate fun heap => heap.newList items
  | .declaration _ name _ initializer => do
    let value ← initializer.eval lib loops runBody
    modify fun state => state.define name value
    return value
  | .cast _ _ operand => operand.eval lib loops runBody
  | .unary _ op operand => do
    let operand ← operand.eval lib loops runBody
    match op with
    | .not => return .bool (!(← isTruthy operand))
    | .negate => negate lib runBody operand

/-- What an assignment target stands for. -/
def Expr.evalPlace (lib : Library) (loops : Nat) (runBody : Block → EvalM Flow) :
    Expr → EvalM Place
  | .var _ name _ => return .named name
  | .property _ receiver name => do
    let receiver ← receiver.eval lib loops runBody
    return .property receiver name
  | .binary _ .index _ left right => do
    let receiver ← left.eval lib loops runBody
    let index ← right.eval lib loops runBody
    return .element receiver index
  | _ => fail .notAssignable

def evalExprs (lib : Library) (loops : Nat) (runBody : Block → EvalM Flow) :
    List Expr → EvalM (List Value)
  | [] => return []
  | e :: rest => do
    let value ← e.eval lib loops runBody
    let values ← evalExprs lib loops runBody rest
    return value :: values

/-- Adds the entries in turn, each under the text of its key. -/
def evalEntries (lib : Library) (loops : Nat) (runBody : Block → EvalM Flow)
    (done : OrderedMap Value) : List Entry → EvalM (OrderedMap Value)
  | [] => return done
  | .mk key value _ :: rest => do
    let key ← key.eval lib loops runBody
    let text ← textOf key
    let value ← value.eval lib loops runBody
    evalEntries lib loops runBody (done.insert text value) rest

def Stmt.eval (lib : Library) (loops : Nat) (runBody : Block → EvalM Flow) :
    Stmt → EvalM Flow
  | .expr value => do
    let value ← value.eval lib loops runBody
    return .normal (some value)
  | .block body => inChildScope {} (evalStmts lib loops runBody none body)
  | .ret none _ => return .returned .null
  | .ret (some value) _ => do
    let value ← value.eval lib loops runBody
    return .returned value
  | .ifElse condition yes none => do
    let condition ← condition.eval lib loops runBody
    if ← isTruthy condition then inChildScope {} (evalStmts lib loops runBody none yes)
    else return .normal none
  | .ifElse condition yes (some no) => do
    let condition ← condition.eval lib loops runBody
    if ← isTruthy condition then inChildScope {} (evalStmts lib loops runBody none yes)
    else inChildScope {} (evalStmts lib loops runBody none no)
  | .whileLoop condition body =>
    repeatLoop
      (loopStep (condition.eval lib loops runBody) (evalStmts lib loops runBody none body)) loops
  | .forIn loopVar iterable body => do
    let iterable ← iterable.eval lib loops runBody
    let items ← iterationValues iterable
    forEach
      (fun item =>
        inChildScope (OrderedMap.empty.insert loopVar.name item)
          (evalStmts lib loops runBody none body))
      items
  | .throw value => do
    let value ← value.eval lib loops runBody
    let text ← textOf value
    fail (.thrown text)

/-- Runs statements in order, until one returns; `last` is what the statement before them
gave. -/
def evalStmts (lib : Library) (loops : Nat) (runBody : Block → EvalM Flow)
    (last : Option Value) : List Stmt → EvalM Flow
  | [] => return .normal last
  | s :: rest => do
    match ← s.eval lib loops runBody with
    | .returned value => return .returned value
    | .normal value => evalStmts lib loops runBody value rest

end

end StaticDispatch
