import StaticDispatch.Eval.Tree

/-!
# Running programs

Evaluation with a budget, and the ways into it: an expression, a block, a
method with its receiver, and a call of a method by name.
-/

namespace StaticDispatch

/-- Runs statements with a budget: no loop repeats more often, and closure calls nest no
deeper, than the budget says. -/
def runBody (lib : Library) : Nat → Block → EvalM Flow
  | 0, _ => throw .exhausted
  | budget + 1, body => evalStmts lib budget (runBody lib budget) none body

def evaluate (lib : Library) (budget : Nat) (e : Expr) : EvalM Value :=
  e.eval lib budget (runBody lib budget)

/-- Runs a block in a scope of its own; its value is what it returns, or that of its last
expression statement. -/
def executeBlock (lib : Library) (budget : Nat) (body : Block) : EvalM Value := do
  let flow ← inChildScope {} (evalStmts lib budget (runBody lib budget) none body)
  return flow.value

/-- What a method body gives: only a return gives a value. -/
def methodValue : Flow → Value
  | .normal _ => .null
  | .returned value => value

/-- Runs the body of a method on a receiver. -/
def callMethod (lib : Library) (budget : Nat) (method : MethodUnit) (receiver : Value)
    (args : List Value) : EvalM Value := do
  if method.params.length = args.length then
    let vars := OrderedMap.empty.insertAll ((method.params.map Param.name).zip args)
    let flow ← withThis receiver
      (inChildScope vars (evalStmts lib budget (runBody lib budget) none method.body))
    return methodValue flow
  else fail (.wrongCount (method.name ++ "()") method.params.length args.length)

/-- Calls a method of a value by its name. -/
def invokeMethod (lib : Library) (budget : Nat) (receiver : Value) (name : String)
    (args : List Value) : EvalM Value :=
  invoke lib (runBody lib budget) receiver name args

/-- How often a method of that name was called. -/
def State.callCount (state : State) (name : String) : Nat :=
  state.log.toList.count name

end StaticDispatch
