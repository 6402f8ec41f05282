import StaticDispatch.Tree.Basic

/-!
# Declared and captured names

Which names the body of a closure declares, and which it takes from around it:
those that it reads before it has declared them.  A closure inside the body
takes its captured names from the body around it.
-/

namespace StaticDispatch

namespace VariableScope

/-- Adds a name that is not yet among the names. -/
def addName (names : List String) (name : String) : List String :=
  if names.contains name then names else names ++ [name]

def declare (scope : VariableScope) (name : String) : VariableScope :=
  { scope with declared := addName scope.declared name }

/-- A name that is read and not declared so far is captured. -/
def reference (scope : VariableScope) (name : String) : VariableScope :=
  if scope.declared.contains name then scope
  else { scope with captured := addName scope.captured name }

def referenceAll (scope : VariableScope) (names : List String) : VariableScope :=
  names.foldl reference scope

/-- The scope at the start of a closure body. -/
def ofParams (params : List Param) : VariableScope :=
  params.foldl (fun scope param => scope.declare param.name) {}

end VariableScope

mutual

/-- The scope after an expression, from the scope before it. -/
def Expr.scan : Expr → VariableScope → VariableScope
  | .literal _ _, scope => scope
  | .var _ name _, scope => scope.reference name
  | .this _, scope => scope
  | .classRef _ _, scope => scope
  | .property _ receiver _, scope => receiver.scan scope
  | .methodCall _ receiver _ args _ _, scope => scanExprs args (receiver.scan scope)
  | .staticCall _ _ _ args, scope => scanExprs args scope
  | .constructorCall _ _ args, scope => scanExprs args scope
  | .binary _ _ _ left right, scope => right.scan (left.scan scope)
  | .ternary _ condition yes no, scope => no.scan (yes.scan (condition.scan scope))
  | .closure _ params body _, scope =>
    scope.referenceAll (scanStmts body (.ofParams params)).captured
  | .block _ body, scope => scanStmts body scope
  | .map _ entries, scope => scanEntries entries scope
  | .list _ items, scope => scanExprs items scope
  | .declaration _ name _ initializer, scope => (initializer.scan scope).declare name
  | .cast _ _ operand, scope => operand.scan scope
  | .unary _ _ operand, scope => operand.scan scope

def scanExprs : List Expr → VariableScope → VariableScope
  | [], scope => scope
  | e :: rest, scope => scanExprs rest (e.scan scope)

def scanEntries : List Entry → VariableScope → VariableScope
  | [], scope => scope
  | .mk key value _ :: rest, scope => scanEntries rest (value.scan (key.scan scope))

def Stmt.scan : Stmt → VariableScope → VariableScope
  | .expr value, scope => value.scan scope
  | .block body, scope => scanStmts body scope
  | .ret none _, scope => scope
  | .ret (some value) _, scope => value.scan scope
  | .ifElse condition yes none, scope => scanStmts yes (condition.scan scope)
  | .ifElse condition yes (some no), scope => scanStmts no (scanStmts yes (condition.scan scope))
  | .whileLoop condition body, scope => scanStmts body (condition.scan scope)
  | .forIn loopVar iterable body, scope =>
    scanStmts body ((iterable.scan scope).declare loopVar.name)
  | .throw value, scope => value.scan scope

def scanStmts : List Stmt → VariableScope → VariableScope
  | [], scope => scope
  | s :: rest, scope => scanStmts rest (s.scan scope)

end

/-- The declared and captured names of a closure with the given parameters and body. -/
def VariableScope.ofClosure (params : List Param) (body : Block) : VariableScope :=
  scanStmts body (.ofParams params)

end StaticDispatch
