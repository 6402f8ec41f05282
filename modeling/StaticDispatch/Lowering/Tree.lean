import StaticDispatch.Lowering.MethodCall
import StaticDispatch.Lowering.Operator
import StaticDispatch.Lowering.StaticCall
import StaticDispatch.Lowering.KeywordConstructor

/-!
# Lowering trees

The children of a node are lowered first, then at most one rule runs on the
node itself.  A closure whose body gained introduced names gets its
scope worked out and registered anew.
-/

namespace StaticDispatch

/-- The scope of a closure after its body was lowered; `before` is the name counter of
the session before that. -/
def renewScope (before : Nat) (params : List Param) (body : Block)
    (scope : Option VariableScope) : LowerM (Option VariableScope) := do
  let session ← get
  if session.nextName = before then return scope
  let renewed ← registerScope params body
  return some renewed

mutual

/-- Lowers an expression in the body of class `cls` with everything below it. -/
def Expr.lower (settings : Settings) (cls : TypeId) : Expr → LowerM Expr
  | .literal info value => return .literal info value
  | .var info name declaredType => return .var info name declaredType
  | .this info => return .this info
  | .classRef info type => return .classRef info type
  | .property info receiver name => do
    let receiver ← receiver.lower settings cls
    return .property info receiver name
  | .methodCall info receiver name args safe spread => do
    let receiver ← receiver.lower settings cls
    let args ← lowerExprs settings cls args
    lowerMethodCall settings cls info receiver name args safe spread
  | .staticCall info owner name args => do
    let args ← lowerExprs settings cls args
    lowerStaticCall settings info owner name args
  | .constructorCall info type args => do
    let args ← lowerExprs settings cls args
    lowerConstructorCall settings info type args
  | .binary info op opSpan left right => do
    let left ← left.lower settings cls
    let right ← right.lower settings cls
    lowerBinary settings cls info op opSpan left right
  | .ternary info condition yes no => do
    let condition ← condition.lower settings cls
    let yes ← yes.lower settings cls
    let no ← no.lower settings cls
    return .ternary info condition yes no
  | .closure info params body scope => do
    let session ← get
    let body ← lowerStmts settings cls body
    let scope ← renewScope session.nextName params body scope
    return .closure info params body scope
  | .block info body => do
    let body ← lowerStmts settings cls body
    return .block info body
  | .map info entries => do
    let entries ← lowerEntries settings cls entries
    return .map info entries
  | .list info items => do
    let items ← lowerExprs settings cls items
    return .list info items
  | .declaration info name declaredType initializer => do
    let initializer ← initializer.lower settings cls
    return .declaration info name declaredType initializer
  | .cast info type operand => do
    let operand ← operand.lower settings cls
    return .cast info type operand
  | .unary info op operand => do
    let operand ← operand.lower settings cls
    return .unary info op operand

def lowerExprs (settings : Settings) (cls : TypeId) : List Expr → LowerM (List Expr)
  | [] => return []
  | e :: rest => do
    let e ← e.lower settings cls
    let rest ← lowerExprs settings cls rest
    return e :: rest

def lowerEntries (settings : Settings) (cls : TypeId) : List Entry → LowerM (List Entry)
  | [] => return []
  | .mk key value span :: rest => do
    let key ← key.lower settings cls
    let value ← value.lower settings cls
    let rest ← lowerEntries settings cls rest
    return .mk key value span :: rest

def Stmt.lower (settings : Settings) (cls : TypeId) : Stmt → LowerM Stmt
  | .expr value => do
    let value ← value.lower settings cls
    return .expr value
  | .block body => do
    let body ← lowerStmts settings cls body
    return .block body
  | .ret none span => return .ret none span
  | .ret (some value) span => do
    let value ← value.lower settings cls
    return .ret (some value) span
  | .ifElse condition yes none => do
    let condition ← condition.lower settings cls
    let yes ← lowerStmts settings cls yes
    return .ifElse condition yes none
  | .ifElse condition yes (some no) => do
    let condition ← condition.lower settings cls
    let yes ← lowerStmts settings cls yes
    let no ← lowerStmts settings cls no
    return .ifElse condition yes (some no)
  | .whileLoop condition body => do
    let condition ← condition.lower settings cls
    let body ← lowerStmts settings cls body
    return .whileLoop condition body
  | .forIn loopVar iterable body => do
    let iterable ← iterable.lower settings cls
    let body ← lowerStmts settings cls body
    return .forIn loopVar iterable body
  | .throw value => do
    let value ← value.lower settings cls
    return .throw value

def lowerStmts (settings : Settings) (cls : TypeId) : List Stmt → LowerM (List Stmt)
  | [] => return []
  | s :: rest => do
    let s ← s.lower settings cls
    let rest ← lowerStmts settings cls rest
    return s :: rest

end

end StaticDispatch
