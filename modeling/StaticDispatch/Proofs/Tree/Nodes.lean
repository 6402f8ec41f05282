import StaticDispatch.Tree.Basic

/-!
# The nodes and the names of a tree

Every expression that stands anywhere in a tree, from the outside in and from
left to right, and every variable that a tree reads or declares.  Closure
bodies, blocks and the entries of map literals count, so that a property of all
nodes is a property of the whole tree.
-/

namespace StaticDispatch

mutual

/-- The expression and every expression below it. -/
def Expr.nodes : Expr → List Expr
  | .literal info value => [.literal info value]
  | .var info name declaredType => [.var info name declaredType]
  | .this info => [.this info]
  | .classRef info type => [.classRef info type]
  | .property info receiver name => .property info receiver name :: receiver.nodes
  | .methodCall info receiver name args safe spread =>
      .methodCall info receiver name args safe spread :: (receiver.nodes ++ nodesOfExprs args)
  | .staticCall info owner name args => .staticCall info owner name args :: nodesOfExprs args
  | .constructorCall info type args => .constructorCall info type args :: nodesOfExprs args
  | .binary info op opSpan left right =>
      .binary info op opSpan left right :: (left.nodes ++ right.nodes)
  | .ternary info condition yes no =>
      .ternary info condition yes no :: (condition.nodes ++ (yes.nodes ++ no.nodes))
  | .closure info params body scope => .closure info params body scope :: nodesOfStmts body
  | .block info body => .block info body :: nodesOfStmts body
  | .map info entries => .map info entries :: nodesOfEntries entries
  | .list info items => .list info items :: nodesOfExprs items
  | .declaration info name declaredType initializer =>
      .declaration info name declaredType initializer :: initializer.nodes
  | .cast info type operand => .cast info type operand :: operand.nodes
  | .unary info op operand => .unary info op operand :: operand.nodes

def nodesOfExprs : List Expr → List Expr
  | [] => []
  | e :: rest => e.nodes ++ nodesOfExprs rest

def nodesOfEntries : List Entry → List Expr
  | [] => []
  | .mk key value _ :: rest => key.nodes ++ (value.nodes ++ nodesOfEntries rest)

def Stmt.nodes : Stmt → List Expr
  | .expr value => value.nodes
  | .block body => nodesOfStmts body
  | .ret none _ => []
  | .ret (some value) _ => value.nodes
  | .ifElse condition yes none => condition.nodes ++ nodesOfStmts yes
  | .ifElse condition yes (some no) =>
      condition.nodes ++ (nodesOfStmts yes ++ nodesOfStmts no)
  | .whileLoop condition body => condition.nodes ++ nodesOfStmts body
  | .forIn _ iterable body => iterable.nodes ++ nodesOfStmts body
  | .throw value => value.nodes

def nodesOfStmts : List Stmt → List Expr
  | [] => []
  | s :: rest => s.nodes ++ nodesOfStmts rest

end

theorem Expr.mem_nodes_self (e : Expr) : e ∈ e.nodes := by
  cases e <;> simp [Expr.nodes]

theorem nodesOfStmts_append (before after : List Stmt) :
    nodesOfStmts (before ++ after) = nodesOfStmts before ++ nodesOfStmts after := by
  induction before with
  | nil => rfl
  | cons s rest ih =>
      simp only [List.cons_append, nodesOfStmts, ih, List.append_assoc]

/-! ## Names -/

mutual

/-- The variables that the expression reads or declares, parameters included. -/
def Expr.names : Expr → List String
  | .literal _ _ => []
  | .var _ name _ => [name]
  | .this _ => []
  | .classRef _ _ => []
  | .property _ receiver _ => receiver.names
  | .methodCall _ receiver _ args _ _ => receiver.names ++ namesOfExprs args
  | .staticCall _ _ _ args => namesOfExprs args
  | .constructorCall _ _ args => namesOfExprs args
  | .binary _ _ _ left right => left.names ++ right.names
  | .ternary _ condition yes no => condition.names ++ (yes.names ++ no.names)
  | .closure _ params body _ => params.map Param.name ++ namesOfStmts body
  | .block _ body => namesOfStmts body
  | .map _ entries => namesOfEntries entries
  | .list _ items => namesOfExprs items
  | .declaration _ name _ initializer => name :: initializer.names
  | .cast _ _ operand => operand.names
  | .unary _ _ operand => operand.names

def namesOfExprs : List Expr → List String
  | [] => []
  | e :: rest => e.names ++ namesOfExprs rest

def namesOfEntries : List Entry → List String
  | [] => []
  | .mk key value _ :: rest => key.names ++ (value.names ++ namesOfEntries rest)

def Stmt.names : Stmt → List String
  | .expr value => value.names
  | .block body => namesOfStmts body
  | .ret none _ => []
  | .ret (some value) _ => value.names
  | .ifElse condition yes none => condition.names ++ namesOfStmts yes
  | .ifElse condition yes (some no) =>
      condition.names ++ (namesOfStmts yes ++ namesOfStmts no)
  | .whileLoop condition body => condition.names ++ namesOfStmts body
  | .forIn loopVar iterable body => loopVar.name :: (iterable.names ++ namesOfStmts body)
  | .throw value => value.names

def namesOfStmts : List Stmt → List String
  | [] => []
  | s :: rest => s.names ++ namesOfStmts rest

end

/-! ## Nodes of units -/

def FieldUnit.nodes (field : FieldUnit) : List Expr :=
  match field.initializer with
  | none => []
  | some initializer => initializer.nodes

def MethodUnit.nodes (method : MethodUnit) : List Expr :=
  nodesOfStmts method.body

mutual

/-- The nodes of all members, those of inner classes included. -/
def ClassUnit.nodes : ClassUnit → List Expr
  | .mk _ fields constructors methods inner _ =>
      fields.flatMap FieldUnit.nodes ++ (constructors.flatMap MethodUnit.nodes ++
        (methods.flatMap MethodUnit.nodes ++ nodesOfClasses inner))

def nodesOfClasses : List ClassUnit → List Expr
  | [] => []
  | unit :: rest => unit.nodes ++ nodesOfClasses rest

end

end StaticDispatch
