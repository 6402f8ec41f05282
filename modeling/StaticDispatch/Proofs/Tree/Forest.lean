import StaticDispatch.Proofs.Tree.Nodes

/-!
# Trees as sequences of trees

The expressions right below an expression, in the order in which they are
evaluated, whatever statements and map entries stand between.  A statement, a
body or a unit is the sequence of the expressions in it, so that what is true of
all nodes or all closures of a sequence is stated once for all of them.
-/

namespace StaticDispatch

/-! ## Children -/

def exprsOfEntries : List Entry → List Expr
  | [] => []
  | .mk key value _ :: rest => key :: value :: exprsOfEntries rest

mutual

/-- The expressions of a statement, those of the statements in it included. -/
def Stmt.exprs : Stmt → List Expr
  | .expr value => [value]
  | .block body => exprsOfStmts body
  | .ret none _ => []
  | .ret (some value) _ => [value]
  | .ifElse condition yes none => condition :: exprsOfStmts yes
  | .ifElse condition yes (some no) => condition :: (exprsOfStmts yes ++ exprsOfStmts no)
  | .whileLoop condition body => condition :: exprsOfStmts body
  | .forIn _ iterable body => iterable :: exprsOfStmts body
  | .throw value => [value]

def exprsOfStmts : List Stmt → List Expr
  | [] => []
  | s :: rest => s.exprs ++ exprsOfStmts rest

end

theorem exprsOfStmts_append (before after : List Stmt) :
    exprsOfStmts (before ++ after) = exprsOfStmts before ++ exprsOfStmts after := by
  induction before with
  | nil => rfl
  | cons s rest ih =>
      simp only [List.cons_append, exprsOfStmts, ih, List.append_assoc]

def Expr.children : Expr → List Expr
  | .literal _ _ => []
  | .var _ _ _ => []
  | .this _ => []
  | .classRef _ _ => []
  | .property _ receiver _ => [receiver]
  | .methodCall _ receiver _ args _ _ => receiver :: args
  | .staticCall _ _ _ args => args
  | .constructorCall _ _ args => args
  | .binary _ _ _ left right => [left, right]
  | .ternary _ condition yes no => [condition, yes, no]
  | .closure _ _ body _ => exprsOfStmts body
  | .block _ body => exprsOfStmts body
  | .map _ entries => exprsOfEntries entries
  | .list _ items => items
  | .declaration _ _ _ initializer => [initializer]
  | .cast _ _ operand => [operand]
  | .unary _ _ operand => [operand]

/-! ## Nodes of a sequence -/

@[simp] theorem nodesOfExprs_cons (e : Expr) (rest : List Expr) :
    nodesOfExprs (e :: rest) = e.nodes ++ nodesOfExprs rest := rfl

@[simp] theorem nodesOfExprs_append (es fs : List Expr) :
    nodesOfExprs (es ++ fs) = nodesOfExprs es ++ nodesOfExprs fs := by
  induction es with
  | nil => rfl
  | cons e rest ih =>
      simp only [List.cons_append, nodesOfExprs_cons, ih, List.append_assoc]

theorem nodesOfEntries_eq (entries : List Entry) :
    nodesOfEntries entries = nodesOfExprs (exprsOfEntries entries) := by
  induction entries with
  | nil => rfl
  | cons entry rest ih =>
      obtain ⟨key, value, span⟩ := entry
      simp only [nodesOfEntries, exprsOfEntries, nodesOfExprs_cons, ih]

mutual

theorem Stmt.nodes_eq : (s : Stmt) → s.nodes = nodesOfExprs s.exprs
  | .expr value => by simp [Stmt.nodes, Stmt.exprs, nodesOfExprs]
  | .block body => nodesOfStmts_eq body
  | .ret none _ => rfl
  | .ret (some value) _ => by simp [Stmt.nodes, Stmt.exprs, nodesOfExprs]
  | .ifElse condition yes none => by
      simp only [Stmt.nodes, Stmt.exprs, nodesOfExprs_cons, nodesOfStmts_eq yes]
  | .ifElse condition yes (some no) => by
      simp only [Stmt.nodes, Stmt.exprs, nodesOfExprs_cons, nodesOfExprs_append,
        nodesOfStmts_eq yes, nodesOfStmts_eq no]
  | .whileLoop condition body => by
      simp only [Stmt.nodes, Stmt.exprs, nodesOfExprs_cons, nodesOfStmts_eq body]
  | .forIn _ iterable body => by
      simp only [Stmt.nodes, Stmt.exprs, nodesOfExprs_cons, nodesOfStmts_eq body]
  | .throw value => by simp [Stmt.nodes, Stmt.exprs, nodesOfExprs]

theorem nodesOfStmts_eq : (body : List Stmt) → nodesOfStmts body = nodesOfExprs (exprsOfStmts body)
  | [] => rfl
  | s :: rest => by
      simp only [nodesOfStmts, exprsOfStmts, nodesOfExprs_append, s.nodes_eq, nodesOfStmts_eq rest]

end

theorem Expr.nodes_eq (e : Expr) : e.nodes = e :: nodesOfExprs e.children := by
  cases e with
  | closure info params body scope => simp only [Expr.nodes, Expr.children, nodesOfStmts_eq]
  | block info body => simp only [Expr.nodes, Expr.children, nodesOfStmts_eq]
  | map info entries => simp only [Expr.nodes, Expr.children, nodesOfEntries_eq]
  | _ => simp [Expr.nodes, Expr.children, nodesOfExprs]

/-! ## Counting nodes -/

/-- The number of nodes of a kind in the expression. -/
def Expr.countOf (kind : Expr → Bool) (e : Expr) : Nat :=
  e.nodes.countP kind

def countOfExprs (kind : Expr → Bool) (es : List Expr) : Nat :=
  (nodesOfExprs es).countP kind

section Counts

variable (kind : Expr → Bool)

@[simp] theorem countOfExprs_nil : countOfExprs kind [] = 0 := rfl

@[simp] theorem countOfExprs_cons (e : Expr) (rest : List Expr) :
    countOfExprs kind (e :: rest) = e.countOf kind + countOfExprs kind rest := by
  simp [countOfExprs, Expr.countOf]

@[simp] theorem countOfExprs_append (es fs : List Expr) :
    countOfExprs kind (es ++ fs) = countOfExprs kind es + countOfExprs kind fs := by
  simp [countOfExprs]

end Counts

theorem Expr.countOf_eq (e : Expr) (kind : Expr → Bool) :
    e.countOf kind = countOfExprs kind e.children + (kind e).toNat := by
  unfold Expr.countOf countOfExprs
  rw [e.nodes_eq]
  cases hkind : kind e <;> simp [hkind]

/-! ## Closures -/

mutual

/-- The closures of the expression from left to right, each after the closures in its body. -/
def Expr.closures : Expr → List Expr
  | .literal _ _ => []
  | .var _ _ _ => []
  | .this _ => []
  | .classRef _ _ => []
  | .property _ receiver _ => receiver.closures
  | .methodCall _ receiver _ args _ _ => receiver.closures ++ closuresOfExprs args
  | .staticCall _ _ _ args => closuresOfExprs args
  | .constructorCall _ _ args => closuresOfExprs args
  | .binary _ _ _ left right => left.closures ++ right.closures
  | .ternary _ condition yes no => condition.closures ++ (yes.closures ++ no.closures)
  | .closure info params body scope => closuresOfStmts body ++ [.closure info params body scope]
  | .block _ body => closuresOfStmts body
  | .map _ entries => closuresOfEntries entries
  | .list _ items => closuresOfExprs items
  | .declaration _ _ _ initializer => initializer.closures
  | .cast _ _ operand => operand.closures
  | .unary _ _ operand => operand.closures

def closuresOfExprs : List Expr → List Expr
  | [] => []
  | e :: rest => e.closures ++ closuresOfExprs rest

def closuresOfEntries : List Entry → List Expr
  | [] => []
  | .mk key value _ :: rest => key.closures ++ (value.closures ++ closuresOfEntries rest)

def Stmt.closures : Stmt → List Expr
  | .expr value => value.closures
  | .block body => closuresOfStmts body
  | .ret none _ => []
  | .ret (some value) _ => value.closures
  | .ifElse condition yes none => condition.closures ++ closuresOfStmts yes
  | .ifElse condition yes (some no) =>
      condition.closures ++ (closuresOfStmts yes ++ closuresOfStmts no)
  | .whileLoop condition body => condition.closures ++ closuresOfStmts body
  | .forIn _ iterable body => iterable.closures ++ closuresOfStmts body
  | .throw value => value.closures

def closuresOfStmts : List Stmt → List Expr
  | [] => []
  | s :: rest => s.closures ++ closuresOfStmts rest

end

@[simp] theorem closuresOfExprs_nil : closuresOfExprs [] = [] := rfl

@[simp] theorem closuresOfExprs_cons (e : Expr) (rest : List Expr) :
    closuresOfExprs (e :: rest) = e.closures ++ closuresOfExprs rest := rfl

@[simp] theorem closuresOfExprs_append (es fs : List Expr) :
    closuresOfExprs (es ++ fs) = closuresOfExprs es ++ closuresOfExprs fs := by
  induction es with
  | nil => rfl
  | cons e rest ih =>
      simp only [List.cons_append, closuresOfExprs_cons, ih, List.append_assoc]

theorem closuresOfEntries_eq (entries : List Entry) :
    closuresOfEntries entries = closuresOfExprs (exprsOfEntries entries) := by
  induction entries with
  | nil => rfl
  | cons entry rest ih =>
      obtain ⟨key, value, span⟩ := entry
      simp only [closuresOfEntries, exprsOfEntries, closuresOfExprs_cons, ih]

mutual

theorem Stmt.closures_eq : (s : Stmt) → s.closures = closuresOfExprs s.exprs
  | .expr value => by simp [Stmt.closures, Stmt.exprs, closuresOfExprs]
  | .block body => closuresOfStmts_eq body
  | .ret none _ => rfl
  | .ret (some value) _ => by simp [Stmt.closures, Stmt.exprs, closuresOfExprs]
  | .ifElse condition yes none => by
      simp only [Stmt.closures, Stmt.exprs, closuresOfExprs_cons, closuresOfStmts_eq yes]
  | .ifElse condition yes (some no) => by
      simp only [Stmt.closures, Stmt.exprs, closuresOfExprs_cons, closuresOfExprs_append,
        closuresOfStmts_eq yes, closuresOfStmts_eq no]
  | .whileLoop condition body => by
      simp only [Stmt.closures, Stmt.exprs, closuresOfExprs_cons, closuresOfStmts_eq body]
  | .forIn _ iterable body => by
      simp only [Stmt.closures, Stmt.exprs, closuresOfExprs_cons, closuresOfStmts_eq body]
  | .throw value => by simp [Stmt.closures, Stmt.exprs, closuresOfExprs]

theorem closuresOfStmts_eq :
    (body : List Stmt) → closuresOfStmts body = closuresOfExprs (exprsOfStmts body)
  | [] => rfl
  | s :: rest => by
      simp only [closuresOfStmts, exprsOfStmts, closuresOfExprs_append, s.closures_eq,
        closuresOfStmts_eq rest]

end

def Expr.isClosure : Expr → Bool
  | .closure _ _ _ _ => true
  | _ => false

theorem Expr.closures_eq (e : Expr) :
    e.closures = closuresOfExprs e.children ++ [e].filter Expr.isClosure := by
  cases e with
  | closure info params body scope =>
      rw [Expr.closures, Expr.children, closuresOfStmts_eq]
      rfl
  | block info body => simp [Expr.closures, Expr.children, Expr.isClosure, closuresOfStmts_eq]
  | map info entries =>
      simp [Expr.closures, Expr.children, Expr.isClosure, closuresOfEntries_eq]
  | _ => simp [Expr.closures, Expr.children, Expr.isClosure, closuresOfExprs]

/-! ## Units -/

def FieldUnit.exprs (field : FieldUnit) : List Expr :=
  field.initializer.toList

def MethodUnit.exprs (method : MethodUnit) : List Expr :=
  exprsOfStmts method.body

mutual

/-- The expressions of all members, those of inner classes last. -/
def ClassUnit.exprs : ClassUnit → List Expr
  | .mk _ fields constructors methods inner _ =>
      fields.flatMap FieldUnit.exprs ++ (constructors.flatMap MethodUnit.exprs ++
        (methods.flatMap MethodUnit.exprs ++ exprsOfClasses inner))

def exprsOfClasses : List ClassUnit → List Expr
  | [] => []
  | unit :: rest => unit.exprs ++ exprsOfClasses rest

end

end StaticDispatch
