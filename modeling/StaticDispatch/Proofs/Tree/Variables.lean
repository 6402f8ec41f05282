import StaticDispatch.Proofs.Tree.Nodes

/-!
# Free names and writes to the scope around

Which variables a tree takes from around it, and which it declares or assigns
in the very scope that it is evaluated in.  Closures and loops bind names of
their own; blocks, branches and closures have scopes of their own.
-/

namespace StaticDispatch

/-! ## Free names -/

/-- The names that a call of a closure binds. -/
def closureNames (params : List String) : List String :=
  if params.isEmpty then ["it"] else params

mutual

/-- The variables that the expression reads or assigns, outside of the closures and loops
that bind them. -/
def Expr.free : Expr → List String
  | .literal _ _ => []
  | .var _ name _ => [name]
  | .this _ => []
  | .classRef _ _ => []
  | .property _ receiver _ => receiver.free
  | .methodCall _ receiver _ args _ _ => receiver.free ++ freeOfExprs args
  | .staticCall _ _ _ args => freeOfExprs args
  | .constructorCall _ _ args => freeOfExprs args
  | .binary _ _ _ left right => left.free ++ right.free
  | .ternary _ condition yes no => condition.free ++ (yes.free ++ no.free)
  | .closure _ params body _ =>
      (freeOfStmts body).filter fun name => name ∉ closureNames (params.map Param.name)
  | .block _ body => freeOfStmts body
  | .map _ entries => freeOfEntries entries
  | .list _ items => freeOfExprs items
  | .declaration _ _ _ initializer => initializer.free
  | .cast _ _ operand => operand.free
  | .unary _ _ operand => operand.free

def freeOfExprs : List Expr → List String
  | [] => []
  | e :: rest => e.free ++ freeOfExprs rest

def freeOfEntries : List Entry → List String
  | [] => []
  | .mk key value _ :: rest => key.free ++ (value.free ++ freeOfEntries rest)

def Stmt.free : Stmt → List String
  | .expr value => value.free
  | .block body => freeOfStmts body
  | .ret none _ => []
  | .ret (some value) _ => value.free
  | .ifElse condition yes none => condition.free ++ freeOfStmts yes
  | .ifElse condition yes (some no) => condition.free ++ (freeOfStmts yes ++ freeOfStmts no)
  | .whileLoop condition body => condition.free ++ freeOfStmts body
  | .forIn loopVar iterable body =>
      iterable.free ++ (freeOfStmts body).filter fun name => name ≠ loopVar.name
  | .throw value => value.free

def freeOfStmts : List Stmt → List String
  | [] => []
  | s :: rest => s.free ++ freeOfStmts rest

end

mutual

theorem Expr.mem_names_of_mem_free {name : String} :
    (e : Expr) → name ∈ e.free → name ∈ e.names
  | .literal _ _, h => h
  | .var _ _ _, h => h
  | .this _, h => h
  | .classRef _ _, h => h
  | .property _ receiver _, h => receiver.mem_names_of_mem_free h
  | .methodCall _ receiver _ args _ _, h => by
      simp only [Expr.free, Expr.names, List.mem_append] at h ⊢
      exact h.imp receiver.mem_names_of_mem_free (mem_names_of_mem_freeOfExprs args)
  | .staticCall _ _ _ args, h => mem_names_of_mem_freeOfExprs args h
  | .constructorCall _ _ args, h => mem_names_of_mem_freeOfExprs args h
  | .binary _ _ _ left right, h => by
      simp only [Expr.free, Expr.names, List.mem_append] at h ⊢
      exact h.imp left.mem_names_of_mem_free right.mem_names_of_mem_free
  | .ternary _ condition yes no, h => by
      simp only [Expr.free, Expr.names, List.mem_append] at h ⊢
      exact h.imp condition.mem_names_of_mem_free
        (Or.imp yes.mem_names_of_mem_free no.mem_names_of_mem_free)
  | .closure _ params body _, h => by
      simp only [Expr.free, Expr.names, List.mem_append] at h ⊢
      exact .inr (mem_names_of_mem_freeOfStmts body (List.mem_filter.mp h).1)
  | .block _ body, h => mem_names_of_mem_freeOfStmts body h
  | .map _ entries, h => mem_names_of_mem_freeOfEntries entries h
  | .list _ items, h => mem_names_of_mem_freeOfExprs items h
  | .declaration _ _ _ initializer, h =>
      List.mem_cons_of_mem _ (initializer.mem_names_of_mem_free h)
  | .cast _ _ operand, h => operand.mem_names_of_mem_free h
  | .unary _ _ operand, h => operand.mem_names_of_mem_free h

theorem mem_names_of_mem_freeOfExprs {name : String} :
    (es : List Expr) → name ∈ freeOfExprs es → name ∈ namesOfExprs es
  | [], h => h
  | e :: rest, h => by
      simp only [freeOfExprs, namesOfExprs, List.mem_append] at h ⊢
      exact h.imp e.mem_names_of_mem_free (mem_names_of_mem_freeOfExprs rest)

theorem mem_names_of_mem_freeOfEntries {name : String} :
    (entries : List Entry) → name ∈ freeOfEntries entries → name ∈ namesOfEntries entries
  | [], h => h
  | .mk key value _ :: rest, h => by
      simp only [freeOfEntries, namesOfEntries, List.mem_append] at h ⊢
      exact h.imp key.mem_names_of_mem_free
        (Or.imp value.mem_names_of_mem_free (mem_names_of_mem_freeOfEntries rest))

theorem Stmt.mem_names_of_mem_free {name : String} :
    (s : Stmt) → name ∈ s.free → name ∈ s.names
  | .expr value, h => value.mem_names_of_mem_free h
  | .block body, h => mem_names_of_mem_freeOfStmts body h
  | .ret none _, h => h
  | .ret (some value) _, h => value.mem_names_of_mem_free h
  | .ifElse condition yes none, h => by
      simp only [Stmt.free, Stmt.names, List.mem_append] at h ⊢
      exact h.imp condition.mem_names_of_mem_free (mem_names_of_mem_freeOfStmts yes)
  | .ifElse condition yes (some no), h => by
      simp only [Stmt.free, Stmt.names, List.mem_append] at h ⊢
      exact h.imp condition.mem_names_of_mem_free
        (Or.imp (mem_names_of_mem_freeOfStmts yes) (mem_names_of_mem_freeOfStmts no))
  | .whileLoop condition body, h => by
      simp only [Stmt.free, Stmt.names, List.mem_append] at h ⊢
      exact h.imp condition.mem_names_of_mem_free (mem_names_of_mem_freeOfStmts body)
  | .forIn loopVar iterable body, h => by
      simp only [Stmt.free, Stmt.names, List.mem_append, List.mem_cons] at h ⊢
      rcases h with hiterable | hbody
      · exact .inr (.inl (iterable.mem_names_of_mem_free hiterable))
      · exact .inr (.inr (mem_names_of_mem_freeOfStmts body (List.mem_filter.mp hbody).1))
  | .throw value, h => value.mem_names_of_mem_free h

theorem mem_names_of_mem_freeOfStmts {name : String} :
    (body : List Stmt) → name ∈ freeOfStmts body → name ∈ namesOfStmts body
  | [], h => h
  | s :: rest, h => by
      simp only [freeOfStmts, namesOfStmts, List.mem_append] at h ⊢
      exact h.imp s.mem_names_of_mem_free (mem_names_of_mem_freeOfStmts rest)

end

/-! ## Writes to the scope around -/

/-- What an expression does to the names of the scope that it is evaluated in. -/
inductive ScopeWrite where
  | declares (name : String)
  | assigns (name : String)
deriving DecidableEq, Repr

/-- The variable that an assignment target is, if it is one. -/
def Expr.variableName? : Expr → Option String
  | .var _ name _ => some name
  | _ => none

def ScopeWrite.ofTarget (op : BinaryOp) (target : Expr) : List ScopeWrite :=
  match op with
  | .assign => (target.variableName?.map ScopeWrite.assigns).toList
  | .compound _ => (target.variableName?.map ScopeWrite.assigns).toList
  | _ => []

mutual

/-- The declarations and assignments of variables that are evaluated in the scope of the
expression itself. -/
def Expr.writes : Expr → List ScopeWrite
  | .literal _ _ => []
  | .var _ _ _ => []
  | .this _ => []
  | .classRef _ _ => []
  | .property _ receiver _ => receiver.writes
  | .methodCall _ receiver _ args _ _ => receiver.writes ++ writesOfExprs args
  | .staticCall _ _ _ args => writesOfExprs args
  | .constructorCall _ _ args => writesOfExprs args
  | .binary _ op _ left right =>
      ScopeWrite.ofTarget op left ++ (left.writes ++ right.writes)
  | .ternary _ condition yes no => condition.writes ++ (yes.writes ++ no.writes)
  | .closure _ _ _ _ => []
  | .block _ _ => []
  | .map _ entries => writesOfEntries entries
  | .list _ items => writesOfExprs items
  | .declaration _ name _ initializer => .declares name :: initializer.writes
  | .cast _ _ operand => operand.writes
  | .unary _ _ operand => operand.writes

def writesOfExprs : List Expr → List ScopeWrite
  | [] => []
  | e :: rest => e.writes ++ writesOfExprs rest

def writesOfEntries : List Entry → List ScopeWrite
  | [] => []
  | .mk key value _ :: rest => key.writes ++ (value.writes ++ writesOfEntries rest)

end

end StaticDispatch
