import StaticDispatch.Lowering.Unit
import StaticDispatch.Proofs.Tree.Forest

/-!
# What every lowering keeps

A session lowers expressions and units one after the other.  Whatever holds
between the trees before and after, and between the session before and after,
holds of such a run as soon as every single node keeps it: a node that no rule
looks at, a node that a rule takes, and a closure, whose scope may be renewed.
The recursion over expressions, statements, units and runs is done here once.
-/

namespace StaticDispatch

/-! ## Tasks -/

/-- What a session is asked to lower: an expression in the body of a class, or a whole unit. -/
inductive Task where
  | expr (cls : TypeId) (e : Expr)
  | whole (unit : CompilationUnit)

/-- The expressions that a lowering of the unit works through; there are none in a field by
itself, which is rejected. -/
def CompilationUnit.exprs : CompilationUnit → List Expr
  | .classUnit unit => unit.exprs
  | .methodUnit unit => unit.exprs
  | .fieldUnit _ => []

def Task.exprs : Task → List Expr
  | .expr _ e => [e]
  | .whole unit => unit.exprs

def Task.lower (settings : Settings) : Task → LowerM (Except LoweringError Task)
  | .expr cls e => do
    let e ← e.lower settings cls
    return .ok (.expr cls e)
  | .whole unit => do
    let outcome ← unit.lower settings
    return outcome.map .whole

def lowerTasks (settings : Settings) : List Task → LowerM (List (Except LoweringError Task))
  | [] => return []
  | task :: rest => do
    let outcome ← task.lower settings
    let rest ← lowerTasks settings rest
    return outcome :: rest

def outputExprs : Except LoweringError Task → List Expr
  | .ok task => task.exprs
  | .error _ => []

/-- A task is turned down exactly when it is a field by itself. -/
theorem Task.lower_eq_error_iff (settings : Settings) (task : Task) (session : Session) :
    (∃ error, ((task.lower settings).run session).1 = .error error) ↔
      ∃ field, task = .whole (.fieldUnit field) := by
  constructor
  · rintro ⟨error, h⟩
    match task with
    | .whole (.fieldUnit field) => exact ⟨field, rfl⟩
    | .expr cls e => exact nomatch h
    | .whole (.classUnit unit) => exact nomatch h
    | .whole (.methodUnit unit) => exact nomatch h
  · rintro ⟨field, rfl⟩
    exact ⟨_, rfl⟩

/-- The scope of a closure stays where its body drew no name, and else is worked out and
recorded. -/
theorem run_renewScope (before : Nat) (params : List Param) (body : Block)
    (scope : Option VariableScope) (session : Session) :
    (renewScope before params body scope).run session =
      if session.nextName = before then (scope, session)
      else
        (some (.ofClosure params body),
          { session with scopes := session.scopes ++ [.ofClosure params body] }) := by
  change (if session.nextName = before then (pure scope : LowerM _) else _).run session = _
  split <;> rfl

/-! ## Nodes that no rule looks at -/

/-- Two nodes of the same kind and with the same facts whose children may differ, of a kind
that neither a rule nor the renewal of scopes looks at. -/
inductive Expr.SameFrame : Expr → Expr → Prop
  | literal (info : Info) (value : Literal) : SameFrame (.literal info value) (.literal info value)
  | var (info : Info) (name : String) (type : Option TypeId) :
      SameFrame (.var info name type) (.var info name type)
  | this (info : Info) : SameFrame (.this info) (.this info)
  | classRef (info : Info) (type : TypeId) :
      SameFrame (.classRef info type) (.classRef info type)
  | property (info : Info) (receiver receiver' : Expr) (name : String) :
      SameFrame (.property info receiver name) (.property info receiver' name)
  | ternary (info : Info) (condition condition' yes yes' no no' : Expr) :
      SameFrame (.ternary info condition yes no) (.ternary info condition' yes' no')
  | block (info : Info) (body body' : List Stmt) :
      SameFrame (.block info body) (.block info body')
  | map (info : Info) (entries entries' : List Entry) :
      SameFrame (.map info entries) (.map info entries')
  | list (info : Info) (items items' : List Expr) :
      SameFrame (.list info items) (.list info items')
  | declaration (info : Info) (name : String) (type : Option TypeId)
      (initializer initializer' : Expr) :
      SameFrame (.declaration info name type initializer) (.declaration info name type initializer')
  | cast (info : Info) (type : TypeId) (operand operand' : Expr) :
      SameFrame (.cast info type operand) (.cast info type operand')
  | unary (info : Info) (op : UnaryOp) (operand operand' : Expr) :
      SameFrame (.unary info op operand) (.unary info op operand')

/-! ## Invariants -/

/-- What holds between trees with the session before their lowering in the body of a class and
what became of them with the session after it, and is kept by every node. -/
structure TreeInvariant (settings : Settings) (cls : TypeId)
    (Holds : List Expr → Session → List Expr → Session → Prop) : Prop where
  unchanged : ∀ session, Holds [] session [] session
  append : ∀ {es es' fs fs' : List Expr} {s s' s'' : Session},
    Holds es s es' s' → Holds fs s' fs' s'' → Holds (es ++ fs) s (es' ++ fs') s''
  frame : ∀ {e e' : Expr} {s s' : Session}, e.SameFrame e' →
    Holds e.children s e'.children s' → Holds [e] s [e'] s'
  methodCall : ∀ info name safe spread {receiver receiver' : Expr} {args args' : List Expr}
      {s s' : Session}, Holds (receiver :: args) s (receiver' :: args') s' →
    let out := (lowerMethodCall settings cls info receiver' name args' safe spread).run s'
    Holds [.methodCall info receiver name args safe spread] s [out.1] out.2
  staticCall : ∀ info owner name {args args' : List Expr} {s s' : Session},
    Holds args s args' s' →
    let out := (lowerStaticCall settings info owner name args').run s'
    Holds [.staticCall info owner name args] s [out.1] out.2
  constructorCall : ∀ info type args s,
    let args' := (lowerExprs settings cls args).run s
    Holds args s args'.1 args'.2 →
    let out := (lowerConstructorCall settings info type args'.1).run args'.2
    Holds [.constructorCall info type args] s [out.1] out.2
  binary : ∀ info op opSpan left right s,
    let left' := (left.lower settings cls).run s
    let right' := (right.lower settings cls).run left'.2
    Holds [left, right] s [left'.1, right'.1] right'.2 →
    let out := (lowerBinary settings cls info op opSpan left'.1 right'.1).run right'.2
    Holds [.binary info op opSpan left right] s [out.1] out.2
  closure : ∀ info params body scope s,
    let body' := (lowerStmts settings cls body).run s
    Holds (exprsOfStmts body) s (exprsOfStmts body'.1) body'.2 →
    let scope' := (renewScope s.nextName params body'.1 scope).run body'.2
    Holds [.closure info params body scope] s [.closure info params body'.1 scope'.1] scope'.2

namespace TreeInvariant

variable {settings : Settings} {cls : TypeId}
  {Holds : List Expr → Session → List Expr → Session → Prop} (h : TreeInvariant settings cls Holds)

include h

mutual

theorem lower : (e : Expr) → (s : Session) →
    Holds [e] s [((e.lower settings cls).run s).1] ((e.lower settings cls).run s).2
  | .literal info value, s => h.frame (.literal info value) (h.unchanged s)
  | .var info name type, s => h.frame (.var info name type) (h.unchanged s)
  | .this info, s => h.frame (.this info) (h.unchanged s)
  | .classRef info type, s => h.frame (.classRef info type) (h.unchanged s)
  | .property info receiver name, s =>
      h.frame (.property info receiver _ name) (lower receiver s)
  | .methodCall info receiver name args safe spread, s =>
      h.methodCall info name safe spread (h.append (lower receiver s) (lowerExprs args _))
  | .staticCall info owner name args, s =>
      h.staticCall info owner name (lowerExprs args s)
  | .constructorCall info type args, s =>
      h.constructorCall info type args s (lowerExprs args s)
  | .binary info op opSpan left right, s =>
      h.binary info op opSpan left right s (h.append (lower left s) (lower right _))
  | .ternary info condition yes no, s =>
      h.frame (.ternary info condition _ yes _ no _)
        (h.append (lower condition s) (h.append (lower yes _) (lower no _)))
  | .closure info params body scope, s =>
      h.closure info params body scope s (lowerStmts body s)
  | .block info body, s => h.frame (.block info body _) (lowerStmts body s)
  | .map info entries, s => h.frame (.map info entries _) (lowerEntries entries s)
  | .list info items, s => h.frame (.list info items _) (lowerExprs items s)
  | .declaration info name type initializer, s =>
      h.frame (.declaration info name type initializer _) (lower initializer s)
  | .cast info type operand, s => h.frame (.cast info type operand _) (lower operand s)
  | .unary info op operand, s => h.frame (.unary info op operand _) (lower operand s)

theorem lowerExprs : (es : List Expr) → (s : Session) →
    Holds es s ((StaticDispatch.lowerExprs settings cls es).run s).1
      ((StaticDispatch.lowerExprs settings cls es).run s).2
  | [], s => h.unchanged s
  | e :: rest, s => h.append (lower e s) (lowerExprs rest _)

theorem lowerEntries : (entries : List Entry) → (s : Session) →
    Holds (exprsOfEntries entries) s
      (exprsOfEntries ((StaticDispatch.lowerEntries settings cls entries).run s).1)
      ((StaticDispatch.lowerEntries settings cls entries).run s).2
  | [], s => h.unchanged s
  | .mk key value _ :: rest, s =>
      h.append (lower key s) (h.append (lower value _) (lowerEntries rest _))

theorem lowerStmt : (stmt : Stmt) → (s : Session) →
    Holds stmt.exprs s ((stmt.lower settings cls).run s).1.exprs
      ((stmt.lower settings cls).run s).2
  | .expr value, s => lower value s
  | .block body, s => lowerStmts body s
  | .ret none _, s => h.unchanged s
  | .ret (some value) _, s => lower value s
  | .ifElse condition yes none, s => h.append (lower condition s) (lowerStmts yes _)
  | .ifElse condition yes (some no), s =>
      h.append (lower condition s) (h.append (lowerStmts yes _) (lowerStmts no _))
  | .whileLoop condition body, s => h.append (lower condition s) (lowerStmts body _)
  | .forIn _ iterable body, s => h.append (lower iterable s) (lowerStmts body _)
  | .throw value, s => lower value s

theorem lowerStmts : (body : List Stmt) → (s : Session) →
    Holds (exprsOfStmts body) s
      (exprsOfStmts ((StaticDispatch.lowerStmts settings cls body).run s).1)
      ((StaticDispatch.lowerStmts settings cls body).run s).2
  | [], s => h.unchanged s
  | stmt :: rest, s => h.append (lowerStmt stmt s) (lowerStmts rest _)

end

/-! ### Members -/

theorem fieldUnit (field : FieldUnit) (s : Session) :
    Holds field.exprs s ((field.lower settings cls).run s).1.exprs
      ((field.lower settings cls).run s).2 :=
  match field with
  | { initializer := none, .. } => h.unchanged s
  | { initializer := some initializer, .. } => h.lower initializer s

theorem methodUnit (method : MethodUnit) (s : Session) :
    Holds method.exprs s ((method.lower settings cls).run s).1.exprs
      ((method.lower settings cls).run s).2 :=
  h.lowerStmts method.body s

theorem lowerFields (fields : List FieldUnit) (s : Session) :
    let out := (StaticDispatch.lowerFields settings cls fields).run s
    Holds (fields.flatMap FieldUnit.exprs) s (out.1.flatMap FieldUnit.exprs) out.2 := by
  induction fields generalizing s with
  | nil => exact h.unchanged s
  | cons field rest ih => exact h.append (h.fieldUnit field s) (ih _)

theorem lowerMethods (methods : List MethodUnit) (s : Session) :
    let out := (StaticDispatch.lowerMethods settings cls methods).run s
    Holds (methods.flatMap MethodUnit.exprs) s (out.1.flatMap MethodUnit.exprs) out.2 := by
  induction methods generalizing s with
  | nil => exact h.unchanged s
  | cons method rest ih => exact h.append (h.methodUnit method s) (ih _)

end TreeInvariant

/-! ## Units and runs -/

/-- What is kept by every node in the body of every class, and by what is only reported. -/
structure LoweringInvariant (settings : Settings)
    (Holds : List Expr → Session → List Expr → Session → Prop) : Prop where
  /-- Nothing is lowered, at most something is reported. -/
  nil : ∀ session diagnostics, Holds [] session [] { session with diagnostics }
  append : ∀ {es es' fs fs' : List Expr} {s s' s'' : Session},
    Holds es s es' s' → Holds fs s' fs' s'' → Holds (es ++ fs) s (es' ++ fs') s''
  frame : ∀ {e e' : Expr} {s s' : Session}, e.SameFrame e' →
    Holds e.children s e'.children s' → Holds [e] s [e'] s'
  methodCall : ∀ cls info name safe spread {receiver receiver' : Expr} {args args' : List Expr}
      {s s' : Session}, Holds (receiver :: args) s (receiver' :: args') s' →
    let out := (lowerMethodCall settings cls info receiver' name args' safe spread).run s'
    Holds [.methodCall info receiver name args safe spread] s [out.1] out.2
  staticCall : ∀ info owner name {args args' : List Expr} {s s' : Session},
    Holds args s args' s' →
    let out := (lowerStaticCall settings info owner name args').run s'
    Holds [.staticCall info owner name args] s [out.1] out.2
  constructorCall : ∀ cls info type args s,
    let args' := (lowerExprs settings cls args).run s
    Holds args s args'.1 args'.2 →
    let out := (lowerConstructorCall settings info type args'.1).run args'.2
    Holds [.constructorCall info type args] s [out.1] out.2
  binary : ∀ cls info op opSpan left right s,
    let left' := (left.lower settings cls).run s
    let right' := (right.lower settings cls).run left'.2
    Holds [left, right] s [left'.1, right'.1] right'.2 →
    let out := (lowerBinary settings cls info op opSpan left'.1 right'.1).run right'.2
    Holds [.binary info op opSpan left right] s [out.1] out.2
  closure : ∀ cls info params body scope s,
    let body' := (lowerStmts settings cls body).run s
    Holds (exprsOfStmts body) s (exprsOfStmts body'.1) body'.2 →
    let scope' := (renewScope s.nextName params body'.1 scope).run body'.2
    Holds [.closure info params body scope] s [.closure info params body'.1 scope'.1] scope'.2

namespace LoweringInvariant

variable {settings : Settings} {Holds : List Expr → Session → List Expr → Session → Prop}
  (h : LoweringInvariant settings Holds)

include h

theorem tree (cls : TypeId) : TreeInvariant settings cls Holds where
  unchanged session := h.nil session session.diagnostics
  append := h.append
  frame := h.frame
  methodCall := h.methodCall cls
  staticCall := h.staticCall
  constructorCall := h.constructorCall cls
  binary := h.binary cls
  closure := h.closure cls

mutual

theorem classUnit : (unit : ClassUnit) → (s : Session) →
    Holds unit.exprs s ((unit.lower settings).run s).1.exprs ((unit.lower settings).run s).2
  | .mk type fields constructors methods inner _, s =>
      h.append ((h.tree type).lowerFields fields s)
        (h.append ((h.tree type).lowerMethods constructors _)
          (h.append ((h.tree type).lowerMethods methods _) (lowerClasses inner _)))

theorem lowerClasses : (units : List ClassUnit) → (s : Session) →
    Holds (exprsOfClasses units) s
      (exprsOfClasses ((StaticDispatch.lowerClasses settings units).run s).1)
      ((StaticDispatch.lowerClasses settings units).run s).2
  | [], s => h.nil s s.diagnostics
  | unit :: rest, s => h.append (classUnit unit s) (lowerClasses rest _)

end

theorem task (task : Task) (s : Session) :
    Holds task.exprs s (outputExprs ((task.lower settings).run s).1)
      ((task.lower settings).run s).2 :=
  match task with
  | .expr cls e => (h.tree cls).lower e s
  | .whole (.classUnit unit) => h.classUnit unit s
  | .whole (.methodUnit unit) => (h.tree unit.declaringType).methodUnit unit s
  | .whole (.fieldUnit _) => h.nil s _

theorem lowerTasks (tasks : List Task) (s : Session) :
    let out := (StaticDispatch.lowerTasks settings tasks).run s
    Holds (tasks.flatMap Task.exprs) s (out.1.flatMap outputExprs) out.2 := by
  induction tasks generalizing s with
  | nil => exact h.nil s s.diagnostics
  | cons task rest ih => exact h.append (h.task task s) (ih _)

end LoweringInvariant

end StaticDispatch
