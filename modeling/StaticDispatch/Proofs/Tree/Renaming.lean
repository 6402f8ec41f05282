import Mathlib.Data.List.Basic
import StaticDispatch.Tree.StaticType
import StaticDispatch.Proofs.Tree.Forest
import StaticDispatch.Proofs.Tree.Scan

/-!
# Renaming variables

A renaming acts on every variable that a tree reads or declares and on the
names that closure scopes list.  Names of properties, methods and fields are no
variables and stay.  No static type depends on a name, and the walk over names
goes along with a renaming that keeps different names apart.
-/

namespace StaticDispatch

/-! ## Trees -/

def VariableScope.rename (f : String → String) (scope : VariableScope) : VariableScope :=
  { declared := scope.declared.map f, captured := scope.captured.map f }

def Param.rename (f : String → String) (param : Param) : Param :=
  { param with name := f param.name }

mutual

def Expr.rename (f : String → String) : Expr → Expr
  | .literal info value => .literal info value
  | .var info name declaredType => .var info (f name) declaredType
  | .this info => .this info
  | .classRef info type => .classRef info type
  | .property info receiver name => .property info (receiver.rename f) name
  | .methodCall info receiver name args safe spread =>
      .methodCall info (receiver.rename f) name (renameExprs f args) safe spread
  | .staticCall info owner name args => .staticCall info owner name (renameExprs f args)
  | .constructorCall info type args => .constructorCall info type (renameExprs f args)
  | .binary info op opSpan left right =>
      .binary info op opSpan (left.rename f) (right.rename f)
  | .ternary info condition yes no =>
      .ternary info (condition.rename f) (yes.rename f) (no.rename f)
  | .closure info params body scope =>
      .closure info (params.map (Param.rename f)) (renameStmts f body)
        (scope.map (VariableScope.rename f))
  | .block info body => .block info (renameStmts f body)
  | .map info entries => .map info (renameEntries f entries)
  | .list info items => .list info (renameExprs f items)
  | .declaration info name declaredType initializer =>
      .declaration info (f name) declaredType (initializer.rename f)
  | .cast info type operand => .cast info type (operand.rename f)
  | .unary info op operand => .unary info op (operand.rename f)

def renameExprs (f : String → String) : List Expr → List Expr
  | [] => []
  | e :: rest => e.rename f :: renameExprs f rest

def renameEntries (f : String → String) : List Entry → List Entry
  | [] => []
  | .mk key value span :: rest =>
      .mk (key.rename f) (value.rename f) span :: renameEntries f rest

def Stmt.rename (f : String → String) : Stmt → Stmt
  | .expr value => .expr (value.rename f)
  | .block body => .block (renameStmts f body)
  | .ret none span => .ret none span
  | .ret (some value) span => .ret (some (value.rename f)) span
  | .ifElse condition yes none => .ifElse (condition.rename f) (renameStmts f yes) none
  | .ifElse condition yes (some no) =>
      .ifElse (condition.rename f) (renameStmts f yes) (some (renameStmts f no))
  | .whileLoop condition body => .whileLoop (condition.rename f) (renameStmts f body)
  | .forIn loopVar iterable body =>
      .forIn (loopVar.rename f) (iterable.rename f) (renameStmts f body)
  | .throw value => .throw (value.rename f)

def renameStmts (f : String → String) : List Stmt → List Stmt
  | [] => []
  | s :: rest => s.rename f :: renameStmts f rest

end

/-! ## Units -/

def FieldUnit.rename (f : String → String) (field : FieldUnit) : FieldUnit :=
  { field with initializer := field.initializer.map (Expr.rename f) }

def MethodUnit.rename (f : String → String) (method : MethodUnit) : MethodUnit :=
  { method with
    params := method.params.map (Param.rename f)
    body := renameStmts f method.body }

mutual

def ClassUnit.rename (f : String → String) : ClassUnit → ClassUnit
  | .mk type fields constructors methods inner span =>
      .mk type (fields.map (FieldUnit.rename f)) (constructors.map (MethodUnit.rename f))
        (methods.map (MethodUnit.rename f)) (renameClasses f inner) span

def renameClasses (f : String → String) : List ClassUnit → List ClassUnit
  | [] => []
  | unit :: rest => unit.rename f :: renameClasses f rest

end

def CompilationUnit.rename (f : String → String) : CompilationUnit → CompilationUnit
  | .classUnit unit => .classUnit (unit.rename f)
  | .methodUnit unit => .methodUnit (unit.rename f)
  | .fieldUnit unit => .fieldUnit (unit.rename f)

/-! ## What a renaming leaves -/

section Shapes

variable (f : String → String)

@[simp] theorem Expr.info_rename (e : Expr) : (e.rename f).info = e.info := by
  cases e <;> rfl

@[simp] theorem Expr.span_rename (e : Expr) : (e.rename f).span = e.span :=
  congrArg Info.span (e.info_rename f)

@[simp] theorem Expr.stringLiteral?_rename (e : Expr) :
    (e.rename f).stringLiteral? = e.stringLiteral? := by
  cases e <;> rfl

@[simp] theorem Expr.isSideEffectFree_rename (e : Expr) :
    (e.rename f).isSideEffectFree = e.isSideEffectFree := by
  cases e <;> rfl

theorem renameExprs_eq_map (es : List Expr) : renameExprs f es = es.map (Expr.rename f) := by
  induction es with
  | nil => rfl
  | cons e rest ih => exact congrArg _ ih

theorem renameStmts_eq_map (body : List Stmt) :
    renameStmts f body = body.map (Stmt.rename f) := by
  induction body with
  | nil => rfl
  | cons s rest ih => exact congrArg _ ih

theorem renameStmts_append (before after : List Stmt) :
    renameStmts f (before ++ after) = renameStmts f before ++ renameStmts f after := by
  simp only [renameStmts_eq_map, List.map_append]

theorem renameClasses_eq_map (units : List ClassUnit) :
    renameClasses f units = units.map (ClassUnit.rename f) := by
  induction units with
  | nil => rfl
  | cons unit rest ih => exact congrArg _ ih

/-- No static type depends on the names of variables. -/
@[simp] theorem Expr.staticType?_rename (types : TypeTable) (cls : TypeId) :
    (e : Expr) → (e.rename f).staticType? types cls = e.staticType? types cls
  | .property _ receiver _ => by
      simp only [Expr.rename, Expr.staticType?, receiver.staticType?_rename types cls]
  | .binary _ op _ left right => by
      simp only [Expr.rename, Expr.staticType?, left.staticType?_rename types cls,
        right.staticType?_rename types cls]
  | .ternary _ _ yes no => by
      simp only [Expr.rename, Expr.staticType?, yes.staticType?_rename types cls,
        no.staticType?_rename types cls]
  | .declaration _ _ _ initializer => by
      simp only [Expr.rename, Expr.staticType?, initializer.staticType?_rename types cls]
  | .unary _ op operand => by
      simp only [Expr.rename, Expr.staticType?, operand.staticType?_rename types cls]
  | .literal .. | .var .. | .this _ | .classRef .. | .methodCall .. | .staticCall ..
  | .constructorCall .. | .closure .. | .block .. | .map .. | .list .. | .cast .. => rfl

end Shapes

/-! ## Names that a renaming fixes -/

/-- The names that the scopes of closures in the tree list. -/
def scopeNames (closures : List Expr) : List String :=
  closures.flatMap fun closure =>
    match closure with
    | .closure _ _ _ (some scope) => scope.declared ++ scope.captured
    | _ => []

theorem scopeNames_append (before after : List Expr) :
    scopeNames (before ++ after) = scopeNames before ++ scopeNames after :=
  List.flatMap_append

section Fixed

variable {f : String → String}

theorem map_eq_self {α : Type} {g : α → α} {items : List α} (h : ∀ item ∈ items, g item = item) :
    items.map g = items :=
  (List.map_congr_left h).trans (List.map_id items)

theorem Param.rename_eq_self {param : Param} (h : f param.name = param.name) :
    param.rename f = param := by
  unfold Param.rename
  rw [h]

theorem VariableScope.rename_eq_self {scope : VariableScope}
    (h : ∀ name ∈ scope.declared ++ scope.captured, f name = name) :
    scope.rename f = scope := by
  rw [List.forall_mem_append] at h
  unfold rename
  rw [map_eq_self h.1, map_eq_self h.2]

mutual

theorem Expr.rename_eq_self : (e : Expr) → (∀ name ∈ e.names, f name = name) →
    (∀ name ∈ scopeNames e.closures, f name = name) → e.rename f = e
  | .literal _ _, _, _ => rfl
  | .var info name _, hnames, _ => by
      rw [Expr.rename, hnames name List.mem_cons_self]
  | .this _, _, _ => rfl
  | .classRef _ _, _, _ => rfl
  | .property _ receiver _, hnames, hscopes => by
      rw [Expr.rename, receiver.rename_eq_self hnames hscopes]
  | .methodCall _ receiver _ args _ _, hnames, hscopes => by
      simp only [Expr.names, Expr.closures, scopeNames_append, List.forall_mem_append]
        at hnames hscopes
      rw [Expr.rename, receiver.rename_eq_self hnames.1 hscopes.1,
        renameExprs_eq_self args hnames.2 hscopes.2]
  | .staticCall _ _ _ args, hnames, hscopes => by
      rw [Expr.rename, renameExprs_eq_self args hnames hscopes]
  | .constructorCall _ _ args, hnames, hscopes => by
      rw [Expr.rename, renameExprs_eq_self args hnames hscopes]
  | .binary _ _ _ left right, hnames, hscopes => by
      simp only [Expr.names, Expr.closures, scopeNames_append, List.forall_mem_append]
        at hnames hscopes
      rw [Expr.rename, left.rename_eq_self hnames.1 hscopes.1,
        right.rename_eq_self hnames.2 hscopes.2]
  | .ternary _ condition yes no, hnames, hscopes => by
      simp only [Expr.names, Expr.closures, scopeNames_append, List.forall_mem_append]
        at hnames hscopes
      rw [Expr.rename, condition.rename_eq_self hnames.1 hscopes.1,
        yes.rename_eq_self hnames.2.1 hscopes.2.1, no.rename_eq_self hnames.2.2 hscopes.2.2]
  | .closure _ params body scope, hnames, hscopes => by
      simp only [Expr.names, Expr.closures, scopeNames_append, List.forall_mem_append,
        List.forall_mem_map] at hnames hscopes
      have hparams : params.map (Param.rename f) = params :=
        map_eq_self fun param hparam => Param.rename_eq_self (hnames.1 param hparam)
      have hscope : scope.map (VariableScope.rename f) = scope := by
        cases scope with
        | none => rfl
        | some scope =>
            refine congrArg some (VariableScope.rename_eq_self ?_)
            simpa [scopeNames] using hscopes.2
      rw [Expr.rename, hparams, renameStmts_eq_self body hnames.2 hscopes.1, hscope]
  | .block _ body, hnames, hscopes => by
      rw [Expr.rename, renameStmts_eq_self body hnames hscopes]
  | .map _ entries, hnames, hscopes => by
      rw [Expr.rename, renameEntries_eq_self entries hnames hscopes]
  | .list _ items, hnames, hscopes => by
      rw [Expr.rename, renameExprs_eq_self items hnames hscopes]
  | .declaration _ name _ initializer, hnames, hscopes => by
      simp only [Expr.names, List.forall_mem_cons] at hnames
      rw [Expr.rename, hnames.1, initializer.rename_eq_self hnames.2 hscopes]
  | .cast _ _ operand, hnames, hscopes => by
      rw [Expr.rename, operand.rename_eq_self hnames hscopes]
  | .unary _ _ operand, hnames, hscopes => by
      rw [Expr.rename, operand.rename_eq_self hnames hscopes]

theorem renameExprs_eq_self : (es : List Expr) → (∀ name ∈ namesOfExprs es, f name = name) →
    (∀ name ∈ scopeNames (closuresOfExprs es), f name = name) → renameExprs f es = es
  | [], _, _ => rfl
  | e :: rest, hnames, hscopes => by
      simp only [namesOfExprs, closuresOfExprs_cons, scopeNames_append, List.forall_mem_append]
        at hnames hscopes
      rw [renameExprs, e.rename_eq_self hnames.1 hscopes.1,
        renameExprs_eq_self rest hnames.2 hscopes.2]

theorem renameEntries_eq_self : (entries : List Entry) →
    (∀ name ∈ namesOfEntries entries, f name = name) →
    (∀ name ∈ scopeNames (closuresOfEntries entries), f name = name) →
    renameEntries f entries = entries
  | [], _, _ => rfl
  | .mk key value _ :: rest, hnames, hscopes => by
      simp only [namesOfEntries, closuresOfEntries, scopeNames_append, List.forall_mem_append]
        at hnames hscopes
      rw [renameEntries, key.rename_eq_self hnames.1 hscopes.1,
        value.rename_eq_self hnames.2.1 hscopes.2.1,
        renameEntries_eq_self rest hnames.2.2 hscopes.2.2]

theorem Stmt.rename_eq_self : (s : Stmt) → (∀ name ∈ s.names, f name = name) →
    (∀ name ∈ scopeNames s.closures, f name = name) → s.rename f = s
  | .expr value, hnames, hscopes => by
      rw [Stmt.rename, value.rename_eq_self hnames hscopes]
  | .block body, hnames, hscopes => by
      rw [Stmt.rename, renameStmts_eq_self body hnames hscopes]
  | .ret none _, _, _ => rfl
  | .ret (some value) _, hnames, hscopes => by
      rw [Stmt.rename, value.rename_eq_self hnames hscopes]
  | .ifElse condition yes none, hnames, hscopes => by
      simp only [Stmt.names, Stmt.closures, scopeNames_append, List.forall_mem_append]
        at hnames hscopes
      rw [Stmt.rename, condition.rename_eq_self hnames.1 hscopes.1,
        renameStmts_eq_self yes hnames.2 hscopes.2]
  | .ifElse condition yes (some no), hnames, hscopes => by
      simp only [Stmt.names, Stmt.closures, scopeNames_append, List.forall_mem_append]
        at hnames hscopes
      rw [Stmt.rename, condition.rename_eq_self hnames.1 hscopes.1,
        renameStmts_eq_self yes hnames.2.1 hscopes.2.1,
        renameStmts_eq_self no hnames.2.2 hscopes.2.2]
  | .whileLoop condition body, hnames, hscopes => by
      simp only [Stmt.names, Stmt.closures, scopeNames_append, List.forall_mem_append]
        at hnames hscopes
      rw [Stmt.rename, condition.rename_eq_self hnames.1 hscopes.1,
        renameStmts_eq_self body hnames.2 hscopes.2]
  | .forIn loopVar iterable body, hnames, hscopes => by
      simp only [Stmt.names, Stmt.closures, scopeNames_append, List.forall_mem_append,
        List.forall_mem_cons] at hnames hscopes
      rw [Stmt.rename, Param.rename_eq_self hnames.1,
        iterable.rename_eq_self hnames.2.1 hscopes.1,
        renameStmts_eq_self body hnames.2.2 hscopes.2]
  | .throw value, hnames, hscopes => by
      rw [Stmt.rename, value.rename_eq_self hnames hscopes]

theorem renameStmts_eq_self : (body : List Stmt) →
    (∀ name ∈ namesOfStmts body, f name = name) →
    (∀ name ∈ scopeNames (closuresOfStmts body), f name = name) → renameStmts f body = body
  | [], _, _ => rfl
  | s :: rest, hnames, hscopes => by
      simp only [namesOfStmts, closuresOfStmts, scopeNames_append, List.forall_mem_append]
        at hnames hscopes
      rw [renameStmts, s.rename_eq_self hnames.1 hscopes.1,
        renameStmts_eq_self rest hnames.2 hscopes.2]

end

end Fixed

/-! ## Names of units -/

/-- The variables of a field and what the closure scopes in it list. -/
def FieldUnit.names (field : FieldUnit) : List String :=
  match field.initializer with
  | none => []
  | some initializer => initializer.names ++ scopeNames initializer.closures

def MethodUnit.names (method : MethodUnit) : List String :=
  method.params.map Param.name ++
    (namesOfStmts method.body ++ scopeNames (closuresOfStmts method.body))

mutual

def ClassUnit.names : ClassUnit → List String
  | .mk _ fields constructors methods inner _ =>
      fields.flatMap FieldUnit.names ++ (constructors.flatMap MethodUnit.names ++
        (methods.flatMap MethodUnit.names ++ namesOfClasses inner))

def namesOfClasses : List ClassUnit → List String
  | [] => []
  | unit :: rest => unit.names ++ namesOfClasses rest

end

def CompilationUnit.names : CompilationUnit → List String
  | .classUnit unit => unit.names
  | .methodUnit unit => unit.names
  | .fieldUnit unit => unit.names

section Fixed

variable {f : String → String}

theorem FieldUnit.rename_eq_self {field : FieldUnit} (h : ∀ name ∈ field.names, f name = name) :
    field.rename f = field := by
  obtain ⟨name, type, initializer, span⟩ := field
  cases initializer with
  | none => rfl
  | some initializer =>
      simp only [FieldUnit.names, List.forall_mem_append] at h
      simp only [FieldUnit.rename, Option.map_some, initializer.rename_eq_self h.1 h.2]

theorem MethodUnit.rename_eq_self {method : MethodUnit}
    (h : ∀ name ∈ method.names, f name = name) : method.rename f = method := by
  simp only [MethodUnit.names, List.forall_mem_append, List.forall_mem_map] at h
  have hparams : method.params.map (Param.rename f) = method.params :=
    map_eq_self fun param hparam => Param.rename_eq_self (h.1 param hparam)
  unfold MethodUnit.rename
  rw [hparams, renameStmts_eq_self method.body h.2.1 h.2.2]

mutual

theorem ClassUnit.rename_eq_self : (unit : ClassUnit) → (∀ name ∈ unit.names, f name = name) →
    unit.rename f = unit
  | .mk type fields constructors methods inner span, h => by
      simp only [ClassUnit.names, List.forall_mem_append, List.forall_mem_flatMap] at h
      obtain ⟨hfields, hconstructors, hmethods, hinner⟩ := h
      rw [ClassUnit.rename,
        map_eq_self fun field hfield => FieldUnit.rename_eq_self (hfields field hfield),
        map_eq_self fun method hmethod => MethodUnit.rename_eq_self (hconstructors method hmethod),
        map_eq_self fun method hmethod => MethodUnit.rename_eq_self (hmethods method hmethod),
        renameClasses_eq_self inner hinner]

theorem renameClasses_eq_self : (units : List ClassUnit) →
    (∀ name ∈ namesOfClasses units, f name = name) → renameClasses f units = units
  | [], _ => rfl
  | unit :: rest, h => by
      simp only [namesOfClasses, List.forall_mem_append] at h
      rw [renameClasses, unit.rename_eq_self h.1, renameClasses_eq_self rest h.2]

end

theorem CompilationUnit.rename_eq_self {unit : CompilationUnit}
    (h : ∀ name ∈ unit.names, f name = name) : unit.rename f = unit := by
  cases unit with
  | classUnit unit => exact congrArg _ (unit.rename_eq_self h)
  | methodUnit unit => exact congrArg _ (MethodUnit.rename_eq_self h)
  | fieldUnit unit => exact congrArg _ (FieldUnit.rename_eq_self h)

end Fixed

/-! ## Walking over renamed names -/

section Injective

variable {f : String → String}

namespace VariableScope

theorem contains_map (hf : Function.Injective f) (names : List String) (name : String) :
    (names.map f).contains (f name) = names.contains name := by
  simp only [List.contains_eq_mem, List.mem_map_of_injective hf]

theorem addName_rename (hf : Function.Injective f) (names : List String) (name : String) :
    addName (names.map f) (f name) = (addName names name).map f := by
  unfold addName
  rw [contains_map hf]
  split
  · rfl
  · rw [List.map_append, List.map_singleton]

theorem declare_rename (hf : Function.Injective f) (scope : VariableScope) (name : String) :
    (scope.rename f).declare (f name) = (scope.declare name).rename f :=
  congrArg (VariableScope.mk · _) (addName_rename hf scope.declared name)

theorem reference_rename (hf : Function.Injective f) (scope : VariableScope) (name : String) :
    (scope.rename f).reference (f name) = (scope.reference name).rename f := by
  unfold reference
  simp only [rename, contains_map hf, addName_rename hf]
  split <;> rfl

theorem referenceAll_rename (hf : Function.Injective f) (names : List String)
    (scope : VariableScope) :
    (scope.rename f).referenceAll (names.map f) = (scope.referenceAll names).rename f := by
  induction names generalizing scope with
  | nil => rfl
  | cons name rest ih =>
      change ((scope.rename f).reference (f name)).referenceAll (rest.map f) = _
      rw [reference_rename hf, ih]
      rfl

theorem ofParams_rename (hf : Function.Injective f) (params : List Param) :
    ofParams (params.map (Param.rename f)) = (ofParams params).rename f := by
  have hfold : ∀ (params : List Param) (scope : VariableScope),
      (params.map (Param.rename f)).foldl (fun scope param => scope.declare param.name)
        (scope.rename f) =
      (params.foldl (fun scope param => scope.declare param.name) scope).rename f := by
    intro params
    induction params with
    | nil => exact fun _ => rfl
    | cons param rest ih =>
        intro scope
        rw [List.map_cons, List.foldl_cons, List.foldl_cons, ← ih]
        exact congrArg (rest.map (Param.rename f) |>.foldl _ ·)
          (declare_rename hf scope param.name)
  exact hfold params {}

end VariableScope

open VariableScope

mutual

theorem Expr.scan_rename (hf : Function.Injective f) : (e : Expr) → (scope : VariableScope) →
    (e.rename f).scan (scope.rename f) = (e.scan scope).rename f
  | .literal _ _, _ => rfl
  | .var _ name _, scope => reference_rename hf scope name
  | .this _, _ => rfl
  | .classRef _ _, _ => rfl
  | .property _ receiver _, scope => receiver.scan_rename hf scope
  | .methodCall _ receiver _ args _ _, scope => by
      simp only [Expr.rename, Expr.scan, receiver.scan_rename hf, scanExprs_rename hf args]
  | .staticCall _ _ _ args, scope => scanExprs_rename hf args scope
  | .constructorCall _ _ args, scope => scanExprs_rename hf args scope
  | .binary _ _ _ left right, scope => by
      simp only [Expr.rename, Expr.scan, left.scan_rename hf, right.scan_rename hf]
  | .ternary _ condition yes no, scope => by
      simp only [Expr.rename, Expr.scan, condition.scan_rename hf, yes.scan_rename hf,
        no.scan_rename hf]
  | .closure _ params body _, scope => by
      simp only [Expr.rename, Expr.scan, ofParams_rename hf, scanStmts_rename hf body]
      exact referenceAll_rename hf _ scope
  | .block _ body, scope => scanStmts_rename hf body scope
  | .map _ entries, scope => scanEntries_rename hf entries scope
  | .list _ items, scope => scanExprs_rename hf items scope
  | .declaration _ name _ initializer, scope => by
      simp only [Expr.rename, Expr.scan, initializer.scan_rename hf, declare_rename hf]
  | .cast _ _ operand, scope => operand.scan_rename hf scope
  | .unary _ _ operand, scope => operand.scan_rename hf scope

theorem scanExprs_rename (hf : Function.Injective f) : (es : List Expr) →
    (scope : VariableScope) →
    scanExprs (renameExprs f es) (scope.rename f) = (scanExprs es scope).rename f
  | [], _ => rfl
  | e :: rest, scope => by
      simp only [renameExprs, scanExprs, e.scan_rename hf, scanExprs_rename hf rest]

theorem scanEntries_rename (hf : Function.Injective f) : (entries : List Entry) →
    (scope : VariableScope) →
    scanEntries (renameEntries f entries) (scope.rename f) = (scanEntries entries scope).rename f
  | [], _ => rfl
  | .mk key value _ :: rest, scope => by
      simp only [renameEntries, scanEntries, key.scan_rename hf, value.scan_rename hf,
        scanEntries_rename hf rest]

theorem Stmt.scan_rename (hf : Function.Injective f) : (s : Stmt) → (scope : VariableScope) →
    (s.rename f).scan (scope.rename f) = (s.scan scope).rename f
  | .expr value, scope => value.scan_rename hf scope
  | .block body, scope => scanStmts_rename hf body scope
  | .ret none _, _ => rfl
  | .ret (some value) _, scope => value.scan_rename hf scope
  | .ifElse condition yes none, scope => by
      simp only [Stmt.rename, Stmt.scan, condition.scan_rename hf, scanStmts_rename hf yes]
  | .ifElse condition yes (some no), scope => by
      simp only [Stmt.rename, Stmt.scan, condition.scan_rename hf, scanStmts_rename hf yes,
        scanStmts_rename hf no]
  | .whileLoop condition body, scope => by
      simp only [Stmt.rename, Stmt.scan, condition.scan_rename hf, scanStmts_rename hf body]
  | .forIn loopVar iterable body, scope => by
      simp only [Stmt.rename, Stmt.scan, iterable.scan_rename hf, Param.rename,
        declare_rename hf, scanStmts_rename hf body]
  | .throw value, scope => value.scan_rename hf scope

theorem scanStmts_rename (hf : Function.Injective f) : (body : List Stmt) →
    (scope : VariableScope) →
    scanStmts (renameStmts f body) (scope.rename f) = (scanStmts body scope).rename f
  | [], _ => rfl
  | s :: rest, scope => by
      simp only [renameStmts, scanStmts, s.scan_rename hf, scanStmts_rename hf rest]

end

/-- The names of a renamed closure are the renamed names of the closure. -/
theorem VariableScope.ofClosure_rename (hf : Function.Injective f) (params : List Param)
    (body : Block) :
    ofClosure (params.map (Param.rename f)) (renameStmts f body) =
      (ofClosure params body).rename f := by
  unfold ofClosure
  rw [ofParams_rename hf, scanStmts_rename hf]

end Injective

end StaticDispatch
