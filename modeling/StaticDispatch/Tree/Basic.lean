import StaticDispatch.Decimal.Basic
import StaticDispatch.Tree.Metadata
import StaticDispatch.Tree.Operator

/-!
# The tree

Expressions with their positions and facts, statements, and the units that
are lowered as a whole: classes, methods and fields.
-/

namespace StaticDispatch

inductive Literal where
  | null
  | boolean (value : Bool)
  | integer (value : Int64)
  | decimal (value : Decimal)
  | string (value : String)

/-- A name with the type that it was declared with, if any. -/
structure Param where
  name : String
  type : Option TypeId := none
deriving DecidableEq, Repr

/-- The names that a closure body declares and those that it takes from around it, each
once and in the order of first occurrence. -/
structure VariableScope where
  declared : List String := []
  captured : List String := []
deriving DecidableEq, Repr, Inhabited

mutual

inductive Expr where
  | literal (info : Info) (value : Literal)
  | var (info : Info) (name : String) (declaredType : Option TypeId)
  | this (info : Info)
  | classRef (info : Info) (type : TypeId)
  | property (info : Info) (receiver : Expr) (name : String)
  /-- A safe call answers null on a null receiver; a spread call goes to each element. -/
  | methodCall (info : Info) (receiver : Expr) (name : String) (args : List Expr)
      (safe spread : Bool)
  | staticCall (info : Info) (owner : TypeId) (name : String) (args : List Expr)
  | constructorCall (info : Info) (type : TypeId) (args : List Expr)
  | binary (info : Info) (op : BinaryOp) (opSpan : Span) (left right : Expr)
  | ternary (info : Info) (condition yes no : Expr)
  | closure (info : Info) (params : List Param) (body : List Stmt)
      (scope : Option VariableScope)
  /-- Statements in order; the value is that of the last expression statement. -/
  | block (info : Info) (body : List Stmt)
  | map (info : Info) (entries : List Entry)
  | list (info : Info) (items : List Expr)
  | declaration (info : Info) (name : String) (declaredType : Option TypeId)
      (initializer : Expr)
  | cast (info : Info) (type : TypeId) (operand : Expr)
  | unary (info : Info) (op : UnaryOp) (operand : Expr)

inductive Stmt where
  | expr (value : Expr)
  | block (body : List Stmt)
  | ret (value : Option Expr) (span : Span)
  | ifElse (condition : Expr) (yes : List Stmt) (no : Option (List Stmt))
  | whileLoop (condition : Expr) (body : List Stmt)
  | forIn (loopVar : Param) (iterable : Expr) (body : List Stmt)
  | throw (value : Expr)

inductive Entry where
  | mk (key value : Expr) (span : Span)

end

/-- The statements of a body, in order. -/
abbrev Block := List Stmt

namespace Entry

def key : Entry → Expr
  | .mk key _ _ => key

def value : Entry → Expr
  | .mk _ value _ => value

def span : Entry → Span
  | .mk _ _ span => span

end Entry

namespace Expr

instance : Inhabited Expr := ⟨.this {}⟩

/-! ## Position and facts -/

def info : Expr → Info
  | .literal info _ => info
  | .var info _ _ => info
  | .this info => info
  | .classRef info _ => info
  | .property info _ _ => info
  | .methodCall info _ _ _ _ _ => info
  | .staticCall info _ _ _ => info
  | .constructorCall info _ _ => info
  | .binary info _ _ _ _ => info
  | .ternary info _ _ _ => info
  | .closure info _ _ _ => info
  | .block info _ => info
  | .map info _ => info
  | .list info _ => info
  | .declaration info _ _ _ => info
  | .cast info _ _ => info
  | .unary info _ _ => info

def span (e : Expr) : Span := e.info.span

def facts (e : Expr) : Metadata := e.info.facts

/-! ## Shapes -/

def null (span : Span) : Expr :=
  .literal { span } .null

/-- The text of a string literal. -/
def stringLiteral? : Expr → Option String
  | .literal _ (.string text) => some text
  | _ => none

/-- Literals, variables, `this` and class references: evaluating one twice makes no
difference that can be seen. -/
def isSideEffectFree : Expr → Bool
  | .literal _ _ => true
  | .var _ _ _ => true
  | .this _ => true
  | .classRef _ _ => true
  | _ => false

end Expr

/-! ## Units -/

structure FieldUnit where
  name : String
  type : TypeId
  initializer : Option Expr
  span : Span

structure MethodUnit where
  /-- Absent for a method of a script, which no resolver registered. -/
  id : Option MethodId
  name : String
  declaringType : TypeId
  params : List Param
  body : Block
  span : Span

inductive ClassUnit where
  | mk (type : TypeId) (fields : List FieldUnit) (constructors methods : List MethodUnit)
      (inner : List ClassUnit) (span : Span)

/-- A node marked for static compilation. -/
inductive CompilationUnit where
  | classUnit (unit : ClassUnit)
  | methodUnit (unit : MethodUnit)
  | fieldUnit (unit : FieldUnit)

namespace ClassUnit

def type : ClassUnit → TypeId
  | .mk type _ _ _ _ _ => type

def span : ClassUnit → Span
  | .mk _ _ _ _ _ span => span

end ClassUnit

namespace CompilationUnit

def span : CompilationUnit → Span
  | .classUnit unit => unit.span
  | .methodUnit unit => unit.span
  | .fieldUnit unit => unit.span

def kindName : CompilationUnit → String
  | .classUnit _ => "class"
  | .methodUnit _ => "method"
  | .fieldUnit _ => "field"

end CompilationUnit

end StaticDispatch
