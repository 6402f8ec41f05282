import StaticDispatch.Tree.Basic
import StaticDispatch.Types.Table
import StaticDispatch.Text.Quoted
import StaticDispatch.Decimal.Layout

/-!
# Printed trees

Trees as text that looks like source.  A static call is written with a double
colon, which keeps it apart from the call on a class reference that replaces
it.
-/

namespace StaticDispatch

def Literal.print : Literal → String
  | .null => "null"
  | .boolean true => "true"
  | .boolean false => "false"
  | .integer n => toString n.toInt
  | .decimal d => Decimal.Layout.literal.text d
  | .string text => Text.quoted text

/-- What the name of a method is written after. -/
def callMark (safe spread : Bool) : String :=
  if safe then "?." else if spread then "*." else "."

/-- Receivers of a member or a subscript stand in parentheses unless they are atoms,
calls or operations that bring their own. -/
def Expr.isOpenReceiver : Expr → Bool
  | .binary _ op _ _ _ => op.isAssignment
  | .ternary _ _ _ _ => true
  | .declaration _ _ _ _ => true
  | .cast _ _ _ => true
  | .unary _ _ _ => true
  | .block _ _ => true
  | _ => false

def Expr.isOpenOperand : Expr → Bool
  | .binary _ op _ _ _ => op.isAssignment
  | .ternary _ _ _ _ => true
  | .declaration _ _ _ _ => true
  | _ => false

def parenthesizedIf (condition : Bool) (text : String) : String :=
  if condition then "(" ++ text ++ ")" else text

def commaSeparated (texts : List String) : String :=
  ", ".intercalate texts

def printArguments (texts : List String) : String :=
  "(" ++ commaSeparated texts ++ ")"

/-- Statements in braces. -/
def printBraces (texts : List String) : String :=
  if texts.isEmpty then "\x7b \x7d" else "\x7b " ++ "; ".intercalate texts ++ " \x7d"

def printClosure (params : List Param) (texts : List String) : String :=
  "\x7b " ++ commaSeparated (params.map Param.name)
    ++ (if params.isEmpty then "" else " ") ++ "->"
    ++ (if texts.isEmpty then "" else " " ++ "; ".intercalate texts) ++ " \x7d"

def printMap (texts : List String) : String :=
  if texts.isEmpty then "[:]" else "[" ++ commaSeparated texts ++ "]"

/-- An entry under a string literal shows the bare text of its key. -/
def printEntry (literal : Option String) (key value : String) : String :=
  literal.getD ("(" ++ key ++ ")") ++ ": " ++ value

/-- An operator with its operands as texts, those in parentheses where they need it. -/
def printBinary (op : BinaryOp) (receiver left right operand : String) : String :=
  match op with
  | .index => receiver ++ "[" ++ right ++ "]"
  | .assign => left ++ " " ++ op.symbol ++ " " ++ right
  | .compound _ => left ++ " " ++ op.symbol ++ " " ++ right
  | _ => "(" ++ left ++ " " ++ op.symbol ++ " " ++ operand ++ ")"

def printType (types : TypeTable) : Option TypeId → String
  | some type => types.name type
  | none => "def"

mutual

def Expr.print (types : TypeTable) : Expr → String
  | .literal _ value => value.print
  | .var _ name _ => name
  | .this _ => "this"
  | .classRef _ type => types.name type
  | .property _ receiver name =>
    parenthesizedIf receiver.isOpenReceiver (receiver.print types) ++ "." ++ name
  | .methodCall _ receiver name args safe spread =>
    parenthesizedIf receiver.isOpenReceiver (receiver.print types) ++ callMark safe spread
      ++ name ++ printArguments (printExprs types args)
  | .staticCall _ owner name args =>
    types.name owner ++ "::" ++ name ++ printArguments (printExprs types args)
  | .constructorCall _ type args =>
    "new " ++ types.name type ++ printArguments (printExprs types args)
  | .binary _ op _ left right =>
    let leftText := left.print types
    let rightText := right.print types
    printBinary op (parenthesizedIf left.isOpenReceiver leftText)
      (parenthesizedIf left.isOpenOperand leftText) rightText
      (parenthesizedIf right.isOpenOperand rightText)
  | .ternary _ condition yes no =>
    parenthesizedIf condition.isOpenOperand (condition.print types) ++ " ? "
      ++ parenthesizedIf yes.isOpenOperand (yes.print types) ++ " : "
      ++ parenthesizedIf no.isOpenOperand (no.print types)
  | .closure _ params body _ => printClosure params (printStmts types body)
  | .block _ body => printBraces (printStmts types body)
  | .map _ entries => printMap (printEntries types entries)
  | .list _ items => "[" ++ commaSeparated (printExprs types items) ++ "]"
  | .declaration _ name declaredType initializer =>
    printType types declaredType ++ " " ++ name ++ " = " ++ initializer.print types
  | .cast _ type operand =>
    "(" ++ types.name type ++ ") "
      ++ parenthesizedIf operand.isOpenOperand (operand.print types)
  | .unary _ op operand =>
    op.symbol ++ parenthesizedIf operand.isOpenOperand (operand.print types)

def printExprs (types : TypeTable) : List Expr → List String
  | [] => []
  | e :: rest => e.print types :: printExprs types rest

def printEntries (types : TypeTable) : List Entry → List String
  | [] => []
  | .mk key value _ :: rest =>
    printEntry key.stringLiteral? (key.print types) (value.print types)
      :: printEntries types rest

def Stmt.print (types : TypeTable) : Stmt → String
  | .expr value => value.print types
  | .block body => printBraces (printStmts types body)
  | .ret none _ => "return"
  | .ret (some value) _ => "return " ++ value.print types
  | .ifElse condition yes none =>
    "if (" ++ condition.print types ++ ") " ++ printBraces (printStmts types yes)
  | .ifElse condition yes (some no) =>
    "if (" ++ condition.print types ++ ") " ++ printBraces (printStmts types yes)
      ++ " else " ++ printBraces (printStmts types no)
  | .whileLoop condition body =>
    "while (" ++ condition.print types ++ ") " ++ printBraces (printStmts types body)
  | .forIn loopVar iterable body =>
    "for (" ++ loopVar.name ++ " in " ++ iterable.print types ++ ") "
      ++ printBraces (printStmts types body)
  | .throw value => "throw " ++ value.print types

def printStmts (types : TypeTable) : List Stmt → List String
  | [] => []
  | s :: rest => s.print types :: printStmts types rest

end

def Block.print (types : TypeTable) (body : Block) : String :=
  printBraces (printStmts types body)

/-! ## Units -/

def MethodUnit.print (types : TypeTable) (unit : MethodUnit) : String :=
  unit.body.print types

mutual

/-- The code of a class, part by part: initializers of fields, bodies of constructors and
methods, and then the inner classes in the same way. -/
def ClassUnit.print (types : TypeTable) : ClassUnit → List String
  | .mk _ fields constructors methods inner _ =>
    fields.filterMap (fun field => field.initializer.map (Expr.print types))
      ++ constructors.map (MethodUnit.print types) ++ methods.map (MethodUnit.print types)
      ++ printClasses types inner

def printClasses (types : TypeTable) : List ClassUnit → List String
  | [] => []
  | unit :: rest => unit.print types ++ printClasses types rest

end

def CompilationUnit.print (types : TypeTable) : CompilationUnit → List String
  | .classUnit unit => unit.print types
  | .methodUnit unit => [unit.print types]
  | .fieldUnit unit => (unit.initializer.map (Expr.print types)).toList

end StaticDispatch
