import StaticDispatch.Eval.Number
import StaticDispatch.Eval.Place
import StaticDispatch.Text.UpperCase
import StaticDispatch.Text.Blank

/-!
# Built-in methods

The methods that values have of themselves, where no native replaces them.
-/

namespace StaticDispatch

def noMethod (receiver : Value) (name : String) (args : List Value) : EvalM Value :=
  fail (.noMethod receiver.kindName name args.length)

def liftHalt {α : Type} : Except Halt α → EvalM α
  | .ok value => return value
  | .error halt => throw halt

/-- The order of the code points. -/
def compareTexts (a b : String) : Ordering :=
  if a < b then .lt else if a = b then .eq else .gt

/-- The methods of a number, from its negation. -/
def numberBuiltin (negated : Except Halt Value) (receiver : Value) (name : String)
    (args : List Value) : EvalM Value :=
  match args with
  | [other] => liftHalt (Number.numberMethod name receiver other)
  | [] => if name == "negative" then liftHalt negated else noMethod receiver name args
  | _ => noMethod receiver name args

def textBuiltin (text : String) (name : String) (args : List Value) : EvalM Value :=
  match name, args with
  | "plus", [other] => do return .text (text ++ (← textOf other))
  | "size", [] => return .int (Int64.ofNat text.length)
  | "length", [] => return .int (Int64.ofNat text.length)
  | "trim", [] => return .text (Text.trim text)
  | "toUpperCase", [] => return .text (Text.upperCase text)
  | "compareTo", [.text other] =>
    return .int (Number.orderingToInt (compareTexts text other))
  | "getAt", [index] => readElement (.text text) index
  | "get", [index] => readElement (.text text) index
  | _, _ => noMethod (.text text) name args

/-- Access to the elements by method. -/
def elementBuiltin (receiver : Value) (name : String) (args : List Value) : EvalM Value :=
  match name, args with
  | "getAt", [index] => readElement receiver index
  | "get", [index] => readElement receiver index
  | "putAt", [index, value] => do
    writeElement receiver index value
    return value
  | "put", [index, value] => do
    writeElement receiver index value
    return value
  | _, _ => noMethod receiver name args

def arrayBuiltin (a : Address) (receiver : Value) (name : String) (args : List Value) :
    EvalM Value :=
  match name, args with
  | "size", [] => do return .int (Int64.ofNat ((← getHeap).items a).size)
  | _, _ => elementBuiltin receiver name args

def listBuiltin (a : Address) (name : String) (args : List Value) : EvalM Value :=
  match name, args with
  | "add", [item] => do
    modifyHeap fun heap => heap.modifyItems a (·.push item)
    return .bool true
  | "plus", [item] => allocate fun heap => heap.newList ((heap.items a).toList ++ [item])
  | _, _ => arrayBuiltin a (.list a) name args

def mapBuiltin (a : Address) (name : String) (args : List Value) : EvalM Value :=
  match name, args with
  | "size", [] => do return .int (Int64.ofNat ((← getHeap).entries a).size)
  | "containsKey", [key] => do
    let text ← textOf key
    return .bool (((← getHeap).entries a).contains text)
  | _, _ => elementBuiltin (.map a) name args

/-- The methods of a value by its kind. -/
def kindBuiltin (receiver : Value) (name : String) (args : List Value) : EvalM Value :=
  match receiver with
  | .int n => numberBuiltin (Number.negate n) receiver name args
  | .decimal d => numberBuiltin (.ok (.decimal (-d))) receiver name args
  | .text text => textBuiltin text name args
  | .list a => listBuiltin a name args
  | .array a => arrayBuiltin a receiver name args
  | .map a => mapBuiltin a name args
  | _ => noMethod receiver name args

/-- The methods that every value has, and those of its kind. -/
def builtin (receiver : Value) (name : String) (args : List Value) : EvalM Value :=
  match name, args with
  | "equals", [other] => do return .bool (← valuesEqual receiver other)
  | "toString", [] => do return .text (← textOf receiver)
  | _, _ => kindBuiltin receiver name args

end StaticDispatch
