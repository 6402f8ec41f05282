/-!
# Operators

The operators of the language by family.  An arithmetic operator has a method
of the same meaning, which is what overloading resolves it to; a compound
assignment is an arithmetic operator with a target to write back to; a
comparison has a routine of the comparison adapter.
-/

namespace StaticDispatch

inductive Arithmetic where
  | plus | minus | multiply | divide | mod | power
  | leftShift | rightShift | unsignedRightShift
  | bitAnd | bitOr | xor
deriving DecidableEq, Repr

inductive Comparison where
  | equal | notEqual
  | lessThan | lessThanEqual | greaterThan | greaterThanEqual
  /-- Answers an integer below, at or above zero. -/
  | threeWay
deriving DecidableEq, Repr

inductive BinaryOp where
  | assign
  | compound (op : Arithmetic)
  | arithmetic (op : Arithmetic)
  | and
  | or
  | comparison (op : Comparison)
  /-- Subscript. -/
  | index
deriving DecidableEq, Repr

inductive UnaryOp where
  | not
  | negate
deriving DecidableEq, Repr

/-! ## Symbols -/

def Arithmetic.symbol : Arithmetic → String
  | .plus => "+"
  | .minus => "-"
  | .multiply => "*"
  | .divide => "/"
  | .mod => "%"
  | .power => "**"
  | .leftShift => "<<"
  | .rightShift => ">>"
  | .unsignedRightShift => ">>>"
  | .bitAnd => "&"
  | .bitOr => "|"
  | .xor => "^"

def Comparison.symbol : Comparison → String
  | .equal => "=="
  | .notEqual => "!="
  | .lessThan => "<"
  | .lessThanEqual => "<="
  | .greaterThan => ">"
  | .greaterThanEqual => ">="
  | .threeWay => "<=>"

def BinaryOp.symbol : BinaryOp → String
  | .assign => "="
  | .compound op => op.symbol ++ "="
  | .arithmetic op => op.symbol
  | .and => "&&"
  | .or => "||"
  | .comparison op => op.symbol
  | .index => "["

def UnaryOp.symbol : UnaryOp → String
  | .not => "!"
  | .negate => "-"

/-! ## Families -/

def BinaryOp.isCompoundAssignment : BinaryOp → Bool
  | .compound _ => true
  | _ => false

def BinaryOp.isAssignment : BinaryOp → Bool
  | .assign => true
  | .compound _ => true
  | _ => false

def BinaryOp.isComparison : BinaryOp → Bool
  | .comparison _ => true
  | _ => false

/-! ## Methods behind the operators -/

/-- The method that a value of the operator's left type provides for it. -/
def Arithmetic.methodName : Arithmetic → String
  | .plus => "plus"
  | .minus => "minus"
  | .multiply => "multiply"
  | .divide => "div"
  | .mod => "mod"
  | .power => "power"
  | .leftShift => "leftShift"
  | .rightShift => "rightShift"
  | .unsignedRightShift => "rightShiftUnsigned"
  | .bitAnd => "and"
  | .bitOr => "or"
  | .xor => "xor"

/-- The comparisons in the order in which the adapter declares their routines. -/
def Comparison.all : List Comparison :=
  [.equal, .notEqual, .lessThan, .lessThanEqual, .greaterThan, .greaterThanEqual, .threeWay]

/-- The routine of the comparison adapter that computes the comparison. -/
def Comparison.adapterName : Comparison → String
  | .equal => "compareEqual"
  | .notEqual => "compareNotEqual"
  | .lessThan => "compareLessThan"
  | .lessThanEqual => "compareLessThanEqual"
  | .greaterThan => "compareGreaterThan"
  | .greaterThanEqual => "compareGreaterThanEqual"
  | .threeWay => "compareTo"

/-- What the comparison makes of an ordering of its operands. -/
def Comparison.holds : Comparison → Ordering → Bool
  | .equal, ordering => ordering == .eq
  | .notEqual, ordering => ordering != .eq
  | .lessThan, ordering => ordering == .lt
  | .lessThanEqual, ordering => ordering != .gt
  | .greaterThan, ordering => ordering == .gt
  | .greaterThanEqual, ordering => ordering != .lt
  | .threeWay, _ => false

theorem Comparison.mem_all (op : Comparison) : op ∈ Comparison.all := by
  cases op <;> decide

end StaticDispatch
