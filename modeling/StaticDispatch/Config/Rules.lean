import StaticDispatch.Text.Blank
import StaticDispatch.Text.Hexadecimal

/-!
# Sets of rules

Which lowering rules may run, as a set with a place for bits that name no rule.
A set is written as the names of its rules and one hexadecimal number for the
bits that are left, between vertical bars; it is read in the same form, with
any number of numbers.
-/

namespace StaticDispatch

inductive Rule where
  | safeNavigation
  | binaryOperators
  | arrayIndex
  | staticCalls
  | namedConstructors
deriving DecidableEq, Repr

namespace Rule

def all : List Rule :=
  [.safeNavigation, .binaryOperators, .arrayIndex, .staticCalls, .namedConstructors]

def name : Rule → String
  | .safeNavigation => "SAFE_NAVIGATION"
  | .binaryOperators => "BINARY_OPERATORS"
  | .arrayIndex => "ARRAY_INDEX"
  | .staticCalls => "STATIC_CALLS"
  | .namedConstructors => "NAMED_CONSTRUCTORS"

def bit : Rule → UInt32
  | .safeNavigation => 1
  | .binaryOperators => 2
  | .arrayIndex => 4
  | .staticCalls => 8
  | .namedConstructors => 16

def ofName? (name : String) : Option Rule :=
  all.find? fun rule => rule.name == name

end Rule

/-- A set of rules; bits that name no rule are kept. -/
structure Rules where
  bits : UInt32
deriving DecidableEq, Repr

namespace Rules

def none : Rules := ⟨0⟩

def all : Rules := ⟨31⟩

def contains (rules : Rules) (rule : Rule) : Bool :=
  rules.bits &&& rule.bit != 0

def union (a b : Rules) : Rules := ⟨a.bits ||| b.bits⟩

/-! ## The written form -/

/-- A hexadecimal number of 32 bits, a plus sign before it allowed. -/
def hexNumber? (digits : List Char) : Option UInt32 :=
  let digits := if digits.head? = some '+' then digits.drop 1 else digits
  if digits.isEmpty then Option.none
  else
    match Hexadecimal.value? digits with
    | some value => if value < 0x100000000 then some (UInt32.ofNat value) else Option.none
    | Option.none => Option.none

/-- A name of a rule or a number after `0x`. -/
def ofPart? (part : String) : Option Rules :=
  match part.toList with
  | '0' :: 'x' :: digits => (hexNumber? digits).map Rules.mk
  | _ => (Rule.ofName? part).map fun rule => ⟨rule.bit⟩

/-- The union of the parts between vertical bars, blanks around a part aside; a text of
blanks only is the empty set. -/
def ofText? (text : String) : Option Rules :=
  if (Text.trim text).isEmpty then some none
  else
    (text.splitOn "|").foldlM
      (fun rules part => (ofPart? (Text.trim part)).map rules.union) none

def unnamedBits (rules : Rules) : UInt32 :=
  rules.bits &&& ~~~ all.bits

/-- The names in the order of the rules, then the bits that name no rule. -/
def text (rules : Rules) : String :=
  let names := (Rule.all.filter rules.contains).map Rule.name
  let rest := rules.unnamedBits
  let number := if rest = 0 then []
    else ["0x" ++ String.ofList (Hexadecimal.padded 1 rest.toNat)]
  " | ".intercalate (names ++ number)

end Rules

end StaticDispatch
