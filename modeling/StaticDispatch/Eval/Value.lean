import StaticDispatch.OrderedMap
import StaticDispatch.Tree.Basic

/-!
# Values

What evaluation computes with.  Containers, objects and closures live in a
heap and are shared by address, so that a change made through one variable is
seen through another.
-/

namespace StaticDispatch

/-- A place of one of the heap's stores. -/
abbrev Address := Nat

inductive Value where
  | null
  | bool (value : Bool)
  | int (value : Int64)
  | decimal (value : Decimal)
  | text (value : String)
  /-- A list grows when it is written past its end. -/
  | list (items : Address)
  /-- An array keeps its length. -/
  | array (items : Address)
  | map (entries : Address)
  | object (fields : Address)
  | closure (code : Address)
  | classRef (type : TypeId)

namespace Value

instance : Inhabited Value := ⟨.null⟩

def isNull : Value → Bool
  | .null => true
  | _ => false

def kindName : Value → String
  | .null => "null"
  | .bool _ => "Boolean"
  | .int _ => "Integer"
  | .decimal _ => "BigDecimal"
  | .text _ => "String"
  | .list _ => "List"
  | .array _ => "Array"
  | .map _ => "Map"
  | .object _ => "Object"
  | .closure _ => "Closure"
  | .classRef _ => "Class"

end Value

/-- Variables of one scope, by its number. -/
abbrev ScopeId := Nat

/-- The scopes that are visible, the innermost first. -/
abbrev Env := List ScopeId

structure Instance where
  type : TypeId
  fields : OrderedMap Value

/-- A closure with the scopes that were visible where it was made. -/
structure ClosureCode where
  params : List String
  body : Block
  env : Env

end StaticDispatch
