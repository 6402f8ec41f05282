import StaticDispatch.OrderedMap

/-!
# Types and methods

Handles of types and methods, what a type table stores about each, and the
handles of the types that every table starts with.
-/

namespace StaticDispatch

/-- A type, by its position in the table. -/
structure TypeId where
  index : Nat
deriving DecidableEq, Repr, Inhabited

/-- A method or constructor, by its position in the table. -/
structure MethodId where
  index : Nat
deriving DecidableEq, Repr, Inhabited

inductive Primitive where
  | boolean | byte | short | char | int | long | float | double | void
deriving DecidableEq, Repr, Inhabited

namespace Primitive

def all : List Primitive :=
  [.boolean, .byte, .short, .char, .int, .long, .float, .double, .void]

def name : Primitive → String
  | .boolean => "boolean"
  | .byte => "byte"
  | .short => "short"
  | .char => "char"
  | .int => "int"
  | .long => "long"
  | .float => "float"
  | .double => "double"
  | .void => "void"

def wrapperName : Primitive → String
  | .boolean => "Boolean"
  | .byte => "Byte"
  | .short => "Short"
  | .char => "Character"
  | .int => "Integer"
  | .long => "Long"
  | .float => "Float"
  | .double => "Double"
  | .void => "Void"

/-- The wrappers of these extend the class of numbers. -/
def isNumeric : Primitive → Bool
  | .boolean | .char | .void => false
  | _ => true

/-- Position among the primitives. -/
def ordinal : Primitive → Nat
  | .boolean => 0
  | .byte => 1
  | .short => 2
  | .char => 3
  | .int => 4
  | .long => 5
  | .float => 6
  | .double => 7
  | .void => 8

end Primitive

/-! ## What a table stores -/

structure ClassInfo where
  superclass : Option TypeId := none
  interfaces : List TypeId := []
  isEnum : Bool := false
  isInterface : Bool := false
  /-- Declared fields in the order of declaration. -/
  fields : OrderedMap TypeId := {}
  methods : List MethodId := []
  /-- Constructors written in source; those that a resolver adds are absent. -/
  constructors : List MethodId := []
  /-- Set on a wrapper class: the primitive that it boxes. -/
  unboxed : Option Primitive := none

inductive TypeShape where
  | primitive (kind : Primitive)
  | classType (info : ClassInfo)
  | array (component : TypeId)

structure TypeEntry where
  name : String
  shape : TypeShape

inductive MethodKind where
  | method
  | constructor
deriving DecidableEq, Repr

structure MethodParam where
  name : String
  type : TypeId
deriving DecidableEq, Repr

structure MethodEntry where
  name : String
  owner : TypeId
  params : List MethodParam
  returnType : TypeId
  isStatic : Bool
  kind : MethodKind
deriving DecidableEq, Repr

/-! ## Types known by role

Every table starts with the primitives, the root class, the class of numbers,
the wrappers and the library types below, in this order.
-/

namespace TypeId

def ofPrimitive (kind : Primitive) : TypeId := ⟨kind.ordinal⟩
def object : TypeId := ⟨9⟩
def number : TypeId := ⟨10⟩
def wrapperOf (kind : Primitive) : TypeId := ⟨11 + kind.ordinal⟩
def string : TypeId := ⟨20⟩
def map : TypeId := ⟨21⟩
def linkedHashMap : TypeId := ⟨22⟩
def list : TypeId := ⟨23⟩
def closure : TypeId := ⟨24⟩
def classObject : TypeId := ⟨25⟩
def bytecodeAdapter : TypeId := ⟨26⟩

def int : TypeId := ofPrimitive .int
def boolean : TypeId := ofPrimitive .boolean
def double : TypeId := ofPrimitive .double
def void : TypeId := ofPrimitive .void
def integer : TypeId := wrapperOf .int

end TypeId

end StaticDispatch
