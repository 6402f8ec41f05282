import StaticDispatch.Types.Basic

/-!
# Source positions and resolution facts

What a resolver leaves on a node of the tree: its position in the source, the
method or constructor that a call reaches, its static type, and the method
that an overloaded operator stands for.
-/

namespace StaticDispatch

/-- A place in the source; zero for both stands for none. -/
structure Span where
  line : Nat := 0
  column : Nat := 0
deriving DecidableEq, Repr, Inhabited

/-- What a call reaches. -/
inductive CallTarget where
  | method (id : MethodId)
  | constructor (id : MethodId)
  /-- The constructor without arguments of a type. -/
  | defaultConstructor (type : TypeId)
  /-- The call of a closure without arguments. -/
  | closureCall
deriving DecidableEq, Repr

/-- The method that an overloaded operator stands for. -/
structure OperatorTarget where
  method : MethodId
  name : String
deriving DecidableEq, Repr

/-- The facts that a resolver found out about a node. -/
structure Metadata where
  callTarget : Option CallTarget := none
  inferredType : Option TypeId := none
  operatorTarget : Option OperatorTarget := none
deriving DecidableEq, Repr, Inhabited

namespace Metadata

def isEmpty (facts : Metadata) : Bool :=
  facts.callTarget.isNone && facts.inferredType.isNone && facts.operatorTarget.isNone

def ofCallTarget (target : CallTarget) : Metadata :=
  { callTarget := some target }

def ofInferredType (type : TypeId) : Metadata :=
  { inferredType := some type }

/-- The method that the call reaches, if it is a plain method. -/
def targetMethod? (facts : Metadata) : Option MethodId :=
  match facts.callTarget with
  | some (.method id) => some id
  | _ => none

def targetConstructor? (facts : Metadata) : Option MethodId :=
  match facts.callTarget with
  | some (.constructor id) => some id
  | _ => none

end Metadata

/-- Position and facts of an expression. -/
structure Info where
  span : Span := {}
  facts : Metadata := {}
deriving DecidableEq, Repr, Inhabited

end StaticDispatch
