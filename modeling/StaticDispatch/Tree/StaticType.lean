import StaticDispatch.Tree.Basic
import StaticDispatch.Types.Query

/-!
# Static types of expressions

The type of an expression inside the body of a class.  The type that a
resolver inferred wins; without one the type follows from the shape of the
expression, so that it can be asked of nodes that no resolver has seen.
-/

namespace StaticDispatch

def Literal.staticType : Literal → TypeId
  | .null => .object
  | .boolean _ => .boolean
  | .integer _ => .int
  | .decimal _ => .double
  | .string _ => .string

/-- The type of a call is what its target returns. -/
def CallTarget.resultType? (types : TypeTable) : CallTarget → Option TypeId
  | .method id => (types.method? id).map MethodEntry.returnType
  | .constructor id => (types.method? id).map MethodEntry.owner
  | .defaultConstructor type => some type
  | .closureCall => none

/-- The type of a property of a receiver of the given type. -/
def TypeTable.propertyType? (types : TypeTable) (owner : TypeId) (name : String) :
    Option TypeId :=
  if types.isArray owner && name == "length" then some .int
  else types.fieldType? owner name

def Metadata.callType? (types : TypeTable) (facts : Metadata) : Option TypeId :=
  facts.callTarget.bind (CallTarget.resultType? types)

/-- Two branches have a type together when they agree on it. -/
def joinTypes : Option TypeId → Option TypeId → Option TypeId
  | some a, some b => if a = b then some a else none
  | _, _ => none

/-- The static type of an expression in the body of class `cls`, if known. -/
def Expr.staticType? (types : TypeTable) (cls : TypeId) : Expr → Option TypeId
  | .classRef _ _ => some .classObject
  | .literal info value => info.facts.inferredType <|> some value.staticType
  | .var info _ declaredType => info.facts.inferredType <|> declaredType
  | .this info => info.facts.inferredType <|> some cls
  | .property info receiver name =>
    info.facts.inferredType <|>
      (receiver.staticType? types cls).bind (types.propertyType? · name)
  | .methodCall info _ _ _ _ _ => info.facts.inferredType <|> info.facts.callType? types
  | .staticCall info _ _ _ => info.facts.inferredType <|> info.facts.callType? types
  | .constructorCall info type _ => info.facts.inferredType <|> some type
  | .binary info op _ left right =>
    info.facts.inferredType <|>
      match op with
      | .index => (left.staticType? types cls).bind types.component?
      | .assign => right.staticType? types cls
      | .and => some .boolean
      | .or => some .boolean
      | .comparison .threeWay => some .int
      | .comparison _ => some .boolean
      | .compound _ => none
      | .arithmetic _ => none
  | .ternary info _ yes no =>
    info.facts.inferredType <|> joinTypes (yes.staticType? types cls) (no.staticType? types cls)
  | .declaration info _ declaredType initializer =>
    info.facts.inferredType <|> (declaredType <|> initializer.staticType? types cls)
  | .cast info type _ => info.facts.inferredType <|> some type
  | .closure info _ _ _ => info.facts.inferredType <|> some .closure
  | .map info _ => info.facts.inferredType <|> some .linkedHashMap
  | .list info _ => info.facts.inferredType <|> some .list
  | .unary info op operand =>
    info.facts.inferredType <|>
      match op with
      | .not => some .boolean
      | .negate => operand.staticType? types cls
  | .block info _ => info.facts.inferredType

end StaticDispatch
