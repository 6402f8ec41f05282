import StaticDispatch.Lowering.Session

/-!
# Array access

`a.getAt(i)` becomes `a[i]` and `a.putAt(i, v)` becomes `a[i] = v` when `a` is
statically an array and `i` is a whole number.
-/

namespace StaticDispatch

/-- A call that stands for access to an element of an array. -/
inductive ArrayAccess where
  | read (component : TypeId) (index : Expr)
  | write (component : TypeId) (index value : Expr)

/-- The component type when the receiver is statically an array. -/
def arrayComponent? (types : TypeTable) (cls : TypeId) (receiver : Expr) : Option TypeId :=
  (receiver.staticType? types cls).bind types.component?

/-- Whether the index is statically an `int` or boxed `int`. -/
def isIntegralIndex (types : TypeTable) (cls : TypeId) (index : Expr) : Bool :=
  (index.staticType? types cls).map types.wrapper == some .integer

/-- Whether the index is statically a number of no particular kind, as the successor of
an enum constant is. -/
def isNumberIndex (types : TypeTable) (cls : TypeId) (index : Expr) : Bool :=
  (index.staticType? types cls).map types.wrapper == some .number

/-- What a call with this receiver, name and arguments accesses.  An element of an array
of enum constants may also be read with a number of no particular kind. -/
def arrayAccess? (types : TypeTable) (cls : TypeId) (receiver : Expr) (name : String)
    (args : List Expr) : Option ArrayAccess :=
  match arrayComponent? types cls receiver, args with
  | some component, [index] =>
    if name == "getAt" && (isIntegralIndex types cls index ||
        types.isEnum component && isNumberIndex types cls index) then
      some (.read component index)
    else none
  | some component, [index, value] =>
    if name == "putAt" && isIntegralIndex types cls index then
      some (.write component index value)
    else none
  | _, _ => none

def elementAt (info : Info) (receiver : Expr) (component : TypeId) (index : Expr) : Expr :=
  .binary (.typed info.span component) .index index.span receiver index

/-- The array rule on a call that is not safe; the children are lowered already. -/
def lowerArrayAccess (settings : Settings) (cls : TypeId) (info : Info) (receiver : Expr)
    (name : String) (args : List Expr) (spread : Bool) : LowerM Expr :=
  match arrayAccess? settings.types cls receiver name args with
  | some (.read component index) => do
    count { arrayAccesses := 1 }
    return elementAt info receiver component index
  | some (.write component index value) => do
    count { arrayAccesses := 1 }
    return .binary info.span.info .assign value.span (elementAt info receiver component index)
      value
  | none => return .methodCall info receiver name args false spread

end StaticDispatch
