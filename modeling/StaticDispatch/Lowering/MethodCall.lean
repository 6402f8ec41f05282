import StaticDispatch.Lowering.ArrayAccess

/-!
# Method calls

A safe call `r?.m(x)` becomes a null check around the plain call:
`(r != null) ? r.m(x) : null`.  A receiver that could have side effects is
evaluated once, into a temporary declared in the check:
`((T tmp$0 = r) != null) ? tmp$0.m(x) : null`.  Any other call, and also the
plain half of a safe one, may be array access.
-/

namespace StaticDispatch

def lowerPlainCall (settings : Settings) (cls : TypeId) (info : Info) (receiver : Expr)
    (name : String) (args : List Expr) (spread : Bool) : LowerM Expr :=
  if settings.config.isEnabled .arrayIndex then
    lowerArrayAccess settings cls info receiver name args spread
  else return .methodCall info receiver name args false spread

/-- The receiver as it stands in the check and as it stands in the call. -/
def splitReceiver (settings : Settings) (cls : TypeId) (receiver : Expr) :
    LowerM (Expr × Expr) :=
  if settings.config.bindsReceiver receiver then bindTemporary settings cls receiver
  else return (receiver, receiver)

/-- `checked` compared with null at the place of the receiver. -/
def notNull (span : Span) (checked : Expr) : Expr :=
  .binary span.info (.comparison .notEqual) span checked (.null span)

def lowerSafeCall (settings : Settings) (cls : TypeId) (info : Info) (receiver : Expr)
    (name : String) (args : List Expr) (spread : Bool) : LowerM Expr := do
  let (checked, called) ← splitReceiver settings cls receiver
  count { safeNavigation := 1 }
  let call ← lowerPlainCall settings cls info called name args spread
  return .ternary (.typed info.span info.facts.inferredType) (notNull receiver.span checked)
    call (.null info.span)

/-- The rules for a method call whose children are lowered already. -/
def lowerMethodCall (settings : Settings) (cls : TypeId) (info : Info) (receiver : Expr)
    (name : String) (args : List Expr) (safe spread : Bool) : LowerM Expr :=
  if safe then
    if settings.config.isEnabled .safeNavigation then
      lowerSafeCall settings cls info receiver name args spread
    else return .methodCall info receiver name args true spread
  else lowerPlainCall settings cls info receiver name args spread

end StaticDispatch
