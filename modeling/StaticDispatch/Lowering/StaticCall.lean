import StaticDispatch.Lowering.Session

/-!
# Static calls

`Owner::m(x)` with a resolved target becomes the call `Owner.m(x)` on a class
reference, with the facts of the static call.
-/

namespace StaticDispatch

def lowerStaticCall (settings : Settings) (info : Info) (owner : TypeId) (name : String)
    (args : List Expr) : LowerM Expr :=
  if settings.config.isEnabled .staticCalls && info.facts.callTarget.isSome then do
    count { staticCalls := 1 }
    return .methodCall info (.classRef info.span.info owner) name args false false
  else return .staticCall info owner name args

end StaticDispatch
