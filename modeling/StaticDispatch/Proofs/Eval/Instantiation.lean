import StaticDispatch.Eval.Call
import StaticDispatch.Proofs.Types.Lineage

/-!
# New objects

A new object has the fields that the search for a field finds from its class,
and no other ones.  Each is at the default of its most derived declaration and
stands where its name was first declared, counting from the topmost class down.
-/

namespace StaticDispatch

variable {types : TypeTable}

/-! ## Fields of a line of classes -/

/-- What the fields declared by one class hold at first. -/
def ClassInfo.defaults (types : TypeTable) (info : ClassInfo) : OrderedMap Value :=
  info.fields.map (defaultValue types)

end StaticDispatch
