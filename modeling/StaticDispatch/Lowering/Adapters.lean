import StaticDispatch.Types.Query

/-!
# Comparison adapters

The routines of the bytecode adapter that compute the comparisons.
-/

namespace StaticDispatch

/-- The routine for each comparison, where there is one. -/
structure Adapters where
  routine? : Comparison → Option MethodId

namespace Adapters

/-- Without routines every comparison keeps the method that it was resolved to. -/
def empty : Adapters := ⟨fun _ => none⟩

/-- The routines that the adapter type of a table declares. -/
def ofTypes (types : TypeTable) : Adapters :=
  ⟨fun op => types.findMethod? .bytecodeAdapter op.adapterName⟩

def size (adapters : Adapters) : Nat :=
  Comparison.all.countP fun op => (adapters.routine? op).isSome

def isEmpty (adapters : Adapters) : Bool :=
  adapters.size = 0

end Adapters

end StaticDispatch
