import StaticDispatch.Eval.State

/-!
# Common natives

Methods from outside the program that need nothing but their receiver, their
arguments and the heap.
-/

namespace StaticDispatch.Native

/-- Answers its receiver. -/
def receiver : Native :=
  ⟨fun receiver _ heap => (.ok receiver, heap)⟩

/-- Answers a new list of its arguments. -/
def arguments : Native :=
  ⟨fun _ args heap =>
    let (heap, list) := heap.newList args
    (.ok list, heap)⟩

def argument (position : Nat) : Native :=
  ⟨fun _ args heap =>
    match args[position]? with
    | some value => (.ok value, heap)
    | none => (.error ("native: missing argument " ++ toString position), heap)⟩

def failure (message : String) : Native :=
  ⟨fun _ _ heap => (.error message, heap)⟩

/-- Answers a field of its receiver, or null. -/
def field (name : String) : Native :=
  ⟨fun receiver _ heap => (.ok ((heap.field? receiver name).getD .null), heap)⟩

/-- The order of two integers as -1, 0 or 1. -/
def orderOf (a b : Int64) : Value :=
  if a.toInt < b.toInt then .int (-1) else if a = b then .int 0 else .int 1

/-- Compares an integer field of its receiver with that of its first argument. -/
def compareField (name : String) : Native :=
  ⟨fun receiver args heap =>
    let other := (args.head?).bind (heap.field? · name)
    match heap.field? receiver name, other with
    | some (.int a), some (.int b) => (.ok (orderOf a b), heap)
    | _, _ => (.error "native: not comparable", heap)⟩

/-- Answers the values of a sequence in turn, and the last one again and again.  The
values still to come are kept in the heap. -/
def sequence (remaining : Address) : Native :=
  ⟨fun _ _ heap =>
    match (heap.items remaining).toList with
    | [] => (.ok .null, heap)
    | [value] => (.ok value, heap)
    | value :: rest => (.ok value, heap.modifyItems remaining fun _ => rest.toArray)⟩

def constant (value : Value) : Native :=
  ⟨fun _ _ heap => (.ok value, heap)⟩

end StaticDispatch.Native
