import StaticDispatch.Eval.State

/-!
# Places

What can be assigned to: variables, properties and elements.  A negative index
counts from the end.  Reading past the end of a list or an array gives null;
writing there grows a list, as far as memory can be addressed, and fails on an
array.
-/

namespace StaticDispatch

inductive Place where
  | named (name : String)
  | property (receiver : Value) (name : String)
  | element (receiver index : Value)

/-- The position that an index means in a sequence of `size` elements. -/
def elementIndex (index : Value) (size : Nat) : Except EvalError (Int64 × Nat) :=
  match index with
  | .int i =>
    let position := if i.toInt < 0 then i.toInt + size else i.toInt
    if position < 0 then .error (.indexRange i) else .ok (i, position.toNat)
  | other => .error (.badIndex other.kindName)

/-- The most elements of a list: each takes three words of eight octets, and a list as
many octets as a signed word counts. -/
def greatestListSize : Nat :=
  (Nat.pow 2 63 - 8) / 24

/-- A list written at `position`, with nulls where it had to grow. -/
def writeGrowing (items : Array Value) (position : Nat) (value : Value) : Array Value :=
  (items ++ Array.replicate (position + 1 - items.size) Value.null).setIfInBounds position value

/-! ## Reading -/

def readProperty (heap : Heap) (receiver : Value) (name : String) : Except EvalError Value :=
  match receiver with
  | .object a =>
    match (heap.fields a).get? name with
    | some value => .ok value
    | none => .error (.unknownName name)
  | .map a => .ok (((heap.entries a).get? name).getD .null)
  | .text value =>
    if name == "length" then .ok (.int (Int64.ofNat value.length))
    else .error (.noProperty name receiver.kindName)
  | .list a => sequenceProperty a
  | .array a => sequenceProperty a
  | .null => .error (.propertyOfNull name)
  | other => .error (.noProperty name other.kindName)
where
  sequenceProperty (a : Address) : Except EvalError Value :=
    if name == "length" || name == "size" then .ok (.int (Int64.ofNat (heap.items a).size))
    else .error (.noProperty name receiver.kindName)

def readSequence (items : Array Value) (index : Value) : Except EvalError Value :=
  match elementIndex index items.size with
  | .ok (_, position) => .ok ((items[position]?).getD .null)
  | .error error => .error error

def readText (text : String) (index : Value) : Except EvalError Value :=
  let chars := text.toList
  match elementIndex index chars.length with
  | .ok (i, position) =>
    match chars[position]? with
    | some c => .ok (.text (String.singleton c))
    | none => .error (.textIndex i)
  | .error error => .error error

def liftFailure {α : Type} : Except EvalError α → EvalM α
  | .ok value => return value
  | .error error => fail error

def readElement (receiver index : Value) : EvalM Value := do
  let heap ← getHeap
  match receiver with
  | .list a => liftFailure (readSequence (heap.items a) index)
  | .array a => liftFailure (readSequence (heap.items a) index)
  | .map a =>
    let key ← textOf index
    return ((heap.entries a).get? key).getD .null
  | .text value => liftFailure (readText value index)
  | .null => fail .elementOfNull
  | other => fail (.notIndexable other.kindName)

def readVariable (name : String) : EvalM Value := do
  match (← get).lookup? name with
  | some value => return value
  | none => fail (.unknownName name)

def readPlace : Place → EvalM Value
  | .named name => readVariable name
  | .property receiver name => do liftFailure (readProperty (← getHeap) receiver name)
  | .element receiver index => readElement receiver index

/-! ## Writing -/

def writeProperty (types : TypeTable) (receiver : Value) (name : String) (value : Value) :
    EvalM Unit := do
  let heap ← getHeap
  match receiver with
  | .object a =>
    if (heap.fields a).contains name then
      modifyHeap fun heap => heap.modifyFields a (·.insert name value)
    else fail (.noField name (types.name (heap.objectType a)))
  | .map a => modifyHeap fun heap => heap.modifyEntries a (·.insert name value)
  | .null => fail (.setPropertyOfNull name)
  | other => fail (.notWritable name other.kindName)

def writeElement (receiver index value : Value) : EvalM Unit := do
  let heap ← getHeap
  match receiver with
  | .array a =>
    let (i, position) ← liftFailure (elementIndex index (heap.items a).size)
    if position < (heap.items a).size then
      modifyHeap fun heap => heap.modifyItems a (·.setIfInBounds position value)
    else fail (.arrayIndex i)
  | .list a =>
    let (_, position) ← liftFailure (elementIndex index (heap.items a).size)
    if position < greatestListSize then
      modifyHeap fun heap => heap.modifyItems a (writeGrowing · position value)
    else throw .aborted
  | .map a =>
    match heap.keyFor? a index with
    | some key => modifyHeap fun heap => heap.modifyEntries a (·.insert key value)
    | none => throw .aborted
  | .null => fail .setElementOfNull
  | other => fail (.notIndexable other.kindName)

def writeVariable (name : String) (value : Value) : EvalM Unit :=
  modify fun state => state.assign name value

def writePlace (types : TypeTable) (place : Place) (value : Value) : EvalM Unit :=
  match place with
  | .named name => writeVariable name value
  | .property receiver name => writeProperty types receiver name value
  | .element receiver index => writeElement receiver index value

end StaticDispatch
