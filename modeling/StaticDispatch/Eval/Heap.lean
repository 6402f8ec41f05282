import StaticDispatch.Eval.Value
import StaticDispatch.Decimal.Layout

/-!
# The heap

Stores for the contents of lists and arrays, maps, objects and closures, each
with addresses of its own; and what can be asked of values with the heap at
hand: truth, text and equality.
-/

namespace StaticDispatch

structure Heap where
  sequences : Array (Array Value) := #[]
  maps : Array (OrderedMap Value) := #[]
  objects : Array Instance := #[]
  closures : Array ClosureCode := #[]

namespace Heap

instance : Inhabited Heap := ⟨{}⟩

/-! ## Reading -/

def items (heap : Heap) (a : Address) : Array Value :=
  (heap.sequences[a]?).getD #[]

def entries (heap : Heap) (a : Address) : OrderedMap Value :=
  (heap.maps[a]?).getD {}

/-- The field values of an object. -/
def fields (heap : Heap) (a : Address) : OrderedMap Value :=
  ((heap.objects[a]?).map Instance.fields).getD {}

def objectType (heap : Heap) (a : Address) : TypeId :=
  ((heap.objects[a]?).map Instance.type).getD .object

/-- The value of a field, if the value is an object that has it. -/
def field? (heap : Heap) (value : Value) (name : String) : Option Value :=
  match value with
  | .object a => (heap.fields a).get? name
  | _ => none

/-- The class of an object. -/
def classOf? (heap : Heap) : Value → Option TypeId
  | .object a => some (heap.objectType a)
  | _ => none

/-! ## Writing -/

def modifyItems (heap : Heap) (a : Address) (change : Array Value → Array Value) : Heap :=
  { heap with sequences := heap.sequences.modify a change }

def modifyEntries (heap : Heap) (a : Address)
    (change : OrderedMap Value → OrderedMap Value) : Heap :=
  { heap with maps := heap.maps.modify a change }

def modifyFields (heap : Heap) (a : Address)
    (change : OrderedMap Value → OrderedMap Value) : Heap :=
  { heap with
    objects := heap.objects.modify a fun object =>
      { object with fields := change object.fields } }

/-! ## New containers -/

def newSequence (heap : Heap) (items : Array Value) : Heap × Address :=
  ({ heap with sequences := heap.sequences.push items }, heap.sequences.size)

def newList (heap : Heap) (items : List Value) : Heap × Value :=
  let (heap, a) := heap.newSequence items.toArray
  (heap, .list a)

def newArray (heap : Heap) (items : List Value) : Heap × Value :=
  let (heap, a) := heap.newSequence items.toArray
  (heap, .array a)

def newMap (heap : Heap) (entries : OrderedMap Value) : Heap × Value :=
  ({ heap with maps := heap.maps.push entries }, .map heap.maps.size)

def newObject (heap : Heap) (type : TypeId) (fields : OrderedMap Value) : Heap × Value :=
  ({ heap with objects := heap.objects.push { type, fields } }, .object heap.objects.size)

def newClosure (heap : Heap) (code : ClosureCode) : Heap × Value :=
  ({ heap with closures := heap.closures.push code }, .closure heap.closures.size)

/-! ## Truth -/

/-- Null, false, zero and what is empty count as false. -/
def isTruthy (heap : Heap) : Value → Bool
  | .null => false
  | .bool value => value
  | .int value => value != 0
  | .decimal value => !value.isZero
  | .text value => !value.isEmpty
  | .list a => !(heap.items a).isEmpty
  | .array a => !(heap.items a).isEmpty
  | .map a => (heap.entries a).size != 0
  | .object _ => true
  | .closure _ => true
  | .classRef _ => true

/-! ## Text -/

def typeNumber (type : TypeId) : String :=
  "#TypeId(" ++ toString type.index ++ ")"

def bracketed (texts : List String) : String :=
  "[" ++ ", ".intercalate texts ++ "]"

/-- The text of a value, from the texts of the values right inside it. -/
def textOver? (heap : Heap) (inner? : Value → Option String) : Value → Option String
  | .null => some "null"
  | .bool true => some "true"
  | .bool false => some "false"
  | .int value => some (toString value.toInt)
  | .decimal value => some (Decimal.Layout.value.text value)
  | .text value => some value
  | .list a => ((heap.items a).toList.mapM inner?).map bracketed
  | .array a => ((heap.items a).toList.mapM inner?).map bracketed
  | .map a =>
    ((heap.entries a).entries.mapM fun entry =>
      (inner? entry.2).map (entry.1 ++ ":" ++ ·)).map bracketed
  | .object a => some ("Object" ++ typeNumber (heap.objectType a))
  | .closure a =>
    let params := ((heap.closures[a]?).map (·.params.length)).getD 0
    some ("Closure(" ++ toString params ++ " param(s))")
  | .classRef type => some ("Class" ++ typeNumber type)

/-- The text of a value with containers nested at most `depth` deep. -/
def textWithin? (heap : Heap) : Nat → Value → Option String
  | 0 => heap.textOver? fun _ => none
  | depth + 1 => heap.textOver? (heap.textWithin? depth)

/-- The text of a value; a container that contains itself has none.  Nested containers
that are all different are no more than the heap holds. -/
def text? (heap : Heap) (value : Value) : Option String :=
  heap.textWithin? (heap.sequences.size + heap.maps.size) value

/-- Whether the text of a value shows the map at `target`, looking `depth` deep. -/
def showsMap (heap : Heap) (target : Address) : Nat → Value → Bool
  | depth + 1, .list a => (heap.items a).toList.any (heap.showsMap target depth)
  | depth + 1, .array a => (heap.items a).toList.any (heap.showsMap target depth)
  | depth + 1, .map a =>
    a == target || (heap.entries a).values.any (heap.showsMap target depth)
  | _, _ => false

/-- The key under which a value is written into the map at `target`.  There is none for a
key whose text shows that map, since the map is held by the writer. -/
def keyFor? (heap : Heap) (target : Address) (key : Value) : Option String :=
  if heap.showsMap target (heap.sequences.size + heap.maps.size) key then none
  else heap.text? key

/-! ## Equality -/

/-- Compares two lists of values from the left, and stops at the first difference. -/
def equalItems? (equal? : Value → Value → Option Bool) : List Value → List Value → Option Bool
  | [], [] => some true
  | a :: rest, b :: others =>
    match equal? a b with
    | some true => equalItems? equal? rest others
    | answer => answer
  | _, _ => some false

/-- Whether every entry is found in `other` with an equal value, from the first entry on. -/
def entriesFound? (equal? : Value → Value → Option Bool) (other : OrderedMap Value) :
    List (String × Value) → Option Bool
  | [] => some true
  | (key, a) :: rest =>
    match other.get? key with
    | none => some false
    | some b =>
      match equal? a b with
      | some true => entriesFound? equal? other rest
      | answer => answer

def equalMaps? (equal? : Value → Value → Option Bool) (a b : OrderedMap Value) : Option Bool :=
  if a.size = b.size then entriesFound? equal? b a.entries else some false

def equalSequences? (equal? : Value → Value → Option Bool) (a b : Array Value) : Option Bool :=
  if a.size = b.size then equalItems? equal? a.toList b.toList else some false

/-- Equality of values, from equality of the values right inside them.  Numbers are
compared as numbers, containers of one kind by their contents, closures by identity. -/
def equalOver? (heap : Heap) (inner? : Value → Value → Option Bool) :
    Value → Value → Option Bool
  | .null, .null => some true
  | .bool a, .bool b => some (a == b)
  | .int a, .int b => some (a == b)
  | .int a, .decimal b => some ((Decimal.ofInt64 a).equals b)
  | .decimal a, .int b => some ((Decimal.ofInt64 b).equals a)
  | .decimal a, .decimal b => some (a.equals b)
  | .text a, .text b => some (a == b)
  | .list a, .list b =>
    if a = b then some true else equalSequences? inner? (heap.items a) (heap.items b)
  | .array a, .array b =>
    if a = b then some true else equalSequences? inner? (heap.items a) (heap.items b)
  | .map a, .map b =>
    if a = b then some true else equalMaps? inner? (heap.entries a) (heap.entries b)
  | .object a, .object b =>
    if a = b then some true
    else if heap.objectType a = heap.objectType b then
      equalMaps? inner? (heap.fields a) (heap.fields b)
    else some false
  | .closure a, .closure b => some (a == b)
  | .classRef a, .classRef b => some (a == b)
  | _, _ => some false

/-- Equality of values with containers nested at most `depth` deep. -/
def equalWithin? (heap : Heap) : Nat → Value → Value → Option Bool
  | 0 => heap.equalOver? fun _ _ => none
  | depth + 1 => heap.equalOver? (heap.equalWithin? depth)

/-- Equality of values.  There is no answer for containers that contain themselves and
show no difference; a comparison that ends never comes back to the same two containers. -/
def equal? (heap : Heap) (a b : Value) : Option Bool :=
  let containers := heap.sequences.size + heap.maps.size + heap.objects.size
  heap.equalWithin? (containers * containers + 1) a b

end Heap

end StaticDispatch
