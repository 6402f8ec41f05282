import StaticDispatch.Types.Basic
import StaticDispatch.Tree.Operator

/-!
# The type table

The declarations that build a table of types and methods, and the table that
every program starts with.  A declaration only adds to the table: a handle
keeps its meaning.
-/

namespace StaticDispatch

/-- Changes what an entry says about a class; any other entry is left as it is. -/
def TypeEntry.mapClass (change : ClassInfo → ClassInfo) : TypeEntry → TypeEntry
  | { name, shape := .classType info } => { name, shape := .classType (change info) }
  | entry => entry

structure TypeTable where
  types : Array TypeEntry := #[]
  methods : Array MethodEntry := #[]

namespace TypeTable

/-! ## Entries -/

def type? (table : TypeTable) (t : TypeId) : Option TypeEntry :=
  table.types[t.index]?

def method? (table : TypeTable) (m : MethodId) : Option MethodEntry :=
  table.methods[m.index]?

def name (table : TypeTable) (t : TypeId) : String :=
  ((table.type? t).map TypeEntry.name).getD ""

def classInfo? (table : TypeTable) (t : TypeId) : Option ClassInfo :=
  match table.type? t with
  | some { shape := .classType info, .. } => some info
  | _ => none

def methodName (table : TypeTable) (m : MethodId) : String :=
  ((table.method? m).map MethodEntry.name).getD ""

def methodOwner (table : TypeTable) (m : MethodId) : TypeId :=
  ((table.method? m).map MethodEntry.owner).getD .object

/-! ## Declarations -/

def pushType (table : TypeTable) (entry : TypeEntry) : TypeTable × TypeId :=
  ({ table with types := table.types.push entry }, ⟨table.types.size⟩)

def pushMethod (table : TypeTable) (entry : MethodEntry) : TypeTable × MethodId :=
  ({ table with methods := table.methods.push entry }, ⟨table.methods.size⟩)

/-- Changes what is stored about a class; any other type is left as it is. -/
def modifyClass (table : TypeTable) (t : TypeId) (change : ClassInfo → ClassInfo) :
    TypeTable :=
  { table with types := table.types.modify t.index (TypeEntry.mapClass change) }

def declareClassExtending (table : TypeTable) (name : String) (superclass : TypeId) :
    TypeTable × TypeId :=
  table.pushType { name, shape := .classType { superclass := some superclass } }

def declareClass (table : TypeTable) (name : String) : TypeTable × TypeId :=
  table.declareClassExtending name .object

def declareInterface (table : TypeTable) (name : String) : TypeTable × TypeId :=
  table.pushType { name, shape := .classType { isInterface := true } }

def declareEnum (table : TypeTable) (name : String) : TypeTable × TypeId :=
  table.pushType { name, shape := .classType { superclass := some .object, isEnum := true } }

def addInterface (table : TypeTable) (t interface : TypeId) : TypeTable :=
  table.modifyClass t fun info => { info with interfaces := info.interfaces ++ [interface] }

def declareField (table : TypeTable) (owner : TypeId) (name : String) (type : TypeId) :
    TypeTable :=
  table.modifyClass owner fun info => { info with fields := info.fields.insert name type }

def declareMethod (table : TypeTable) (owner : TypeId) (name : String)
    (params : List MethodParam) (returnType : TypeId) (isStatic : Bool) :
    TypeTable × MethodId :=
  let (table, id) :=
    table.pushMethod { name, owner, params, returnType, isStatic, kind := .method }
  (table.modifyClass owner fun info => { info with methods := info.methods ++ [id] }, id)

def pushConstructor (table : TypeTable) (owner : TypeId) (params : List MethodParam) :
    TypeTable × MethodId :=
  table.pushMethod
    { name := "<init>", owner, params, returnType := owner, isStatic := false,
      kind := .constructor }

/-- A constructor that the programmer wrote. -/
def declareConstructor (table : TypeTable) (owner : TypeId) (params : List MethodParam) :
    TypeTable × MethodId :=
  let (table, id) := table.pushConstructor owner params
  (table.modifyClass owner fun info => { info with constructors := info.constructors ++ [id] },
    id)

/-- The constructor from a map that a resolver gives to a class without one of its own.
It is not among the declared constructors. -/
def synthesizeMapConstructor (table : TypeTable) (owner : TypeId) : TypeTable × MethodId :=
  table.pushConstructor owner [{ name := "args", type := .map }]

def isArrayOf (component : TypeId) (entry : TypeEntry) : Bool :=
  match entry.shape with
  | .array c => c == component
  | _ => false

/-- The array type with the given component type, made on first use. -/
def arrayOf (table : TypeTable) (component : TypeId) : TypeTable × TypeId :=
  match table.types.findIdx? (isArrayOf component) with
  | some i => (table, ⟨i⟩)
  | none => table.pushType { name := table.name component ++ "[]", shape := .array component }

/-! ## The starting table -/

def declarePrimitive (table : TypeTable) (kind : Primitive) : TypeTable :=
  (table.pushType { name := kind.name, shape := .primitive kind }).1

def declareWrapper (table : TypeTable) (kind : Primitive) : TypeTable :=
  let parent := if kind.isNumeric then TypeId.number else TypeId.object
  let (table, wrapper) := table.declareClassExtending kind.wrapperName parent
  table.modifyClass wrapper fun info => { info with unboxed := some kind }

/-- The adapter's routine for a comparison: it takes both operands and answers a
truth value, or an integer for the three-way comparison. -/
def declareAdapter (table : TypeTable) (op : Comparison) : TypeTable :=
  let returnType := if op = .threeWay then TypeId.int else TypeId.boolean
  (table.declareMethod .bytecodeAdapter op.adapterName
    [⟨"left", .object⟩, ⟨"right", .object⟩] returnType true).1

def libraryClass (name : String) : TypeEntry :=
  { name, shape := .classType { superclass := some .object } }

def libraryInterface (name : String) : TypeEntry :=
  { name, shape := .classType { isInterface := true } }

/-- The primitives, their wrappers and the library types. -/
def initial : TypeTable :=
  let table : TypeTable := Primitive.all.foldl declarePrimitive {}
  let table := (table.pushType { name := "Object", shape := .classType {} }).1
  let table := (table.pushType (libraryClass "Number")).1
  let table := Primitive.all.foldl declareWrapper table
  let table := (table.pushType (libraryClass "String")).1
  let table := (table.pushType (libraryInterface "Map")).1
  let table := (table.pushType (libraryClass "LinkedHashMap")).1
  let table := table.addInterface .linkedHashMap .map
  let table := (table.pushType (libraryInterface "List")).1
  let table := (table.pushType (libraryClass "Closure")).1
  let table := (table.pushType (libraryClass "Class")).1
  let table := (table.pushType (libraryClass "BytecodeAdapter")).1
  Comparison.all.foldl declareAdapter table

instance : Inhabited TypeTable := ⟨initial⟩

end TypeTable

end StaticDispatch
