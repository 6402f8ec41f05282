import StaticDispatch.Types.Table

/-!
# Questions to the type table

Components of arrays, wrappers of primitives, fields and methods of classes,
and subtyping.
-/

namespace StaticDispatch.TypeTable

def component? (table : TypeTable) (t : TypeId) : Option TypeId :=
  match table.type? t with
  | some { shape := .array component, .. } => some component
  | _ => none

def isArray (table : TypeTable) (t : TypeId) : Bool :=
  (table.component? t).isSome

def isEnum (table : TypeTable) (t : TypeId) : Bool :=
  ((table.classInfo? t).map ClassInfo.isEnum).getD false

/-- The boxed form of a primitive; any other type is its own. -/
def wrapper (table : TypeTable) (t : TypeId) : TypeId :=
  match table.type? t with
  | some { shape := .primitive kind, .. } => .wrapperOf kind
  | _ => t

/-! ## Fields -/

/-- The classes from `t` upwards, at most `fuel` of them. -/
def lineageWithin (table : TypeTable) : Nat → TypeId → List ClassInfo
  | 0, _ => []
  | fuel + 1, t =>
    match table.classInfo? t with
    | none => []
    | some info =>
      match info.superclass with
      | none => [info]
      | some parent => info :: table.lineageWithin fuel parent

/-- The classes from `t` upwards, to the first type that has no superclass or is no
class.  A superclass is declared before its subclasses, so that the number of types
bounds the length. -/
def lineage (table : TypeTable) (t : TypeId) : List ClassInfo :=
  table.lineageWithin table.types.size t

/-- The declared type of a field; the most derived declaration counts. -/
def fieldType? (table : TypeTable) (owner : TypeId) (name : String) : Option TypeId :=
  (table.lineage owner).findSome? (·.fields.get? name)

/-! ## Methods -/

/-- The first method of that name that the type itself declares. -/
def findMethod? (table : TypeTable) (owner : TypeId) (name : String) : Option MethodId :=
  match table.classInfo? owner with
  | none => none
  | some info => info.methods.find? fun m => ((table.method? m).map MethodEntry.name) == some name

/-- Whether the programmer wrote the constructor. -/
def isDeclaredConstructor (table : TypeTable) (ctor : MethodId) : Bool :=
  match table.method? ctor with
  | none => false
  | some entry =>
    ((table.classInfo? entry.owner).map fun info => info.constructors.contains ctor).getD false

/-! ## Subtyping -/

/-- The superclass and the interfaces of a type. -/
def parents (table : TypeTable) (t : TypeId) : List TypeId :=
  match table.classInfo? t with
  | none => []
  | some info => info.superclass.toList ++ info.interfaces

/-- Looks for `target` among the pending types and all above them, the last parent of
a type first.  A type is looked at again each time a path leads to it, so the search
goes round a loop of interfaces for ever; `none` says that `fuel` steps do not settle
the question. -/
def searchAbove (table : TypeTable) (target : TypeId) : Nat → List TypeId → Option Bool
  | _, [] => some false
  | 0, _ :: _ => none
  | fuel + 1, t :: pending =>
    if t = target then some true
    else table.searchAbove target fuel ((table.parents t).reverse ++ pending)

/-- The number of edges from a type to one of its parents. -/
def edgeCount (table : TypeTable) : Nat :=
  (List.range table.types.size).foldl (fun n i => n + (table.parents ⟨i⟩).length) 0

/-- Whether `t` is `target`, extends it or implements it.  A search that ends follows
each path without a repeated type at most once, and such a path is known by its set of
edges, so the fuel is enough for every search that ends. -/
def isSubtype? (table : TypeTable) (t target : TypeId) : Option Bool :=
  table.searchAbove target (Nat.pow 2 table.edgeCount + 1) [t]

def isSubtype (table : TypeTable) (t target : TypeId) : Bool :=
  (table.isSubtype? t target).getD false

end StaticDispatch.TypeTable
