import Mathlib.Data.List.Find
import StaticDispatch.Lowering.Adapters

/-!
# Tables that declarations lead to

A table begins with the primitives, their wrappers and the library types, and
grows by declarations.  No declaration takes anything away: a handle keeps the
name and the kind of its type, and a method keeps all its data.  What the
starting table says about the library types therefore holds of every table
that a program meets.
-/

namespace StaticDispatch

/-! ## Growth of entries -/

/-- What later declarations leave of a class: its place in the hierarchy stays, and its
methods and constructors only get company at the end. -/
structure ClassInfo.Grows (older newer : ClassInfo) : Prop where
  superclass : newer.superclass = older.superclass
  isEnum : newer.isEnum = older.isEnum
  isInterface : newer.isInterface = older.isInterface
  unboxed : newer.unboxed = older.unboxed
  methods : older.methods <+: newer.methods
  constructors : older.constructors <+: newer.constructors

theorem ClassInfo.Grows.refl (info : ClassInfo) : info.Grows info :=
  ⟨rfl, rfl, rfl, rfl, List.prefix_refl _, List.prefix_refl _⟩

theorem ClassInfo.Grows.trans {a b c : ClassInfo}
    (hab : a.Grows b) (hbc : b.Grows c) : a.Grows c :=
  ⟨hbc.superclass.trans hab.superclass, hbc.isEnum.trans hab.isEnum,
    hbc.isInterface.trans hab.isInterface, hbc.unboxed.trans hab.unboxed,
    hab.methods.trans hbc.methods, hab.constructors.trans hbc.constructors⟩

/-- A type keeps its kind; only a class has anything to gain. -/
def TypeShape.Grows : TypeShape → TypeShape → Prop
  | .primitive kind, newer => newer = .primitive kind
  | .array component, newer => newer = .array component
  | .classType info, newer => ∃ info', newer = .classType info' ∧ info.Grows info'

theorem TypeShape.Grows.refl (shape : TypeShape) : shape.Grows shape := by
  cases shape with
  | primitive kind => rfl
  | array component => rfl
  | classType info => exact ⟨info, rfl, ClassInfo.Grows.refl info⟩

theorem TypeShape.Grows.trans {a b c : TypeShape}
    (hab : a.Grows b) (hbc : b.Grows c) : a.Grows c := by
  cases a with
  | primitive kind =>
      cases hab
      exact hbc
  | array component =>
      cases hab
      exact hbc
  | classType info =>
      obtain ⟨info', rfl, hinfo⟩ := hab
      obtain ⟨info'', rfl, hinfo'⟩ := hbc
      exact ⟨info'', rfl, hinfo.trans hinfo'⟩

structure TypeEntry.Grows (older newer : TypeEntry) : Prop where
  name : newer.name = older.name
  shape : older.shape.Grows newer.shape

theorem TypeEntry.Grows.refl (entry : TypeEntry) : entry.Grows entry :=
  ⟨rfl, TypeShape.Grows.refl entry.shape⟩

theorem TypeEntry.mapClass_grows {change : ClassInfo → ClassInfo}
    (hchange : ∀ info : ClassInfo, info.Grows (change info)) (entry : TypeEntry) :
    entry.Grows (entry.mapClass change) := by
  obtain ⟨name, shape⟩ := entry
  cases shape with
  | primitive kind => exact TypeEntry.Grows.refl _
  | array component => exact TypeEntry.Grows.refl _
  | classType info => exact ⟨rfl, change info, rfl, hchange info⟩

namespace TypeTable

/-! ## Growth of tables -/

/-- Every handle of the older table has a meaning in the newer one, and none has lost
anything. -/
structure Extends (older newer : TypeTable) : Prop where
  types : ∀ t entry, older.type? t = some entry →
    ∃ entry', newer.type? t = some entry' ∧ entry.Grows entry'
  methods : ∀ m entry, older.method? m = some entry → newer.method? m = some entry

theorem Extends.refl (table : TypeTable) : table.Extends table :=
  ⟨fun _ entry h => ⟨entry, h, TypeEntry.Grows.refl entry⟩, fun _ _ h => h⟩

theorem Extends.trans {a b c : TypeTable} (hab : a.Extends b) (hbc : b.Extends c) :
    a.Extends c := by
  constructor
  · intro t entry h
    obtain ⟨entry', h', hgrows⟩ := hab.types t entry h
    obtain ⟨entry'', h'', hgrows'⟩ := hbc.types t entry' h'
    exact ⟨entry'', h'', hgrows'.name.trans hgrows.name,
      hgrows.shape.trans hgrows'.shape⟩
  · intro m entry h
    exact hbc.methods m entry (hab.methods m entry h)

theorem extends_pushType (table : TypeTable) (entry : TypeEntry) :
    table.Extends (table.pushType entry).1 := by
  constructor
  · intro t old h
    refine ⟨old, ?_, TypeEntry.Grows.refl old⟩
    have hlt : t.index < table.types.size := (Array.getElem?_eq_some_iff.mp h).1
    simp only [pushType, type?, Array.getElem?_push]
    rw [if_neg (Nat.ne_of_lt hlt)]
    exact h
  · intro m old h
    exact h

theorem extends_pushMethod (table : TypeTable) (entry : MethodEntry) :
    table.Extends (table.pushMethod entry).1 := by
  constructor
  · intro t old h
    exact ⟨old, h, TypeEntry.Grows.refl old⟩
  · intro m old h
    have hlt : m.index < table.methods.size := (Array.getElem?_eq_some_iff.mp h).1
    simp only [pushMethod, method?, Array.getElem?_push]
    rw [if_neg (Nat.ne_of_lt hlt)]
    exact h

theorem extends_modifyClass (table : TypeTable) (owner : TypeId)
    {change : ClassInfo → ClassInfo}
    (hchange : ∀ info : ClassInfo, info.Grows (change info)) :
    table.Extends (table.modifyClass owner change) := by
  constructor
  · intro t old h
    simp only [modifyClass, type?, Array.getElem?_modify]
    split
    · refine ⟨old.mapClass change, ?_, TypeEntry.mapClass_grows hchange old⟩
      rw [show table.types[t.index]? = some old from h]
      rfl
    · exact ⟨old, h, TypeEntry.Grows.refl old⟩
  · intro m old h
    exact h

/-! ## Declarations -/

end TypeTable

/-- One declaration with the handles that it mentions. -/
inductive Declaration where
  | classType (name : String) (superclass : TypeId)
  | interfaceType (name : String)
  | enumType (name : String)
  | arrayType (component : TypeId)
  | implementation (type interface : TypeId)
  | field (owner : TypeId) (name : String) (type : TypeId)
  | method (owner : TypeId) (name : String) (params : List MethodParam)
      (returnType : TypeId) (isStatic : Bool)
  | constructor (owner : TypeId) (params : List MethodParam)
  | mapConstructor (owner : TypeId)

namespace Declaration

def handles : Declaration → List TypeId
  | .classType _ superclass => [superclass]
  | .interfaceType _ => []
  | .enumType _ => []
  | .arrayType component => [component]
  | .implementation type interface => [type, interface]
  | .field owner _ type => [owner, type]
  | .method owner _ params returnType _ => owner :: returnType :: params.map MethodParam.type
  | .constructor owner params => owner :: params.map MethodParam.type
  | .mapConstructor owner => [owner]

/-- The declaration mentions only types that the table has. -/
def InRange (declaration : Declaration) (table : TypeTable) : Prop :=
  ∀ t ∈ declaration.handles, t.index < table.types.size

end Declaration

namespace TypeTable

def declare (table : TypeTable) : Declaration → TypeTable
  | .classType name superclass => (table.declareClassExtending name superclass).1
  | .interfaceType name => (table.declareInterface name).1
  | .enumType name => (table.declareEnum name).1
  | .arrayType component => (table.arrayOf component).1
  | .implementation type interface => table.addInterface type interface
  | .field owner name type => table.declareField owner name type
  | .method owner name params returnType isStatic =>
      (table.declareMethod owner name params returnType isStatic).1
  | .constructor owner params => (table.declareConstructor owner params).1
  | .mapConstructor owner => (table.synthesizeMapConstructor owner).1

/-- The tables that a program can meet. -/
inductive Reachable : TypeTable → Prop
  | start : Reachable .initial
  | step {table : TypeTable} (hreach : Reachable table) (declaration : Declaration)
      (hrange : declaration.InRange table) : Reachable (table.declare declaration)

theorem extends_declare (table : TypeTable) (declaration : Declaration) :
    table.Extends (table.declare declaration) := by
  cases declaration with
  | classType name superclass => exact table.extends_pushType _
  | interfaceType name => exact table.extends_pushType _
  | enumType name => exact table.extends_pushType _
  | arrayType component =>
      simp only [declare, arrayOf]
      split
      · exact Extends.refl table
      · exact table.extends_pushType _
  | implementation type interface =>
      apply table.extends_modifyClass
      intro info
      exact ⟨rfl, rfl, rfl, rfl, List.prefix_refl _, List.prefix_refl _⟩
  | field owner name type =>
      apply table.extends_modifyClass
      intro info
      exact ⟨rfl, rfl, rfl, rfl, List.prefix_refl _, List.prefix_refl _⟩
  | method owner name params returnType isStatic =>
      refine (table.extends_pushMethod
        { name, owner, params, returnType, isStatic, kind := .method }).trans ?_
      apply extends_modifyClass
      intro info
      exact ⟨rfl, rfl, rfl, rfl, List.prefix_append _ _, List.prefix_refl _⟩
  | constructor owner params =>
      refine (table.extends_pushMethod
        { name := "<init>", owner, params, returnType := owner, isStatic := false,
          kind := .constructor }).trans ?_
      apply extends_modifyClass
      intro info
      exact ⟨rfl, rfl, rfl, rfl, List.prefix_refl _, List.prefix_append _ _⟩
  | mapConstructor owner => exact table.extends_pushMethod _

theorem Reachable.extends_initial {table : TypeTable} (hreach : table.Reachable) :
    initial.Extends table := by
  induction hreach with
  | start => exact Extends.refl initial
  | step _ declaration _ ih => exact ih.trans (extends_declare _ declaration)

/-! ## Library types of every table -/

theorem Extends.component?_eq_none {older newer : TypeTable} (h : older.Extends newer)
    {t : TypeId} {info : ClassInfo} (hinfo : older.classInfo? t = some info) :
    newer.component? t = none := by
  unfold classInfo? at hinfo
  split at hinfo
  · rename_i name stored hentry
    obtain ⟨⟨name', shape'⟩, hentry', _, info', hshape, _⟩ := h.types t _ hentry
    subst hshape
    simp [component?, hentry']
  · exact absurd hinfo (by simp)

theorem Extends.exists_classInfo? {older newer : TypeTable} (h : older.Extends newer)
    {t : TypeId} {info : ClassInfo} (hinfo : older.classInfo? t = some info) :
    ∃ info', newer.classInfo? t = some info' ∧ info.Grows info' := by
  unfold classInfo? at hinfo
  split at hinfo
  · rename_i name stored hentry
    obtain rfl := Option.some.inj hinfo
    obtain ⟨⟨name', shape'⟩, hentry', _, info', hshape, hgrows⟩ := h.types t _ hentry
    subst hshape
    exact ⟨info', by simp [classInfo?, hentry'], hgrows⟩
  · exact absurd hinfo (by simp)

/-- A method that is found by name among known ones stays the first of that name. -/
theorem Extends.findMethod? {older newer : TypeTable} (h : older.Extends newer)
    {owner : TypeId} {info : ClassInfo} (hinfo : older.classInfo? owner = some info)
    (hknown : ∀ m ∈ info.methods, (older.method? m).isSome = true)
    {name : String} {m : MethodId} (hfind : older.findMethod? owner name = some m) :
    newer.findMethod? owner name = some m := by
  obtain ⟨info', hinfo', hgrows⟩ := h.exists_classInfo? hinfo
  obtain ⟨added, hmethods⟩ := hgrows.methods
  simp only [TypeTable.findMethod?, hinfo] at hfind
  simp only [TypeTable.findMethod?, hinfo', ← hmethods, List.find?_append]
  have hsame : info.methods.find?
      (fun m => ((newer.method? m).map MethodEntry.name) == some name) = some m := by
    rw [← hfind]
    apply List.find?_congr
    intro other hother
    obtain ⟨entry, hentry⟩ := Option.isSome_iff_exists.mp (hknown other hother)
    rw [hentry, h.methods other entry hentry]
  rw [hsame]
  rfl

/-- The type of class references is a class, so that no class is taken for an array. -/
theorem Reachable.component?_classObject {table : TypeTable} (hreach : table.Reachable) :
    table.component? .classObject = none :=
  hreach.extends_initial.component?_eq_none
    (show initial.classInfo? .classObject = some { superclass := some .object } from rfl)

/-- The adapter declares a routine for every comparison. -/
theorem Reachable.exists_routine {table : TypeTable} (hreach : table.Reachable)
    (op : Comparison) :
    ∃ routine, (Adapters.ofTypes table).routine? op = some routine ∧
      table.methodOwner routine = .bytecodeAdapter ∧
      table.methodName routine = op.adapterName := by
  have hextends := hreach.extends_initial
  have hstart : ∃ routine entry, initial.findMethod? .bytecodeAdapter op.adapterName =
      some routine ∧ initial.method? routine = some entry ∧
        entry.owner = .bytecodeAdapter ∧ entry.name = op.adapterName := by
    cases op <;> exact ⟨_, _, rfl, rfl, rfl, rfl⟩
  obtain ⟨routine, entry, hfind, hentry, howner, hname⟩ := hstart
  have hmethod := hextends.methods routine entry hentry
  refine ⟨routine, ?_, ?_, ?_⟩
  · exact hextends.findMethod? (rfl : initial.classInfo? .bytecodeAdapter = some _)
      (by decide) hfind
  · simp [methodOwner, hmethod, howner]
  · simp [methodName, hmethod, hname]

end TypeTable

end StaticDispatch
