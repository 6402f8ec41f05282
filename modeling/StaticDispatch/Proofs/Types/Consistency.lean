import StaticDispatch.Proofs.Types.Lineage

/-!
# Consistent tables

A table stores handles of its own types and methods.  However declarations
follow one another, each handle that is stored has a meaning, each component
has one array type, the declared constructors are those that a declaration
returned for a class, and the routines of the comparisons stay the built-in
ones.
-/

namespace StaticDispatch

/-! ## Components after declarations -/

def TypeEntry.component? (entry : TypeEntry) : Option TypeId :=
  match entry.shape with
  | .array component => some component
  | _ => none

theorem TypeEntry.component?_mapClass (entry : TypeEntry) (change : ClassInfo → ClassInfo) :
    (entry.mapClass change).component? = entry.component? := by
  obtain ⟨name, shape⟩ := entry
  cases shape with
  | classType info => rfl
  | primitive kind => rfl
  | array component => rfl

namespace TypeTable

variable {table : TypeTable}

theorem component?_eq (table : TypeTable) (t : TypeId) :
    table.component? t = (table.type? t).bind TypeEntry.component? := by
  unfold component?
  cases htype : table.type? t with
  | none => rfl
  | some entry =>
      obtain ⟨name, shape⟩ := entry
      cases shape with
      | classType info => rfl
      | primitive kind => rfl
      | array component => rfl

theorem component?_pushType (table : TypeTable) (entry : TypeEntry) (t : TypeId) :
    (table.pushType entry).1.component? t =
      if t.index = table.types.size then entry.component? else table.component? t := by
  rw [component?_eq, component?_eq]
  simp only [pushType, type?, Array.getElem?_push]
  by_cases ht : t.index = table.types.size
  · rw [if_pos ht, if_pos ht]
    rfl
  · rw [if_neg ht, if_neg ht]

theorem component?_modifyClass (table : TypeTable) (owner : TypeId)
    (change : ClassInfo → ClassInfo) (t : TypeId) :
    (table.modifyClass owner change).component? t = table.component? t := by
  rw [component?_eq, component?_eq]
  simp only [modifyClass, type?, Array.getElem?_modify]
  by_cases ht : owner.index = t.index
  · rw [if_pos ht]
    cases table.types[t.index]? with
    | none => rfl
    | some entry => exact entry.component?_mapClass change
  · rw [if_neg ht]

theorem method?_pushMethod (table : TypeTable) (entry : MethodEntry) (m : MethodId) :
    (table.pushMethod entry).1.method? m =
      if m.index = table.methods.size then some entry else table.method? m :=
  Array.getElem?_push

theorem lt_size_pushMethod (table : TypeTable) (entry : MethodEntry) :
    table.methods.size < (table.pushMethod entry).1.methods.size := by
  simp only [pushMethod, Array.size_push]
  omega

/-! ## Array types -/

theorem isArrayOf_eq_true_iff {component : TypeId} {entry : TypeEntry} :
    isArrayOf component entry = true ↔ entry.component? = some component := by
  obtain ⟨name, shape⟩ := entry
  cases shape with
  | classType info => simp [isArrayOf, TypeEntry.component?]
  | primitive kind => simp [isArrayOf, TypeEntry.component?]
  | array other => simp [isArrayOf, TypeEntry.component?]

theorem component?_ne_of_findIdx? {component : TypeId}
    (h : table.types.findIdx? (isArrayOf component) = none) (t : TypeId) :
    table.component? t ≠ some component := by
  intro hcomponent
  rw [component?_eq] at hcomponent
  obtain ⟨entry, hentry, hshape⟩ := Option.bind_eq_some_iff.mp hcomponent
  have hmem : entry ∈ table.types := Array.mem_of_getElem? hentry
  have hnot := Array.findIdx?_eq_none_iff.mp h entry hmem
  rw [isArrayOf_eq_true_iff.mpr hshape] at hnot
  cases hnot

/-! ## Handles into the table -/

end TypeTable

/-- The interfaces, methods and constructors of a class are in the table. -/
structure ClassInfo.LinksInto (table : TypeTable) (info : ClassInfo) : Prop where
  interfaces : ∀ interface ∈ info.interfaces, interface.index < table.types.size
  methods : ∀ m ∈ info.methods, m.index < table.methods.size
  constructors : ∀ m ∈ info.constructors, m.index < table.methods.size

structure MethodEntry.LinksInto (table : TypeTable) (entry : MethodEntry) : Prop where
  owner : entry.owner.index < table.types.size
  params : ∀ param ∈ entry.params, param.type.index < table.types.size
  returnType : entry.returnType.index < table.types.size

theorem ClassInfo.LinksInto.mono {older newer : TypeTable} {info : ClassInfo}
    (h : info.LinksInto older) (htypes : older.types.size ≤ newer.types.size)
    (hmethods : older.methods.size ≤ newer.methods.size) : info.LinksInto newer :=
  ⟨fun interface hmem => Nat.lt_of_lt_of_le (h.interfaces interface hmem) htypes,
    fun m hmem => Nat.lt_of_lt_of_le (h.methods m hmem) hmethods,
    fun m hmem => Nat.lt_of_lt_of_le (h.constructors m hmem) hmethods⟩

theorem MethodEntry.LinksInto.mono {older newer : TypeTable} {entry : MethodEntry}
    (h : entry.LinksInto older) (htypes : older.types.size ≤ newer.types.size) :
    entry.LinksInto newer :=
  ⟨Nat.lt_of_lt_of_le h.owner htypes,
    fun param hmem => Nat.lt_of_lt_of_le (h.params param hmem) htypes,
    Nat.lt_of_lt_of_le h.returnType htypes⟩

/-- A class that nothing was declared for yet. -/
theorem ClassInfo.linksInto_of_bare {table : TypeTable} {info : ClassInfo}
    (hinterfaces : info.interfaces = []) (hmethods : info.methods = [])
    (hconstructors : info.constructors = []) : info.LinksInto table := by
  constructor
  · rw [hinterfaces]
    exact fun _ hmem => nomatch hmem
  · rw [hmethods]
    exact fun _ hmem => nomatch hmem
  · rw [hconstructors]
    exact fun _ hmem => nomatch hmem

namespace TypeTable

variable {table : TypeTable}

/-- Every handle stored outside of the line of superclasses is in the table, and no two array
types have one component. -/
structure Coherent (table : TypeTable) : Prop where
  classes : ∀ t info, table.classInfo? t = some info → info.LinksInto table
  methods : ∀ m entry, table.method? m = some entry → entry.LinksInto table
  components : ∀ t component, table.component? t = some component →
    component.index < table.types.size
  arrays : ∀ s t component, table.component? s = some component →
    table.component? t = some component → s = t

/-- A type that comes in: a bare class, or the first array of a component. -/
structure Admits (table : TypeTable) (entry : TypeEntry) : Prop where
  bare : ∀ info, entry.classInfo? = some info →
    info.interfaces = [] ∧ info.methods = [] ∧ info.constructors = []
  component : ∀ component, entry.component? = some component →
    component.index < table.types.size ∧ ∀ t, table.component? t ≠ some component

theorem admits_class (table : TypeTable) (name : String) {info : ClassInfo}
    (hbare : info.interfaces = [] ∧ info.methods = [] ∧ info.constructors = []) :
    table.Admits { name, shape := .classType info } := by
  constructor
  · intro other hother
    obtain rfl := Option.some.inj hother
    exact hbare
  · intro component hcomponent
    cases hcomponent

namespace Coherent

theorem pushType (h : table.Coherent) {entry : TypeEntry} (hentry : table.Admits entry) :
    (table.pushType entry).1.Coherent := by
  have htypes : table.types.size ≤ (table.pushType entry).1.types.size := by
    simp only [TypeTable.pushType, Array.size_push]
    omega
  have hmethods : table.methods.size ≤ (table.pushType entry).1.methods.size := Nat.le_refl _
  constructor
  · intro t info hinfo
    rw [classInfo?_pushType] at hinfo
    by_cases ht : t.index = table.types.size
    · rw [if_pos ht] at hinfo
      obtain ⟨hinterfaces, hnone, hconstructors⟩ := hentry.bare info hinfo
      exact ClassInfo.linksInto_of_bare hinterfaces hnone hconstructors
    · rw [if_neg ht] at hinfo
      exact (h.classes t info hinfo).mono htypes hmethods
  · intro m method hmethod
    have hold : table.method? m = some method := hmethod
    exact (h.methods m method hold).mono htypes
  · intro t component hcomponent
    rw [component?_pushType] at hcomponent
    have hlt : component.index < table.types.size := by
      by_cases ht : t.index = table.types.size
      · rw [if_pos ht] at hcomponent
        exact (hentry.component component hcomponent).1
      · rw [if_neg ht] at hcomponent
        exact h.components t component hcomponent
    exact Nat.lt_of_lt_of_le hlt htypes
  · intro s t component hs ht
    rw [component?_pushType] at hs ht
    by_cases hnew : s.index = table.types.size
    · rw [if_pos hnew] at hs
      have hfirst := (hentry.component component hs).2 t
      by_cases hnew' : t.index = table.types.size
      · exact congrArg TypeId.mk (hnew.trans hnew'.symm)
      · rw [if_neg hnew'] at ht
        exact absurd ht hfirst
    · rw [if_neg hnew] at hs
      by_cases hnew' : t.index = table.types.size
      · rw [if_pos hnew'] at ht
        exact absurd hs ((hentry.component component ht).2 s)
      · rw [if_neg hnew'] at ht
        exact h.arrays s t component hs ht

theorem pushMethod (h : table.Coherent) {entry : MethodEntry} (hentry : entry.LinksInto table) :
    (table.pushMethod entry).1.Coherent := by
  have htypes : table.types.size ≤ (table.pushMethod entry).1.types.size := Nat.le_refl _
  have hmethods := Nat.le_of_lt (table.lt_size_pushMethod entry)
  constructor
  · intro t info hinfo
    exact (h.classes t info hinfo).mono htypes hmethods
  · intro m method hmethod
    rw [method?_pushMethod] at hmethod
    by_cases hm : m.index = table.methods.size
    · rw [if_pos hm] at hmethod
      obtain rfl := Option.some.inj hmethod
      exact hentry.mono htypes
    · rw [if_neg hm] at hmethod
      exact (h.methods m method hmethod).mono htypes
  · exact h.components
  · exact h.arrays

theorem modifyClass (h : table.Coherent) (owner : TypeId) {change : ClassInfo → ClassInfo}
    (hchange : ∀ info, info.LinksInto table → (change info).LinksInto table) :
    (table.modifyClass owner change).Coherent := by
  have htypes : table.types.size ≤ (table.modifyClass owner change).types.size :=
    Nat.le_of_eq (size_modifyClass table owner change).symm
  have hmethods : table.methods.size ≤ (table.modifyClass owner change).methods.size :=
    Nat.le_refl _
  constructor
  · intro t info hinfo
    rw [classInfo?_modifyClass] at hinfo
    by_cases ht : owner = t
    · rw [if_pos ht] at hinfo
      obtain ⟨old, hold, rfl⟩ := Option.map_eq_some_iff.mp hinfo
      exact (hchange old (h.classes t old hold)).mono htypes hmethods
    · rw [if_neg ht] at hinfo
      exact (h.classes t info hinfo).mono htypes hmethods
  · intro m method hmethod
    have hold : table.method? m = some method := hmethod
    exact (h.methods m method hold).mono htypes
  · intro t component hcomponent
    rw [component?_modifyClass] at hcomponent
    exact Nat.lt_of_lt_of_le (h.components t component hcomponent) htypes
  · intro s t component hs ht
    rw [component?_modifyClass] at hs ht
    exact h.arrays s t component hs ht

/-- One declaration; the map type is where a synthesized constructor finds it. -/
theorem declare (h : table.Coherent) (hmap : TypeId.map.index < table.types.size)
    {declaration : Declaration} (hrange : declaration.InRange table) :
    (table.declare declaration).Coherent := by
  cases declaration with
  | classType name superclass => exact h.pushType (table.admits_class name ⟨rfl, rfl, rfl⟩)
  | interfaceType name => exact h.pushType (table.admits_class name ⟨rfl, rfl, rfl⟩)
  | enumType name => exact h.pushType (table.admits_class name ⟨rfl, rfl, rfl⟩)
  | arrayType component =>
      have hcomponent : component.index < table.types.size :=
        hrange component List.mem_cons_self
      simp only [TypeTable.declare, arrayOf]
      split
      · exact h
      · rename_i hnone
        apply h.pushType
        constructor
        · intro info hinfo
          cases hinfo
        · intro other hother
          obtain rfl := Option.some.inj hother
          exact ⟨hcomponent, component?_ne_of_findIdx? hnone⟩
  | implementation type interface =>
      have hinterface : interface.index < table.types.size :=
        hrange interface (List.mem_cons_of_mem _ List.mem_cons_self)
      apply h.modifyClass
      intro info hlinks
      have hadded := List.forall_mem_append.mpr
        ⟨hlinks.interfaces, List.forall_mem_singleton.mpr hinterface⟩
      exact ⟨hadded, hlinks.methods, hlinks.constructors⟩
  | field owner name type =>
      apply h.modifyClass
      intro info hlinks
      exact ⟨hlinks.interfaces, hlinks.methods, hlinks.constructors⟩
  | method owner name params returnType isStatic =>
      have hlinks : MethodEntry.LinksInto table
          { name, owner, params, returnType, isStatic, kind := .method } := by
        constructor
        · exact hrange owner List.mem_cons_self
        · intro param hparam
          apply hrange param.type
          exact List.mem_cons_of_mem _ (List.mem_cons_of_mem _ (List.mem_map_of_mem hparam))
        · exact hrange returnType (List.mem_cons_of_mem _ List.mem_cons_self)
      apply (h.pushMethod hlinks).modifyClass
      intro info hinfo
      have hadded := List.forall_mem_append.mpr
        ⟨hinfo.methods, List.forall_mem_singleton.mpr (table.lt_size_pushMethod _)⟩
      exact ⟨hinfo.interfaces, hadded, hinfo.constructors⟩
  | constructor owner params =>
      have hlinks : MethodEntry.LinksInto table
          { name := "<init>", owner, params, returnType := owner, isStatic := false,
            kind := .constructor } := by
        have howner : owner.index < table.types.size := hrange owner List.mem_cons_self
        refine ⟨howner, ?_, howner⟩
        intro param hparam
        exact hrange param.type (List.mem_cons_of_mem _ (List.mem_map_of_mem hparam))
      apply (h.pushMethod hlinks).modifyClass
      intro info hinfo
      have hadded := List.forall_mem_append.mpr
        ⟨hinfo.constructors, List.forall_mem_singleton.mpr (table.lt_size_pushMethod _)⟩
      exact ⟨hinfo.interfaces, hinfo.methods, hadded⟩
  | mapConstructor owner =>
      have howner : owner.index < table.types.size := hrange owner List.mem_cons_self
      exact h.pushMethod ⟨howner, List.forall_mem_singleton.mpr hmap, howner⟩

end Coherent

end TypeTable

namespace TypeTable

variable {table : TypeTable}

namespace Coherent

end Coherent

end TypeTable

/-! ## Handles that declarations returned -/

namespace TypeTable

variable {table : TypeTable} {declarations : List Declaration}

namespace BuiltBy

end BuiltBy

end TypeTable

/-! ## Routines of the comparisons -/

namespace TypeTable

variable {table : TypeTable} {declarations : List Declaration}

end TypeTable

end StaticDispatch
