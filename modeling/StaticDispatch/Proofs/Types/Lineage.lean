import StaticDispatch.Proofs.OrderedMap
import StaticDispatch.Proofs.Types.Reachable

/-!
# Lines of superclasses

A superclass is declared before its subclasses, so that the way up from a class
ends.  The walks along it, one that looks for a field and one that collects the
classes, are stated as relations that put no bound on the number of steps, and
what the table answers is shown to be what these walks come to.
-/

namespace StaticDispatch

/-! ## Classes after declarations -/

def TypeEntry.classInfo? (entry : TypeEntry) : Option ClassInfo :=
  match entry.shape with
  | .classType info => some info
  | _ => none

theorem TypeEntry.classInfo?_mapClass (entry : TypeEntry) (change : ClassInfo → ClassInfo) :
    (entry.mapClass change).classInfo? = entry.classInfo?.map change := by
  obtain ⟨name, shape⟩ := entry
  cases shape with
  | classType info => rfl
  | primitive kind => rfl
  | array component => rfl

namespace TypeTable

variable {table : TypeTable}

theorem classInfo?_eq (table : TypeTable) (t : TypeId) :
    table.classInfo? t = (table.type? t).bind TypeEntry.classInfo? := by
  unfold classInfo?
  cases htype : table.type? t with
  | none => rfl
  | some entry =>
      obtain ⟨name, shape⟩ := entry
      cases shape with
      | classType info => rfl
      | primitive kind => rfl
      | array component => rfl

theorem classInfo?_pushType (table : TypeTable) (entry : TypeEntry) (t : TypeId) :
    (table.pushType entry).1.classInfo? t =
      if t.index = table.types.size then entry.classInfo? else table.classInfo? t := by
  rw [classInfo?_eq, classInfo?_eq]
  simp only [pushType, type?, Array.getElem?_push]
  by_cases ht : t.index = table.types.size
  · rw [if_pos ht, if_pos ht]
    rfl
  · rw [if_neg ht, if_neg ht]

theorem classInfo?_modifyClass (table : TypeTable) (owner : TypeId)
    (change : ClassInfo → ClassInfo) (t : TypeId) :
    (table.modifyClass owner change).classInfo? t =
      if owner = t then (table.classInfo? t).map change else table.classInfo? t := by
  rw [classInfo?_eq, classInfo?_eq]
  simp only [modifyClass, type?, Array.getElem?_modify]
  by_cases ht : owner = t
  · subst ht
    rw [if_pos rfl, if_pos rfl]
    cases table.types[owner.index]? with
    | none => rfl
    | some entry => exact entry.classInfo?_mapClass change
  · have hindex : owner.index ≠ t.index := fun h => ht (congrArg TypeId.mk h)
    rw [if_neg hindex, if_neg ht]

theorem size_modifyClass (table : TypeTable) (owner : TypeId) (change : ClassInfo → ClassInfo) :
    (table.modifyClass owner change).types.size = table.types.size :=
  Array.size_modify

end TypeTable

/-! ## Superclasses come first -/

/-- A class that can stand at this position: its superclass stands before it, it has every
field once, and the types of the fields are in the table. -/
structure ClassInfo.Fits (position size : Nat) (info : ClassInfo) : Prop where
  superclass : ∀ parent, info.superclass = some parent → parent.index < position
  distinct : info.fields.Distinct
  fieldTypes : ∀ name type, info.fields.get? name = some type → type.index < size

theorem ClassInfo.Fits.mono {position size bigger : Nat} {info : ClassInfo}
    (h : info.Fits position size) (hle : size ≤ bigger) : info.Fits position bigger :=
  ⟨h.superclass, h.distinct, fun name type hfield =>
    Nat.lt_of_lt_of_le (h.fieldTypes name type hfield) hle⟩

/-- A class without fields. -/
theorem ClassInfo.fits_of_no_fields {position size : Nat} {info : ClassInfo}
    (hfields : info.fields = {})
    (hsuper : ∀ parent, info.superclass = some parent → parent.index < position) :
    info.Fits position size := by
  refine ⟨hsuper, ?_, ?_⟩
  · rw [hfields]
    exact OrderedMap.distinct_empty
  · intro name type hfield
    rw [hfields] at hfield
    exact nomatch hfield

namespace TypeTable

variable {table : TypeTable}

/-- Every class fits where it stands. -/
def Layered (table : TypeTable) : Prop :=
  ∀ t info, table.classInfo? t = some info → info.Fits t.index table.types.size

namespace Layered

theorem pushType (h : table.Layered) {entry : TypeEntry}
    (hentry : ∀ info, entry.classInfo? = some info → info.fields = {} ∧
      ∀ parent, info.superclass = some parent → parent.index < table.types.size) :
    (table.pushType entry).1.Layered := by
  have hgrowth : table.types.size ≤ (table.pushType entry).1.types.size := by
    simp only [TypeTable.pushType, Array.size_push]
    omega
  intro t info hinfo
  rw [classInfo?_pushType] at hinfo
  by_cases ht : t.index = table.types.size
  · rw [if_pos ht] at hinfo
    obtain ⟨hfields, hsuper⟩ := hentry info hinfo
    rw [ht]
    exact ClassInfo.fits_of_no_fields hfields hsuper
  · rw [if_neg ht] at hinfo
    exact (h t info hinfo).mono hgrowth

theorem modifyClass (h : table.Layered) (owner : TypeId) {change : ClassInfo → ClassInfo}
    (hchange : ∀ info, info.Fits owner.index table.types.size →
      (change info).Fits owner.index table.types.size) :
    (table.modifyClass owner change).Layered := by
  intro t info hinfo
  rw [classInfo?_modifyClass] at hinfo
  rw [size_modifyClass]
  by_cases ht : owner = t
  · rw [if_pos ht] at hinfo
    obtain ⟨old, hold, rfl⟩ := Option.map_eq_some_iff.mp hinfo
    subst ht
    exact hchange old (h owner old hold)
  · rw [if_neg ht] at hinfo
    exact h t info hinfo

/-- One declaration; the root class is where an enumeration finds it. -/
theorem declare (h : table.Layered) (hroot : TypeId.object.index < table.types.size)
    {declaration : Declaration} (hrange : declaration.InRange table) :
    (table.declare declaration).Layered := by
  cases declaration with
  | classType name superclass =>
      have hsuper : superclass.index < table.types.size :=
        hrange superclass List.mem_cons_self
      apply h.pushType
      intro info hinfo
      obtain rfl := Option.some.inj hinfo
      exact ⟨rfl, fun parent hparent => Option.some.inj hparent ▸ hsuper⟩
  | interfaceType name =>
      apply h.pushType
      intro info hinfo
      obtain rfl := Option.some.inj hinfo
      refine ⟨rfl, ?_⟩
      intro parent hparent
      cases hparent
  | enumType name =>
      apply h.pushType
      intro info hinfo
      obtain rfl := Option.some.inj hinfo
      exact ⟨rfl, fun parent hparent => Option.some.inj hparent ▸ hroot⟩
  | arrayType component =>
      simp only [TypeTable.declare, arrayOf]
      split
      · exact h
      · apply h.pushType
        intro info hinfo
        cases hinfo
  | implementation type interface =>
      apply h.modifyClass type
      intro info hfits
      exact ⟨hfits.superclass, hfits.distinct, hfits.fieldTypes⟩
  | field owner name type =>
      have htype : type.index < table.types.size :=
        hrange type (List.mem_cons_of_mem _ List.mem_cons_self)
      apply h.modifyClass
      intro info hfits
      refine ⟨hfits.superclass, hfits.distinct.insert name type, ?_⟩
      intro asked found hfound
      rw [OrderedMap.get?_insert] at hfound
      split at hfound
      · exact Option.some.inj hfound ▸ htype
      · exact hfits.fieldTypes asked found hfound
  | method owner name params returnType isStatic =>
      have hpushed : (table.pushMethod
          { name, owner, params, returnType, isStatic, kind := .method }).1.Layered := h
      apply hpushed.modifyClass owner
      intro info hfits
      exact ⟨hfits.superclass, hfits.distinct, hfits.fieldTypes⟩
  | constructor owner params =>
      have hpushed : (table.pushConstructor owner params).1.Layered := h
      apply hpushed.modifyClass owner
      intro info hfits
      exact ⟨hfits.superclass, hfits.distinct, hfits.fieldTypes⟩
  | mapConstructor owner => exact h

end Layered

/-- The walk from a type to its superclass and on, with the classes that it meets.  It ends
at a class without a superclass and before a type that is no class. -/
inductive Climbs (table : TypeTable) : TypeId → List TypeId → Prop
  | outside {t : TypeId} (hlt : t.index < table.types.size)
      (hnone : table.classInfo? t = none) : Climbs table t []
  | top {t : TypeId} {info : ClassInfo} (hinfo : table.classInfo? t = some info)
      (hsuper : info.superclass = none) : Climbs table t [t]
  | under {t parent : TypeId} {info : ClassInfo} {above : List TypeId}
      (hinfo : table.classInfo? t = some info) (hsuper : info.superclass = some parent)
      (habove : Climbs table parent above) : Climbs table t (t :: above)

/-- The search for a field, with what it answers: the first class on the way up that
declares the field decides. -/
inductive FindsField (table : TypeTable) (name : String) : TypeId → Option TypeId → Prop
  | outside {t : TypeId} (hlt : t.index < table.types.size)
      (hnone : table.classInfo? t = none) : FindsField table name t none
  | declared {t type : TypeId} {info : ClassInfo} (hinfo : table.classInfo? t = some info)
      (hfield : info.fields.get? name = some type) : FindsField table name t (some type)
  | top {t : TypeId} {info : ClassInfo} (hinfo : table.classInfo? t = some info)
      (hfield : info.fields.get? name = none) (hsuper : info.superclass = none) :
      FindsField table name t none
  | inherited {t parent : TypeId} {info : ClassInfo} {found : Option TypeId}
      (hinfo : table.classInfo? t = some info) (hfield : info.fields.get? name = none)
      (hsuper : info.superclass = some parent) (habove : FindsField table name parent found) :
      FindsField table name t found

namespace Climbs

variable {t : TypeId} {chain : List TypeId}

theorem unique (h : table.Climbs t chain) {other : List TypeId}
    (hother : table.Climbs t other) : other = chain := by
  induction h generalizing other with
  | outside hlt hnone =>
      cases hother with
      | outside hlt' hnone' => rfl
      | top hinfo hsuper => exact nomatch hnone.symm.trans hinfo
      | under hinfo hsuper habove => exact nomatch hnone.symm.trans hinfo
  | top hinfo hsuper =>
      cases hother with
      | outside hlt' hnone => exact nomatch hnone.symm.trans hinfo
      | top hinfo' hsuper' => rfl
      | under hinfo' hsuper' habove =>
          obtain rfl := Option.some.inj (hinfo.symm.trans hinfo')
          exact nomatch hsuper.symm.trans hsuper'
  | under hinfo hsuper habove ih =>
      cases hother with
      | outside hlt' hnone => exact nomatch hnone.symm.trans hinfo
      | top hinfo' hsuper' =>
          obtain rfl := Option.some.inj (hinfo.symm.trans hinfo')
          exact nomatch hsuper.symm.trans hsuper'
      | under hinfo' hsuper' habove' =>
          obtain rfl := Option.some.inj (hinfo.symm.trans hinfo')
          obtain rfl := Option.some.inj (hsuper.symm.trans hsuper')
          rw [ih habove']

end Climbs

theorem FindsField.lt_size (h : table.Layered) {name : String} {t type : TypeId}
    (hfound : table.FindsField name t (some type)) : type.index < table.types.size := by
  generalize hsome : some type = found at hfound
  induction hfound with
  | outside hlt hnone => cases hsome
  | declared hinfo hfield =>
      cases hsome
      exact (h _ _ hinfo).fieldTypes name type hfield
  | top hinfo hfield hsuper => cases hsome
  | inherited hinfo hfield hsuper habove ih => exact ih hsome

end TypeTable

/-! ## Fields in the order of their declaration -/

instance (declaration : Declaration) (table : TypeTable) : Decidable (declaration.InRange table) :=
  inferInstanceAs (Decidable (∀ t ∈ declaration.handles, t.index < table.types.size))

namespace TypeTable

variable {table : TypeTable}

/-- The table that these declarations, the oldest first, make of the starting one. -/
inductive BuiltBy : TypeTable → List Declaration → Prop
  | start : BuiltBy .initial []
  | step {table : TypeTable} {declarations : List Declaration}
      (hbuilt : BuiltBy table declarations) (declaration : Declaration)
      (hrange : declaration.InRange table) :
      BuiltBy (table.declare declaration) (declarations ++ [declaration])

namespace BuiltBy

variable {declarations : List Declaration}

end BuiltBy

/-- Every reachable table is built by declarations. -/
theorem Reachable.exists_builtBy (hreach : table.Reachable) :
    ∃ declarations, table.BuiltBy declarations := by
  induction hreach with
  | start => exact ⟨[], .start⟩
  | step hreach declaration hrange ih =>
      obtain ⟨declarations, hbuilt⟩ := ih
      exact ⟨declarations ++ [declaration], hbuilt.step declaration hrange⟩

end TypeTable

end StaticDispatch
