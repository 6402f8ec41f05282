import Mathlib.Logic.Function.Basic
import StaticDispatch.Eval.Place
import StaticDispatch.Proofs.Eval.Text
import StaticDispatch.Proofs.OrderedMap

/-!
# Heaps that hold the same elsewhere

An evaluation that makes objects or closures of its own on the way puts all
later ones at other addresses.  A relocation says where the objects and closures
of one heap are found in another; sequences and maps keep their addresses.
What can be asked of a value is then answered the same in both heaps.
-/

namespace StaticDispatch

/-- The numbers from a gap on are one higher. -/
def skip (gap number : Nat) : Nat :=
  if number < gap then number else number + 1

theorem skip_of_lt {gap number : Nat} (h : number < gap) : skip gap number = number :=
  if_pos h

theorem skip_add (gap number : Nat) : skip gap (gap + number) = gap + 1 + number := by
  unfold skip
  rw [if_neg (by omega)]
  omega

theorem skip_ne (gap number : Nat) : skip gap number ≠ gap := by
  unfold skip
  split
  · omega
  · omega

theorem skip_injective (gap : Nat) : Function.Injective (skip gap) := by
  intro a b h
  unfold skip at h
  split at h <;> split at h <;> omega

theorem map_skip {gap : Nat} {numbers : List Nat} (h : ∀ n ∈ numbers, n < gap) :
    numbers.map (skip gap) = numbers := by
  rw [List.map_congr_left fun n hn => skip_of_lt (h n hn), List.map_id']

theorem getElem?_push_skip {α : Type} (items : Array α) (item : α) (n : Nat) :
    (items.push item)[skip items.size n]? = items[n]? := by
  by_cases hn : n < items.size
  · rw [skip_of_lt hn, Array.getElem?_push, if_neg (Nat.ne_of_lt hn)]
  · obtain ⟨k, rfl⟩ := Nat.exists_eq_add_of_le (Nat.le_of_not_lt hn)
    have hpushed : (items.push item).size ≤ items.size + 1 + k := by
      rw [Array.size_push]
      exact Nat.le_add_right _ _
    rw [skip_add, Array.getElem?_eq_none hpushed, Array.getElem?_eq_none (Nat.le_add_right _ _)]

/-- Where the objects and closures of one heap are found in another. -/
structure Relocation where
  object : Address → Address
  closure : Address → Address
  object_injective : Function.Injective object
  closure_injective : Function.Injective closure

namespace Relocation

variable (ρ : Relocation)

def value : Value → Value
  | .object a => .object (ρ.object a)
  | .closure a => .closure (ρ.closure a)
  | other => other

def content (object : Instance) : Instance :=
  { object with fields := object.fields.map ρ.value }

@[simp] theorem value_null : ρ.value .null = .null := rfl

@[simp] theorem value_bool (b : Bool) : ρ.value (.bool b) = .bool b := rfl

@[simp] theorem value_int (n : Int64) : ρ.value (.int n) = .int n := rfl

@[simp] theorem value_decimal (d : Decimal) : ρ.value (.decimal d) = .decimal d := rfl

@[simp] theorem value_text (text : String) : ρ.value (.text text) = .text text := rfl

@[simp] theorem value_list (a : Address) : ρ.value (.list a) = .list a := rfl

@[simp] theorem value_array (a : Address) : ρ.value (.array a) = .array a := rfl

@[simp] theorem value_map (a : Address) : ρ.value (.map a) = .map a := rfl

@[simp] theorem value_object (a : Address) : ρ.value (.object a) = .object (ρ.object a) := rfl

@[simp] theorem value_closure (a : Address) :
    ρ.value (.closure a) = .closure (ρ.closure a) := rfl

@[simp] theorem value_classRef (type : TypeId) : ρ.value (.classRef type) = .classRef type := rfl

theorem value_eq_text (v : Value) (text : String) : ρ.value v = .text text ↔ v = .text text := by
  cases v <;> simp [value]

@[simp] theorem kindName_value (v : Value) : (ρ.value v).kindName = v.kindName := by
  cases v <;> rfl

@[simp] theorem isNull_value (v : Value) : (ρ.value v).isNull = v.isNull := by
  cases v <;> rfl

/-! ## Heaps -/

/-- The second heap holds the data of the first one, and the next object of both is at
corresponding addresses. -/
structure Maps (s t : Heap) : Prop where
  sequences : t.sequences = s.sequences.map (·.map ρ.value)
  maps : t.maps = s.maps.map (·.map ρ.value)
  objects : ∀ a, t.objects[ρ.object a]? = (s.objects[a]?).map ρ.content
  nextObject : ∀ n, ρ.object (s.objects.size + n) = t.objects.size + n

/-- The closures of the first heap have as many parameters in the second. -/
def SameParams (s t : Heap) : Prop :=
  ∀ a, (t.closures[ρ.closure a]?).map ClosureCode.params =
    (s.closures[a]?).map ClosureCode.params

/-- Two heaps change in the same way: the data still corresponds, the closures stay, and so
does what the second heap holds besides. -/
structure Steps (s t s' t' : Heap) : Prop where
  maps : ρ.Maps s' t'
  closures : s'.closures = s.closures
  closures' : t'.closures = t.closures
  others : ∀ a, (∀ b, ρ.object b ≠ a) → t'.objects[a]? = t.objects[a]?

variable {ρ} {s t : Heap}

namespace Maps

theorem items_eq (h : ρ.Maps s t) (a : Address) : t.items a = (s.items a).map ρ.value := by
  unfold Heap.items
  rw [h.sequences, Array.getElem?_map]
  cases s.sequences[a]? with
  | none => simp
  | some items => rfl

theorem toList_items (h : ρ.Maps s t) (a : Address) :
    (t.items a).toList = (s.items a).toList.map ρ.value := by
  rw [h.items_eq, Array.toList_map]

theorem entries_eq (h : ρ.Maps s t) (a : Address) : t.entries a = (s.entries a).map ρ.value := by
  unfold Heap.entries
  rw [h.maps, Array.getElem?_map]
  cases s.maps[a]? with
  | none => rfl
  | some entries => rfl

theorem fields_eq (h : ρ.Maps s t) (a : Address) :
    t.fields (ρ.object a) = (s.fields a).map ρ.value := by
  unfold Heap.fields
  rw [h.objects]
  cases s.objects[a]? with
  | none => rfl
  | some object => rfl

theorem objectType_eq (h : ρ.Maps s t) (a : Address) :
    t.objectType (ρ.object a) = s.objectType a := by
  unfold Heap.objectType
  rw [h.objects]
  cases s.objects[a]? with
  | none => rfl
  | some object => rfl

theorem size_sequences (h : ρ.Maps s t) : t.sequences.size = s.sequences.size := by
  rw [h.sequences, Array.size_map]

theorem size_maps (h : ρ.Maps s t) : t.maps.size = s.maps.size := by
  rw [h.maps, Array.size_map]

theorem object_size (h : ρ.Maps s t) : ρ.object s.objects.size = t.objects.size :=
  h.nextObject 0

end Maps

/-! ## Questions -/

theorem isTruthy_value (h : ρ.Maps s t) (v : Value) :
    t.isTruthy (ρ.value v) = s.isTruthy v := by
  cases v with
  | list a => simp [value, Heap.isTruthy, h.items_eq, Array.isEmpty]
  | array a => simp [value, Heap.isTruthy, h.items_eq, Array.isEmpty]
  | map a => simp [value, Heap.isTruthy, h.entries_eq]
  | _ => rfl

theorem mapM_map_eq {α β γ : Type} {f : α → β} {g : β → Option γ} {g' : α → Option γ}
    {items : List α} (h : ∀ item, g (f item) = g' item) : (items.map f).mapM g = items.mapM g' := by
  induction items with
  | nil => rfl
  | cons item rest ih => rw [List.map_cons, List.mapM_cons, List.mapM_cons, h, ih]

theorem textOver?_value (h : ρ.Maps s t) (hparams : ρ.SameParams s t)
    {inner? inner'? : Value → Option String} (hinner : ∀ v, inner'? (ρ.value v) = inner? v)
    (v : Value) : t.textOver? inner'? (ρ.value v) = s.textOver? inner? v := by
  cases v with
  | list a => simp only [value, Heap.textOver?, h.toList_items, mapM_map_eq hinner]
  | array a => simp only [value, Heap.textOver?, h.toList_items, mapM_map_eq hinner]
  | map a =>
      change t.textOver? inner'? (.map a) = s.textOver? inner? (.map a)
      simp only [Heap.textOver?, h.entries_eq, OrderedMap.map]
      congr 1
      apply mapM_map_eq
      intro entry
      simp only [hinner]
  | object a => simp only [value, Heap.textOver?, h.objectType_eq]
  | closure a =>
      have hlength : ((t.closures[ρ.closure a]?).map (·.params.length)) =
          (s.closures[a]?).map (·.params.length) := by
        simpa [Function.comp_def] using congrArg (Option.map List.length) (hparams a)
      simp only [value, Heap.textOver?, hlength]
  | bool b => cases b <;> rfl
  | _ => rfl

theorem textWithin?_value (h : ρ.Maps s t) (hparams : ρ.SameParams s t) (depth : Nat)
    (v : Value) : t.textWithin? depth (ρ.value v) = s.textWithin? depth v := by
  induction depth generalizing v with
  | zero => exact textOver?_value h hparams (fun _ => rfl) v
  | succ depth ih => exact textOver?_value h hparams ih v

theorem text?_value (h : ρ.Maps s t) (hparams : ρ.SameParams s t) (v : Value) :
    t.text? (ρ.value v) = s.text? v := by
  unfold Heap.text?
  rw [h.size_sequences, h.size_maps]
  exact textWithin?_value h hparams _ v

theorem showsMap_value (h : ρ.Maps s t) (target : Address) (depth : Nat) (v : Value) :
    t.showsMap target depth (ρ.value v) = s.showsMap target depth v := by
  induction depth generalizing v with
  | zero => cases v <;> rfl
  | succ depth ih =>
      have hfun : t.showsMap target depth ∘ ρ.value = s.showsMap target depth := funext ih
      cases v with
      | list a => simp only [value, Heap.showsMap, h.toList_items, List.any_map, hfun]
      | array a => simp only [value, Heap.showsMap, h.toList_items, List.any_map, hfun]
      | map a =>
          simp only [value, Heap.showsMap, h.entries_eq, OrderedMap.values_map, List.any_map,
            hfun]
      | _ => rfl

theorem keyFor?_value (h : ρ.Maps s t) (hparams : ρ.SameParams s t) (target : Address)
    (key : Value) : t.keyFor? target (ρ.value key) = s.keyFor? target key := by
  unfold Heap.keyFor?
  rw [h.size_sequences, h.size_maps, showsMap_value h, text?_value h hparams]

theorem elementIndex_value (index : Value) (size : Nat) :
    elementIndex (ρ.value index) size = elementIndex index size := by
  cases index <;> rfl

theorem readSequence_value (items : Array Value) (index : Value) :
    readSequence (items.map ρ.value) (ρ.value index) =
      (readSequence items index).map ρ.value := by
  unfold readSequence
  rw [elementIndex_value, Array.size_map]
  cases elementIndex index items.size with
  | error error => rfl
  | ok found =>
      obtain ⟨i, position⟩ := found
      simp only [Array.getElem?_map]
      cases items[position]? with
      | none => rfl
      | some item => rfl

theorem readText_value (text : String) (index : Value) :
    readText text (ρ.value index) = (readText text index).map ρ.value := by
  unfold readText
  simp only [elementIndex_value]
  cases elementIndex index text.toList.length with
  | error error => rfl
  | ok found =>
      obtain ⟨i, position⟩ := found
      simp only
      cases text.toList[position]? with
      | none => rfl
      | some c => rfl

theorem sequenceProperty_value (h : ρ.Maps s t) (receiver : Value) (name : String)
    (a : Address) :
    readProperty.sequenceProperty t (ρ.value receiver) name a =
      (readProperty.sequenceProperty s receiver name a).map ρ.value := by
  unfold readProperty.sequenceProperty
  rw [h.items_eq, Array.size_map, kindName_value]
  split
  · rfl
  · rfl

theorem readProperty_value (h : ρ.Maps s t) (receiver : Value) (name : String) :
    readProperty t (ρ.value receiver) name = (readProperty s receiver name).map ρ.value := by
  cases receiver with
  | object a =>
      simp only [value, readProperty, h.fields_eq, OrderedMap.get?_map]
      cases (s.fields a).get? name with
      | none => rfl
      | some v => rfl
  | map a =>
      simp only [value, readProperty, h.entries_eq, OrderedMap.get?_map]
      cases (s.entries a).get? name with
      | none => rfl
      | some v => rfl
  | text text =>
      simp only [value, readProperty]
      split
      · rfl
      · rfl
  | list a => exact sequenceProperty_value h (.list a) name a
  | array a => exact sequenceProperty_value h (.array a) name a
  | _ => rfl

/-! ## Changes -/

theorem getElem?_push_object {α β : Type} {items : Array α} {others : Array β} {f : Nat → Nat}
    (hf : Function.Injective f) (hnext : f items.size = others.size) {g : α → β}
    (hitems : ∀ a, others[f a]? = (items[a]?).map g) (item : α) (a : Nat) :
    (others.push (g item))[f a]? = ((items.push item)[a]?).map g := by
  rw [Array.getElem?_push, Array.getElem?_push, ← hnext, hitems]
  by_cases ha : a = items.size
  · simp [ha]
  · rw [if_neg ha, if_neg fun heq => ha (hf heq)]

theorem getElem?_modify_object {α β : Type} {items : Array α} {others : Array β} {f : Nat → Nat}
    (hf : Function.Injective f) {g : α → β} (hitems : ∀ a, others[f a]? = (items[a]?).map g)
    {change : α → α} {change' : β → β} (hchange : ∀ item, change' (g item) = g (change item))
    (target a : Nat) :
    (others.modify (f target) change')[f a]? = ((items.modify target change)[a]?).map g := by
  rw [Array.getElem?_modify, Array.getElem?_modify, hitems]
  by_cases ha : target = a
  · subst ha
    cases items[target]? with
    | none => simp
    | some item => simp [hchange]
  · rw [if_neg ha, if_neg fun heq => ha (hf heq)]

theorem map_modify {α β : Type} (items : Array α) (a : Nat) {g : α → β} {change : α → α}
    {change' : β → β} (hchange : ∀ item, g (change item) = change' (g item)) :
    (items.modify a change).map g = (items.map g).modify a change' := by
  apply Array.ext_getElem?
  intro i
  simp only [Array.getElem?_map, Array.getElem?_modify]
  by_cases hi : a = i
  · cases items[i]? with
    | none => simp
    | some item => simp [hi, hchange]
  · simp [hi]

namespace Steps

theorem modifyItems (h : ρ.Maps s t) (a : Address) {change change' : Array Value → Array Value}
    (hchange : ∀ items, (change items).map ρ.value = change' (items.map ρ.value)) :
    ρ.Steps s t (s.modifyItems a change) (t.modifyItems a change') := by
  refine ⟨{ h with sequences := ?_ }, rfl, rfl, fun _ _ => rfl⟩
  simp only [Heap.modifyItems, h.sequences]
  exact (map_modify s.sequences a hchange).symm

theorem modifyEntries (h : ρ.Maps s t) (a : Address)
    {change change' : OrderedMap Value → OrderedMap Value}
    (hchange : ∀ entries, (change entries).map ρ.value = change' (entries.map ρ.value)) :
    ρ.Steps s t (s.modifyEntries a change) (t.modifyEntries a change') := by
  refine ⟨{ h with maps := ?_ }, rfl, rfl, fun _ _ => rfl⟩
  simp only [Heap.modifyEntries, h.maps]
  exact (map_modify s.maps a hchange).symm

theorem modifyFields (h : ρ.Maps s t) (a : Address)
    {change change' : OrderedMap Value → OrderedMap Value}
    (hchange : ∀ fields, (change fields).map ρ.value = change' (fields.map ρ.value)) :
    ρ.Steps s t (s.modifyFields a change) (t.modifyFields (ρ.object a) change') := by
  refine ⟨{ h with objects := ?_, nextObject := ?_ }, rfl, rfl, ?_⟩
  · apply getElem?_modify_object ρ.object_injective h.objects
    intro object
    simp only [content, hchange]
  · simpa only [Heap.modifyFields, Array.size_modify] using h.nextObject
  · intro other hother
    simp only [Heap.modifyFields, Array.getElem?_modify, if_neg (hother a)]

theorem newSequence (h : ρ.Maps s t) (items : Array Value) :
    ρ.Steps s t (s.newSequence items).1 (t.newSequence (items.map ρ.value)).1 := by
  refine ⟨{ h with sequences := ?_ }, rfl, rfl, fun _ _ => rfl⟩
  simp only [Heap.newSequence, h.sequences, Array.map_push]

theorem newMap (h : ρ.Maps s t) (entries : OrderedMap Value) :
    ρ.Steps s t (s.newMap entries).1 (t.newMap (entries.map ρ.value)).1 := by
  refine ⟨{ h with maps := ?_ }, rfl, rfl, fun _ _ => rfl⟩
  simp only [Heap.newMap, h.maps, Array.map_push]

theorem newObject (h : ρ.Maps s t) (type : TypeId) (fields : OrderedMap Value) :
    ρ.Steps s t (s.newObject type fields).1 (t.newObject type (fields.map ρ.value)).1 := by
  refine ⟨{ h with objects := ?_, nextObject := ?_ }, rfl, rfl, ?_⟩
  · exact getElem?_push_object ρ.object_injective h.object_size h.objects { type, fields }
  · intro n
    simp only [Heap.newObject, Array.size_push]
    rw [Nat.add_assoc, h.nextObject, Nat.add_assoc]
  · intro a ha
    have hne : a ≠ t.objects.size := fun heq => ha s.objects.size (h.object_size.trans heq.symm)
    simp only [Heap.newObject, Array.getElem?_push, if_neg hne]

end Steps

end Relocation

end StaticDispatch
