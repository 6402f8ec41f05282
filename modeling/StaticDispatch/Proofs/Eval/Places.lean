import StaticDispatch.Proofs.Eval.Agreement
import StaticDispatch.Proofs.OrderedMap

/-!
# Reading and writing places

A place stands for a slot: a variable of one scope, a field of an object, an
entry of a map, or a position of a list or an array.  Reading a place changes
nothing.  Writing it fails and changes nothing, or changes its slot and no
other one, and then the place reads what was written.
-/

namespace StaticDispatch

/-! ## Slots -/

/-- Where a state keeps one value. -/
inductive Slot where
  | binding (scope : ScopeId) (name : String)
  | field (object : Address) (name : String)
  | entry (map : Address) (key : String)
  | item (sequence : Address) (position : Nat)
deriving DecidableEq

namespace State

/-- What stands in a slot.  Past the end of a list or an array there is null. -/
def content? (state : State) : Slot → Option Value
  | .binding scope name => Scopes.get? state.scopes scope name
  | .field object name => (state.heap.fields object).get? name
  | .entry map key => (state.heap.entries map).get? key
  | .item sequence position => some (((state.heap.items sequence)[position]?).getD .null)

def store (state : State) (value : Value) : Slot → State
  | .binding scope name =>
    { state with scopes := Scopes.set state.scopes scope name value }
  | .field object name =>
    { state with heap := state.heap.modifyFields object (·.insert name value) }
  | .entry map key =>
    { state with heap := state.heap.modifyEntries map (·.insert key value) }
  | .item sequence position =>
    { state with heap := state.heap.modifyItems sequence (writeGrowing · position value) }

/-- The scope or the container of a slot exists. -/
def HasContainer (state : State) : Slot → Prop
  | .binding scope _ => scope < state.scopes.size
  | .field object _ => object < state.heap.objects.size
  | .entry map _ => map < state.heap.maps.size
  | .item sequence _ => sequence < state.heap.sequences.size

/-- One slot got a value and everything else is as it was. -/
structure WritesOnly (slot : Slot) (value : Value) (before after : State) : Prop where
  written : after.content? slot = some value
  contents : ∀ other, other ≠ slot → after.content? other = before.content? other
  /-- A name is found as before from everywhere but where it is found in the slot. -/
  names : ∀ (env : Env) (name : String),
    (∀ id, Scopes.owner? after.scopes name env = some id → slot ≠ .binding id name) →
      Scopes.lookup? after.scopes name env = Scopes.lookup? before.scopes name env
  scopes : ∀ id, (∀ name, slot ≠ .binding id name) → after.scopes[id]? = before.scopes[id]?
  objects : ∀ a, (∀ name, slot ≠ .field a name) →
    after.heap.objects[a]? = before.heap.objects[a]?
  maps : ∀ a, (∀ key, slot ≠ .entry a key) → after.heap.maps[a]? = before.heap.maps[a]?
  sequences : ∀ a, (∀ position, slot ≠ .item a position) →
    after.heap.sequences[a]? = before.heap.sequences[a]?
  types : ∀ a, after.heap.objectType a = before.heap.objectType a
  closures : after.heap.closures = before.heap.closures
  env : after.env = before.env
  this : after.this = before.this
  log : after.log = before.log

end State

/-! ## Sequences that grow -/

theorem size_writeGrowing (items : Array Value) (position : Nat) (value : Value) :
    (writeGrowing items position value).size = max items.size (position + 1) := by
  simp only [writeGrowing, Array.size_setIfInBounds, Array.size_append, Array.size_replicate]
  omega

theorem writeGrowing_of_lt {items : Array Value} {position : Nat}
    (h : position < items.size) (value : Value) :
    writeGrowing items position value = items.setIfInBounds position value := by
  have hgrowth : position + 1 - items.size = 0 := by omega
  simp only [writeGrowing, hgrowth, Array.replicate_zero, Array.append_empty]

/-- The positions between the old end and the written one hold null. -/
theorem getD_writeGrowing (items : Array Value) (position other : Nat) (value : Value) :
    ((writeGrowing items position value)[other]?).getD .null =
      if other = position then value else (items[other]?).getD .null := by
  unfold writeGrowing
  rw [Array.getElem?_setIfInBounds]
  by_cases hposition : position = other
  · subst hposition
    have hlt :
        position < (items ++ Array.replicate (position + 1 - items.size) Value.null).size := by
      simp only [Array.size_append, Array.size_replicate]
      omega
    rw [if_pos rfl, if_pos hlt, if_pos rfl]
    rfl
  · rw [if_neg hposition, if_neg fun h => hposition h.symm, Array.getElem?_append]
    by_cases hother : other < items.size
    · rw [if_pos hother]
    · have hpast : items[other]? = none := by
        rw [Array.getElem?_eq_none_iff]
        omega
      rw [if_neg hother, hpast, Array.getElem?_replicate]
      split
      · rfl
      · rfl

/-- An index means the same position before and after it was written to. -/
theorem elementIndex_writeGrowing {index : Value} {items : Array Value} {i : Int64}
    {position : Nat} (h : elementIndex index items.size = .ok (i, position)) (value : Value) :
    elementIndex index (writeGrowing items position value).size = .ok (i, position) := by
  rw [size_writeGrowing]
  cases index with
  | int j =>
      simp only [elementIndex] at h ⊢
      by_cases hneg : j.toInt < 0
      · -- a position counted from the end is one before the end, so that nothing grows
        simp only [if_pos hneg] at h ⊢
        split at h
        · cases h
        · rename_i hposition
          have hfound : (j.toInt + items.size).toNat = position :=
            congrArg Prod.snd (Except.ok.inj h)
          have hsize : max items.size (position + 1) = items.size := by omega
          rw [hsize, if_neg hposition]
          exact h
      · simp only [if_neg hneg] at h ⊢
        exact h
  | _ => cases h

/-! ## Heaps -/

/-- What stands at an address after a change at one that the store has. -/
theorem getD_modify {α : Type} {store : Array α} {a : Address} (h : a < store.size)
    (change : α → α) (other : Address) (empty : α) :
    ((store.modify a change)[other]?).getD empty =
      if a = other then change ((store[other]?).getD empty) else (store[other]?).getD empty := by
  rw [Array.getElem?_modify]
  by_cases ha : a = other
  · subst ha
    simp [h]
  · simp [ha]

namespace Heap

theorem items_modifyItems (heap : Heap) {a : Address} (h : a < heap.sequences.size)
    (change : Array Value → Array Value) (other : Address) :
    (heap.modifyItems a change).items other =
      if a = other then change (heap.items other) else heap.items other :=
  getD_modify h change other _

theorem entries_modifyEntries (heap : Heap) {a : Address} (h : a < heap.maps.size)
    (change : OrderedMap Value → OrderedMap Value) (other : Address) :
    (heap.modifyEntries a change).entries other =
      if a = other then change (heap.entries other) else heap.entries other :=
  getD_modify h change other _

theorem fields_modifyFields (heap : Heap) {a : Address} (h : a < heap.objects.size)
    (change : OrderedMap Value → OrderedMap Value) (other : Address) :
    (heap.modifyFields a change).fields other =
      if a = other then change (heap.fields other) else heap.fields other := by
  unfold fields modifyFields
  rw [Array.getElem?_modify]
  by_cases ha : a = other
  · subst ha
    simp [h]
  · simp [ha]

theorem objectType_modifyFields (heap : Heap) (a : Address)
    (change : OrderedMap Value → OrderedMap Value) (other : Address) :
    (heap.modifyFields a change).objectType other = heap.objectType other := by
  unfold objectType modifyFields
  rw [Array.getElem?_modify]
  by_cases ha : a = other
  · subst ha
    rw [if_pos rfl]
    cases heap.objects[a]? with
    | none => rfl
    | some object => rfl
  · simp [ha]

theorem modifyItems_congr {heap : Heap} {a : Address} {change change' : Array Value → Array Value}
    (h : change (heap.items a) = change' (heap.items a)) :
    heap.modifyItems a change = heap.modifyItems a change' := by
  unfold modifyItems
  congr 1
  apply Array.ext_getElem?
  intro other
  rw [Array.getElem?_modify, Array.getElem?_modify]
  by_cases ha : a = other
  · subst ha
    cases hitems : heap.sequences[a]? with
    | none => rfl
    | some items =>
        simp only [Heap.items, hitems, Option.getD_some] at h
        simp [h]
  · simp [ha]

end Heap

/-! ## Names in scopes -/

namespace Scopes

variable {scopes : Array (OrderedMap Value)} {name : String}

theorem lt_size_of_owner {env : Env} {id : ScopeId}
    (h : owner? scopes name env = some id) : id < scopes.size := by
  have hsome := List.find?_some (p := fun id => (get? scopes id name).isSome) h
  by_contra hge
  have hnone : scopes[id]? = none := Array.getElem?_eq_none (Nat.le_of_not_lt hge)
  simp [get?, hnone] at hsome

theorem lookup?_of_owner {env : Env} {id : ScopeId} (h : owner? scopes name env = some id) :
    lookup? scopes name env = get? scopes id name := by
  induction env with
  | nil => exact nomatch h
  | cons inner outer ih =>
      unfold owner? at h
      rw [List.find?_cons] at h
      unfold lookup?
      cases hget : get? scopes inner name with
      | none =>
          simp only [hget, Option.isSome_none] at h
          exact ih h
      | some value =>
          simp only [hget, Option.isSome_some, Option.some.injEq] at h
          rw [← h, hget]

theorem lookup?_of_get? {env : Env} {id : ScopeId} {value : Value}
    (h : (owner? scopes name env).or env.head? = some id)
    (hget : get? scopes id name = some value) : lookup? scopes name env = some value := by
  cases howner : owner? scopes name env with
  | some inner =>
      rw [howner, Option.some_or, Option.some.injEq] at h
      rw [lookup?_of_owner howner, h, hget]
  | none =>
      rw [howner, Option.none_or] at h
      cases env with
      | nil => exact nomatch h
      | cons inner outer =>
          rw [List.head?_cons, Option.some.injEq] at h
          subst h
          simp only [lookup?, hget]

/-- A write where a name is found, or to the innermost scope where it is not found at all,
is found again. -/
theorem owner?_set {env : Env} {id : ScopeId}
    (h : (owner? scopes name env).or env.head? = some id) (hlt : id < scopes.size)
    (value : Value) : owner? (set scopes id name value) name env = some id := by
  cases howner : owner? scopes name env with
  | some inner =>
      rw [howner, Option.some_or, Option.some.injEq] at h
      subst h
      rw [← howner]
      apply List.find?_congr
      intro other _
      rw [get?_set]
      by_cases hother : inner = other
      · subst hother
        have hsome := List.find?_some (p := fun id => (get? scopes id name).isSome) howner
        simp only [hlt, and_self, if_true, Option.isSome_some]
        exact hsome.symm
      · rw [if_neg fun hall => hother hall.1]
  | none =>
      rw [howner, Option.none_or] at h
      cases env with
      | nil => exact nomatch h
      | cons inner outer =>
          rw [List.head?_cons, Option.some.injEq] at h
          subst h
          have hget : get? (set scopes inner name value) inner name = some value := by
            rw [get?_set, if_pos ⟨rfl, hlt, rfl⟩]
          unfold owner?
          rw [List.find?_cons, hget]
          rfl

/-- Where a name is not found in the written scope, it is found as before. -/
theorem lookup?_set_of_owner_ne {id : ScopeId} {value : Value} {env : Env} {asked : String}
    (h : owner? (set scopes id name value) asked env = some id → asked ≠ name) :
    lookup? (set scopes id name value) asked env = lookup? scopes asked env := by
  induction env with
  | nil => rfl
  | cons inner outer ih =>
      unfold owner? at h ih
      rw [List.find?_cons] at h
      unfold lookup?
      have hget := get?_set scopes id inner name asked value
      by_cases hwritten : id = inner ∧ id < scopes.size ∧ asked = name
      · -- the written scope would be the one that answers
        rw [if_pos hwritten] at hget
        rw [hget, ← hwritten.1] at h
        exact absurd hwritten.2.2 (h rfl)
      · rw [if_neg hwritten] at hget
        rw [hget]
        cases hold : get? scopes inner asked with
        | some old => rfl
        | none =>
            rw [hold] at hget
            simp only [hget, Option.isSome_none] at h
            exact ih h

end Scopes

/-! ## One slot at a time -/

namespace State

theorem content?_store {state : State} {slot : Slot} (h : state.HasContainer slot)
    (value : Value) (other : Slot) :
    (state.store value slot).content? other =
      if other = slot then some value else state.content? other := by
  cases slot with
  | binding scope name =>
      cases other with
      | binding other asked =>
          have hget := Scopes.get?_set state.scopes scope other name asked value
          simp only [content?, store, hget, Slot.binding.injEq]
          by_cases hslot : other = scope ∧ asked = name
          · rw [if_pos hslot, if_pos ⟨hslot.1.symm, h, hslot.2⟩]
          · rw [if_neg hslot, if_neg fun hall => hslot ⟨hall.1.symm, hall.2.2⟩]
      | _ => rfl
  | field object name =>
      cases other with
      | field other asked =>
          simp only [content?, store, state.heap.fields_modifyFields h, Slot.field.injEq]
          by_cases hobject : object = other
          · subst hobject
            simp [OrderedMap.get?_insert]
          · rw [if_neg hobject, if_neg fun hall => hobject hall.1.symm]
      | _ => rfl
  | entry map key =>
      cases other with
      | entry other asked =>
          simp only [content?, store, state.heap.entries_modifyEntries h, Slot.entry.injEq]
          by_cases hmap : map = other
          · subst hmap
            simp [OrderedMap.get?_insert]
          · rw [if_neg hmap, if_neg fun hall => hmap hall.1.symm]
      | _ => rfl
  | item sequence position =>
      cases other with
      | item other asked =>
          simp only [content?, store, state.heap.items_modifyItems h, Slot.item.injEq]
          by_cases hsequence : sequence = other
          · subst hsequence
            rw [if_pos rfl, getD_writeGrowing, apply_ite some]
            simp
          · rw [if_neg hsequence, if_neg fun hall => hsequence hall.1.symm]
      | _ => rfl

theorem writesOnly_store {state : State} {slot : Slot} (h : state.HasContainer slot)
    (value : Value) : WritesOnly slot value state (state.store value slot) where
  written := by
    rw [content?_store h, if_pos rfl]
  contents other hother := by
    rw [content?_store h, if_neg hother]
  names env name howner := by
    cases slot with
    | binding scope written =>
        apply Scopes.lookup?_set_of_owner_ne
        intro hfound hname
        subst hname
        exact howner scope hfound rfl
    | _ => rfl
  scopes id hid := by
    cases slot with
    | binding scope name =>
        have hne : scope ≠ id := fun heq => hid name (by rw [heq])
        simp only [store, Scopes.set, Array.getElem?_modify, if_neg hne]
    | _ => rfl
  objects a ha := by
    cases slot with
    | field object name =>
        have hne : object ≠ a := fun heq => ha name (by rw [heq])
        simp only [store, Heap.modifyFields, Array.getElem?_modify, if_neg hne]
    | _ => rfl
  maps a ha := by
    cases slot with
    | entry map key =>
        have hne : map ≠ a := fun heq => ha key (by rw [heq])
        simp only [store, Heap.modifyEntries, Array.getElem?_modify, if_neg hne]
    | _ => rfl
  sequences a ha := by
    cases slot with
    | item sequence position =>
        have hne : sequence ≠ a := fun heq => ha position (by rw [heq])
        simp only [store, Heap.modifyItems, Array.getElem?_modify, if_neg hne]
    | _ => rfl
  types a := by
    cases slot with
    | field object name => exact state.heap.objectType_modifyFields object _ a
    | _ => rfl
  closures := by cases slot <;> rfl
  env := by cases slot <;> rfl
  this := by cases slot <;> rfl
  log := by cases slot <;> rfl

end State

/-! ## Places -/

/-- Null, a truth value, an integer or a text. -/
def Value.IsPlain : Value → Prop
  | .null | .bool _ | .int _ | .text _ => True
  | _ => False

/-- What the value refers to is on the heap. -/
def Value.InHeap (heap : Heap) : Value → Prop
  | .list a | .array a => a < heap.sequences.size
  | .map a => a < heap.maps.size
  | .object a => a < heap.objects.size
  | .closure a => a < heap.closures.size
  | _ => True

/-- A program can come to the place in this state, with a plain value for an index. -/
def State.Admits (state : State) : Place → Prop
  | .named _ => state.HasScope
  | .property receiver _ => receiver.InHeap state.heap
  | .element receiver index => receiver.InHeap state.heap ∧ index.IsPlain

namespace Place

def itemSlot? (heap : Heap) (a : Address) (index : Value) : Option Slot :=
  match elementIndex index (heap.items a).size with
  | .ok (_, position) => some (.item a position)
  | .error _ => none

/-- The slot that a place stands for.  A name that no visible scope has stands for a
variable of the innermost one. -/
def slot? (state : State) : Place → Option Slot
  | .named name =>
    ((Scopes.owner? state.scopes name state.env).or state.env.head?).map (.binding · name)
  | .property (.object a) name => some (.field a name)
  | .property (.map a) name => some (.entry a name)
  | .property _ _ => none
  | .element (.list a) index => itemSlot? state.heap a index
  | .element (.array a) index => itemSlot? state.heap a index
  | .element (.map a) index => (state.heap.text? index).map (.entry a)
  | .element _ _ => none

end Place

/-! ## Reading -/

namespace EvalM

theorem run_liftFailure {α : Type} (result : Except EvalError α) (state : State) :
    (liftFailure result).run state = (result.mapError Halt.failed, state) := by
  cases result with
  | error error => rfl
  | ok value => rfl

theorem run_textOf (value : Value) (state : State) :
    (textOf value).run state =
      match state.heap.text? value with
      | some text => (.ok text, state)
      | none => (.error .aborted, state) := by
  unfold textOf
  rw [run_bind, run_getHeap]
  cases htext : state.heap.text? value with
  | none =>
      simp only [htext]
      rfl
  | some text =>
      simp only [htext]
      rfl

end EvalM

open EvalM

theorem run_readElement_map (a : Address) (index : Value) (state : State) :
    (readElement (.map a) index).run state =
      match state.heap.text? index with
      | some key => (.ok (((state.heap.entries a).get? key).getD .null), state)
      | none => (.error .aborted, state) := by
  unfold readElement
  rw [run_bind, run_getHeap]
  change (textOf index >>= fun key =>
    pure (((state.heap.entries a).get? key).getD .null) : EvalM Value).run state = _
  rw [run_bind, run_textOf]
  cases state.heap.text? index with
  | none => rfl
  | some key => rfl

theorem state_of_run_readPlace (place : Place) (state : State) :
    ((readPlace place).run state).2 = state := by
  cases place with
  | named name =>
      change ((readVariable name).run state).2 = state
      rw [run_readVariable]
      cases state.lookup? name with
      | none => rfl
      | some value => rfl
  | property receiver name =>
      unfold readPlace
      rw [run_bind, run_getHeap]
      exact congrArg Prod.snd (run_liftFailure _ state)
  | element receiver index =>
      change ((readElement receiver index).run state).2 = state
      cases receiver with
      | list a => exact congrArg Prod.snd (run_liftFailure _ state)
      | array a => exact congrArg Prod.snd (run_liftFailure _ state)
      | text value => exact congrArg Prod.snd (run_liftFailure _ state)
      | map a =>
          rw [run_readElement_map]
          cases state.heap.text? index with
          | none => rfl
          | some key => rfl
      | _ => rfl

theorem Place.itemSlot?_of_elementIndex {heap : Heap} {a : Address} {index : Value}
    {found : Int64 × Nat} (h : elementIndex index (heap.items a).size = .ok found) :
    itemSlot? heap a index = some (.item a found.2) := by
  simp only [itemSlot?, h]

theorem Place.exists_of_itemSlot? {heap : Heap} {a : Address} {index : Value} {slot : Slot}
    (h : itemSlot? heap a index = some slot) :
    ∃ found, elementIndex index (heap.items a).size = .ok found ∧ slot = .item a found.2 := by
  unfold itemSlot? at h
  cases hindex : elementIndex index (heap.items a).size with
  | error error =>
      rw [hindex] at h
      cases h
  | ok found =>
      rw [hindex] at h
      exact ⟨found, rfl, (Option.some.inj h).symm⟩

theorem readSequence_of_itemSlot? {heap : Heap} {a : Address} {index : Value} {slot : Slot}
    (h : Place.itemSlot? heap a index = some slot) :
    ∃ position, slot = .item a position ∧
      readSequence (heap.items a) index = .ok (((heap.items a)[position]?).getD .null) := by
  obtain ⟨found, hindex, rfl⟩ := Place.exists_of_itemSlot? h
  refine ⟨found.2, rfl, ?_⟩
  simp only [readSequence, hindex]

/-- What stands in the slot of a place is what the place reads. -/
theorem run_readPlace_of_content? {place : Place} {state : State} {slot : Slot} {value : Value}
    (hslot : place.slot? state = some slot) (h : state.content? slot = some value) :
    (readPlace place).run state = (.ok value, state) := by
  cases place with
  | named name =>
      change (readVariable name).run state = _
      obtain ⟨id, hid, rfl⟩ := Option.map_eq_some_iff.mp hslot
      have hlookup : state.lookup? name = some value := Scopes.lookup?_of_get? hid h
      rw [run_readVariable, hlookup]
  | property receiver name =>
      unfold readPlace
      rw [run_bind, run_getHeap]
      change (liftFailure (readProperty state.heap receiver name)).run state = _
      rw [run_liftFailure]
      cases receiver with
      | object a =>
          obtain rfl := Option.some.inj hslot
          have hfield : (state.heap.fields a).get? name = some value := h
          simp only [readProperty, hfield]
          rfl
      | map a =>
          obtain rfl := Option.some.inj hslot
          have hentry : (state.heap.entries a).get? name = some value := h
          simp only [readProperty, hentry]
          rfl
      | _ => cases hslot
  | element receiver index =>
      change (readElement receiver index).run state = _
      cases receiver with
      | list a =>
          obtain ⟨position, rfl, hread⟩ := readSequence_of_itemSlot? hslot
          change (liftFailure (readSequence (state.heap.items a) index)).run state = _
          rw [run_liftFailure, hread, ← Option.some.inj h]
          rfl
      | array a =>
          obtain ⟨position, rfl, hread⟩ := readSequence_of_itemSlot? hslot
          change (liftFailure (readSequence (state.heap.items a) index)).run state = _
          rw [run_liftFailure, hread, ← Option.some.inj h]
          rfl
      | map a =>
          obtain ⟨key, hkey, rfl⟩ := Option.map_eq_some_iff.mp hslot
          have hentry : (state.heap.entries a).get? key = some value := h
          rw [run_readElement_map, hkey]
          simp only [hentry, Option.getD_some]
      | _ => cases hslot

/-! ## Writing -/

/-- A plain value has the same text on every heap. -/
theorem Heap.text?_of_isPlain {value : Value} (h : value.IsPlain) (heap other : Heap) :
    heap.text? value = other.text? value := by
  have htext : ∀ (heap : Heap) (depth : Nat),
      heap.textWithin? depth value = Heap.textOver? {} (fun _ => none) value := by
    intro heap depth
    cases value with
    | null => cases depth <;> rfl
    | bool b => cases depth <;> cases b <;> rfl
    | int i => cases depth <;> rfl
    | text t => cases depth <;> rfl
    | _ => exact h.elim
  unfold Heap.text?
  rw [htext, htext]

/-- A plain value shows no map, so that it is a key for each of them. -/
theorem Heap.keyFor?_of_isPlain {value : Value} (h : value.IsPlain) (heap : Heap)
    (target : Address) : heap.keyFor? target value = heap.text? value := by
  have hshows : ∀ depth, heap.showsMap target depth value = false := by
    intro depth
    cases value with
    | null | bool _ | int _ | text _ => cases depth <;> rfl
    | _ => exact h.elim
  unfold Heap.keyFor?
  rw [hshows, if_neg Bool.false_ne_true]

/-- A place stands for the same slot after it was written. -/
theorem Place.slot?_store {place : Place} {state : State} {slot : Slot}
    (hplace : state.Admits place) (hslot : place.slot? state = some slot)
    (hcontainer : state.HasContainer slot) (value : Value) :
    place.slot? (state.store value slot) = some slot := by
  have hitem : ∀ (a : Address) (index : Value), itemSlot? state.heap a index = some slot →
      itemSlot? (state.store value slot).heap a index = some slot := by
    intro a index h
    obtain ⟨found, hindex, rfl⟩ := exists_of_itemSlot? h
    have hitems := state.heap.items_modifyItems hcontainer (writeGrowing · found.2 value) a
    rw [if_pos rfl] at hitems
    apply itemSlot?_of_elementIndex
    simp only [State.store]
    rw [hitems, elementIndex_writeGrowing hindex]
  cases place with
  | named name =>
      obtain ⟨id, hid, rfl⟩ := Option.map_eq_some_iff.mp hslot
      have howner := Scopes.owner?_set hid hcontainer value
      simp only [slot?, State.store]
      rw [howner]
      rfl
  | property receiver name =>
      cases receiver with
      | object a => exact hslot
      | map a => exact hslot
      | _ => cases hslot
  | element receiver index =>
      cases receiver with
      | list a => exact hitem a index hslot
      | array a => exact hitem a index hslot
      | map a =>
          have htext := Heap.text?_of_isPlain hplace.2 (state.store value slot).heap state.heap
          simp only [slot?]
          rw [htext]
          exact hslot
      | _ => cases hslot

/-- The evaluation failed and left the state as it was, or it stored to the slot of the
place. -/
def StoresTo (place : Place) (value : Value) (state : State)
    (result : Except Halt Unit × State) : Prop :=
  (∃ halt, result = (.error halt, state)) ∨
    ∃ slot, place.slot? state = some slot ∧ state.HasContainer slot ∧
      result = (.ok (), state.store value slot)

theorem storesTo_writeVariable {state : State} (h : state.HasScope) (name : String)
    (value : Value) :
    StoresTo (.named name) value state ((writeVariable name value).run state) := by
  right
  obtain ⟨id, outer, henv, hlt⟩ := h
  cases howner : Scopes.owner? state.scopes name state.env with
  | some owner =>
      have hslot : (Place.named name).slot? state = some (.binding owner name) := by
        simp only [Place.slot?, howner, Option.some_or, Option.map_some]
      have hassign := State.assign_of_owner howner value
      exact ⟨_, hslot, Scopes.lt_size_of_owner howner, congrArg _ hassign⟩
  | none =>
      have hslot : (Place.named name).slot? state = some (.binding id name) := by
        simp only [Place.slot?, howner, Option.none_or]
        rw [henv]
        rfl
      have hassign := (State.assign_of_no_owner howner value).trans
        (State.define_of_env henv name value)
      exact ⟨_, hslot, hlt, congrArg _ hassign⟩

theorem storesTo_writeProperty (types : TypeTable) {state : State} {receiver : Value}
    (h : receiver.InHeap state.heap) (name : String) (value : Value) :
    StoresTo (.property receiver name) value state
      ((writeProperty types receiver name value).run state) := by
  unfold writeProperty
  rw [run_bind, run_getHeap]
  cases receiver with
  | object a =>
      by_cases hfield : (state.heap.fields a).contains name
      · simp only [if_pos hfield]
        exact .inr ⟨.field a name, rfl, h, rfl⟩
      · simp only [if_neg hfield]
        exact .inl ⟨_, rfl⟩
  | map a => exact .inr ⟨.entry a name, rfl, h, rfl⟩
  | _ => exact .inl ⟨_, rfl⟩

theorem storesTo_writeElement {state : State} {receiver index : Value}
    (h : receiver.InHeap state.heap) (hindex : index.IsPlain) (value : Value) :
    StoresTo (.element receiver index) value state
      ((writeElement receiver index value).run state) := by
  unfold writeElement
  rw [run_bind, run_getHeap]
  cases receiver with
  | list a =>
      simp only [run_bind, run_liftFailure]
      cases hfound : elementIndex index (state.heap.items a).size with
      | error error => exact .inl ⟨_, rfl⟩
      | ok found =>
          have hslot := Place.itemSlot?_of_elementIndex hfound
          simp only [Except.mapError]
          split
          · exact .inr ⟨_, hslot, h, rfl⟩
          · exact .inl ⟨_, rfl⟩
  | array a =>
      simp only [run_bind, run_liftFailure]
      cases hfound : elementIndex index (state.heap.items a).size with
      | error error => exact .inl ⟨_, rfl⟩
      | ok found =>
          have hslot := Place.itemSlot?_of_elementIndex hfound
          simp only [Except.mapError]
          split
          · rename_i hlt
            -- a position inside the array is written as in a list that need not grow
            have hheap : state.heap.modifyItems a (writeGrowing · found.2 value) =
                state.heap.modifyItems a (·.setIfInBounds found.2 value) :=
              Heap.modifyItems_congr (writeGrowing_of_lt hlt value)
            refine .inr ⟨_, hslot, h, ?_⟩
            simp only [State.store, hheap]
            rfl
          · exact .inl ⟨_, rfl⟩
  | map a =>
      simp only [Heap.keyFor?_of_isPlain hindex]
      cases hkey : state.heap.text? index with
      | none => exact .inl ⟨_, rfl⟩
      | some key =>
          have hslot : (Place.element (.map a) index).slot? state = some (.entry a key) := by
            simp only [Place.slot?, hkey, Option.map_some]
          exact .inr ⟨_, hslot, h, rfl⟩
  | _ => exact .inl ⟨_, rfl⟩

theorem storesTo_writePlace (types : TypeTable) {state : State} {place : Place}
    (hplace : state.Admits place) (value : Value) :
    StoresTo place value state ((writePlace types place value).run state) := by
  cases place with
  | named name => exact storesTo_writeVariable hplace name value
  | property receiver name => exact storesTo_writeProperty types hplace name value
  | element receiver index => exact storesTo_writeElement hplace.1 hplace.2 value

/-! ## The laws -/

/-- Reading a place changes nothing.  Writing it fails and changes nothing, or writes its
slot alone, so that the place then reads what was written. -/
theorem readPlace_writePlace (types : TypeTable) {state : State} {place : Place}
    (hplace : state.Admits place) (value : Value) :
    (∀ other : Place, ((readPlace other).run state).2 = state) ∧
      ((∃ halt, (writePlace types place value).run state = (.error halt, state)) ∨
        ∃ slot after, place.slot? state = some slot ∧
          (writePlace types place value).run state = (.ok (), after) ∧
          (readPlace place).run after = (.ok value, after) ∧
          State.WritesOnly slot value state after) := by
  refine ⟨fun other => state_of_run_readPlace other state, ?_⟩
  rcases storesTo_writePlace types hplace value with hfailed | ⟨slot, hslot, hcontainer, hrun⟩
  · exact .inl hfailed
  · right
    have hwrites := State.writesOnly_store hcontainer value
    have hstill := Place.slot?_store hplace hslot hcontainer value
    have hread := run_readPlace_of_content? hstill hwrites.written
    exact ⟨slot, state.store value slot, hslot, hrun, hread, hwrites⟩

/-- A list with one element that is written at position three. -/
theorem readPlace_writePlace_past_end :
    let state : State := { heap := { sequences := #[#[.bool true]] } }
    let place : Place := .element (.list 0) (.int 3)
    state.Admits place ∧
      ∃ after, (writePlace .initial place (.text "x")).run state = (.ok (), after) ∧
        (readPlace place).run after = (.ok (.text "x"), after) ∧
        after.content? (.item 0 0) = some (.bool true) := by
  intro state place
  have hplace : state.Admits place := ⟨Nat.zero_lt_one, trivial⟩
  refine ⟨hplace, ?_⟩
  rcases (readPlace_writePlace .initial hplace (.text "x")).2 with ⟨halt, hfailed⟩ |
    ⟨slot, after, hslot, hrun, hread, hwrites⟩
  · have hok : ((writePlace .initial place (.text "x")).run state).1 = .ok () := rfl
    rw [hfailed] at hok
    cases hok
  · have hfirst : Slot.item 0 0 ≠ slot := by
      intro heq
      have hthird : place.slot? state = some (.item 0 3) := rfl
      rw [hslot, ← heq] at hthird
      cases hthird
    exact ⟨after, hrun, hread, hwrites.contents _ hfirst⟩

end StaticDispatch
