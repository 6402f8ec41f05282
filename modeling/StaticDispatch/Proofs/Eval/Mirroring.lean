import StaticDispatch.Proofs.Eval.Detour

/-!
# Steps that take the detour

What the evaluator does with places and with the built-in methods of values, in
a state and in one that takes a detour, gives the same answer elsewhere.
-/

namespace StaticDispatch

variable {α : Type}

/-! ## Answers elsewhere -/

namespace Relocation

variable (ρ : Relocation)

def flow : Flow → Flow
  | .normal value => .normal (value.map ρ.value)
  | .returned value => .returned (ρ.value value)

def place : Place → Place
  | .named name => .named name
  | .property receiver name => .property (ρ.value receiver) name
  | .element receiver index => .element (ρ.value receiver) (ρ.value index)

theorem value_flow (flow : Flow) : (ρ.flow flow).value = ρ.value flow.value := by
  cases flow with
  | normal value => cases value <;> rfl
  | returned value => rfl

end Relocation

/-- The view allows the place to be read and written. -/
def View.Allows (view : View) : Place → Prop
  | .named name => view.reads name ∧ (view.declares ∨ view.bound name)
  | .property _ _ => True
  | .element _ _ => True

namespace EvalM

section Steps

variable {δ : Detour} {view : View}

/-! ## Steps on the heap -/

theorem mirrors_liftFailure {β : Type} {f : α → β} {left : Except EvalError α}
    {right : Except EvalError β} (h : right = left.map f) :
    Mirrors δ view f (liftFailure left) (liftFailure right) := by
  subst h
  cases left with
  | ok value => exact mirrors_pure rfl
  | error error => exact mirrors_fail error

theorem mirrors_liftHalt {β : Type} {f : α → β} {left : Except Halt α} {right : Except Halt β}
    (h : right = left.map f) : Mirrors δ view f (liftHalt left) (liftHalt right) := by
  subst h
  cases left with
  | ok value => exact mirrors_pure rfl
  | error halt => exact mirrors_throw halt

theorem mirrors_textOf (value : Value) :
    Mirrors δ view id (textOf value) (textOf (δ.value value)) := by
  unfold textOf
  apply mirrors_getHeap_bind
  intro left right hmaps hparams
  rw [Relocation.text?_value hmaps hparams]
  cases left.text? value with
  | some text => exact mirrors_pure rfl
  | none => exact mirrors_throw _

theorem mirrors_valuesEqual (a b : Value) :
    Mirrors δ view id (valuesEqual a b) (valuesEqual (δ.value a) (δ.value b)) := by
  unfold valuesEqual
  apply mirrors_getHeap_bind
  intro left right hmaps _
  rw [Relocation.equal?_value hmaps]
  cases left.equal? a b with
  | some answer => exact mirrors_pure rfl
  | none => exact mirrors_throw _

theorem mirrors_isTruthy (value : Value) :
    Mirrors δ view id (isTruthy value) (isTruthy (δ.value value)) := by
  apply mirrors_getHeap_bind
  intro left right hmaps _
  exact mirrors_pure (Relocation.isTruthy_value hmaps value)

theorem mirrors_modifyItems (a : Address) {change change' : Array Value → Array Value}
    (hchange : ∀ items, (change items).map δ.value = change' (items.map δ.value)) :
    Mirrors δ view id (modifyHeap fun heap => heap.modifyItems a change)
      (modifyHeap fun heap => heap.modifyItems a change') :=
  mirrors_modifyHeap fun _ _ hmaps => .modifyItems hmaps a hchange

theorem mirrors_insertEntry (a : Address) (key : String) (value : Value) :
    Mirrors δ view id (modifyHeap fun heap => heap.modifyEntries a (·.insert key value))
      (modifyHeap fun heap => heap.modifyEntries a (·.insert key (δ.value value))) :=
  mirrors_modifyHeap fun _ _ hmaps =>
    .modifyEntries hmaps a fun entries => entries.map_insert δ.value key value

theorem mirrors_insertField (a : Address) (name : String) (value : Value) :
    Mirrors δ view id (modifyHeap fun heap => heap.modifyFields a (·.insert name value))
      (modifyHeap fun heap =>
        heap.modifyFields (δ.object a) (·.insert name (δ.value value))) :=
  mirrors_modifyHeap fun _ _ hmaps =>
    .modifyFields hmaps a fun fields => fields.map_insert δ.value name value

theorem mirrors_readElement (receiver index : Value) :
    Mirrors δ view δ.value (readElement receiver index)
      (readElement (δ.value receiver) (δ.value index)) := by
  unfold readElement
  apply mirrors_getHeap_bind
  intro left right hmaps _
  cases receiver with
  | list a =>
      apply mirrors_liftFailure
      rw [hmaps.items_eq, Relocation.readSequence_value]
  | array a =>
      apply mirrors_liftFailure
      rw [hmaps.items_eq, Relocation.readSequence_value]
  | map a =>
      refine (mirrors_textOf index).bind_same fun key => ?_
      apply mirrors_pure
      rw [hmaps.entries_eq, OrderedMap.get?_map]
      cases (left.entries a).get? key <;> rfl
  | text text =>
      apply mirrors_liftFailure
      exact Relocation.readText_value text index
  | _ => exact mirrors_fail _

theorem mirrors_writeProperty (types : TypeTable) (receiver : Value) (name : String)
    (value : Value) :
    Mirrors δ view id (writeProperty types receiver name value)
      (writeProperty types (δ.value receiver) name (δ.value value)) := by
  unfold writeProperty
  apply mirrors_getHeap_bind
  intro left right hmaps _
  cases receiver with
  | object a =>
      simp only [Relocation.value_object, hmaps.fields_eq, hmaps.objectType_eq,
        OrderedMap.contains_map]
      split
      · exact mirrors_insertField a name value
      · exact mirrors_fail _
  | map a => exact mirrors_insertEntry a name value
  | _ => exact mirrors_fail _

theorem map_writeGrowing (items : Array Value) (position : Nat) (value : Value) :
    (writeGrowing items position value).map δ.value =
      writeGrowing (items.map δ.value) position (δ.value value) := by
  unfold writeGrowing
  rw [Array.map_setIfInBounds, Array.map_append, Array.map_replicate, Array.size_map]
  rfl

theorem mirrors_writeElement (receiver index value : Value) :
    Mirrors δ view id (writeElement receiver index value)
      (writeElement (δ.value receiver) (δ.value index) (δ.value value)) := by
  unfold writeElement
  apply mirrors_getHeap_bind
  intro left right hmaps hparams
  cases receiver with
  | array a =>
      simp only [Relocation.value_array, hmaps.items_eq, Array.size_map,
        Relocation.elementIndex_value]
      refine Mirrors.bind_same (mirrors_liftFailure (congrFun Except.map_id _).symm) fun found => ?_
      obtain ⟨i, position⟩ := found
      simp only
      split
      · exact mirrors_modifyItems a fun items => Array.map_setIfInBounds
      · exact mirrors_fail _
  | list a =>
      simp only [Relocation.value_list, hmaps.items_eq, Array.size_map,
        Relocation.elementIndex_value]
      refine Mirrors.bind_same (mirrors_liftFailure (congrFun Except.map_id _).symm) fun found => ?_
      obtain ⟨i, position⟩ := found
      simp only
      split
      · exact mirrors_modifyItems a fun items => map_writeGrowing items position value
      · exact mirrors_throw _
  | map a =>
      simp only [Relocation.value_map, Relocation.keyFor?_value hmaps hparams]
      cases left.keyFor? a index with
      | some key => exact mirrors_insertEntry a key value
      | none => exact mirrors_throw _
  | _ => exact mirrors_fail _

/-! ## Places -/

theorem mirrors_readPlace {place : Place} (h : view.Allows place) :
    Mirrors δ view δ.value (readPlace place) (readPlace (δ.place place)) := by
  cases place with
  | named name => exact mirrors_readVariable h.1
  | property receiver name =>
      apply mirrors_getHeap_bind
      intro left right hmaps _
      exact mirrors_liftFailure (Relocation.readProperty_value hmaps receiver name)
  | element receiver index => exact mirrors_readElement receiver index

theorem mirrors_writePlace (types : TypeTable) {place : Place} (h : view.Allows place)
    (value : Value) :
    Mirrors δ view id (writePlace types place value)
      (writePlace types (δ.place place) (δ.value value)) := by
  cases place with
  | named name => exact mirrors_writeVariable h.1 h.2 value
  | property receiver name => exact mirrors_writeProperty types receiver name value
  | element receiver index => exact mirrors_writeElement receiver index value

/-! ## Methods of values -/

theorem mirrors_noMethod (receiver : Value) (name : String) (args : List Value) :
    Mirrors δ view δ.value (noMethod receiver name args)
      (noMethod (δ.value receiver) name (args.map δ.value)) := by
  unfold noMethod
  rw [Relocation.kindName_value, List.length_map]
  exact mirrors_fail _

theorem mirrors_newList {items items' : Heap → List Value}
    (hitems : ∀ left right : Heap, δ.Maps left right →
      items' right = (items left).map δ.value) :
    Mirrors δ view δ.value (allocate fun heap => heap.newList (items heap))
      (allocate fun heap => heap.newList (items' heap)) := by
  apply mirrors_allocate
  intro left right hmaps
  rw [hitems left right hmaps]
  constructor
  · have hsteps := Relocation.Steps.newSequence hmaps (items left).toArray
    rwa [List.map_toArray] at hsteps
  · exact congrArg Value.list hmaps.size_sequences

theorem numberMethod_value (name : String) (left right : Value) :
    Number.numberMethod name (δ.value left) (δ.value right) =
      (Number.numberMethod name left right).map δ.value := by
  have hint : ∀ a b, Number.intMethod name a b = (Number.intMethod name a b).map δ.value := by
    intro a b
    unfold Number.intMethod Number.divide Number.modulo Number.power
    split
    all_goals first
      | rfl
      | (split_ifs <;> rfl)
  have hdecimal : ∀ a b,
      Number.decimalMethod name a b = (Number.decimalMethod name a b).map δ.value := by
    intro a b
    unfold Number.decimalMethod
    split
    all_goals first
      | rfl
      | (cases Number.compareDecimals a b <;> rfl)
  have hnumber : ∀ v, Number.toDecimal (δ.value v) = Number.toDecimal v := by
    intro v
    cases v <;> rfl
  have hmixed : (do
        let a ← Number.toDecimal (δ.value left)
        let b ← Number.toDecimal (δ.value right)
        Number.decimalMethod name a b) =
      Except.map δ.value (do
        let a ← Number.toDecimal left
        let b ← Number.toDecimal right
        Number.decimalMethod name a b) := by
    rw [hnumber, hnumber]
    cases Number.toDecimal left with
    | error halt => rfl
    | ok a =>
        cases Number.toDecimal right with
        | error halt => rfl
        | ok b => exact hdecimal a b
  cases left with
  | int a =>
      cases right with
      | int b => exact hint a b
      | _ => exact hmixed
  | _ => exact hmixed

theorem mirrors_numberBuiltin {negated : Except Halt Value}
    (hnegated : negated = negated.map δ.value) (receiver : Value) (name : String)
    (args : List Value) :
    Mirrors δ view δ.value (numberBuiltin negated receiver name args)
      (numberBuiltin negated (δ.value receiver) name (args.map δ.value)) := by
  cases args with
  | nil =>
      simp only [numberBuiltin, List.map_nil]
      split
      · exact mirrors_liftHalt hnegated
      · exact mirrors_noMethod receiver name []
  | cons other rest =>
      cases rest with
      | nil => exact mirrors_liftHalt (numberMethod_value name receiver other)
      | cons another rest => exact mirrors_noMethod receiver name (other :: another :: rest)

theorem mirrors_textBuiltin (text name : String) (args : List Value) :
    Mirrors δ view δ.value (textBuiltin text name args)
      (textBuiltin text name (args.map δ.value)) := by
  unfold textBuiltin
  split
  · exact (mirrors_textOf _).bind_same fun _ => mirrors_pure rfl
  · exact mirrors_pure rfl
  · exact mirrors_pure rfl
  · exact mirrors_pure rfl
  · exact mirrors_pure rfl
  · exact mirrors_pure rfl
  · exact mirrors_readElement (.text text) _
  · exact mirrors_readElement (.text text) _
  · split
    all_goals first
      | exact mirrors_noMethod (.text text) _ args
      | (exfalso; simp_all [List.map_eq_cons_iff, Relocation.value_eq_text])

theorem mirrors_elementBuiltin (receiver : Value) (name : String) (args : List Value) :
    Mirrors δ view δ.value (elementBuiltin receiver name args)
      (elementBuiltin (δ.value receiver) name (args.map δ.value)) := by
  unfold elementBuiltin
  split
  · exact mirrors_readElement receiver _
  · exact mirrors_readElement receiver _
  · exact (mirrors_writeElement receiver _ _).bind_same fun _ => mirrors_pure rfl
  · exact (mirrors_writeElement receiver _ _).bind_same fun _ => mirrors_pure rfl
  · split
    all_goals first
      | exact mirrors_noMethod receiver _ args
      | (exfalso; simp_all [List.map_eq_cons_iff])

theorem mirrors_arrayBuiltin (a : Address) (receiver : Value) (name : String)
    (args : List Value) :
    Mirrors δ view δ.value (arrayBuiltin a receiver name args)
      (arrayBuiltin a (δ.value receiver) name (args.map δ.value)) := by
  unfold arrayBuiltin
  split
  · apply mirrors_getHeap_bind
    intro left right hmaps _
    apply mirrors_pure
    rw [hmaps.items_eq, Array.size_map]
    rfl
  · split
    all_goals first
      | exact mirrors_elementBuiltin receiver _ args
      | (exfalso; simp_all)

theorem mirrors_listBuiltin (a : Address) (name : String) (args : List Value) :
    Mirrors δ view δ.value (listBuiltin a name args)
      (listBuiltin a name (args.map δ.value)) := by
  unfold listBuiltin
  split
  · refine (mirrors_modifyItems a ?_).bind_same fun _ => mirrors_pure rfl
    exact fun items => Array.map_push
  · apply mirrors_newList
    intro left right hmaps
    rw [hmaps.toList_items, List.map_append]
    rfl
  · split
    all_goals first
      | exact mirrors_arrayBuiltin a (.list a) _ args
      | (exfalso; simp_all [List.map_eq_cons_iff])

theorem mirrors_mapBuiltin (a : Address) (name : String) (args : List Value) :
    Mirrors δ view δ.value (mapBuiltin a name args)
      (mapBuiltin a name (args.map δ.value)) := by
  unfold mapBuiltin
  split
  · apply mirrors_getHeap_bind
    intro left right hmaps _
    apply mirrors_pure
    rw [hmaps.entries_eq, OrderedMap.size_map]
    rfl
  · refine (mirrors_textOf _).bind_same fun key => ?_
    apply mirrors_getHeap_bind
    intro left right hmaps _
    apply mirrors_pure
    rw [hmaps.entries_eq, OrderedMap.contains_map]
    rfl
  · split
    all_goals first
      | exact mirrors_elementBuiltin (.map a) _ args
      | (exfalso; simp_all [List.map_eq_cons_iff])

theorem mirrors_kindBuiltin (receiver : Value) (name : String) (args : List Value) :
    Mirrors δ view δ.value (kindBuiltin receiver name args)
      (kindBuiltin (δ.value receiver) name (args.map δ.value)) := by
  cases receiver with
  | int n =>
      refine mirrors_numberBuiltin ?_ (.int n) name args
      unfold Number.negate
      split
      · rfl
      · rfl
  | decimal d => exact mirrors_numberBuiltin rfl (.decimal d) name args
  | text text => exact mirrors_textBuiltin text name args
  | list a => exact mirrors_listBuiltin a name args
  | array a => exact mirrors_arrayBuiltin a (.array a) name args
  | map a => exact mirrors_mapBuiltin a name args
  | null => exact mirrors_noMethod .null name args
  | bool b => exact mirrors_noMethod (.bool b) name args
  | object a => exact mirrors_noMethod (.object a) name args
  | closure a => exact mirrors_noMethod (.closure a) name args
  | classRef type => exact mirrors_noMethod (.classRef type) name args

theorem mirrors_builtin (receiver : Value) (name : String) (args : List Value) :
    Mirrors δ view δ.value (builtin receiver name args)
      (builtin (δ.value receiver) name (args.map δ.value)) := by
  unfold builtin
  split
  · exact (mirrors_valuesEqual receiver _).bind_same fun _ => mirrors_pure rfl
  · exact (mirrors_textOf receiver).bind_same fun _ => mirrors_pure rfl
  · split
    all_goals first
      | exact mirrors_kindBuiltin receiver _ args
      | (exfalso; simp_all [List.map_eq_cons_iff])

end Steps

end EvalM

end StaticDispatch
