import StaticDispatch.Proofs.Eval.Agreement

/-!
# Steps that see no hidden names

Reading and writing the heap, the methods of values and the ways to call them
know nothing of variables, so that they go the same way in states that agree.
The only calls that lead back into a program are those of closures, and the
closures of the heap mention no hidden name.
-/

namespace StaticDispatch

variable {α : Type}

/-- No native makes or changes a closure: their parts are the evaluator's own. -/
def Library.KeepsClosures (lib : Library) : Prop :=
  ∀ (key : String) (native : Native), lib.natives.get? key = some native →
    ∀ (receiver : Value) (args : List Value) (heap : Heap),
      (native.call receiver args heap).2.closures = heap.closures

namespace EvalM

/-- The evaluation does not see hidden names. -/
abbrev Steady (hidden : String → Prop) (x : EvalM α) : Prop :=
  Agrees hidden x x

variable {hidden : String → Prop}

/-! ## Steps on the heap -/

theorem steady_liftFailure (result : Except EvalError α) :
    Steady hidden (liftFailure result) := by
  cases result with
  | ok value => exact agrees_pure value
  | error error => exact agrees_fail error

theorem steady_liftHalt (result : Except Halt α) : Steady hidden (liftHalt result) := by
  cases result with
  | ok value => exact agrees_pure value
  | error halt => exact agrees_throw halt

theorem steady_textOf (value : Value) : Steady hidden (textOf value) := by
  unfold textOf
  apply agrees_getHeap_bind
  intro heap _
  split
  · exact agrees_pure _
  · exact agrees_throw _

theorem steady_valuesEqual (a b : Value) : Steady hidden (valuesEqual a b) := by
  unfold valuesEqual
  apply agrees_getHeap_bind
  intro heap _
  split
  · exact agrees_pure _
  · exact agrees_throw _

theorem steady_isTruthy (value : Value) : Steady hidden (isTruthy value) :=
  agrees_getHeap_bind fun _ _ => agrees_pure _

theorem steady_modifyItems (a : Address) (change : Array Value → Array Value) :
    Steady hidden (modifyHeap fun heap => heap.modifyItems a change) :=
  agrees_modifyHeap fun _ h => h

theorem steady_modifyEntries (a : Address)
    (change : OrderedMap Value → OrderedMap Value) :
    Steady hidden (modifyHeap fun heap => heap.modifyEntries a change) :=
  agrees_modifyHeap fun _ h => h

theorem steady_modifyFields (a : Address)
    (change : OrderedMap Value → OrderedMap Value) :
    Steady hidden (modifyHeap fun heap => heap.modifyFields a change) :=
  agrees_modifyHeap fun _ h => h

theorem steady_readElement (receiver index : Value) :
    Steady hidden (readElement receiver index) := by
  unfold readElement
  apply agrees_getHeap_bind
  intro heap _
  split
  · exact steady_liftFailure _
  · exact steady_liftFailure _
  · exact (steady_textOf index).bind fun _ => agrees_pure _
  · exact steady_liftFailure _
  · exact agrees_fail _
  · exact agrees_fail _

theorem steady_writeProperty (types : TypeTable) (receiver : Value) (name : String)
    (value : Value) : Steady hidden (writeProperty types receiver name value) := by
  unfold writeProperty
  apply agrees_getHeap_bind
  intro heap _
  split
  · split
    · exact steady_modifyFields _ _
    · exact agrees_fail _
  · exact steady_modifyEntries _ _
  · exact agrees_fail _
  · exact agrees_fail _

theorem steady_writeElement (receiver index value : Value) :
    Steady hidden (writeElement receiver index value) := by
  unfold writeElement
  apply agrees_getHeap_bind
  intro heap _
  split
  · refine (steady_liftFailure _).bind fun found => ?_
    obtain ⟨i, position⟩ := found
    simp only
    split
    · exact steady_modifyItems _ _
    · exact agrees_fail _
  · refine (steady_liftFailure _).bind fun found => ?_
    obtain ⟨i, position⟩ := found
    simp only
    split
    · exact steady_modifyItems _ _
    · exact agrees_throw _
  · split
    · exact steady_modifyEntries _ _
    · exact agrees_throw _
  · exact agrees_fail _
  · exact agrees_fail _

/-! ## Places -/

theorem steady_readPlace {place : Place} (h : place.Avoids hidden) :
    Steady hidden (readPlace place) := by
  cases place with
  | named name => exact agrees_readVariable h
  | property receiver name =>
      exact agrees_getHeap_bind fun _ _ => steady_liftFailure _
  | element receiver index => exact steady_readElement receiver index

theorem steady_writePlace (types : TypeTable) {place : Place} (h : place.Avoids hidden)
    (value : Value) : Steady hidden (writePlace types place value) := by
  cases place with
  | named name => exact agrees_writeVariable value h
  | property receiver name => exact steady_writeProperty types receiver name value
  | element receiver index => exact steady_writeElement receiver index value

/-! ## Methods of values -/

theorem steady_noMethod (receiver : Value) (name : String) (args : List Value) :
    Steady hidden (noMethod receiver name args) :=
  agrees_fail _

theorem steady_newList (items : Heap → List Value) :
    Steady hidden (allocate fun heap => heap.newList (items heap)) :=
  agrees_allocate fun _ h => h

theorem steady_numberBuiltin (negated : Except Halt Value) (receiver : Value)
    (name : String) (args : List Value) :
    Steady hidden (numberBuiltin negated receiver name args) := by
  unfold numberBuiltin
  split
  · exact steady_liftHalt _
  · split
    · exact steady_liftHalt _
    · exact steady_noMethod _ _ _
  · exact steady_noMethod _ _ _

theorem steady_textBuiltin (text name : String) (args : List Value) :
    Steady hidden (textBuiltin text name args) := by
  unfold textBuiltin
  split
  · exact (steady_textOf _).bind fun _ => agrees_pure _
  · exact agrees_pure _
  · exact agrees_pure _
  · exact agrees_pure _
  · exact agrees_pure _
  · exact agrees_pure _
  · exact steady_readElement _ _
  · exact steady_readElement _ _
  · exact steady_noMethod _ _ _

theorem steady_elementBuiltin (receiver : Value) (name : String) (args : List Value) :
    Steady hidden (elementBuiltin receiver name args) := by
  unfold elementBuiltin
  split
  · exact steady_readElement _ _
  · exact steady_readElement _ _
  · exact (steady_writeElement _ _ _).bind fun _ => agrees_pure _
  · exact (steady_writeElement _ _ _).bind fun _ => agrees_pure _
  · exact steady_noMethod _ _ _

theorem steady_arrayBuiltin (a : Address) (receiver : Value) (name : String)
    (args : List Value) : Steady hidden (arrayBuiltin a receiver name args) := by
  unfold arrayBuiltin
  split
  · exact agrees_getHeap_bind fun _ _ => agrees_pure _
  · exact steady_elementBuiltin _ _ _

theorem steady_listBuiltin (a : Address) (name : String) (args : List Value) :
    Steady hidden (listBuiltin a name args) := by
  unfold listBuiltin
  split
  · exact (steady_modifyItems _ _).bind fun _ => agrees_pure _
  · exact steady_newList _
  · exact steady_arrayBuiltin _ _ _ _

theorem steady_mapBuiltin (a : Address) (name : String) (args : List Value) :
    Steady hidden (mapBuiltin a name args) := by
  unfold mapBuiltin
  split
  · exact agrees_getHeap_bind fun _ _ => agrees_pure _
  · exact (steady_textOf _).bind fun _ => agrees_getHeap_bind fun _ _ => agrees_pure _
  · exact steady_elementBuiltin _ _ _

theorem steady_kindBuiltin (receiver : Value) (name : String) (args : List Value) :
    Steady hidden (kindBuiltin receiver name args) := by
  unfold kindBuiltin
  split
  · exact steady_numberBuiltin _ _ _ _
  · exact steady_numberBuiltin _ _ _ _
  · exact steady_textBuiltin _ _ _
  · exact steady_listBuiltin _ _ _
  · exact steady_arrayBuiltin _ _ _ _
  · exact steady_mapBuiltin _ _ _
  · exact steady_noMethod _ _ _

theorem steady_builtin (receiver : Value) (name : String) (args : List Value) :
    Steady hidden (builtin receiver name args) := by
  unfold builtin
  split
  · exact (steady_valuesEqual _ _).bind fun _ => agrees_pure _
  · exact (steady_textOf _).bind fun _ => agrees_pure _
  · exact steady_kindBuiltin _ _ _

/-! ## Calls -/

section Calls

variable {lib : Library} {runBody : Block → EvalM Flow}

theorem steady_callNative {native : Native}
    (hnative : ∀ (receiver : Value) (args : List Value) (heap : Heap),
      (native.call receiver args heap).2.closures = heap.closures)
    (receiver : Value) (args : List Value) :
    Steady hidden (callNative native receiver args) := by
  unfold callNative
  apply agrees_getHeap_bind
  intro heap hheap
  refine (agrees_modifyHeap ?_).bind fun _ => ?_
  · intro _ _ a code hcode
    apply hheap a code
    rw [← hnative receiver args heap]
    exact hcode
  · split
    · exact agrees_pure _
    · exact agrees_fail _

/-- Bodies without hidden names run the same way in states that agree. -/
def StableBodies (hidden : String → Prop) (runBody : Block → EvalM Flow) : Prop :=
  ∀ body : Block, (∀ name ∈ namesOfStmts body, ¬ hidden name) →
    Steady hidden (runBody body)

theorem steady_callClosure (hbody : StableBodies hidden runBody) (a : Address)
    (args : List Value) : Steady hidden (callClosure runBody a args) := by
  unfold callClosure
  apply agrees_getHeap_bind
  intro heap hheap
  split
  · exact agrees_pure _
  · rename_i code hcode
    refine (steady_liftFailure _).bind fun vars => ?_
    refine (agrees_withScope code.env vars (hbody code.body (hheap a code hcode))).bind
      fun flow => ?_
    exact agrees_pure _

theorem steady_invokeWith (hlib : lib.KeepsClosures) (hbody : StableBodies hidden runBody)
    {routine : String → List Value → EvalM Value}
    (hroutine : ∀ name args, Steady hidden (routine name args)) (receiver : Value)
    (name : String) (args : List Value) :
    Steady hidden (invokeWith lib runBody routine receiver name args) := by
  unfold invokeWith
  refine (agrees_logCall name).bind fun _ => ?_
  split
  · split
    · exact hroutine _ _
    · simp only
      split
      · rename_i native hnative
        exact steady_callNative (hlib _ native hnative) _ _
      · exact agrees_fail _
  · exact agrees_fail _
  · unfold invokeWith.invokeValue
    split
    · exact steady_callClosure hbody _ _
    · split
      · rename_i native hnative
        exact steady_callNative (hlib _ native hnative) _ _
      · exact steady_builtin _ _ _

theorem steady_compareByMethod (hlib : lib.KeepsClosures)
    (hbody : StableBodies hidden runBody) (left right : Value) :
    Steady hidden (compareByMethod lib runBody left right) := by
  unfold compareByMethod
  refine (steady_invokeWith hlib hbody (fun _ _ => agrees_fail _) _ _ _).bind fun answer => ?_
  split
  · exact agrees_pure _
  · exact agrees_fail _

theorem steady_compareValues (hlib : lib.KeepsClosures)
    (hbody : StableBodies hidden runBody) (left right : Value) :
    Steady hidden (compareValues lib runBody left right) := by
  unfold compareValues
  split
  all_goals first
    | exact agrees_pure _
    | exact steady_liftHalt _
    | exact steady_compareByMethod hlib hbody _ _

theorem steady_comparison (hlib : lib.KeepsClosures) (hbody : StableBodies hidden runBody)
    (op : Comparison) (left right : Value) :
    Steady hidden (comparison lib runBody op left right) := by
  unfold comparison
  split
  · exact (steady_valuesEqual _ _).bind fun _ => agrees_pure _
  · exact (steady_valuesEqual _ _).bind fun _ => agrees_pure _
  · exact (steady_compareValues hlib hbody _ _).bind fun _ => agrees_pure _
  · exact (steady_compareValues hlib hbody _ _).bind fun _ => agrees_pure _

theorem steady_adapterRoutine (hlib : lib.KeepsClosures)
    (hbody : StableBodies hidden runBody) (name : String) (args : List Value) :
    Steady hidden (adapterRoutine lib runBody name args) := by
  unfold adapterRoutine
  split
  · split
    · exact steady_comparison hlib hbody _ _ _
    · exact agrees_fail _
  · exact agrees_fail _

theorem steady_invoke (hlib : lib.KeepsClosures) (hbody : StableBodies hidden runBody)
    (receiver : Value) (name : String) (args : List Value) :
    Steady hidden (invoke lib runBody receiver name args) :=
  steady_invokeWith hlib hbody (steady_adapterRoutine hlib hbody) receiver name args

theorem steady_invokeEach (hlib : lib.KeepsClosures) (hbody : StableBodies hidden runBody)
    (name : String) (args items : List Value) :
    Steady hidden (invokeEach lib runBody name args items) := by
  induction items with
  | nil => exact agrees_pure _
  | cons item rest ih =>
      refine (steady_invoke hlib hbody item name args).bind fun result => ?_
      exact ih.bind fun results => agrees_pure _

theorem steady_invokeSpread (hlib : lib.KeepsClosures) (hbody : StableBodies hidden runBody)
    (receiver : Value) (name : String) (args : List Value) :
    Steady hidden (invokeSpread lib runBody receiver name args) := by
  have hitems : ∀ items : List Value,
      Steady hidden (invokeSpread.overItems lib runBody name args items) := by
    intro items
    exact (steady_invokeEach hlib hbody name args items).bind fun results => steady_newList _
  unfold invokeSpread
  split
  · exact agrees_getHeap_bind fun _ _ => hitems _
  · exact agrees_getHeap_bind fun _ _ => hitems _
  · exact agrees_pure _
  · exact agrees_fail _

theorem steady_invokeCall (hlib : lib.KeepsClosures) (hbody : StableBodies hidden runBody)
    (receiver : Value) (name : String) (args : List Value) (spread : Bool) :
    Steady hidden (invokeCall lib runBody receiver name args spread) := by
  unfold invokeCall
  split
  · exact steady_invokeSpread hlib hbody _ _ _
  · exact steady_invoke hlib hbody _ _ _

theorem steady_setProperties (types : TypeTable) (receiver : Value)
    (entries : List (String × Value)) :
    Steady hidden (setProperties types receiver entries) := by
  induction entries with
  | nil => exact agrees_pure _
  | cons entry rest ih =>
      obtain ⟨name, value⟩ := entry
      exact (steady_writeProperty types receiver name value).bind fun _ => ih

theorem steady_construct (hlib : lib.KeepsClosures) (type : TypeId) (args : List Value) :
    Steady hidden (construct lib type args) := by
  unfold construct
  simp only
  split
  · rename_i native hnative
    refine (agrees_logCall _).bind fun _ => ?_
    exact steady_callNative (hlib _ native hnative) _ _
  · refine (agrees_allocate fun _ h => h).bind fun object => ?_
    split
    · exact agrees_pure _
    · apply agrees_getHeap_bind
      intro heap _
      exact (steady_setProperties _ _ _).bind fun _ => agrees_pure _
    · exact agrees_fail _

/-! ## Operators -/

theorem steady_arithmetic (hlib : lib.KeepsClosures) (hbody : StableBodies hidden runBody)
    (target : Option OperatorTarget) (op : Arithmetic) (left right : Value) :
    Steady hidden (arithmetic lib runBody target op left right) := by
  unfold arithmetic
  split
  · exact steady_invoke hlib hbody _ _ _
  · exact steady_builtin _ _ _

theorem steady_evalComparison (hlib : lib.KeepsClosures)
    (hbody : StableBodies hidden runBody) (target : Option OperatorTarget) (op : Comparison)
    (left right : Value) : Steady hidden (evalComparison lib runBody target op left right) := by
  unfold evalComparison
  split
  · exact (steady_invoke hlib hbody _ _ _).bind fun _ => agrees_pure _
  · exact steady_comparison hlib hbody _ _ _

theorem steady_negate (hlib : lib.KeepsClosures) (hbody : StableBodies hidden runBody)
    (operand : Value) : Steady hidden (negate lib runBody operand) := by
  unfold negate
  split
  · exact steady_liftHalt _
  · exact agrees_pure _
  · exact steady_invoke hlib hbody _ _ _

end Calls

/-! ## Control -/

theorem Agrees.repeatLoop {x y : EvalM (Option Flow)} (hxy : Agrees hidden x y) (times : Nat) :
    Agrees hidden (repeatLoop x times) (repeatLoop y times) := by
  induction times with
  | zero => exact agrees_throw _
  | succ more ih =>
      refine hxy.bind fun answer => ?_
      cases answer with
      | some flow => exact agrees_pure _
      | none => exact ih

theorem Agrees.forEach {f g : Value → EvalM Flow}
    (hfg : ∀ item, Agrees hidden (f item) (g item)) (items : List Value) :
    Agrees hidden (forEach f items) (forEach g items) := by
  induction items with
  | nil => exact agrees_pure _
  | cons item rest ih =>
      refine (hfg item).bind fun flow => ?_
      cases flow with
      | returned value => exact agrees_pure _
      | normal value => exact ih

theorem Agrees.loopStep {condition condition' : EvalM Value} {body body' : EvalM Flow}
    (hcondition : Agrees hidden condition condition') (hbody : Agrees hidden body body') :
    Agrees hidden (loopStep condition body) (loopStep condition' body') := by
  refine hcondition.bind fun value => ?_
  refine (steady_isTruthy value).bind fun truthy => ?_
  cases truthy with
  | false => exact agrees_pure _
  | true =>
      refine (agrees_inChildScope {} hbody).bind fun flow => ?_
      cases flow with
      | returned value => exact agrees_pure _
      | normal value => exact agrees_pure _

theorem steady_iterationValues (value : Value) : Steady hidden (iterationValues value) := by
  unfold iterationValues
  split
  · exact agrees_getHeap_bind fun _ _ => agrees_pure _
  · exact agrees_getHeap_bind fun _ _ => agrees_pure _
  · exact agrees_getHeap_bind fun _ _ => agrees_pure _
  · exact agrees_pure _
  · exact agrees_fail _

theorem steady_blockValue (flow : Flow) : Steady hidden (blockValue flow) := by
  cases flow with
  | normal value => exact agrees_pure _
  | returned value => exact agrees_fail _

/-- A closure over a body without hidden names may be made. -/
theorem steady_makeClosure (params : List Param) {body : Block}
    (hbody : ∀ name ∈ namesOfStmts body, ¬ hidden name) :
    Steady hidden (makeClosure params body) := by
  intro s t h
  have hallocate : Steady hidden (allocate fun heap =>
      heap.newClosure { params := params.map Param.name, body, env := s.env }) := by
    apply agrees_allocate
    intro heap hheap a code hcode
    simp only [Heap.newClosure, Array.getElem?_push] at hcode
    split at hcode
    · obtain rfl := Option.some.inj hcode
      exact hbody
    · exact hheap a code hcode
  have hstep := hallocate s t h
  change ((allocate fun heap => heap.newClosure
      { params := params.map Param.name, body, env := t.env }).run t).1 = _ ∧
    State.Agrees hidden _ ((allocate fun heap => heap.newClosure
      { params := params.map Param.name, body, env := t.env }).run t).2 ∧ _
  rw [h.env]
  exact hstep

end EvalM

end StaticDispatch
