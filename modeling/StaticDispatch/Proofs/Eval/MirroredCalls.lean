import StaticDispatch.Proofs.Eval.Mirroring

/-!
# Calls that take the detour

Calls, constructors, operators and loops, in a state and in one that takes a
detour.  Natives are taken to treat addresses alike, and the closures of the
heap are taken to have bodies that take the detour too.
-/

namespace StaticDispatch

/-- Natives treat addresses alike: on heaps that hold the same elsewhere they give the same
answer elsewhere. -/
def Library.Relocates (lib : Library) (ρ : Relocation) : Prop :=
  ∀ (key : String) (native : Native), lib.natives.get? key = some native →
    ∀ (receiver : Value) (args : List Value) (s t : Heap), ρ.Maps s t →
      (native.call (ρ.value receiver) (args.map ρ.value) t).1 =
          (native.call receiver args s).1.map ρ.value ∧
        ρ.Steps s t (native.call receiver args s).2
          (native.call (ρ.value receiver) (args.map ρ.value) t).2

namespace EvalM

section Calls

variable {δ : Detour} {view : View} {lib : Library} {runBody : Block → EvalM Flow}

/-! ## Natives and closures -/

theorem mirrors_callNative (hlib : lib.Relocates δ.toRelocation) {key : String}
    {native : Native} (hnative : lib.natives.get? key = some native) (receiver : Value)
    (args : List Value) :
    Mirrors δ view δ.value (callNative native receiver args)
      (callNative native (δ.value receiver) (args.map δ.value)) := by
  intro s t h _
  obtain ⟨hresult, hsteps⟩ := hlib key native hnative receiver args s.heap t.heap h.heap
  rw [run_callNative, run_callNative, hresult]
  refine .of_state ?_ (h.setHeap hsteps) (Scopes.Grows.refl _) rfl rfl rfl
  cases (native.call receiver args s.heap).1 with
  | ok value => rfl
  | error message => rfl

theorem closureArguments_map (params : List String) (args : List Value) :
    closureArguments params (args.map δ.value) =
      (closureArguments params args).map (·.map δ.value) := by
  unfold closureArguments
  rw [List.length_map]
  split
  · simp only [Except.map, OrderedMap.map_insert]
    cases args <;> rfl
  · split
    · simp only [Except.map, OrderedMap.map_insertAll]
      rw [List.zip_map_right]
      rfl
    · rfl

/-- A call of a closure binds its names. -/
theorem contains_closureArguments {params : List String} {args : List Value}
    {vars : OrderedMap Value} (h : closureArguments params args = .ok vars) {name : String}
    (hname : name ∈ closureNames params) : vars.contains name = true := by
  unfold closureArguments at h
  split at h
  · rename_i himplicit
    obtain rfl := Except.ok.inj h
    rw [Bool.and_eq_true] at himplicit
    rw [closureNames, if_pos himplicit.1, List.mem_singleton] at hname
    exact (OrderedMap.contains_insert _ _ _ _).mpr (.inl hname)
  · rename_i hexplicit
    split at h
    · rename_i hlength
      obtain rfl := Except.ok.inj h
      have hparams : ¬ params.isEmpty = true := by
        intro hempty
        obtain rfl := List.isEmpty_iff.mp hempty
        simp [← hlength] at hexplicit
      rw [closureNames, if_neg hparams] at hname
      rw [OrderedMap.contains_insertAll, List.map_fst_zip (Nat.le_of_eq hlength)]
      exact .inl hname
    · exact nomatch h

/-- The bodies of closures take the detour. -/
def MirrorsBodies (δ : Detour) (runBody : Block → EvalM Flow) : Prop :=
  ∀ (view : View) (body : Block), view.declares → (∀ name ∈ freeOfStmts body, view.reads name) →
    Mirrors δ view δ.flow (runBody body) (runBody body)

theorem mirrors_callClosure (hbodies : MirrorsBodies δ runBody) (a : Address)
    (args : List Value) :
    Mirrors δ view δ.value (callClosure runBody a args)
      (callClosure runBody (δ.closure a) (args.map δ.value)) := by
  intro s t h _
  have hcode := h.closures a
  unfold callClosure
  rw [run_bind, run_bind, run_getHeap, run_getHeap]
  dsimp only
  generalize s.heap.closures[a]? = code? at hcode ⊢
  generalize t.heap.closures[δ.closure a]? = code'? at hcode ⊢
  cases hcode with
  | none => exact .refl rfl h
  | some hcode =>
      rename_i code code'
      dsimp only
      obtain ⟨hparams, hbody, hsees⟩ := hcode
      rw [hparams, hbody, closureArguments_map]
      cases hargs : closureArguments code.params args with
      | error error => exact .refl rfl h
      | ok vars =>
          -- The body sees the scopes of the closure, and not those around the call.
          let inner : View := ⟨(· ∈ freeOfStmts code.body), True, False, fun _ => False⟩
          have hruns := hbodies inner code.body trivial fun _ => id
          have hreads : ∀ name, inner.reads name →
              name ∈ code.free ∨ vars.contains name = true := by
            intro name hname
            by_cases hbinds : name ∈ closureNames code.params
            · exact .inr (contains_closureArguments hargs hbinds)
            · exact .inl (List.mem_filter.mpr ⟨hname, by simpa using hbinds⟩)
          have hscope := hruns.withScope id (fun _ => id) h hsees vars hreads
          simp only [Except.map, liftFailure, pure_bind]
          refine Answers.bind hscope fun flow s' t' hx hy => ?_
          rw [hx, hy] at hscope
          exact .refl (congrArg Except.ok (δ.value_flow flow)) hscope.mirrors

theorem invokeValue_of_ne_call {name : String} (hname : name ≠ "call") (receiver : Value)
    (args : List Value) :
    invokeWith.invokeValue lib runBody receiver name args =
      match lib.natives.get? name with
      | some native => callNative native receiver args
      | none => builtin receiver name args := by
  unfold invokeWith.invokeValue
  split
  · exact absurd rfl hname
  · rfl

theorem mirrors_invokeWith (hlib : lib.Relocates δ.toRelocation)
    (hbodies : MirrorsBodies δ runBody) {routine : String → List Value → EvalM Value}
    (hroutine : ∀ name args, Mirrors δ view δ.value (routine name args)
      (routine name (args.map δ.value))) (receiver : Value) (name : String)
    (args : List Value) :
    Mirrors δ view δ.value (invokeWith lib runBody routine receiver name args)
      (invokeWith lib runBody routine (δ.value receiver) name (args.map δ.value)) := by
  have hvalue : Mirrors δ view δ.value
      (match lib.natives.get? name with
        | some native => callNative native receiver args
        | none => builtin receiver name args)
      (match lib.natives.get? name with
        | some native => callNative native (δ.value receiver) (args.map δ.value)
        | none => builtin (δ.value receiver) name (args.map δ.value)) := by
    cases hnative : lib.natives.get? name with
    | some native => exact mirrors_callNative hlib hnative receiver args
    | none => exact mirrors_builtin receiver name args
  unfold invokeWith
  refine (mirrors_logCall name).bind_same fun _ => ?_
  cases receiver with
  | classRef type =>
      simp only [Relocation.value_classRef]
      split
      · exact hroutine name args
      · cases hnative : lib.natives.get? (lib.types.name type ++ "." ++ name) with
        | some native => exact mirrors_callNative hlib hnative (.classRef type) args
        | none => exact mirrors_fail _
  | null => exact mirrors_fail _
  | closure a =>
      by_cases hcall : name = "call"
      · subst hcall
        exact mirrors_callClosure hbodies a args
      · simp only [Relocation.value_closure, invokeValue_of_ne_call hcall]
        exact hvalue
  | _ => exact hvalue

theorem mirrors_compareByMethod (hlib : lib.Relocates δ.toRelocation)
    (hbodies : MirrorsBodies δ runBody) (left right : Value) :
    Mirrors δ view id (compareByMethod lib runBody left right)
      (compareByMethod lib runBody (δ.value left) (δ.value right)) := by
  unfold compareByMethod
  refine (mirrors_invokeWith hlib hbodies (fun _ _ => mirrors_fail _) left "compareTo"
    [right]).bind fun answer => ?_
  cases answer with
  | int n => exact mirrors_pure rfl
  | _ => exact mirrors_fail _

theorem mirrors_compareValues (hlib : lib.Relocates δ.toRelocation)
    (hbodies : MirrorsBodies δ runBody) (left right : Value) :
    Mirrors δ view id (compareValues lib runBody left right)
      (compareValues lib runBody (δ.value left) (δ.value right)) := by
  have hmethod : Mirrors δ view id (compareByMethod lib runBody left right)
      (compareByMethod lib runBody (δ.value left) (δ.value right)) :=
    mirrors_compareByMethod hlib hbodies left right
  have hhalt : ∀ result : Except Halt Ordering,
      Mirrors δ view id (liftHalt result) (liftHalt result) :=
    fun result => mirrors_liftHalt (congrFun Except.map_id result).symm
  cases left with
  | null => cases right <;> exact mirrors_pure rfl
  | int a =>
      cases right with
      | null => exact mirrors_pure rfl
      | int b => exact mirrors_pure rfl
      | decimal b => exact hhalt _
      | _ => exact hmethod
  | decimal a =>
      cases right with
      | null => exact mirrors_pure rfl
      | int b => exact hhalt _
      | decimal b => exact hhalt _
      | _ => exact hmethod
  | text a =>
      cases right with
      | null => exact mirrors_pure rfl
      | text b => exact mirrors_pure rfl
      | _ => exact hmethod
  | bool a =>
      cases right with
      | null => exact mirrors_pure rfl
      | bool b => exact mirrors_pure rfl
      | _ => exact hmethod
  | _ =>
      cases right with
      | null => exact mirrors_pure rfl
      | _ => exact hmethod

theorem mirrors_comparison (hlib : lib.Relocates δ.toRelocation)
    (hbodies : MirrorsBodies δ runBody) (op : Comparison) (left right : Value) :
    Mirrors δ view δ.value (comparison lib runBody op left right)
      (comparison lib runBody op (δ.value left) (δ.value right)) := by
  cases op with
  | equal => exact (mirrors_valuesEqual left right).bind_same fun _ => mirrors_pure rfl
  | notEqual => exact (mirrors_valuesEqual left right).bind_same fun _ => mirrors_pure rfl
  | _ =>
      refine (mirrors_compareValues hlib hbodies left right).bind_same fun _ => ?_
      exact mirrors_pure rfl

theorem mirrors_adapterRoutine (hlib : lib.Relocates δ.toRelocation)
    (hbodies : MirrorsBodies δ runBody) (name : String) (args : List Value) :
    Mirrors δ view δ.value (adapterRoutine lib runBody name args)
      (adapterRoutine lib runBody name (args.map δ.value)) := by
  rcases args with _ | ⟨left, _ | ⟨right, _ | ⟨another, rest⟩⟩⟩
  · exact mirrors_fail _
  · exact mirrors_fail _
  · simp only [adapterRoutine, List.map_cons, List.map_nil]
    split
    · exact mirrors_comparison hlib hbodies _ left right
    · exact mirrors_fail _
  · exact mirrors_fail _

theorem mirrors_invoke (hlib : lib.Relocates δ.toRelocation)
    (hbodies : MirrorsBodies δ runBody) (receiver : Value) (name : String)
    (args : List Value) :
    Mirrors δ view δ.value (invoke lib runBody receiver name args)
      (invoke lib runBody (δ.value receiver) name (args.map δ.value)) :=
  mirrors_invokeWith hlib hbodies (mirrors_adapterRoutine hlib hbodies) receiver name args

theorem mirrors_invokeEach (hlib : lib.Relocates δ.toRelocation)
    (hbodies : MirrorsBodies δ runBody) (name : String) (args items : List Value) :
    Mirrors δ view (List.map δ.value) (invokeEach lib runBody name args items)
      (invokeEach lib runBody name (args.map δ.value) (items.map δ.value)) := by
  induction items with
  | nil => exact mirrors_pure rfl
  | cons item rest ih =>
      refine (mirrors_invoke hlib hbodies item name args).bind fun result => ?_
      exact ih.bind fun results => mirrors_pure rfl

theorem mirrors_invokeSpread (hlib : lib.Relocates δ.toRelocation)
    (hbodies : MirrorsBodies δ runBody) (receiver : Value) (name : String)
    (args : List Value) :
    Mirrors δ view δ.value (invokeSpread lib runBody receiver name args)
      (invokeSpread lib runBody (δ.value receiver) name (args.map δ.value)) := by
  have hitems : ∀ items : List Value,
      Mirrors δ view δ.value (invokeSpread.overItems lib runBody name args items)
        (invokeSpread.overItems lib runBody name (args.map δ.value)
          (items.map δ.value)) := by
    intro items
    refine (mirrors_invokeEach hlib hbodies name args items).bind fun results => ?_
    exact mirrors_newList fun _ _ _ => rfl
  unfold invokeSpread
  cases receiver with
  | list a =>
      apply mirrors_getHeap_bind
      intro left right hmaps _
      rw [hmaps.toList_items]
      exact hitems _
  | array a =>
      apply mirrors_getHeap_bind
      intro left right hmaps _
      rw [hmaps.toList_items]
      exact hitems _
  | null => exact mirrors_pure rfl
  | _ => exact mirrors_fail _

theorem mirrors_invokeCall (hlib : lib.Relocates δ.toRelocation)
    (hbodies : MirrorsBodies δ runBody) (receiver : Value) (name : String)
    (args : List Value) (spread : Bool) :
    Mirrors δ view δ.value (invokeCall lib runBody receiver name args spread)
      (invokeCall lib runBody (δ.value receiver) name (args.map δ.value) spread) := by
  unfold invokeCall
  split
  · exact mirrors_invokeSpread hlib hbodies receiver name args
  · exact mirrors_invoke hlib hbodies receiver name args

/-! ## Constructors -/

theorem defaultFields_map (ρ : Relocation) (types : TypeTable) (type : TypeId) :
    (defaultFields types type).map ρ.value = defaultFields types type := by
  have hdefault : ∀ type, ρ.value (defaultValue types type) = defaultValue types type := by
    intro type
    unfold defaultValue
    split <;> rfl
  have hfold : ∀ (infos : List ClassInfo) (fields : OrderedMap Value),
      fields.map ρ.value = fields →
      (infos.foldl (fun fields info => fields.insertAll (info.fields.entries.map fun field =>
        (field.1, defaultValue types field.2))) fields).map ρ.value =
      infos.foldl (fun fields info => fields.insertAll (info.fields.entries.map fun field =>
        (field.1, defaultValue types field.2))) fields := by
    intro infos
    induction infos with
    | nil => exact fun fields hfields => hfields
    | cons info rest ih =>
        intro fields hfields
        apply ih
        rw [OrderedMap.map_insertAll, hfields, List.map_map]
        congr 2
        funext field
        exact congrArg (Prod.mk field.1) (hdefault field.2)
  exact hfold _ {} rfl

theorem mirrors_instantiate (types : TypeTable) (type : TypeId) :
    Mirrors δ view δ.value (instantiate types type) (instantiate types type) := by
  apply mirrors_allocate
  intro left right hmaps
  have hsteps := Relocation.Steps.newObject hmaps type (defaultFields types type)
  rw [defaultFields_map] at hsteps
  exact ⟨hsteps, congrArg Value.object hmaps.object_size.symm⟩

theorem mirrors_setProperties (types : TypeTable) (receiver : Value)
    (entries : List (String × Value)) :
    Mirrors δ view id (setProperties types receiver entries)
      (setProperties types (δ.value receiver)
        (entries.map fun entry => (entry.1, δ.value entry.2))) := by
  induction entries with
  | nil => exact mirrors_pure rfl
  | cons entry rest ih =>
      obtain ⟨name, value⟩ := entry
      exact (mirrors_writeProperty types receiver name value).bind_same fun _ => ih

theorem mirrors_construct (hlib : lib.Relocates δ.toRelocation) (type : TypeId)
    (args : List Value) :
    Mirrors δ view δ.value (construct lib type args)
      (construct lib type (args.map δ.value)) := by
  unfold construct
  dsimp only
  cases hnative : lib.natives.get? ("new " ++ lib.types.name type) with
  | some native =>
      refine (mirrors_logCall _).bind_same fun _ => ?_
      exact mirrors_callNative hlib hnative (.classRef type) args
  | none =>
      refine (mirrors_instantiate lib.types type).bind fun object => ?_
      have hfail : Mirrors δ view δ.value
          (fail (.noConstructor (lib.types.name type) args.length))
          (fail (.noConstructor (lib.types.name type) (args.map δ.value).length)) := by
        rw [List.length_map]
        exact mirrors_fail _
      rcases args with _ | ⟨first, _ | ⟨second, rest⟩⟩
      · exact mirrors_pure rfl
      · cases first with
        | map a =>
            apply mirrors_getHeap_bind
            intro left right hmaps _
            rw [hmaps.entries_eq]
            exact (mirrors_setProperties lib.types object (left.entries a).entries).bind_same
              fun _ => mirrors_pure rfl
        | _ => exact hfail
      · cases first <;> exact hfail

/-! ## Operators -/

theorem mirrors_arithmetic (hlib : lib.Relocates δ.toRelocation)
    (hbodies : MirrorsBodies δ runBody) (target : Option OperatorTarget) (op : Arithmetic)
    (left right : Value) :
    Mirrors δ view δ.value (arithmetic lib runBody target op left right)
      (arithmetic lib runBody target op (δ.value left) (δ.value right)) := by
  cases target with
  | some target => exact mirrors_invoke hlib hbodies left target.name [right]
  | none => exact mirrors_builtin left op.methodName [right]

theorem mirrors_evalComparison (hlib : lib.Relocates δ.toRelocation)
    (hbodies : MirrorsBodies δ runBody) (target : Option OperatorTarget) (op : Comparison)
    (left right : Value) :
    Mirrors δ view δ.value (evalComparison lib runBody target op left right)
      (evalComparison lib runBody target op (δ.value left) (δ.value right)) := by
  cases target with
  | none => exact mirrors_comparison hlib hbodies op left right
  | some target =>
      refine (mirrors_invoke hlib hbodies left target.name [right]).bind fun result => ?_
      apply mirrors_pure
      cases op <;> cases result <;> rfl

theorem mirrors_negate (hlib : lib.Relocates δ.toRelocation)
    (hbodies : MirrorsBodies δ runBody) (operand : Value) :
    Mirrors δ view δ.value (negate lib runBody operand)
      (negate lib runBody (δ.value operand)) := by
  have hinvoke : Mirrors δ view δ.value (invoke lib runBody operand "negative" [])
      (invoke lib runBody (δ.value operand) "negative" []) :=
    mirrors_invoke hlib hbodies operand "negative" []
  cases operand with
  | int n =>
      apply mirrors_liftHalt
      unfold Number.negate
      split <;> rfl
  | decimal d => exact mirrors_pure rfl
  | _ => exact hinvoke

/-! ## Control -/

theorem mirrors_iterationValues (value : Value) :
    Mirrors δ view (List.map δ.value) (iterationValues value)
      (iterationValues (δ.value value)) := by
  unfold iterationValues
  cases value with
  | list a =>
      apply mirrors_getHeap_bind
      intro left right hmaps _
      exact mirrors_pure (hmaps.toList_items a)
  | array a =>
      apply mirrors_getHeap_bind
      intro left right hmaps _
      exact mirrors_pure (hmaps.toList_items a)
  | map a =>
      apply mirrors_getHeap_bind
      intro left right hmaps _
      apply mirrors_pure
      rw [hmaps.entries_eq, OrderedMap.values_map]
  | null => exact mirrors_pure rfl
  | _ => exact mirrors_fail _

theorem mirrors_blockValue (flow : Flow) :
    Mirrors δ view δ.value (blockValue flow) (blockValue (δ.flow flow)) := by
  cases flow with
  | normal value =>
      apply mirrors_pure
      cases value <;> rfl
  | returned value => exact mirrors_fail _

theorem Mirrors.forEach {body body' : Value → EvalM Flow}
    (hbody : ∀ item, Mirrors δ view δ.flow (body item) (body' (δ.value item)))
    (items : List Value) :
    Mirrors δ view δ.flow (forEach body items) (forEach body' (items.map δ.value)) := by
  induction items with
  | nil => exact mirrors_pure rfl
  | cons item rest ih =>
      refine (hbody item).bind fun flow => ?_
      cases flow with
      | returned value => exact mirrors_pure rfl
      | normal value => exact ih

theorem Mirrors.repeatLoop {step step' : EvalM (Option Flow)}
    (hstep : Mirrors δ view (Option.map δ.flow) step step') (loops : Nat) :
    Mirrors δ view δ.flow (repeatLoop step loops) (repeatLoop step' loops) := by
  induction loops with
  | zero => exact mirrors_throw _
  | succ more ih =>
      refine hstep.bind fun flow => ?_
      cases flow with
      | some flow => exact mirrors_pure rfl
      | none => exact ih

theorem Mirrors.loopStep {condition condition' : EvalM Value} {body body' : EvalM Flow}
    (hcondition : Mirrors δ view δ.value condition condition')
    (hbody : Mirrors δ (view.inside {}) δ.flow body body') :
    Mirrors δ view (Option.map δ.flow) (loopStep condition body)
      (loopStep condition' body') := by
  refine hcondition.bind fun value => ?_
  refine (mirrors_isTruthy value).bind_same fun truthy => ?_
  cases truthy with
  | false => exact mirrors_pure rfl
  | true =>
      refine (mirrors_inChildScope hbody).bind fun flow => ?_
      cases flow with
      | returned value => exact mirrors_pure rfl
      | normal value => exact mirrors_pure rfl

/-- A closure made in both states sees the same variables. -/
theorem mirrors_makeClosure (params : List Param) (body : Block)
    (hfree : ∀ name ∈ (freeOfStmts body).filter
      fun name => name ∉ closureNames (params.map Param.name), view.reads name) :
    Mirrors δ view δ.value (makeClosure params body) (makeClosure params body) := by
  intro s t h hview
  let code : ClosureCode := { params := params.map Param.name, body, env := s.env }
  let code' : ClosureCode := { params := params.map Param.name, body, env := t.env }
  have hnext : δ.closure s.heap.closures.size = t.heap.closures.size := h.nextClosure 0
  have hcode : δ.SameCode s.scopes code code' := ⟨rfl, rfl, hview.sees.mono hfree⟩
  have hafter : State.Mirrors δ { s with heap := (s.heap.newClosure code).1 }
      { t with heap := (t.heap.newClosure code').1 } := by
    refine { h with heap := { h.heap with }, closures := ?_, nextClosure := ?_ }
    · intro a
      have hold := h.closures a
      simp only [Heap.newClosure, Array.getElem?_push]
      by_cases ha : a = s.heap.closures.size
      · rw [if_pos ha, if_pos (ha ▸ hnext)]
        exact .some hcode
      · rw [if_neg ha, if_neg fun heq => ha (δ.closure_injective (heq.trans hnext.symm))]
        exact hold
    · intro n
      simp only [Heap.newClosure, Array.size_push]
      rw [Nat.add_assoc, h.nextClosure, Nat.add_assoc]
  exact .of_state (congrArg (fun a => Except.ok (Value.closure a)) hnext.symm) hafter
    (Scopes.Grows.refl _) rfl rfl rfl

end Calls

end EvalM

end StaticDispatch
