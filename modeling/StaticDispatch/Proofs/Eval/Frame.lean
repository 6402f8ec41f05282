import StaticDispatch.Proofs.Eval.Detour
import StaticDispatch.Proofs.Eval.Places

/-!
# The frame of an evaluation

Blocks, branches, loop bodies, closures and methods change the visible scopes
and `this` for as long as they run.  Whatever an evaluation comes to, a value,
an early return or a failure at any depth, it leaves the scopes visible that
were visible before and `this` as it was, gives up no scope and takes nothing
out of the log.  So an evaluator that is asked one thing after the other
answers each in the frame that it began with.
-/

namespace StaticDispatch

variable {α β : Type}

/-- What an evaluation leaves as it found it. -/
structure State.Frames (before after : State) : Prop where
  env : after.env = before.env
  scopes : before.scopes.size ≤ after.scopes.size
  this : after.this = before.this
  log : before.log.toList <+: after.log.toList

namespace State.Frames

theorem refl (state : State) : state.Frames state :=
  ⟨rfl, Nat.le_refl _, rfl, List.prefix_refl _⟩

theorem trans {a b c : State} (hab : a.Frames b) (hbc : b.Frames c) : a.Frames c :=
  ⟨hbc.env.trans hab.env, Nat.le_trans hab.scopes hbc.scopes, hbc.this.trans hab.this,
    hab.log.trans hbc.log⟩

theorem define (state : State) (name : String) (value : Value) :
    state.Frames (state.define name value) := by
  refine ⟨state.env_define name value, Nat.le_of_eq (state.size_define name value).symm,
    state.this_define name value, ?_⟩
  unfold State.define
  split
  · exact List.prefix_refl _
  · exact List.prefix_refl _

theorem assign (state : State) (name : String) (value : Value) :
    state.Frames (state.assign name value) := by
  cases howner : Scopes.owner? state.scopes name state.env with
  | none =>
      rw [State.assign_of_no_owner howner]
      exact define state name value
  | some id =>
      rw [State.assign_of_owner howner]
      have hsize := Scopes.size_set state.scopes id name value
      exact ⟨rfl, Nat.le_of_eq hsize.symm, rfl, List.prefix_refl _⟩

end State.Frames

namespace EvalM

/-- However the evaluation ends, it leaves the frame that it found. -/
def Framed (x : EvalM α) : Prop :=
  ∀ state : State, state.Frames (x.run state).2

/-! ## Steps -/

theorem framed_pure (a : α) : Framed (pure a) :=
  State.Frames.refl

theorem framed_throw (halt : Halt) : Framed (throw halt : EvalM α) :=
  State.Frames.refl

theorem framed_fail (error : EvalError) : Framed (fail error : EvalM α) :=
  framed_throw _

theorem Framed.bind {x : EvalM α} {f : α → EvalM β} (hx : Framed x) (hf : ∀ a, Framed (f a)) :
    Framed (x >>= f) := by
  intro state
  have hfirst := hx state
  rw [run_bind]
  rcases hrun : x.run state with ⟨result, middle⟩
  rw [hrun] at hfirst
  cases result with
  | error halt => exact hfirst
  | ok a => exact hfirst.trans (hf a middle)

theorem framed_getHeap : Framed getHeap :=
  State.Frames.refl

theorem framed_modifyHeap (change : Heap → Heap) : Framed (modifyHeap change) := by
  intro state
  exact ⟨rfl, Nat.le_refl _, rfl, List.prefix_refl _⟩

theorem framed_allocate (make : Heap → Heap × Value) : Framed (allocate make) := by
  intro state
  exact ⟨rfl, Nat.le_refl _, rfl, List.prefix_refl _⟩

theorem framed_logCall (name : String) : Framed (logCall name) := by
  intro state
  have hlog : state.log.toList <+: (state.log.push name).toList := by
    rw [Array.toList_push]
    exact List.prefix_append _ _
  exact ⟨rfl, Nat.le_refl _, rfl, hlog⟩

theorem framed_define (name : String) (value : Value) :
    Framed (modify fun state => state.define name value) := by
  intro state
  exact State.Frames.define state name value

theorem framed_writeVariable (name : String) (value : Value) :
    Framed (writeVariable name value) := by
  intro state
  exact State.Frames.assign state name value

theorem framed_this : Framed (do return (← get).this : EvalM Value) :=
  State.Frames.refl

/-! ## Save and restore -/

/-- A body may do with its scopes what it likes: those visible before come back. -/
theorem Framed.withScope {body : EvalM α} (h : Framed body) (outer : Env)
    (vars : OrderedMap Value) : Framed (withScope outer vars body) := by
  intro state
  have hbody := h { state with
    scopes := state.scopes.push vars
    env := state.scopes.size :: outer }
  have hgrows : state.scopes.size ≤ (state.scopes.push vars).size := by
    rw [Array.size_push]
    exact Nat.le_succ _
  exact ⟨rfl, Nat.le_trans hgrows hbody.scopes, hbody.this, hbody.log⟩

theorem Framed.inChildScope {body : EvalM α} (h : Framed body) (vars : OrderedMap Value) :
    Framed (inChildScope vars body) := by
  intro state
  exact h.withScope state.env vars state

theorem Framed.withThis {body : EvalM α} (h : Framed body) (this : Value) :
    Framed (withThis this body) := by
  intro state
  have hbody := h { state with this }
  exact ⟨hbody.env, hbody.scopes, rfl, hbody.log⟩

/-! ## Places -/

theorem framed_liftFailure (result : Except EvalError α) : Framed (liftFailure result) := by
  cases result with
  | ok value => exact framed_pure value
  | error error => exact framed_fail error

theorem framed_liftHalt (result : Except Halt α) : Framed (liftHalt result) := by
  cases result with
  | ok value => exact framed_pure value
  | error halt => exact framed_throw halt

theorem framed_textOf (value : Value) : Framed (textOf value) := by
  apply framed_getHeap.bind
  intro heap
  split
  · exact framed_pure _
  · exact framed_throw _

theorem framed_valuesEqual (a b : Value) : Framed (valuesEqual a b) := by
  apply framed_getHeap.bind
  intro heap
  split
  · exact framed_pure _
  · exact framed_throw _

theorem framed_isTruthy (value : Value) : Framed (isTruthy value) :=
  framed_getHeap.bind fun _ => framed_pure _

/-- Reading a place changes nothing at all. -/
theorem framed_readPlace (place : Place) : Framed (readPlace place) := by
  intro state
  rw [state_of_run_readPlace]
  exact State.Frames.refl state

theorem framed_readVariable (name : String) : Framed (readVariable name) :=
  framed_readPlace (.named name)

theorem framed_readElement (receiver index : Value) : Framed (readElement receiver index) :=
  framed_readPlace (.element receiver index)

theorem framed_writeProperty (types : TypeTable) (receiver : Value) (name : String)
    (value : Value) : Framed (writeProperty types receiver name value) := by
  apply framed_getHeap.bind
  intro heap
  split
  · split
    · exact framed_modifyHeap _
    · exact framed_fail _
  · exact framed_modifyHeap _
  · exact framed_fail _
  · exact framed_fail _

theorem framed_writeElement (receiver index value : Value) :
    Framed (writeElement receiver index value) := by
  apply framed_getHeap.bind
  intro heap
  split
  · apply (framed_liftFailure _).bind
    intro found
    dsimp only
    split
    · exact framed_modifyHeap _
    · exact framed_fail _
  · apply (framed_liftFailure _).bind
    intro found
    dsimp only
    split
    · exact framed_modifyHeap _
    · exact framed_throw _
  · split
    · exact framed_modifyHeap _
    · exact framed_throw _
  · exact framed_fail _
  · exact framed_fail _

theorem framed_writePlace (types : TypeTable) (place : Place) (value : Value) :
    Framed (writePlace types place value) := by
  cases place with
  | named name => exact framed_writeVariable name value
  | property receiver name => exact framed_writeProperty types receiver name value
  | element receiver index => exact framed_writeElement receiver index value

/-! ## Methods of values -/

theorem framed_noMethod (receiver : Value) (name : String) (args : List Value) :
    Framed (noMethod receiver name args) :=
  framed_fail _

theorem framed_numberBuiltin (negated : Except Halt Value) (receiver : Value) (name : String)
    (args : List Value) : Framed (numberBuiltin negated receiver name args) := by
  unfold numberBuiltin
  split
  · exact framed_liftHalt _
  · split
    · exact framed_liftHalt _
    · exact framed_noMethod _ _ _
  · exact framed_noMethod _ _ _

theorem framed_textBuiltin (text name : String) (args : List Value) :
    Framed (textBuiltin text name args) := by
  unfold textBuiltin
  split
  · exact (framed_textOf _).bind fun _ => framed_pure _
  · exact framed_pure _
  · exact framed_pure _
  · exact framed_pure _
  · exact framed_pure _
  · exact framed_pure _
  · exact framed_readElement _ _
  · exact framed_readElement _ _
  · exact framed_noMethod _ _ _

theorem framed_elementBuiltin (receiver : Value) (name : String) (args : List Value) :
    Framed (elementBuiltin receiver name args) := by
  unfold elementBuiltin
  split
  · exact framed_readElement _ _
  · exact framed_readElement _ _
  · exact (framed_writeElement _ _ _).bind fun _ => framed_pure _
  · exact (framed_writeElement _ _ _).bind fun _ => framed_pure _
  · exact framed_noMethod _ _ _

theorem framed_arrayBuiltin (a : Address) (receiver : Value) (name : String)
    (args : List Value) : Framed (arrayBuiltin a receiver name args) := by
  unfold arrayBuiltin
  split
  · exact framed_getHeap.bind fun _ => framed_pure _
  · exact framed_elementBuiltin _ _ _

theorem framed_listBuiltin (a : Address) (name : String) (args : List Value) :
    Framed (listBuiltin a name args) := by
  unfold listBuiltin
  split
  · exact (framed_modifyHeap _).bind fun _ => framed_pure _
  · exact framed_allocate _
  · exact framed_arrayBuiltin _ _ _ _

theorem framed_mapBuiltin (a : Address) (name : String) (args : List Value) :
    Framed (mapBuiltin a name args) := by
  unfold mapBuiltin
  split
  · exact framed_getHeap.bind fun _ => framed_pure _
  · exact (framed_textOf _).bind fun _ => framed_getHeap.bind fun _ => framed_pure _
  · exact framed_elementBuiltin _ _ _

theorem framed_kindBuiltin (receiver : Value) (name : String) (args : List Value) :
    Framed (kindBuiltin receiver name args) := by
  cases receiver with
  | int n => exact framed_numberBuiltin _ _ _ _
  | decimal d => exact framed_numberBuiltin _ _ _ _
  | text text => exact framed_textBuiltin _ _ _
  | list a => exact framed_listBuiltin _ _ _
  | array a => exact framed_arrayBuiltin _ _ _ _
  | map a => exact framed_mapBuiltin _ _ _
  | _ => exact framed_noMethod _ _ _

theorem framed_builtin (receiver : Value) (name : String) (args : List Value) :
    Framed (builtin receiver name args) := by
  unfold builtin
  split
  · exact (framed_valuesEqual _ _).bind fun _ => framed_pure _
  · exact (framed_textOf _).bind fun _ => framed_pure _
  · exact framed_kindBuiltin _ _ _

/-! ## Calls -/

section Calls

variable {lib : Library} {runBody : Block → EvalM Flow}

/-- A native sees its receiver, its arguments and the heap, and nothing of the frame. -/
theorem framed_callNative (native : Native) (receiver : Value) (args : List Value) :
    Framed (callNative native receiver args) := by
  intro state
  rw [run_callNative]
  exact ⟨rfl, Nat.le_refl _, rfl, List.prefix_refl _⟩

theorem framed_callClosure (hbody : ∀ body, Framed (runBody body)) (a : Address)
    (args : List Value) : Framed (callClosure runBody a args) := by
  apply framed_getHeap.bind
  intro heap
  split
  · exact framed_pure _
  · rename_i code hcode
    apply (framed_liftFailure _).bind
    intro vars
    apply ((hbody code.body).withScope code.env vars).bind
    intro flow
    exact framed_pure _

theorem framed_invokeWith (hbody : ∀ body, Framed (runBody body))
    {routine : String → List Value → EvalM Value}
    (hroutine : ∀ name args, Framed (routine name args)) (receiver : Value) (name : String)
    (args : List Value) : Framed (invokeWith lib runBody routine receiver name args) := by
  apply (framed_logCall name).bind
  intro logged
  split
  · split
    · exact hroutine _ _
    · dsimp only
      split
      · exact framed_callNative _ _ _
      · exact framed_fail _
  · exact framed_fail _
  · unfold invokeWith.invokeValue
    split
    · exact framed_callClosure hbody _ _
    · split
      · exact framed_callNative _ _ _
      · exact framed_builtin _ _ _

theorem framed_compareByMethod (hbody : ∀ body, Framed (runBody body)) (left right : Value) :
    Framed (compareByMethod lib runBody left right) := by
  have hinvoke : Framed (invokeWith lib runBody (fun name _ => fail (.notTwoOperands name)) left
      "compareTo" [right]) :=
    framed_invokeWith hbody (fun _ _ => framed_fail _) left "compareTo" [right]
  apply hinvoke.bind
  intro answer
  split
  · exact framed_pure _
  · exact framed_fail _

theorem framed_compareValues (hbody : ∀ body, Framed (runBody body)) (left right : Value) :
    Framed (compareValues lib runBody left right) := by
  unfold compareValues
  split
  all_goals first
    | exact framed_pure _
    | exact framed_liftHalt _
    | exact framed_compareByMethod hbody _ _

theorem framed_comparison (hbody : ∀ body, Framed (runBody body)) (op : Comparison)
    (left right : Value) : Framed (comparison lib runBody op left right) := by
  unfold comparison
  split
  · exact (framed_valuesEqual _ _).bind fun _ => framed_pure _
  · exact (framed_valuesEqual _ _).bind fun _ => framed_pure _
  · exact (framed_compareValues hbody _ _).bind fun _ => framed_pure _
  · exact (framed_compareValues hbody _ _).bind fun _ => framed_pure _

theorem framed_adapterRoutine (hbody : ∀ body, Framed (runBody body)) (name : String)
    (args : List Value) : Framed (adapterRoutine lib runBody name args) := by
  unfold adapterRoutine
  split
  · split
    · exact framed_comparison hbody _ _ _
    · exact framed_fail _
  · exact framed_fail _

theorem framed_invoke (hbody : ∀ body, Framed (runBody body)) (receiver : Value)
    (name : String) (args : List Value) : Framed (invoke lib runBody receiver name args) :=
  framed_invokeWith hbody (framed_adapterRoutine hbody) receiver name args

theorem framed_invokeEach (hbody : ∀ body, Framed (runBody body)) (name : String)
    (args items : List Value) : Framed (invokeEach lib runBody name args items) := by
  induction items with
  | nil => exact framed_pure _
  | cons item rest ih =>
      apply (framed_invoke hbody item name args).bind
      intro result
      exact ih.bind fun _ => framed_pure _

theorem framed_invokeSpread (hbody : ∀ body, Framed (runBody body)) (receiver : Value)
    (name : String) (args : List Value) :
    Framed (invokeSpread lib runBody receiver name args) := by
  have hitems : ∀ items : List Value,
      Framed (invokeSpread.overItems lib runBody name args items) := by
    intro items
    exact (framed_invokeEach hbody name args items).bind fun _ => framed_allocate _
  unfold invokeSpread
  split
  · exact framed_getHeap.bind fun _ => hitems _
  · exact framed_getHeap.bind fun _ => hitems _
  · exact framed_pure _
  · exact framed_fail _

theorem framed_invokeCall (hbody : ∀ body, Framed (runBody body)) (receiver : Value)
    (name : String) (args : List Value) (spread : Bool) :
    Framed (invokeCall lib runBody receiver name args spread) := by
  unfold invokeCall
  split
  · exact framed_invokeSpread hbody _ _ _
  · exact framed_invoke hbody _ _ _

theorem framed_setProperties (types : TypeTable) (receiver : Value)
    (entries : List (String × Value)) : Framed (setProperties types receiver entries) := by
  induction entries with
  | nil => exact framed_pure _
  | cons entry rest ih =>
      obtain ⟨name, value⟩ := entry
      exact (framed_writeProperty types receiver name value).bind fun _ => ih

theorem framed_construct (type : TypeId) (args : List Value) :
    Framed (construct lib type args) := by
  unfold construct
  dsimp only
  split
  · exact (framed_logCall _).bind fun _ => framed_callNative _ _ _
  · apply (framed_allocate _).bind
    intro object
    split
    · exact framed_pure _
    · apply framed_getHeap.bind
      intro heap
      exact (framed_setProperties _ _ _).bind fun _ => framed_pure _
    · exact framed_fail _

/-! ## Operators and control -/

theorem framed_arithmetic (hbody : ∀ body, Framed (runBody body))
    (target : Option OperatorTarget) (op : Arithmetic) (left right : Value) :
    Framed (arithmetic lib runBody target op left right) := by
  cases target with
  | some target => exact framed_invoke hbody _ _ _
  | none => exact framed_builtin _ _ _

theorem framed_evalComparison (hbody : ∀ body, Framed (runBody body))
    (target : Option OperatorTarget) (op : Comparison) (left right : Value) :
    Framed (evalComparison lib runBody target op left right) := by
  cases target with
  | some target => exact (framed_invoke hbody _ _ _).bind fun _ => framed_pure _
  | none => exact framed_comparison hbody _ _ _

theorem framed_negate (hbody : ∀ body, Framed (runBody body)) (operand : Value) :
    Framed (negate lib runBody operand) := by
  unfold negate
  split
  · exact framed_liftHalt _
  · exact framed_pure _
  · exact framed_invoke hbody _ _ _

theorem Framed.repeatLoop {step : EvalM (Option Flow)} (h : Framed step) (times : Nat) :
    Framed (repeatLoop step times) := by
  induction times with
  | zero => exact framed_throw _
  | succ more ih =>
      apply h.bind
      intro answer
      cases answer with
      | some flow => exact framed_pure _
      | none => exact ih

theorem Framed.forEach {body : Value → EvalM Flow} (h : ∀ item, Framed (body item))
    (items : List Value) : Framed (forEach body items) := by
  induction items with
  | nil => exact framed_pure _
  | cons item rest ih =>
      apply (h item).bind
      intro flow
      cases flow with
      | returned value => exact framed_pure _
      | normal value => exact ih

theorem Framed.loopStep {condition : EvalM Value} {body : EvalM Flow}
    (hcondition : Framed condition) (hbody : Framed body) :
    Framed (loopStep condition body) := by
  apply hcondition.bind
  intro value
  apply (framed_isTruthy value).bind
  intro truthy
  split
  · apply (hbody.inChildScope {}).bind
    intro flow
    cases flow with
    | returned value => exact framed_pure _
    | normal value => exact framed_pure _
  · exact framed_pure _

theorem framed_iterationValues (value : Value) : Framed (iterationValues value) := by
  unfold iterationValues
  split
  · exact framed_getHeap.bind fun _ => framed_pure _
  · exact framed_getHeap.bind fun _ => framed_pure _
  · exact framed_getHeap.bind fun _ => framed_pure _
  · exact framed_pure _
  · exact framed_fail _

theorem framed_blockValue (flow : Flow) : Framed (blockValue flow) := by
  cases flow with
  | normal value => exact framed_pure _
  | returned value => exact framed_fail _

theorem framed_makeClosure (params : List Param) (body : Block) :
    Framed (makeClosure params body) := by
  intro state
  exact ⟨rfl, Nat.le_refl _, rfl, List.prefix_refl _⟩

/-! ## Trees -/

variable {loops : Nat}

mutual

theorem framed_eval (hbody : ∀ body, Framed (runBody body)) :
    (e : Expr) → Framed (e.eval lib loops runBody)
  | .literal _ _ => framed_pure _
  | .var _ name _ => framed_readVariable name
  | .this _ => framed_this
  | .classRef _ _ => framed_pure _
  | .property _ receiver name =>
      (framed_eval hbody receiver).bind fun _ => framed_readPlace _
  | .methodCall _ receiver name args safe spread => by
      apply (framed_eval hbody receiver).bind
      intro receiver
      split
      · exact framed_pure _
      · apply (framed_evalExprs hbody args).bind
        intro args
        exact framed_invokeCall hbody receiver name args spread
  | .staticCall _ owner name args =>
      (framed_evalExprs hbody args).bind fun _ => framed_invoke hbody _ _ _
  | .constructorCall _ type args =>
      (framed_evalExprs hbody args).bind fun _ => framed_construct _ _
  | .binary info op _ left right => by
      have hplace := framed_evalPlace hbody left
      have hleft := framed_eval hbody left
      have hright := framed_eval hbody right
      cases op with
      | assign =>
          apply hplace.bind
          intro place
          apply hright.bind
          intro value
          exact (framed_writePlace _ _ _).bind fun _ => framed_pure _
      | compound op =>
          apply hplace.bind
          intro place
          apply (framed_readPlace place).bind
          intro current
          apply hright.bind
          intro operand
          apply (framed_arithmetic hbody _ op current operand).bind
          intro value
          exact (framed_writePlace _ _ _).bind fun _ => framed_pure _
      | and =>
          apply hleft.bind
          intro value
          apply (framed_isTruthy value).bind
          intro truthy
          split
          · exact hright.bind fun _ => (framed_isTruthy _).bind fun _ => framed_pure _
          · exact framed_pure _
      | or =>
          apply hleft.bind
          intro value
          apply (framed_isTruthy value).bind
          intro truthy
          split
          · exact framed_pure _
          · exact hright.bind fun _ => (framed_isTruthy _).bind fun _ => framed_pure _
      | index => exact hleft.bind fun _ => hright.bind fun _ => framed_readPlace _
      | comparison op =>
          exact hleft.bind fun _ => hright.bind fun _ => framed_evalComparison hbody _ op _ _
      | arithmetic op =>
          exact hleft.bind fun _ => hright.bind fun _ => framed_arithmetic hbody _ op _ _
  | .ternary _ condition yes no => by
      apply (framed_eval hbody condition).bind
      intro value
      apply (framed_isTruthy value).bind
      intro truthy
      split
      · exact framed_eval hbody yes
      · exact framed_eval hbody no
  | .closure _ params body _ => framed_makeClosure params body
  | .block _ body =>
      ((framed_evalStmts hbody none body).inChildScope {}).bind framed_blockValue
  | .map _ entries => (framed_evalEntries hbody {} entries).bind fun _ => framed_allocate _
  | .list _ items => (framed_evalExprs hbody items).bind fun _ => framed_allocate _
  | .declaration _ name _ initializer => by
      apply (framed_eval hbody initializer).bind
      intro value
      exact (framed_define name value).bind fun _ => framed_pure _
  | .cast _ _ operand => framed_eval hbody operand
  | .unary _ op operand => by
      apply (framed_eval hbody operand).bind
      intro value
      cases op with
      | not => exact (framed_isTruthy value).bind fun _ => framed_pure _
      | negate => exact framed_negate hbody value

theorem framed_evalPlace (hbody : ∀ body, Framed (runBody body)) :
    (e : Expr) → Framed (e.evalPlace lib loops runBody)
  | .var _ _ _ => framed_pure _
  | .property _ receiver _ => (framed_eval hbody receiver).bind fun _ => framed_pure _
  | .binary _ op _ left right => by
      have hleft := framed_eval hbody left
      have hright := framed_eval hbody right
      cases op with
      | index => exact hleft.bind fun _ => hright.bind fun _ => framed_pure _
      | _ => exact framed_fail _
  | .literal _ _ => framed_fail _
  | .this _ => framed_fail _
  | .classRef _ _ => framed_fail _
  | .methodCall _ _ _ _ _ _ => framed_fail _
  | .staticCall _ _ _ _ => framed_fail _
  | .constructorCall _ _ _ => framed_fail _
  | .ternary _ _ _ _ => framed_fail _
  | .closure _ _ _ _ => framed_fail _
  | .block _ _ => framed_fail _
  | .map _ _ => framed_fail _
  | .list _ _ => framed_fail _
  | .declaration _ _ _ _ => framed_fail _
  | .cast _ _ _ => framed_fail _
  | .unary _ _ _ => framed_fail _

theorem framed_evalExprs (hbody : ∀ body, Framed (runBody body)) :
    (es : List Expr) → Framed (evalExprs lib loops runBody es)
  | [] => framed_pure _
  | e :: rest =>
      (framed_eval hbody e).bind fun _ => (framed_evalExprs hbody rest).bind fun _ =>
        framed_pure _

theorem framed_evalEntries (hbody : ∀ body, Framed (runBody body)) (done : OrderedMap Value) :
    (entries : List Entry) → Framed (evalEntries lib loops runBody done entries)
  | [] => framed_pure _
  | .mk key value _ :: rest =>
      (framed_eval hbody key).bind fun _ => (framed_textOf _).bind fun _ =>
        (framed_eval hbody value).bind fun _ => framed_evalEntries hbody _ rest

theorem framed_evalStmt (hbody : ∀ body, Framed (runBody body)) :
    (s : Stmt) → Framed (s.eval lib loops runBody)
  | .expr value => (framed_eval hbody value).bind fun _ => framed_pure _
  | .block body => (framed_evalStmts hbody none body).inChildScope {}
  | .ret none _ => framed_pure _
  | .ret (some value) _ => (framed_eval hbody value).bind fun _ => framed_pure _
  | .ifElse condition yes none => by
      apply (framed_eval hbody condition).bind
      intro value
      apply (framed_isTruthy value).bind
      intro truthy
      split
      · exact (framed_evalStmts hbody none yes).inChildScope {}
      · exact framed_pure _
  | .ifElse condition yes (some no) => by
      apply (framed_eval hbody condition).bind
      intro value
      apply (framed_isTruthy value).bind
      intro truthy
      split
      · exact (framed_evalStmts hbody none yes).inChildScope {}
      · exact (framed_evalStmts hbody none no).inChildScope {}
  | .whileLoop condition body => by
      have hstep := (framed_eval hbody condition).loopStep (framed_evalStmts hbody none body)
      exact hstep.repeatLoop loops
  | .forIn loopVar iterable body => by
      apply (framed_eval hbody iterable).bind
      intro iterable
      apply (framed_iterationValues iterable).bind
      intro items
      exact Framed.forEach (fun _ => (framed_evalStmts hbody none body).inChildScope _) items
  | .throw value =>
      (framed_eval hbody value).bind fun _ => (framed_textOf _).bind fun _ => framed_fail _

theorem framed_evalStmts (hbody : ∀ body, Framed (runBody body)) (last : Option Value) :
    (body : List Stmt) → Framed (evalStmts lib loops runBody last body)
  | [] => framed_pure _
  | s :: rest => by
      apply (framed_evalStmt hbody s).bind
      intro flow
      cases flow with
      | returned value => exact framed_pure _
      | normal value => exact framed_evalStmts hbody value rest

end

end Calls

/-- Closure bodies leave the frame at every budget. -/
theorem framed_runBody (lib : Library) (budget : Nat) (body : Block) :
    Framed (runBody lib budget body) := by
  induction budget generalizing body with
  | zero => exact framed_throw _
  | succ budget ih => exact framed_evalStmts ih none body

end EvalM

/-! ## Evaluators -/

/-- What can be asked of an evaluator. -/
inductive Request where
  | expression (e : Expr)
  | block (body : Block)
  | method (unit : MethodUnit) (receiver : Value) (args : List Value)
  | call (receiver : Value) (name : String) (args : List Value)

def Request.run (lib : Library) (budget : Nat) : Request → EvalM Value
  | .expression e => evaluate lib budget e
  | .block body => executeBlock lib budget body
  | .method unit receiver args => callMethod lib budget unit receiver args
  | .call receiver name args => invokeMethod lib budget receiver name args

/-- An evaluator between two requests. -/
structure Evaluator where
  library : Library
  state : State

namespace Evaluator

def answer (evaluator : Evaluator) (budget : Nat) (request : Request) :
    Except Halt Value × Evaluator :=
  let (result, state) := (request.run evaluator.library budget).run evaluator.state
  (result, { evaluator with state })

/-- The evaluator after a number of requests, each with a budget of its own. -/
def afterAll (evaluator : Evaluator) (requests : List (Nat × Request)) : Evaluator :=
  requests.foldl (fun evaluator request => (evaluator.answer request.1 request.2).2) evaluator

/-- The second evaluator has the natives, the types and the frame of the first. -/
structure Restores (before after : Evaluator) : Prop where
  natives : after.library.natives = before.library.natives
  types : after.library.types = before.library.types
  frame : before.state.Frames after.state

end Evaluator

theorem Request.framed_run (lib : Library) (budget : Nat) (request : Request) :
    EvalM.Framed (request.run lib budget) := by
  have hbody := EvalM.framed_runBody lib budget
  -- the statements of a request run with the budget that a closure one level up would have
  have hstmts := EvalM.framed_runBody lib (budget + 1)
  cases request with
  | expression e => exact EvalM.framed_eval hbody e
  | block body =>
      have hscope := (hstmts body).inChildScope {}
      exact hscope.bind fun _ => EvalM.framed_pure _
  | method unit receiver args =>
      simp only [Request.run, callMethod]
      split
      · have hscope := (hstmts unit.body).inChildScope
          (OrderedMap.empty.insertAll ((unit.params.map Param.name).zip args))
        exact (hscope.withThis receiver).bind fun _ => EvalM.framed_pure _
      · exact EvalM.framed_fail _
  | call receiver name args => exact EvalM.framed_invoke hbody receiver name args

namespace Evaluator

/-- A whole run of requests keeps the frame, whichever of them fail. -/
theorem restores_afterAll (evaluator : Evaluator) (requests : List (Nat × Request)) :
    evaluator.Restores (evaluator.afterAll requests) := by
  induction requests generalizing evaluator with
  | nil => exact ⟨rfl, rfl, State.Frames.refl _⟩
  | cons request rest ih =>
      have hfirst := request.2.framed_run evaluator.library request.1 evaluator.state
      have hrest := ih (evaluator.answer request.1 request.2).2
      exact ⟨hrest.natives, hrest.types, hfirst.trans hrest.frame⟩

/-- However a request ends, the evaluator is in the frame that it was asked in. -/
theorem restores_answer (evaluator : Evaluator) (budget : Nat) (request : Request) :
    evaluator.Restores (evaluator.answer budget request).2 :=
  ⟨rfl, rfl, request.framed_run evaluator.library budget evaluator.state⟩

end Evaluator

end StaticDispatch
