import StaticDispatch.Proofs.Eval.Steady
import StaticDispatch.Proofs.Lowering.Settled

/-!
# The behaviour of lowered calls and operators

The rules for safe calls, operators and static calls change where an expression
is evaluated: a receiver without effects is read twice, any other one goes
through a temporary, and an assignment with an operator reads its target as an
expression.  None of this can be seen from outside the temporaries.
-/

namespace StaticDispatch

open EvalM

variable {α β : Type}

/-! ## Evaluations that only read -/

namespace EvalM

/-- The evaluation leaves the state as it is. -/
def ReadsOnly (x : EvalM α) : Prop :=
  ∀ state, (x.run state).2 = state

theorem ite_congr_run {c : Prop} [Decidable c] {x y z : EvalM α} {state : State}
    (h : y.run state = z.run state) :
    (if c then x else y).run state = (if c then x else z).run state := by
  split
  · rfl
  · exact h

/-- What follows an evaluation that only reads may take its answer for granted. -/
theorem ReadsOnly.run_bind_congr {x : EvalM α} (hx : ReadsOnly x) {f g : α → EvalM β}
    {state : State}
    (hfg : ∀ a, x.run state = (.ok a, state) → (f a).run state = (g a).run state) :
    (x >>= f).run state = (x >>= g).run state := by
  have hstate := hx state
  rw [run_bind, run_bind]
  rcases hrun : x.run state with ⟨result, after⟩
  simp only [hrun] at hstate
  subst hstate
  cases result with
  | error halt => rfl
  | ok a => exact hfg a hrun

theorem ReadsOnly.bind_congr {x : EvalM α} (hx : ReadsOnly x) {f g : α → EvalM β}
    (hfg : ∀ a state, x.run state = (.ok a, state) → (f a).run state = (g a).run state) :
    x >>= f = x >>= g :=
  ext_run fun state => hx.run_bind_congr fun a hrun => hfg a state hrun

theorem readsOnly_readVariable (name : String) : ReadsOnly (readVariable name) := by
  intro state
  rw [run_readVariable]
  cases state.lookup? name <;> rfl

end EvalM

theorem Expr.readsOnly_eval (lib : Library) (loops : Nat) (runBody : Block → EvalM Flow)
    {e : Expr} (h : e.isSideEffectFree = true) : ReadsOnly (e.eval lib loops runBody) := by
  cases e with
  | literal info value => exact fun _ => rfl
  | var info name declaredType => exact readsOnly_readVariable name
  | this info => exact fun _ => rfl
  | classRef info type => exact fun _ => rfl
  | _ => exact absurd h (by simp [Expr.isSideEffectFree])

/-! ## Null checks -/

theorem valuesEqual_null (value : Value) : valuesEqual value .null = pure value.isNull := by
  apply ext_run
  intro state
  have hequal : state.heap.equal? value .null = some value.isNull := by
    cases value <;> rfl
  unfold valuesEqual
  rw [run_bind, run_getHeap]
  simp only [hequal]

theorem isTruthy_bool (b : Bool) : isTruthy (.bool b) = pure b :=
  rfl

section Shapes

variable (lib : Library) (loops : Nat) (runBody : Block → EvalM Flow)

/-- A ternary on a null check answers null for null and goes on with anything else. -/
theorem eval_nullCheck (info : Info) (span span' : Span) (checked call : Expr) :
    (Expr.ternary info (notNull span checked) call (.null span')).eval lib loops runBody =
      (do
        let value ← checked.eval lib loops runBody
        if value.isNull then return .null else call.eval lib loops runBody) := by
  simp only [Expr.eval, notNull, Expr.null, Span.info, evalComparison, comparison,
    bind_assoc, pure_bind, Literal.eval, valuesEqual_null, isTruthy_bool]
  congr 1
  funext value
  cases value.isNull <;> rfl

theorem eval_plainCall (info : Info) (receiver : Expr) (name : String) (args : List Expr)
    (spread : Bool) :
    (Expr.methodCall info receiver name args false spread).eval lib loops runBody =
      (do
        let receiver ← receiver.eval lib loops runBody
        let args ← evalExprs lib loops runBody args
        invokeCall lib runBody receiver name args spread) := by
  simp only [Expr.eval, Bool.and_false, Bool.false_eq_true, if_false]

theorem eval_safeCall (info : Info) (receiver : Expr) (name : String) (args : List Expr)
    (spread : Bool) :
    (Expr.methodCall info receiver name args true spread).eval lib loops runBody =
      (do
        let receiver ← receiver.eval lib loops runBody
        if receiver.isNull then return .null
        else
          let args ← evalExprs lib loops runBody args
          invokeCall lib runBody receiver name args spread) := by
  simp only [Expr.eval, Bool.and_true]

theorem eval_operatorCall (span : Span) (type : Option TypeId) (target : OperatorTarget)
    (left right : Expr) :
    (operatorCall span type target left right).eval lib loops runBody =
      (do
        let left ← left.eval lib loops runBody
        let right ← right.eval lib loops runBody
        invoke lib runBody left target.name [right]) := by
  simp only [operatorCall, eval_plainCall, evalExprs, bind_assoc, pure_bind, invokeCall,
    Bool.false_eq_true, if_false]

end Shapes

/-! ## Targets that can be read twice -/

/-- A variable, or a property or element whose parts have no effects. -/
def Expr.isSimpleTarget : Expr → Bool
  | .var _ _ _ => true
  | .property _ receiver _ => receiver.isSideEffectFree
  | .binary info .index _ left right =>
      info.facts.operatorTarget.isNone && left.isSideEffectFree && right.isSideEffectFree
  | _ => false

theorem Expr.lower_of_isSideEffectFree (settings : Settings) (cls : TypeId) {e : Expr}
    (h : e.isSideEffectFree = true) : e.lower settings cls = pure e := by
  cases e with
  | literal info value => rfl
  | var info name declaredType => rfl
  | this info => rfl
  | classRef info type => rfl
  | _ => exact absurd h (by simp [Expr.isSideEffectFree])

theorem Expr.lower_of_isSimpleTarget (settings : Settings) (cls : TypeId) {e : Expr}
    (h : e.isSimpleTarget = true) : e.lower settings cls = pure e := by
  unfold Expr.isSimpleTarget at h
  split at h
  · rfl
  · simp only [Expr.lower, lower_of_isSideEffectFree settings cls h, pure_bind]
  · simp only [Bool.and_eq_true, Option.isNone_iff_eq_none] at h
    obtain ⟨⟨htarget, hleft⟩, hright⟩ := h
    simp only [Expr.lower, lower_of_isSideEffectFree settings cls hleft,
      lower_of_isSideEffectFree settings cls hright, pure_bind, lowerBinary, htarget]
  · exact absurd h (by simp)

theorem stableOperand_of_isSideEffectFree (settings : Settings) (cls : TypeId)
    {operand : Expr} (h : operand.isSideEffectFree = true) :
    stableOperand settings cls operand = pure ([], operand) := by
  unfold stableOperand
  rw [if_pos h]

theorem stableTarget_of_isSimpleTarget (settings : Settings) (cls : TypeId) {target : Expr}
    (h : target.isSimpleTarget = true) :
    stableTarget settings cls target = pure ([], target) := by
  unfold Expr.isSimpleTarget at h
  split at h
  · rfl
  · simp only [stableTarget, stableOperand_of_isSideEffectFree settings cls h, pure_bind]
  · simp only [Bool.and_eq_true] at h
    obtain ⟨⟨-, hleft⟩, hright⟩ := h
    simp only [stableTarget, stableOperand_of_isSideEffectFree settings cls hleft,
      stableOperand_of_isSideEffectFree settings cls hright, pure_bind, List.append_nil]
  · exact absurd h (by simp)

/-- Such a target has the value of the place that it stands for. -/
theorem evalPlace_eval (lib : Library) (loops : Nat) (runBody : Block → EvalM Flow)
    {target : Expr} (h : target.isSimpleTarget = true) (next : Place → Value → EvalM α) :
    (do
      let place ← target.evalPlace lib loops runBody
      let value ← target.eval lib loops runBody
      next place value) =
    (do
      let place ← target.evalPlace lib loops runBody
      let value ← readPlace place
      next place value) := by
  unfold Expr.isSimpleTarget at h
  split at h
  · simp only [Expr.evalPlace, Expr.eval, pure_bind, readPlace]
  · simp only [Expr.evalPlace, Expr.eval, bind_assoc, pure_bind]
    have hreceiver := Expr.readsOnly_eval lib loops runBody h
    apply hreceiver.bind_congr
    intro receiver state hrun
    exact run_bind_of_ok hrun
  · simp only [Bool.and_eq_true] at h
    obtain ⟨⟨-, hleft⟩, hright⟩ := h
    have hleft := Expr.readsOnly_eval lib loops runBody hleft
    have hright := Expr.readsOnly_eval lib loops runBody hright
    simp only [Expr.evalPlace, Expr.eval, bind_assoc, pure_bind]
    apply hleft.bind_congr
    intro receiver state hrun
    apply hright.run_bind_congr
    intro index hrun'
    rw [run_bind_of_ok hrun, run_bind_of_ok hrun']
  · exact absurd h (by simp)

/-- The place of a target is a variable only if the target names it. -/
theorem evalPlace_avoids {hidden : String → Prop} {lib : Library} {loops : Nat}
    {runBody : Block → EvalM Flow} {target : Expr}
    (h : ∀ name ∈ target.names, ¬ hidden name) (state : State) (place : Place)
    (hplace : ((target.evalPlace lib loops runBody).run state).1 = .ok place) :
    place.Avoids hidden := by
  cases place with
  | named name =>
      obtain ⟨info, type, rfl⟩ := Expr.exists_of_evalPlace_named hplace
      exact h name (by simp [Expr.names])
  | property receiver name => trivial
  | element receiver index => trivial

/-! ## Temporaries -/

/-- A value just bound to a hidden name can be read from it, and nothing else has changed. -/
theorem EvalM.Agrees.bindTemporary {hidden : String → Prop} {name : String}
    (hname : hidden name) {value : Value} {x : EvalM β} {f : Value → EvalM β}
    (h : Agrees hidden x (f value)) :
    Agrees hidden x (do
      modify fun state => state.define name value
      let read ← readVariable name
      f read) := by
  intro s t hagrees
  have hafter := hagrees.defineRight value hname
  have hscope : t.HasScope := by
    obtain ⟨inner, outer, henv, hlt⟩ := hagrees.scope
    exact ⟨inner, outer, hagrees.env.trans henv, hagrees.size ▸ hlt⟩
  have hstep := h s _ hafter
  change ((readVariable name >>= f).run (t.define name value)).1 = _ ∧
    State.Agrees hidden _ ((readVariable name >>= f).run (t.define name value)).2 ∧ _
  rw [run_bind_of_ok (run_readVariable_define hscope name value)]
  exact hstep

theorem EvalM.Agrees.defineHidden {hidden : String → Prop} {name : String}
    (hname : hidden name) (value : Value) {x y : EvalM β} (h : Agrees hidden x y) :
    Agrees hidden x (do
      modify fun state => state.define name value
      y) := by
  intro s t hagrees
  exact h s _ (hagrees.defineRight value hname)

/-! ## The rules -/

/-- What is assumed around a lowering: which rules may run, that temporaries are hidden,
and that the code from elsewhere does not see them. -/
structure Surroundings (settings : Settings) (lib : Library) (hidden : String → Prop)
    (runBody : Block → EvalM Flow) : Prop where
  temporaries : ∀ number,
    hidden (syntheticName settings.config.temporaryStem number)
  noArrayIndex : settings.config.isEnabled .arrayIndex = false
  noNamedConstructors : settings.config.isEnabled .namedConstructors = false
  natives : lib.KeepsClosures
  bodies : StableBodies hidden runBody

/-- The second expression can stand for the first, as a value and as a target. -/
structure Expr.Keeps (hidden : String → Prop) (lib : Library) (loops : Nat)
    (runBody : Block → EvalM Flow) (e out : Expr) : Prop where
  value : Agrees hidden (e.eval lib loops runBody) (out.eval lib loops runBody)
  place : Agrees hidden (e.evalPlace lib loops runBody) (out.evalPlace lib loops runBody)

section Rules

variable {settings : Settings} {lib : Library} {hidden : String → Prop}
  {runBody : Block → EvalM Flow}

theorem lowerPlainCall_eq (h : Surroundings settings lib hidden runBody) (cls : TypeId)
    (info : Info) (receiver : Expr) (name : String) (args : List Expr) (spread : Bool) :
    lowerPlainCall settings cls info receiver name args spread =
      pure (.methodCall info receiver name args false spread) := by
  unfold lowerPlainCall
  rw [h.noArrayIndex]
  rfl

/-- The receiver of a safe call is in a temporary or can be read twice. -/
theorem yields_splitReceiver (settings : Settings) (cls : TypeId) (receiver : Expr) :
    (splitReceiver settings cls receiver).Yields fun pair =>
      pair = (receiver, receiver) ∧ receiver.isSideEffectFree = true ∨
        ∃ number type,
          pair.1 = .declaration receiver.span.info
            (syntheticName settings.config.temporaryStem number) type receiver ∧
          pair.2 = .var receiver.span.info
            (syntheticName settings.config.temporaryStem number) type := by
  unfold splitReceiver
  split
  · intro session
    exact .inr ⟨session.nextName, _, rfl, rfl⟩
  · rename_i hdirect
    apply LowerM.yields_pure
    refine .inl ⟨rfl, ?_⟩
    unfold Config.bindsReceiver at hdirect
    split at hdirect
    · exact absurd rfl hdirect
    · simpa using hdirect

theorem yields_lowerMethodCall_keeps (h : Surroundings settings lib hidden runBody)
    (cls : TypeId) (loops : Nat) (info : Info) {receiver receiver' : Expr} (name : String)
    {args args' : List Expr} (safe spread : Bool)
    (hreceiver : Agrees hidden (receiver.eval lib loops runBody)
      (receiver'.eval lib loops runBody))
    (hargs : Agrees hidden (evalExprs lib loops runBody args)
      (evalExprs lib loops runBody args')) :
    (lowerMethodCall settings cls info receiver' name args' safe spread).Yields
      (Expr.Keeps hidden lib loops runBody
        (.methodCall info receiver name args safe spread)) := by
  have hcall : ∀ value, Agrees hidden
      (evalExprs lib loops runBody args >>= fun args =>
        invokeCall lib runBody value name args spread)
      (evalExprs lib loops runBody args' >>= fun args =>
        invokeCall lib runBody value name args spread) := fun value =>
    hargs.bind fun args => steady_invokeCall h.natives h.bodies value name args spread
  unfold lowerMethodCall
  cases safe with
  | false =>
      simp only [Bool.false_eq_true, if_false, lowerPlainCall_eq h]
      apply LowerM.yields_pure
      refine ⟨?_, agrees_fail _⟩
      rw [eval_plainCall, eval_plainCall]
      exact hreceiver.bind hcall
  | true =>
      simp only [if_true]
      split
      · unfold lowerSafeCall
        refine (yields_splitReceiver settings cls receiver').bind ?_
        rintro ⟨checked, called⟩ hsplit
        apply LowerM.yields_count_bind
        rw [lowerPlainCall_eq h]
        apply LowerM.yields_pure
        refine ⟨?_, agrees_fail _⟩
        rw [eval_safeCall, eval_nullCheck, eval_plainCall]
        rcases hsplit with ⟨hpair, hpure⟩ | ⟨number, type, hchecked, hcalled⟩
        · obtain ⟨rfl, rfl⟩ : checked = receiver' ∧ called = receiver' := by simpa using hpair
          rw [(Expr.readsOnly_eval lib loops runBody hpure).bind_congr
            fun value state hrun => ite_congr_run (run_bind_of_ok hrun)]
          refine hreceiver.bind fun value => ?_
          split
          · exact agrees_pure _
          · exact hcall value
        · simp only at hchecked hcalled
          subst hchecked hcalled
          simp only [Expr.eval, bind_assoc, pure_bind]
          refine hreceiver.bind fun value => ?_
          have htemporary := h.temporaries number
          split
          · exact Agrees.defineHidden htemporary value (agrees_pure _)
          · exact Agrees.bindTemporary htemporary (hcall value)
      · apply LowerM.yields_pure
        refine ⟨?_, agrees_fail _⟩
        rw [eval_safeCall, eval_safeCall]
        refine hreceiver.bind fun value => ?_
        split
        · exact agrees_pure _
        · exact hcall value

/-- What an operator may be resolved for without a change of meaning by its rule alone:
arithmetic, and assignment to a target that can be read twice. -/
def BinaryOp.keepsMeaning (left : Expr) : BinaryOp → Bool
  | .arithmetic _ => true
  | .compound _ => left.isSimpleTarget
  | _ => false

/-- An operator without a rule keeps its meaning when its operands do. -/
theorem keeps_binary (h : Surroundings settings lib hidden runBody) (loops : Nat)
    (info : Info) (op : BinaryOp) (opSpan : Span) {left left' right right' : Expr}
    (hleft : left.Keeps hidden lib loops runBody left')
    (hright : right.Keeps hidden lib loops runBody right')
    (hnames : ∀ name ∈ left.names, ¬ hidden name) :
    (Expr.binary info op opSpan left right).Keeps hidden lib loops runBody
      (.binary info op opSpan left' right') := by
  have hplace := fun (next next' : Place → EvalM Value)
      (hnext : ∀ place : Place, place.Avoids hidden → Agrees hidden (next place) (next' place)) =>
    hleft.place.bind_of (Place.Avoids hidden) (evalPlace_avoids hnames) hnext
  cases op with
  | assign =>
      refine ⟨?_, agrees_fail _⟩
      simp only [Expr.eval]
      apply hplace
      intro place havoids
      refine hright.value.bind fun value => ?_
      exact (steady_writePlace lib.types havoids value).bind fun _ => agrees_pure _
  | compound op =>
      refine ⟨?_, agrees_fail _⟩
      simp only [Expr.eval]
      apply hplace
      intro place havoids
      refine (steady_readPlace havoids).bind fun current => ?_
      refine hright.value.bind fun operand => ?_
      refine (steady_arithmetic h.natives h.bodies _ op current operand).bind fun value => ?_
      exact (steady_writePlace lib.types havoids value).bind fun _ => agrees_pure _
  | arithmetic op =>
      refine ⟨?_, agrees_fail _⟩
      simp only [Expr.eval]
      refine hleft.value.bind fun left => ?_
      refine hright.value.bind fun right => ?_
      exact steady_arithmetic h.natives h.bodies _ op left right
  | and =>
      refine ⟨?_, agrees_fail _⟩
      simp only [Expr.eval]
      refine hleft.value.bind fun left => ?_
      refine (steady_isTruthy left).bind fun truthy => ?_
      split
      · refine hright.value.bind fun right => ?_
        exact (steady_isTruthy right).bind fun _ => agrees_pure _
      · exact agrees_pure _
  | or =>
      refine ⟨?_, agrees_fail _⟩
      simp only [Expr.eval]
      refine hleft.value.bind fun left => ?_
      refine (steady_isTruthy left).bind fun truthy => ?_
      split
      · exact agrees_pure _
      · refine hright.value.bind fun right => ?_
        exact (steady_isTruthy right).bind fun _ => agrees_pure _
  | comparison op =>
      refine ⟨?_, agrees_fail _⟩
      simp only [Expr.eval]
      refine hleft.value.bind fun left => ?_
      refine hright.value.bind fun right => ?_
      exact steady_evalComparison h.natives h.bodies _ op left right
  | index =>
      constructor
      · simp only [Expr.eval]
        refine hleft.value.bind fun receiver => ?_
        refine hright.value.bind fun index => ?_
        exact steady_readElement receiver index
      · simp only [Expr.evalPlace]
        refine hleft.value.bind fun receiver => ?_
        exact hright.value.bind fun index => agrees_pure _

theorem yields_lowerOperatorAssignment_keeps (h : Surroundings settings lib hidden runBody)
    (cls : TypeId) (loops : Nat) {info : Info} (op : Arithmetic) (opSpan : Span)
    {target : OperatorTarget} (htarget : info.facts.operatorTarget = some target)
    {left right right' : Expr} (hsimple : left.isSimpleTarget = true)
    (hleft : left.Keeps hidden lib loops runBody left)
    (hright : right.Keeps hidden lib loops runBody right')
    (hnames : ∀ name ∈ left.names, ¬ hidden name) :
    (lowerOperatorAssignment settings cls info.span opSpan info.facts.inferredType target left
      right').Yields
        (Expr.Keeps hidden lib loops runBody (.binary info (.compound op) opSpan left right)) := by
  unfold lowerOperatorAssignment
  rw [stableTarget_of_isSimpleTarget settings cls hsimple, pure_bind]
  apply LowerM.yields_count_bind
  apply LowerM.yields_pure
  refine ⟨?_, agrees_fail _⟩
  simp only [assignmentAfter, List.isEmpty_nil, if_true, Expr.eval, eval_operatorCall,
    bind_assoc, htarget, arithmetic]
  rw [evalPlace_eval lib loops runBody hsimple]
  refine hleft.place.bind_of (Place.Avoids hidden) (evalPlace_avoids hnames)
    fun place havoids => ?_
  refine (steady_readPlace havoids).bind fun current => ?_
  refine hright.value.bind fun operand => ?_
  refine (steady_invoke h.natives h.bodies current target.name [operand]).bind fun value => ?_
  exact (steady_writePlace lib.types havoids value).bind fun _ => agrees_pure _

theorem yields_lowerBinary_keeps (h : Surroundings settings lib hidden runBody)
    (cls : TypeId) (loops : Nat) (info : Info) (op : BinaryOp) (opSpan : Span)
    {left left' right right' : Expr}
    (hop : settings.config.isEnabled .binaryOperators = true →
      info.facts.operatorTarget.isSome = true → op.keepsMeaning left = true)
    (hsame : left.isSimpleTarget = true → left' = left)
    (hleft : left.Keeps hidden lib loops runBody left')
    (hright : right.Keeps hidden lib loops runBody right')
    (hnames : ∀ name ∈ left.names, ¬ hidden name) :
    (lowerBinary settings cls info op opSpan left' right').Yields
      (Expr.Keeps hidden lib loops runBody (.binary info op opSpan left right)) := by
  have hplain := keeps_binary h loops info op opSpan hleft hright hnames
  unfold lowerBinary
  cases htarget : info.facts.operatorTarget with
  | none => exact LowerM.yields_pure hplain
  | some target =>
      simp only
      split
      · rename_i henabled
        have hkeeps := hop henabled (by rw [htarget]; rfl)
        cases op with
        | arithmetic op =>
            apply LowerM.yields_count_bind
            apply LowerM.yields_pure
            refine ⟨?_, agrees_fail _⟩
            simp only [eval_operatorCall, Expr.eval, htarget, arithmetic]
            refine hleft.value.bind fun left => ?_
            refine hright.value.bind fun right => ?_
            exact steady_invoke h.natives h.bodies left target.name [right]
        | compound op =>
            obtain rfl := hsame hkeeps
            exact yields_lowerOperatorAssignment_keeps h cls loops op opSpan htarget hkeeps hleft
              hright hnames
        | _ => exact absurd hkeeps (by simp [BinaryOp.keepsMeaning])
      · exact LowerM.yields_pure hplain

theorem yields_lowerStaticCall_keeps (h : Surroundings settings lib hidden runBody)
    (loops : Nat) (info : Info) (owner : TypeId) (name : String) {args args' : List Expr}
    (hargs : Agrees hidden (evalExprs lib loops runBody args)
      (evalExprs lib loops runBody args')) :
    (lowerStaticCall settings info owner name args').Yields
      (Expr.Keeps hidden lib loops runBody (.staticCall info owner name args)) := by
  unfold lowerStaticCall
  split
  · apply LowerM.yields_count_bind
    apply LowerM.yields_pure
    refine ⟨?_, agrees_fail _⟩
    simp only [Expr.eval, pure_bind, invokeCall, Bool.and_false, Bool.false_eq_true, if_false]
    exact hargs.bind fun args => steady_invoke h.natives h.bodies _ name args
  · apply LowerM.yields_pure
    refine ⟨?_, agrees_fail _⟩
    simp only [Expr.eval]
    exact hargs.bind fun args => steady_invoke h.natives h.bodies _ name args

theorem yields_lowerConstructorCall_keeps (h : Surroundings settings lib hidden runBody)
    (loops : Nat) (info : Info) (type : TypeId) {args args' : List Expr}
    (hargs : Agrees hidden (evalExprs lib loops runBody args)
      (evalExprs lib loops runBody args')) :
    (lowerConstructorCall settings info type args').Yields
      (Expr.Keeps hidden lib loops runBody (.constructorCall info type args)) := by
  have hplain : (Expr.constructorCall info type args).Keeps hidden lib loops runBody
      (.constructorCall info type args') := by
    refine ⟨?_, agrees_fail _⟩
    simp only [Expr.eval]
    exact hargs.bind fun args => steady_construct h.natives type args
  unfold lowerConstructorCall
  split
  · rw [h.noNamedConstructors]
    exact LowerM.yields_pure hplain
  · exact LowerM.yields_pure hplain

end Rules

end StaticDispatch
