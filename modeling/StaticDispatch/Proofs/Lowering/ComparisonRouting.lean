import StaticDispatch.Proofs.Eval.Methods
import StaticDispatch.Proofs.Lowering.Behaviour
import StaticDispatch.Proofs.Types.Reachable

/-!
# Comparisons through the adapter

A comparison that was resolved to `compareTo` takes the integer that the method
answers for the order of its operands, and `<=>` hands it on as it is.  The
adapter asks the method only where it has no order of its own: it knows the
order of two integers and of two texts, takes equality for what it is, and
answers an order with -1, 0 or 1.  A native `compareTo` can tell the two apart,
and when it does is known exactly.
-/

namespace StaticDispatch

open EvalM

/-! ## What the adapter goes by -/

/-- An integer, a text or an object. -/
def Value.isOrdered : Value → Bool
  | .int _ => true
  | .text _ => true
  | .object _ => true
  | _ => false

/-- The order that two integers and two texts have of themselves. -/
def Value.naturalOrder? : Value → Value → Option Ordering
  | .int a, .int b => some (Number.compareInts a b)
  | .text a, .text b => some (compareTexts a b)
  | _, _ => none

namespace Comparison

/-- The value of the comparison of operands in that order. -/
def answer (op : Comparison) (order : Ordering) : Value :=
  comparisonResult op (.int (Number.orderingToInt order))

/-- A value of the comparison with the sign in place of an integer. -/
def normalized (op : Comparison) (value : Value) : Value :=
  match op, value with
  | .threeWay, .int n => .int (Number.orderingToInt (Number.compareInts n 0))
  | _, value => value

def asksEquality : Comparison → Bool
  | .equal => true
  | .notEqual => true
  | _ => false

/-- The integer that a method answers for the operands agrees with what the adapter goes by:
with the order of two integers or two texts as far as the comparison can tell, and else with the
equality of the operands, if the comparison asks for that. -/
def Agrees (op : Comparison) (heap : Heap) (left right : Value) (n : Int64) : Prop :=
  match left.naturalOrder? right with
  | some order => op.answer (Number.compareInts n 0) = op.answer order
  | none => op.asksEquality = true → heap.equal? left right = some (n == 0)

theorem normalized_comparisonResult (op : Comparison) (n : Int64) :
    op.normalized (comparisonResult op (.int n)) = op.answer (Number.compareInts n 0) := by
  cases op <;>
    simp [normalized, comparisonResult, answer, compareInts_orderingToInt]

theorem normalized_answer (op : Comparison) (order : Ordering) :
    op.normalized (op.answer order) = op.answer order := by
  rw [answer, normalized_comparisonResult, compareInts_orderingToInt, answer]

end Comparison

theorem Value.compares_of_naturalOrder? {left right : Value} {order : Ordering}
    (h : left.naturalOrder? right = some order) : left.Compares right order := by
  unfold naturalOrder? at h
  split at h
  · obtain rfl := Option.some.inj h
    exact compares_ints _ _
  · obtain rfl := Option.some.inj h
    exact compares_texts _ _
  · cases h

/-! ## The routines -/

section Routines

variable {lib : Library} {runBody : Block → EvalM Flow}

/-- A routine that does not ask for equality goes by the order of its operands. -/
theorem comparison_of_order {op : Comparison} (hop : op.asksEquality = false)
    (left right : Value) :
    comparison lib runBody op left right = (do
      let order ← compareValues lib runBody left right
      return op.answer order) := by
  cases op with
  | equal => cases hop
  | notEqual => cases hop
  | threeWay => rfl
  | _ => simp only [comparison, Comparison.answer, comparisonResult, compareInts_orderingToInt]

/-- The other routines give the value of operands in an order that is equal or is not. -/
theorem comparison_of_equality {op : Comparison} (hop : op.asksEquality = true)
    (left right : Value) :
    comparison lib runBody op left right = (do
      let equal ← valuesEqual left right
      return op.answer (if equal then .eq else .lt)) := by
  cases op with
  | equal =>
      simp only [comparison]
      congr 1
      funext equal
      cases equal <;> rfl
  | notEqual =>
      simp only [comparison]
      congr 1
      funext equal
      cases equal <;> rfl
  | _ => cases hop

theorem run_valuesEqual (left right : Value) (state : State) :
    (valuesEqual left right).run state =
      match state.heap.equal? left right with
      | some equal => (.ok equal, state)
      | none => (.error .aborted, state) := by
  unfold valuesEqual
  rw [run_bind, run_getHeap]
  dsimp only
  cases state.heap.equal? left right <;> rfl

theorem answer_of_equality {op : Comparison} (hop : op.asksEquality = true) (equal : Bool)
    (order : Ordering) :
    op.answer (if equal then .eq else .lt) = op.answer order ↔ equal = (order == .eq) := by
  cases op with
  | equal => cases equal <;> cases order <;> decide
  | notEqual => cases equal <;> cases order <;> decide
  | _ => cases hop

/-- Without an order of their own, operands are compared by method. -/
theorem compareValues_of_naturalOrder? {left right : Value} (hleft : left.isOrdered = true)
    (hright : right.isOrdered = true) (h : left.naturalOrder? right = none) :
    compareValues lib runBody left right = compareByMethod lib runBody left right := by
  unfold compareValues
  -- The last row is the one by method; the rows before it are for other operands.
  split <;> simp_all [Value.isOrdered, Value.naturalOrder?]

end Routines

/-! ## Natives -/

/-- A native `compareTo` answers integers only. -/
def Library.OrdersByIntegers (lib : Library) : Prop :=
  ∀ native, lib.natives.get? "compareTo" = some native →
    ∀ receiver args heap value heap',
      native.call receiver args heap = (.ok value, heap') → ∃ n, value = .int n

section Natives

variable {lib : Library} {runBody : Block → EvalM Flow} {native : Native} {left right : Value}
  {state : State}

theorem invokeWith_native (routine : String → List Value → EvalM Value)
    (hnative : lib.natives.get? "compareTo" = some native) (hleft : left.isOrdered = true)
    (args : List Value) :
    invokeWith lib runBody routine left "compareTo" args = (do
      logCall "compareTo"
      callNative native left args) := by
  cases left with
  | int a => simp only [invokeWith, invokeWith.invokeValue, hnative]
  | text a => simp only [invokeWith, invokeWith.invokeValue, hnative]
  | object a => simp only [invokeWith, invokeWith.invokeValue, hnative]
  | _ => cases hleft

theorem run_logged_native (native : Native) (receiver : Value) (args : List Value)
    (state : State) :
    ((do
      logCall "compareTo"
      callNative native receiver args : EvalM Value).run state) =
      ((native.call receiver args state.heap).1.mapError fun message => .failed (.native message),
        { state with
          heap := (native.call receiver args state.heap).2
          log := state.log.push "compareTo" }) :=
  run_callNative native receiver args { state with log := state.log.push "compareTo" }

/-- The routine of a comparison gives what the integer of the native method stands for exactly
when that agrees with what the adapter goes by. -/
theorem run_comparison_native {n : Int64} {heap' : Heap} (op : Comparison)
    (hnative : lib.natives.get? "compareTo" = some native) (hleft : left.isOrdered = true)
    (hright : right.isOrdered = true)
    (hcall : native.call left [right] state.heap = (.ok (.int n), heap')) :
    ((comparison lib runBody op left right).run state).1 =
        .ok (op.answer (Number.compareInts n 0)) ↔
      op.Agrees state.heap left right n := by
  unfold Comparison.Agrees
  cases hnatural : left.naturalOrder? right with
  | some order =>
      rw [comparison_of_compares (Value.compares_of_naturalOrder? hnatural)]
      exact ⟨fun h => (Except.ok.inj h).symm, fun h => congrArg Except.ok h.symm⟩
  | none =>
      have horder : ((compareValues lib runBody left right).run state).1 =
          .ok (Number.compareInts n 0) := by
        rw [compareValues_of_naturalOrder? hleft hright hnatural, compareByMethod,
          invokeWith_native _ hnative hleft, run_bind, run_logged_native, hcall]
        rfl
      cases hop : op.asksEquality with
      | false =>
          rw [comparison_of_order hop, run_bind]
          rcases hrun : (compareValues lib runBody left right).run state with ⟨result, after⟩
          rw [hrun] at horder
          obtain rfl : result = .ok (Number.compareInts n 0) := horder
          exact ⟨fun _ => nofun, fun _ => rfl⟩
      | true =>
          rw [comparison_of_equality hop, run_bind, run_valuesEqual]
          cases state.heap.equal? left right with
          | none => exact ⟨nofun, fun h => nomatch h rfl⟩
          | some equal =>
              have hn := answer_of_equality hop equal (Number.compareInts n 0)
              rw [← compareInts_beq_eq] at hn
              constructor
              · intro h _
                exact congrArg some (hn.mp (Except.ok.inj h))
              · intro h
                exact congrArg Except.ok (hn.mpr (Option.some.inj (h rfl)))

end Natives

/-! ## The call of a routine for the comparison -/

section Routed

variable {lib : Library} {runBody : Block → EvalM Flow}

/-- Both operands are evaluated, the left one first, before anything is done with them. -/
theorem run_operands {loops : Nat} {left right : Expr} {state after : State} {l r : Value}
    {α : Type} (next : Value → Value → EvalM α)
    (h : (evalExprs lib loops runBody [left, right]).run state = (.ok [l, r], after)) :
    ((do
      let left ← left.eval lib loops runBody
      let right ← right.eval lib loops runBody
      next left right : EvalM α).run state) = (next l r).run after := by
  obtain ⟨a, between, hleft, hrest⟩ := exists_of_run_bind h
  obtain ⟨values, last, hvalues, hall⟩ := exists_of_run_bind hrest
  obtain ⟨b, end', hright, hlast⟩ := exists_of_run_bind hvalues
  obtain ⟨rfl, rfl⟩ : [b] = values ∧ end' = last :=
    ⟨Except.ok.inj (congrArg Prod.fst hlast), congrArg Prod.snd hlast⟩
  have hpair : [a, b] = [l, r] := Except.ok.inj (congrArg Prod.fst hall)
  obtain ⟨rfl, rfl⟩ : a = l ∧ b = r := by simpa using hpair
  obtain rfl : end' = after := congrArg Prod.snd hall
  rw [run_bind_of_ok hleft, run_bind_of_ok hright]

variable {types : TypeTable} {config : Config} {info : Info} {target : OperatorTarget}
  {left right : Expr} {state after : State} {l r : Value}

/-- The adapter of a table that is reachable runs its routine on the operands. -/
theorem eval_lowerBinary_routed (hreach : types.Reachable)
    (henabled : config.isEnabled .binaryOperators = true)
    (htarget : info.facts.operatorTarget = some target) (cls : TypeId) (session : Session)
    (op : Comparison) (opSpan : Span) (loops : Nat) :
    let settings : Settings := ⟨types, .ofTypes types, config⟩
    let lowered :=
      ((lowerBinary settings cls info (.comparison op) opSpan left right).run session).1
    lowered.eval lib loops runBody = (do
      let left ← left.eval lib loops runBody
      let right ← right.eval lib loops runBody
      invoke lib runBody (.classRef .bytecodeAdapter) op.adapterName [left, right]) := by
  intro settings lowered
  obtain ⟨routine, hroutine, howner, hname⟩ := hreach.exists_routine op
  have hlowered : lowered =
      adapterCall types info.span info.facts.inferredType routine left right := by
    simp only [lowered, lowerBinary, htarget, settings, henabled, if_true,
      lowerResolvedOperator, hroutine]
    rfl
  rw [hlowered]
  simp only [adapterCall, howner, hname, eval_plainCall, Expr.eval, evalExprs, bind_assoc,
    pure_bind, invokeCall, Bool.false_eq_true, if_false]

/-- The method `compareTo` that values have of themselves orders them as the routine does. -/
theorem run_comparison_of_builtin {value : Value} (op : Comparison)
    (hget : lib.natives.get? "compareTo" = none) (hl : l.isOrdered = true)
    (hvalue : ((do
      let result ← invoke lib runBody l "compareTo" [r]
      return comparisonResult op result : EvalM Value).run after).1 = .ok value)
    (state : State) :
    ((comparison lib runBody op l r).run state).1 = .ok (op.normalized value) := by
  have hnull : l ≠ .null := by rintro rfl; cases hl
  have hclass : ∀ type, l ≠ .classRef type := by rintro type rfl; cases hl
  rw [invoke_eq_builtin hnull hclass (by decide) hget] at hvalue
  rcases compares_of_builtin l r with ⟨halt, hhalt⟩ | ⟨order, horder⟩
  · rw [hhalt] at hvalue
    cases hvalue
  · rw [horder.method] at hvalue
    obtain rfl : op.answer order = value := Except.ok.inj hvalue
    rw [comparison_of_compares horder, op.normalized_answer]
    rfl

/-- A native `compareTo` answered the integer of the comparison, and the routine gives what that
stands for exactly when it agrees with what the adapter goes by. -/
theorem run_comparison_of_native {native : Native} {value : Value} (op : Comparison)
    (hints : lib.OrdersByIntegers) (hnative : lib.natives.get? "compareTo" = some native)
    (hl : l.isOrdered = true) (hr : r.isOrdered = true)
    (hvalue : ((do
      let result ← invoke lib runBody l "compareTo" [r]
      return comparisonResult op result : EvalM Value).run after).1 = .ok value)
    (log : Array String) :
    ((comparison lib runBody op l r).run { after with log }).1 = .ok (op.normalized value) ↔
      ∀ n heap, native.call l [r] after.heap = (.ok (.int n), heap) →
        op.Agrees after.heap l r n := by
  rw [invoke, invokeWith_native _ hnative hl, run_bind, run_logged_native] at hvalue
  rcases hcall : native.call l [r] after.heap with ⟨_ | answer, heap'⟩
  · rw [hcall] at hvalue
    cases hvalue
  · obtain ⟨n, rfl⟩ := hints native hnative l [r] after.heap answer heap' hcall
    rw [hcall] at hvalue
    obtain rfl : comparisonResult op (.int n) = value := Except.ok.inj hvalue
    have hagrees : ((comparison lib runBody op l r).run { after with log }).1 =
        .ok (op.normalized (comparisonResult op (.int n))) ↔ op.Agrees after.heap l r n := by
      rw [op.normalized_comparisonResult]
      exact run_comparison_native op hnative hl hr hcall
    rw [hagrees]
    constructor
    · intro h m heap hanswer
      obtain ⟨rfl, rfl⟩ : n = m ∧ heap' = heap := by simpa using hanswer
      exact h
    · intro h
      exact h n heap' rfl

/-- What the comparison gives by the method `compareTo`, and what the routine gives. -/
theorem run_comparison_of_method {value : Value} (op : Comparison)
    (hints : lib.OrdersByIntegers) (hl : l.isOrdered = true) (hr : r.isOrdered = true)
    (hvalue : ((do
      let result ← invoke lib runBody l "compareTo" [r]
      return comparisonResult op result : EvalM Value).run after).1 = .ok value) :
    ((invoke lib runBody (.classRef .bytecodeAdapter) op.adapterName [l, r]).run after).1 =
        .ok (op.normalized value) ↔
      ∀ native n heap, lib.natives.get? "compareTo" = some native →
        native.call l [r] after.heap = (.ok (.int n), heap) → op.Agrees after.heap l r n := by
  have hroutine : (invoke lib runBody (.classRef .bytecodeAdapter) op.adapterName [l, r]).run
      after = (comparison lib runBody op l r).run
        { after with log := after.log.push op.adapterName } := by
    rw [invoke_routine]
    rfl
  rw [hroutine]
  cases hget : lib.natives.get? "compareTo" with
  | none =>
      have hsame := run_comparison_of_builtin op hget hl hvalue
        { after with log := after.log.push op.adapterName }
      exact ⟨fun _ => nofun, fun _ => hsame⟩
  | some native =>
      rw [run_comparison_of_native op hints hget hl hr hvalue]
      constructor
      · intro h other n heap hother
        obtain rfl : native = other := Option.some.inj hother
        exact h n heap
      · intro h n heap
        exact h native n heap rfl

end Routed

/-- A comparison that was resolved to `compareTo` and the routine of the adapter in its place both
evaluate the operands, once and the left one first, and go on from there.  Where they are integers,
texts and objects, a native `compareTo` answers integers and the comparison has a value, the routine
gives that value, or its sign for `<=>`, exactly when what a native answers for the operands agrees
with what the adapter goes by: the natural order of two integers and of two texts, and the equality
of other operands for `==` and `!=`. -/
theorem evaluate_lowerBinary_comparison {types : TypeTable} (hreach : types.Reachable)
    {config : Config} (henabled : config.isEnabled .binaryOperators = true) (cls : TypeId)
    (session : Session) {info : Info} {target : OperatorTarget}
    (htarget : info.facts.operatorTarget = some target) (hmethod : target.name = "compareTo")
    (op : Comparison) (opSpan : Span) {left right : Expr} {lib : Library}
    (hints : lib.OrdersByIntegers) (budget : Nat) {state after : State} {l r value : Value}
    (hoperands : (evalExprs lib budget (runBody lib budget) [left, right]).run state =
      (.ok [l, r], after))
    (hl : l.isOrdered = true) (hr : r.isOrdered = true)
    (hvalue : ((evaluate lib budget (.binary info (.comparison op) opSpan left right)).run
      state).1 = .ok value) :
    let settings : Settings := ⟨types, .ofTypes types, config⟩
    let original := Expr.binary info (.comparison op) opSpan left right
    let lowered :=
      ((lowerBinary settings cls info (.comparison op) opSpan left right).run session).1
    (evaluate lib budget original).run state =
        (evalComparison lib (runBody lib budget) (some target) op l r).run after ∧
      (evaluate lib budget lowered).run state =
        (invoke lib (runBody lib budget) (.classRef .bytecodeAdapter) op.adapterName [l, r]).run
          after ∧
      (((evaluate lib budget lowered).run state).1 = .ok (op.normalized value) ↔
        ∀ native n heap, lib.natives.get? "compareTo" = some native →
          native.call l [r] after.heap = (.ok (.int n), heap) → op.Agrees after.heap l r n) := by
  intro settings original lowered
  have horiginal : (evaluate lib budget original).run state =
      (evalComparison lib (runBody lib budget) (some target) op l r).run after := by
    unfold evaluate
    simp only [original, Expr.eval, htarget]
    exact run_operands _ hoperands
  have hlowered : (evaluate lib budget lowered).run state =
      (invoke lib (runBody lib budget) (.classRef .bytecodeAdapter) op.adapterName [l, r]).run
        after := by
    unfold evaluate
    rw [eval_lowerBinary_routed hreach henabled htarget cls session op opSpan budget]
    exact run_operands (fun l r =>
      invoke lib (runBody lib budget) (.classRef .bytecodeAdapter) op.adapterName [l, r]) hoperands
  refine ⟨horiginal, hlowered, ?_⟩
  rw [hlowered]
  apply run_comparison_of_method op hints hl hr
  rw [horiginal, evalComparison, hmethod] at hvalue
  exact hvalue

/-! ### A native method and its integers -/

def resolvedCompareTo : Info :=
  { facts := { operatorTarget := some ⟨⟨0⟩, "compareTo"⟩ } }

def comparedVariables (op : Comparison) : Expr :=
  .binary resolvedCompareTo (.comparison op) {} (.var {} "a" none) (.var {} "b" none)

/-- The routine of the adapter in place of the comparison of the variables `a` and `b`. -/
def routedVariables (op : Comparison) : Expr :=
  ((lowerBinary ⟨.initial, .ofTypes .initial, {}⟩ .object resolvedCompareTo (.comparison op) {}
    (.var {} "a" none) (.var {} "b" none)).run {}).1

/-- A native `compareTo` answers `n` for any two values. -/
def nativeOrder (n : Int64) : Library :=
  ⟨.initial, ⟨[("compareTo", ⟨fun _ _ heap => (.ok (.int n), heap)⟩)]⟩⟩

/-- The variables hold two objects that differ in a field. -/
def objectsState : State where
  heap :=
    { objects := #[⟨.object, ⟨[("rank", .int 1)]⟩⟩, ⟨.object, ⟨[("rank", .int 2)]⟩⟩] }
  scopes := #[⟨[("a", .object 0), ("b", .object 1)]⟩]

/-- The variables hold 1 and 2. -/
def integersState : State where
  scopes := #[⟨[("a", .int 1), ("b", .int 2)]⟩]

/-- Two objects for which the method answers 5 are in an order that is written as 1. -/
theorem evaluate_lowerBinary_comparison_sign :
    ((evaluate (nativeOrder 5) 1 (comparedVariables .threeWay)).run objectsState).1 =
        .ok (.int 5) ∧
      ((evaluate (nativeOrder 5) 1 (routedVariables .threeWay)).run objectsState).1 =
        .ok (.int 1) := by
  have hvalue : ((evaluate (nativeOrder 5) 1 (comparedVariables .threeWay)).run
      objectsState).1 = .ok (.int 5) := by
    decide +kernel
  have hints : (nativeOrder 5).OrdersByIntegers := by
    intro native hget receiver args heap value heap' hcall
    obtain rfl := Option.some.inj hget
    obtain ⟨rfl, -⟩ : (.int 5 : Value) = value ∧ heap = heap' := by simpa using hcall
    exact ⟨5, rfl⟩
  have henabled : ({} : Config).isEnabled .binaryOperators = true := by decide
  have hoperands : (evalExprs (nativeOrder 5) 1 (runBody (nativeOrder 5) 1)
      [.var {} "a" none, .var {} "b" none]).run objectsState =
        (.ok [.object 0, .object 1], objectsState) :=
    rfl
  obtain ⟨-, -, hiff⟩ := evaluate_lowerBinary_comparison .start henabled .object {} rfl rfl
    .threeWay {} hints 1 hoperands rfl rfl hvalue
  refine ⟨hvalue, hiff.mpr ?_⟩
  intro native n heap hget hcall hasks
  cases hasks

/-- The integer of a native is lost behind its sign, gives way to the equality of the operands,
and to the natural order of integers. -/
theorem evaluate_lowerBinary_comparison_differs :
    let value (lib : Library) (state : State) (e : Expr) := ((evaluate lib 1 e).run state).1
    (value (nativeOrder 5) objectsState (comparedVariables .threeWay) = .ok (.int 5) ∧
        value (nativeOrder 5) objectsState (routedVariables .threeWay) = .ok (.int 1)) ∧
      (value (nativeOrder 0) objectsState (comparedVariables .equal) = .ok (.bool true) ∧
        value (nativeOrder 0) objectsState (routedVariables .equal) = .ok (.bool false)) ∧
      value (nativeOrder 1) integersState (comparedVariables .lessThan) = .ok (.bool false) ∧
        value (nativeOrder 1) integersState (routedVariables .lessThan) = .ok (.bool true) := by
  refine ⟨⟨?_, ?_⟩, ⟨?_, ?_⟩, ?_, ?_⟩
  all_goals decide +kernel

end StaticDispatch
