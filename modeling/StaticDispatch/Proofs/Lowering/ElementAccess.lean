import StaticDispatch.Proofs.Eval.Methods
import StaticDispatch.Proofs.Lowering.Behaviour

/-!
# Access to elements of arrays

A call of `getAt` or `putAt` on an array and the subscript that stands for it
evaluate the same operands in the same order, and then do the same to the heap:
the call only leaves its name in the log besides.  A subscript has no place for
the spread flag, so that this holds of the call without the flag, whatever the
flag of the call was.
-/

namespace StaticDispatch

open EvalM

variable {α β : Type}

/-! ## Steps on the heap alone -/

namespace EvalM

/-- The step sees the heap and nothing else of the state, and changes nothing else. -/
def OnHeap (x : EvalM α) : Prop :=
  ∃ step : Heap → Except Halt α × Heap,
    ∀ state, x.run state = ((step state.heap).1, { state with heap := (step state.heap).2 })

theorem onHeap_pure (a : α) : OnHeap (pure a : EvalM α) :=
  ⟨fun heap => (.ok a, heap), fun _ => rfl⟩

theorem onHeap_throw (halt : Halt) : OnHeap (throw halt : EvalM α) :=
  ⟨fun heap => (.error halt, heap), fun _ => rfl⟩

theorem onHeap_fail (error : EvalError) : OnHeap (fail error : EvalM α) :=
  onHeap_throw _

theorem onHeap_getHeap : OnHeap getHeap :=
  ⟨fun heap => (.ok heap, heap), fun _ => rfl⟩

theorem onHeap_modifyHeap (change : Heap → Heap) : OnHeap (modifyHeap change) :=
  ⟨fun heap => (.ok (), change heap), fun _ => rfl⟩

theorem OnHeap.bind {x : EvalM α} {next : α → EvalM β} (hx : OnHeap x)
    (hnext : ∀ a, OnHeap (next a)) : OnHeap (x >>= next) := by
  obtain ⟨step, hstep⟩ := hx
  choose following hfollowing using hnext
  let both (heap : Heap) : Except Halt β × Heap :=
    match step heap with
    | (.ok a, heap') => following a heap'
    | (.error halt, heap') => (.error halt, heap')
  refine ⟨both, fun state => ?_⟩
  rw [run_bind, hstep]
  simp only [both]
  rcases step state.heap with ⟨_ | a, heap'⟩
  · rfl
  · exact hfollowing a _

theorem onHeap_liftFailure (result : Except EvalError α) : OnHeap (liftFailure result) := by
  cases result with
  | ok value => exact onHeap_pure value
  | error error => exact onHeap_fail error

theorem onHeap_readElement_array (a : Address) (index : Value) :
    OnHeap (readElement (.array a) index) :=
  onHeap_getHeap.bind fun _ => onHeap_liftFailure _

theorem onHeap_writeElement_array (a : Address) (index value : Value) :
    OnHeap (writeElement (.array a) index value) := by
  refine onHeap_getHeap.bind fun heap => (onHeap_liftFailure _).bind ?_
  rintro ⟨i, position⟩
  dsimp only
  split
  · exact onHeap_modifyHeap _
  · exact onHeap_fail _

/-- With an entry in the log before it, a step on the heap ends the same. -/
theorem OnHeap.run_logged {operands : EvalM α} {access : α → EvalM β} {state after : State}
    {values : α} (haccess : OnHeap (access values)) (name : String)
    (hoperands : operands.run state = (.ok values, after)) :
    ∃ result heap,
      (do
        let values ← operands
        logCall name
        access values).run state = (result, { after with heap, log := after.log.push name }) ∧
      (operands >>= access).run state = (result, { after with heap }) := by
  obtain ⟨step, hstep⟩ := haccess
  refine ⟨(step after.heap).1, (step after.heap).2, ?_, ?_⟩
  · rw [run_bind_of_ok hoperands]
    exact hstep { after with log := after.log.push name }
  · rw [run_bind_of_ok hoperands]
    exact hstep after

end EvalM

/-! ## Both forms over the same operands -/

/-- What access to an element does with its operands: the receiver, the index and, if the
element is written, its new value. -/
def accessElement : List Value → EvalM Value
  | [receiver, index] => readElement receiver index
  | [receiver, index, value] => do
    writeElement receiver index value
    return value
  | _ => return .null

theorem onHeap_accessElement_array (a : Address) (args : List Value) :
    OnHeap (accessElement (.array a :: args)) := by
  match args with
  | [] => exact onHeap_pure _
  | [index] => exact onHeap_readElement_array a index
  | [index, value] => exact (onHeap_writeElement_array a index value).bind fun _ => onHeap_pure _
  | _ :: _ :: _ :: _ => exact onHeap_pure _

section Forms

variable {settings : Settings} {cls : TypeId} {receiver : Expr} {name : String}
  {args : List Expr} {access : ArrayAccess} (lib : Library) (loops : Nat)
  (runBody : Block → EvalM Flow)

/-- The subscript that the array rule makes evaluates its operands and accesses the element. -/
theorem eval_lowerPlainCall_accessed (henabled : settings.config.isEnabled .arrayIndex = true)
    (haccess : arrayAccess? settings.types cls receiver name args = some access)
    (info : Info) (spread : Bool) (session : Session) :
    (((lowerPlainCall settings cls info receiver name args spread).run session).1).eval lib loops
        runBody =
      evalExprs lib loops runBody (receiver :: args) >>= accessElement := by
  have hlowered : lowerPlainCall settings cls info receiver name args spread =
      lowerArrayAccess settings cls info receiver name args spread := by
    unfold lowerPlainCall
    rw [if_pos henabled]
  rw [hlowered]
  unfold lowerArrayAccess
  rw [haccess]
  cases access with
  | read component index =>
      obtain ⟨-, rfl⟩ := arrayAccess?_eq_read cls haccess
      change (elementAt info receiver component index).eval lib loops runBody = _
      simp only [elementAt, Expr.eval, evalExprs, bind_assoc, pure_bind, accessElement, readPlace]
  | write component index value =>
      obtain ⟨-, rfl⟩ := arrayAccess?_eq_write cls haccess
      change (Expr.binary info.span.info .assign value.span
        (elementAt info receiver component index) value).eval lib loops runBody = _
      simp only [elementAt, Expr.eval, Expr.evalPlace, evalExprs, bind_assoc, pure_bind,
        accessElement, writePlace]

/-- A call on an array evaluates the same operands, and puts its name in the log before it
accesses the element. -/
theorem run_elementCall
    (haccess : arrayAccess? settings.types cls receiver name args = some access)
    (hget : lib.natives.get? "getAt" = none) (hput : lib.natives.get? "putAt" = none)
    (info : Info) (safe : Bool) {state after : State} {a : Address}
    (hreceiver : (receiver.eval lib loops runBody).run state = (.ok (.array a), after)) :
    let logged : EvalM Value := do
      let values ← evalExprs lib loops runBody (receiver :: args)
      logCall name
      accessElement values
    ((Expr.methodCall info receiver name args safe false).eval lib loops runBody).run state =
      logged.run state := by
  intro logged
  simp only [logged]
  simp only [Expr.eval, evalExprs, bind_assoc, pure_bind]
  rw [run_bind_of_ok hreceiver, run_bind_of_ok hreceiver]
  simp only [Value.isNull, Bool.false_and, Bool.false_eq_true, if_false, invokeCall]
  cases access with
  | read component index =>
      obtain ⟨rfl, rfl⟩ := arrayAccess?_eq_read cls haccess
      simp only [evalExprs, bind_assoc, pure_bind, invoke_getAt hget, accessElement]
  | write component index value =>
      obtain ⟨rfl, rfl⟩ := arrayAccess?_eq_write cls haccess
      simp only [evalExprs, bind_assoc, pure_bind, invoke_putAt hput, accessElement]

/-- A receiver that was evaluated to an array is the first of the operands. -/
theorem exists_values_of_run {state after between : State} {a : Address} {values : List Value}
    (hreceiver : (receiver.eval lib loops runBody).run state = (.ok (.array a), between))
    (hoperands : (evalExprs lib loops runBody (receiver :: args)).run state =
      (.ok values, after)) :
    ∃ rest, values = .array a :: rest := by
  rw [evalExprs, run_bind_of_ok hreceiver] at hoperands
  obtain ⟨rest, _, _, hpure⟩ := exists_of_run_bind hoperands
  exact ⟨rest, (Except.ok.inj (congrArg Prod.fst hpure)).symm⟩

end Forms

/-! ## The subscript for the call -/

/-- Where a receiver is an array, and no native replaces the two methods, the subscript that the
array rule makes behaves like the call that it accepted, as that is without its spread flag.  Both
evaluate the receiver and then the arguments, once and in this order.  If that halts, both halt
with it; and from there they give the same value, or fail in the same way, and leave the same heap
and the same variables.  The call puts its name in the log. -/
theorem evaluate_lowerPlainCall_element (settings : Settings) (cls : TypeId) (session : Session)
    (info : Info) {receiver : Expr} {name : String} {args : List Expr} {access : ArrayAccess}
    (safe spread : Bool) (henabled : settings.config.isEnabled .arrayIndex = true)
    (haccess : arrayAccess? settings.types cls receiver name args = some access)
    {lib : Library} (hget : lib.natives.get? "getAt" = none)
    (hput : lib.natives.get? "putAt" = none) (budget : Nat) {state between : State}
    {a : Address}
    (hreceiver : (evaluate lib budget receiver).run state = (.ok (.array a), between)) :
    let call := Expr.methodCall info receiver name args safe false
    let lowered := ((lowerPlainCall settings cls info receiver name args spread).run session).1
    let operands := evalExprs lib budget (runBody lib budget) (receiver :: args)
    (∀ halt after, operands.run state = (.error halt, after) →
      (evaluate lib budget call).run state = (.error halt, after) ∧
        (evaluate lib budget lowered).run state = (.error halt, after)) ∧
    ∀ values after, operands.run state = (.ok values, after) →
      ∃ result heap,
        (evaluate lib budget call).run state =
            (result, { after with heap, log := after.log.push name }) ∧
          (evaluate lib budget lowered).run state = (result, { after with heap }) := by
  intro call lowered operands
  have hcall :=
    run_elementCall lib budget (runBody lib budget) haccess hget hput info safe hreceiver
  have hlowered : evaluate lib budget lowered = operands >>= accessElement :=
    eval_lowerPlainCall_accessed lib budget (runBody lib budget) henabled haccess info spread
      session
  constructor
  · intro halt after hhalt
    constructor
    · refine hcall.trans ?_
      rw [run_bind, hhalt]
    · rw [hlowered, run_bind, hhalt]
  · intro values after hvalues
    obtain ⟨rest, rfl⟩ := exists_values_of_run lib budget (runBody lib budget) hreceiver hvalues
    obtain ⟨result, heap, hlogged, hplain⟩ :=
      (onHeap_accessElement_array a rest).run_logged name hvalues
    exact ⟨result, heap, hcall.trans hlogged, by rw [hlowered]; exact hplain⟩

/-! ### An array of integers, and one of two such arrays -/

/-- The table of programs that have arrays of integers and arrays of those. -/
def nestedArrayTable : TypeTable :=
  arrayTable.declare (.arrayType ⟨27⟩)

def nestedArraySettings : Settings :=
  ⟨nestedArrayTable, .ofTypes nestedArrayTable, {}⟩

def nestedArrayLibrary : Library :=
  ⟨nestedArrayTable, {}⟩

/-- The variable `row` holds the array `[1, 2]`, and `rows` holds `[[1, 2], [3]]`. -/
def nestedArrayState : State where
  heap := { sequences := #[#[.int 1, .int 2], #[.int 3], #[.array 0, .array 1]] }
  scopes := #[⟨[("row", .array 0), ("rows", .array 2)]⟩]

/-- `row?.putAt(-1, 9)` and `row[-1] = 9` -/
theorem evaluate_lowerPlainCall_element_putLast :
    let row := Expr.var {} "row" (some ⟨27⟩)
    let args : List Expr := [.literal {} (.integer (-1)), .literal {} (.integer 9)]
    let lowered :=
      ((lowerPlainCall nestedArraySettings .object {} row "putAt" args false).run {}).1
    (evaluate nestedArrayLibrary 1 row).run nestedArrayState =
        (.ok (.array 0), nestedArrayState) ∧
      ∃ heap, heap.items 0 = #[.int 1, .int 9] ∧
        (evaluate nestedArrayLibrary 1 (.methodCall {} row "putAt" args true false)).run
            nestedArrayState =
          (.ok (.int 9), { nestedArrayState with heap, log := #["putAt"] }) ∧
        (evaluate nestedArrayLibrary 1 lowered).run nestedArrayState =
          (.ok (.int 9), { nestedArrayState with heap }) := by
  intro row args lowered
  have hrow : (evaluate nestedArrayLibrary 1 row).run nestedArrayState =
      (.ok (.array 0), nestedArrayState) := rfl
  have haccepts : (arrayAccess? nestedArrayTable .object row "putAt" args).isSome = true := by
    decide +kernel
  obtain ⟨access, haccess⟩ := Option.isSome_iff_exists.mp haccepts
  obtain ⟨-, hends⟩ := evaluate_lowerPlainCall_element nestedArraySettings .object {} {} true
    false (by decide) haccess rfl rfl 1 hrow
  obtain ⟨result, heap, hcall, hlowered⟩ :=
    hends [.array 0, .int (-1), .int 9] nestedArrayState rfl
  have hresult : ((evaluate nestedArrayLibrary 1 lowered).run nestedArrayState).1 =
      .ok (.int 9) := by
    decide +kernel
  have hitems : ((evaluate nestedArrayLibrary 1 lowered).run nestedArrayState).2.heap.items 0 =
      #[.int 1, .int 9] := by
    decide +kernel
  rw [hlowered] at hresult hitems
  obtain rfl : result = .ok (.int 9) := hresult
  exact ⟨hrow, heap, hitems, hcall, hlowered⟩

/-- `rows*.getAt(0)` lists the first element of each row, and the subscript in its place is the
first row. -/
theorem evaluate_lowerPlainCall_spreads :
    let rows := Expr.var {} "rows" (some ⟨28⟩)
    let args : List Expr := [.literal {} (.integer 0)]
    let spread := (evaluate nestedArrayLibrary 1
      (.methodCall {} rows "getAt" args false true)).run nestedArrayState
    let lowered := ((lowerPlainCall nestedArraySettings .object {} rows "getAt" args true).run {}).1
    spread.1 = .ok (.list 3) ∧ spread.2.heap.items 3 = #[.int 1, .int 3] ∧
      ((evaluate nestedArrayLibrary 1 lowered).run nestedArrayState).1 = .ok (.array 0) := by
  decide +kernel

end StaticDispatch
