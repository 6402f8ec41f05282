import StaticDispatch.Proofs.Eval.Comparison
import StaticDispatch.Proofs.Eval.Following

/-!
# Methods of common values

A method called on the same values gives the same value behind another
evaluation, where only one pure native is there beside the built-in methods.
An element is read and written by method as it is by index, and the routine of
a comparison follows the `compareTo` that the comparison was resolved to.
-/

namespace StaticDispatch

open EvalM

/-! ## Natives -/

/-- The answer depends on receiver and arguments alone.  It is an argument, or refers to no
map, object or closure. -/
def Native.IsPure (native : Native) : Prop :=
  ∃ answer : Value → List Value → Except String Value,
    (∀ receiver args heap, native.call receiver args heap = (answer receiver args, heap)) ∧
    ∀ receiver args value, answer receiver args = .ok value →
      value ∈ args ∨ ∀ heap : Heap, value.KnownIn heap

theorem callNative_eq {native : Native} {answer : Value → List Value → Except String Value}
    (hcall : ∀ receiver args heap, native.call receiver args heap = (answer receiver args, heap))
    (receiver : Value) (args : List Value) :
    callNative native receiver args =
      match answer receiver args with
      | .ok value => pure value
      | .error message => fail (.native message) := by
  apply ext_run
  intro state
  unfold callNative
  rw [run_bind, run_getHeap]
  simp only [hcall]
  rfl

/-- There is no native but a pure `MathUtil.max`. -/
def Library.OnlyMaximum (lib : Library) : Prop :=
  ∀ key native, lib.natives.get? key = some native → key = "MathUtil.max" ∧ native.IsPure

namespace Library.OnlyMaximum

variable {lib : Library}

theorem get?_eq_none (h : lib.OnlyMaximum) {key : String} (hkey : key ≠ "MathUtil.max") :
    lib.natives.get? key = none := by
  cases hget : lib.natives.get? key with
  | none => rfl
  | some native => exact absurd (h key native hget).1 hkey

theorem get?_method (h : lib.OnlyMaximum) (type : TypeId) {name : String}
    (hname : ¬ name.toList <:+ "MathUtil.max".toList) :
    lib.natives.get? (lib.types.name type ++ "." ++ name) = none := by
  apply h.get?_eq_none
  intro heq
  apply hname
  rw [← heq, String.toList_append]
  exact List.suffix_append _ _

theorem get?_constructor (h : lib.OnlyMaximum) (type : TypeId) :
    lib.natives.get? ("new " ++ lib.types.name type) = none := by
  apply h.get?_eq_none
  intro heq
  have hprefix : "new ".toList <+: "MathUtil.max".toList := by
    rw [← heq, String.toList_append]
    exact List.prefix_append _ _
  exact absurd hprefix (by decide)

end Library.OnlyMaximum

/-! ## How methods are found -/

section Found

variable {lib : Library} {runBody : Block → EvalM Flow}

/-- A method of a value that is neither null nor a class is a built-in one. -/
theorem invoke_eq_builtin {receiver : Value} {name : String}
    (hnull : receiver ≠ .null) (hclass : ∀ type, receiver ≠ .classRef type)
    (hcall : name ≠ "call") (hnatives : lib.natives.get? name = none) (args : List Value) :
    invoke lib runBody receiver name args = (do
      logCall name
      builtin receiver name args) := by
  unfold invoke invokeWith
  congr 1
  funext _
  cases receiver with
  | null => exact absurd rfl hnull
  | classRef type => exact absurd rfl (hclass type)
  | closure a => simp [invokeWith.invokeValue, hcall, hnatives]
  | _ => simp [invokeWith.invokeValue, hnatives]

theorem invoke_classRef {type : TypeId} {name : String}
    (hnatives : lib.natives.get? (lib.types.name type ++ "." ++ name) = none)
    (hadapter : type ≠ .bytecodeAdapter) (args : List Value) :
    invoke lib runBody (.classRef type) name args = (do
      logCall name
      fail (.unknownStatic (lib.types.name type ++ "." ++ name))) := by
  simp only [invoke, invokeWith, hadapter, if_false, hnatives]

theorem invoke_adapter (name : String) (args : List Value) :
    invoke lib runBody (.classRef .bytecodeAdapter) name args = (do
      logCall name
      adapterRoutine lib runBody name args) := by
  simp only [invoke, invokeWith, if_true]

theorem adapterRoutine_eq_fail {args : List Value} (hargs : args.length ≠ 2) (name : String) :
    adapterRoutine lib runBody name args = fail (.notTwoOperands name) := by
  unfold adapterRoutine
  split
  · exact absurd rfl hargs
  · rfl

/-- A call of a method that is not the native maximum fails, or is one of a built-in method,
whatever runs the bodies of closures. -/
theorem invoke_cases (h : lib.OnlyMaximum) (receiver : Value) {name : String}
    (hname : ¬ name.toList <:+ "MathUtil.max".toList) (hcall : name ≠ "call")
    {args : List Value} (hargs : args.length ≠ 2) :
    (∃ error, ∀ runBody, invoke lib runBody receiver name args = (do
      logCall name
      fail error)) ∨
    ∀ runBody, invoke lib runBody receiver name args = (do
      logCall name
      builtin receiver name args) := by
  by_cases hnull : receiver = .null
  · subst hnull
    exact .inl ⟨_, fun _ => rfl⟩
  · by_cases hclass : ∃ type, receiver = .classRef type
    · obtain ⟨type, rfl⟩ := hclass
      by_cases hadapter : type = .bytecodeAdapter
      · subst hadapter
        refine .inl ⟨.notTwoOperands name, fun runBody => ?_⟩
        rw [invoke_adapter, adapterRoutine_eq_fail hargs]
      · exact .inl ⟨_, fun _ => invoke_classRef (h.get?_method type hname) hadapter args⟩
    · have hvalue : ∀ type, receiver ≠ .classRef type := fun type heq => hclass ⟨type, heq⟩
      have hnone : lib.natives.get? name = none := by
        apply h.get?_eq_none
        rintro rfl
        exact hname (List.suffix_refl _)
      exact .inr fun _ => invoke_eq_builtin hnull hvalue hcall hnone args

theorem invoke_routine (op : Comparison) (left right : Value) :
    invoke lib runBody (.classRef .bytecodeAdapter) op.adapterName [left, right] = (do
      logCall op.adapterName
      comparison lib runBody op left right) := by
  rw [invoke_adapter]
  cases op <;> rfl

end Found

/-! ## Following -/

section Rules

variable {config : Config} {start : State} {bound : Nat} {lib : Library}
  {runBody runBody' : Block → EvalM Flow}

theorem follows_liftHalt {result : Except Halt Value}
    (hresult : ∀ value, result = .ok value → value.KnownIn start.heap) :
    Follows config start bound (Value.KnownIn start.heap) (liftHalt result) (liftHalt result) := by
  cases result with
  | error halt => exact follows_throw _ _
  | ok value => exact follows_pure (hresult value rfl)

theorem follows_liftFailure {result : Except EvalError Value}
    (hresult : ∀ value, result = .ok value → value.KnownIn start.heap) :
    Follows config start bound (Value.KnownIn start.heap) (liftFailure result)
      (liftFailure result) := by
  cases result with
  | error error => exact follows_fail _ _
  | ok value => exact follows_pure (hresult value rfl)

theorem follows_isTruthy {value : Value} (hvalue : value.KnownIn start.heap) :
    Follows config start bound (fun _ => True) (isTruthy value) (isTruthy value) := by
  apply follows_getHeap_bind
  intro left right hshares
  have hsame : right.isTruthy value = left.isTruthy value := by
    cases value with
    | list a => simp only [Heap.isTruthy, hshares.items_eq]
    | array a => simp only [Heap.isTruthy, hshares.items_eq]
    | map a =>
        simp only [Heap.isTruthy, hshares.left_entries hvalue, hshares.right_entries hvalue]
    | _ => rfl
  rw [hsame]
  exact follows_pure trivial

/-- A call that fails behind its entry in the log asks nothing of the other side. -/
theorem follows_logged_fail (name : String) (error : EvalError) (y : EvalM Value) :
    Follows config start bound (Value.KnownIn start.heap)
      (logCall name >>= fun _ => fail error) y :=
  (follows_fail error y).logLeft name

/-- A method that is not the native maximum is followed where it is built in. -/
theorem follows_invoke (hlib : lib.OnlyMaximum) {receiver : Value} {name : String}
    (hname : ¬ name.toList <:+ "MathUtil.max".toList) (hcall : name ≠ "call")
    {args : List Value} (hargs : args.length ≠ 2)
    (hbuiltin : Follows config start bound (Value.KnownIn start.heap)
      (builtin receiver name args) (builtin receiver name args)) :
    Follows config start bound (Value.KnownIn start.heap) (invoke lib runBody receiver name args)
      (invoke lib runBody' receiver name args) := by
  rcases invoke_cases hlib receiver hname hcall hargs with ⟨error, herror⟩ | hfound
  · rw [herror]
    exact follows_logged_fail _ _ _
  · rw [hfound, hfound]
    exact hbuiltin.logBoth name

theorem known_numberMethod_plus {left right value : Value} (heap : Heap)
    (h : Number.numberMethod "plus" left right = .ok value) : value.KnownIn heap := by
  have hdecimal : ∀ x y : Except Halt Decimal, (do
      let a ← x
      let b ← y
      Number.decimalMethod "plus" a b) = .ok value → value.KnownIn heap := by
    intro x y hxy
    cases x with
    | error halt => exact nomatch hxy
    | ok a =>
        cases y with
        | error halt => exact nomatch hxy
        | ok b =>
            obtain rfl := Except.ok.inj hxy
            trivial
  unfold Number.numberMethod at h
  split at h
  · obtain rfl := Except.ok.inj h
    trivial
  · exact hdecimal _ _ h

theorem follows_builtin_plus {left right : Value} (hleft : left.KnownIn start.heap)
    (hright : right.KnownIn start.heap) :
    Follows config start bound (Value.KnownIn start.heap) (builtin left "plus" [right])
      (builtin left "plus" [right]) := by
  cases left with
  | int n => exact follows_liftHalt fun value h => known_numberMethod_plus start.heap h
  | decimal d => exact follows_liftHalt fun value h => known_numberMethod_plus start.heap h
  | text text =>
      exact (follows_textOf hright).bind fun other _ => follows_pure trivial
  | list a =>
      apply follows_newList fun heap => (heap.items a).toList ++ [right]
      intro left' right' hshares
      refine ⟨by rw [hshares.items_eq], ?_⟩
      intro value hvalue
      rcases List.mem_append.mp hvalue with hold | hnew
      · exact hshares.items a value hold
      · rw [List.mem_singleton] at hnew
        exact hnew ▸ hright
  | _ => exact follows_fail _ _

theorem follows_invoke_plus (hlib : lib.OnlyMaximum) {left right : Value}
    (hleft : left.KnownIn start.heap) (hright : right.KnownIn start.heap) :
    Follows config start bound (Value.KnownIn start.heap) (invoke lib runBody left "plus" [right])
      (invoke lib runBody' left "plus" [right]) := by
  have hmax : ¬ "plus".toList <:+ "MathUtil.max".toList := by decide
  exact follows_invoke hlib hmax (by decide) (by simp) (follows_builtin_plus hleft hright)

/-- A comparison that was resolved to `compareTo`, and the routine of the adapter. -/
theorem follows_routine (hlib : lib.OnlyMaximum) (op : Comparison) (left right : Value) :
    Follows config start bound (Value.KnownIn start.heap)
      (do
        let result ← invoke lib runBody left "compareTo" [right]
        return comparisonResult op result)
      (invoke lib runBody' (.classRef .bytecodeAdapter) op.adapterName [left, right]) := by
  have hmax : ¬ "compareTo".toList <:+ "MathUtil.max".toList := by decide
  have hone : [right].length ≠ 2 := by simp
  rcases invoke_cases hlib left hmax (by decide) hone with ⟨error, herror⟩ | hbuiltin
  · rw [herror, bind_assoc]
    exact follows_logged_fail _ _ _
  · rw [hbuiltin, invoke_routine, bind_assoc]
    apply Follows.logLeft
    apply Follows.logRight
    rcases compares_of_builtin left right with ⟨halt, hhalt⟩ | ⟨order, horder⟩
    · rw [hhalt]
      exact follows_throw halt _
    · rw [horder.method, pure_bind, comparison_of_compares horder]
      apply follows_pure
      cases op <;> trivial

theorem follows_builtin_size {value : Value} (hvalue : value.KnownIn start.heap) :
    Follows config start bound (Value.KnownIn start.heap) (builtin value "size" [])
      (builtin value "size" []) := by
  have hsequence : ∀ a : Address,
      Follows config start bound (Value.KnownIn start.heap)
        (do return .int (Int64.ofNat ((← getHeap).items a).size))
        (do return .int (Int64.ofNat ((← getHeap).items a).size)) := by
    intro a
    apply follows_getHeap_bind
    intro left right hshares
    rw [hshares.items_eq]
    exact follows_pure trivial
  cases value with
  | text text => exact follows_pure trivial
  | list a => exact hsequence a
  | array a => exact hsequence a
  | map a =>
      apply follows_getHeap_bind
      intro left right hshares
      rw [hshares.left_entries hvalue, hshares.right_entries hvalue]
      exact follows_pure trivial
  | _ => exact follows_fail _ _

theorem follows_invoke_size (hlib : lib.OnlyMaximum) {value : Value}
    (hvalue : value.KnownIn start.heap) :
    Follows config start bound (Value.KnownIn start.heap) (invoke lib runBody value "size" [])
      (invoke lib runBody' value "size" []) := by
  have hmax : ¬ "size".toList <:+ "MathUtil.max".toList := by decide
  exact follows_invoke hlib hmax (by decide) (by simp) (follows_builtin_size hvalue)

/-! ## Elements of arrays -/

theorem invoke_getAt (hnone : lib.natives.get? "getAt" = none) (a : Address) (index : Value) :
    invoke lib runBody (.array a) "getAt" [index] = (do
      logCall "getAt"
      readElement (.array a) index) := by
  rw [invoke_eq_builtin (nofun : Value.array a ≠ .null) nofun (by decide) hnone]
  rfl

theorem invoke_putAt (hnone : lib.natives.get? "putAt" = none) (a : Address)
    (index value : Value) :
    invoke lib runBody (.array a) "putAt" [index, value] = (do
      logCall "putAt"
      writeElement (.array a) index value
      return value) := by
  rw [invoke_eq_builtin (nofun : Value.array a ≠ .null) nofun (by decide) hnone]
  rfl

theorem follows_readElement (a : Address) (index : Value) :
    Follows config start bound (Value.KnownIn start.heap) (readElement (.array a) index)
      (readElement (.array a) index) := by
  apply follows_getHeap_bind
  intro left right hshares
  simp only [hshares.items_eq]
  apply follows_liftFailure
  intro value hvalue
  unfold readSequence at hvalue
  split at hvalue
  · rename_i i position hposition
    obtain rfl := Except.ok.inj hvalue
    cases hitem : (left.items a)[position]? with
    | none => trivial
    | some item =>
        exact hshares.items a item (Array.mem_toList_iff.mpr (Array.mem_of_getElem? hitem))
  · exact nomatch hvalue

theorem follows_writeElement (a : Address) (index : Value) {value : Value}
    (hvalue : value.KnownIn start.heap) :
    Follows config start bound (fun _ => True) (writeElement (.array a) index value)
      (writeElement (.array a) index value) := by
  apply follows_getHeap_bind
  intro left right hshares
  simp only [hshares.items_eq]
  cases hindex : elementIndex index (left.items a).size with
  | error error => exact follows_fail _ _
  | ok position =>
      obtain ⟨i, position⟩ := position
      simp only [liftFailure, pure_bind]
      split
      · apply follows_modifyItems
        intro items hitems item hitem
        rw [Array.toList_setIfInBounds] at hitem
        rcases List.mem_or_eq_of_mem_set hitem with hold | rfl
        · exact hitems item hold
        · exact hvalue
      · exact follows_fail _ _

/-! ## The native maximum -/

theorem follows_invoke_max (hlib : lib.OnlyMaximum) (type : TypeId) {args : List Value}
    (hargs : ∀ arg ∈ args, arg.KnownIn start.heap) :
    Follows config start bound (Value.KnownIn start.heap)
      (invoke lib runBody (.classRef type) "max" args)
      (invoke lib runBody' (.classRef type) "max" args) := by
  by_cases hadapter : type = .bytecodeAdapter
  · subst hadapter
    rw [invoke_adapter]
    have hfail : ∃ error, adapterRoutine lib runBody "max" args = fail error := by
      unfold adapterRoutine
      split
      · exact ⟨.unknownRoutine "max", rfl⟩
      · exact ⟨_, rfl⟩
    obtain ⟨error, herror⟩ := hfail
    rw [herror]
    exact follows_logged_fail _ _ _
  · simp only [invoke, invokeWith, hadapter, if_false]
    apply Follows.logBoth
    cases hnative : lib.natives.get? (lib.types.name type ++ "." ++ "max") with
    | none => exact follows_fail _ _
    | some native =>
        obtain ⟨-, answer, hcall, hanswer⟩ := hlib _ _ hnative
        simp only [callNative_eq hcall]
        cases hresult : answer (.classRef type) args with
        | error message => exact follows_fail _ _
        | ok value =>
            apply follows_pure
            rcases hanswer _ _ _ hresult with harg | hvalue
            · exact hargs value harg
            · exact hvalue start.heap

end Rules

end StaticDispatch
