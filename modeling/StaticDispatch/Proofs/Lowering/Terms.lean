import StaticDispatch.Proofs.Lowering.Behaviour
import StaticDispatch.Proofs.Lowering.Initializer

/-!
# Terms and what becomes of them

Terms are the expressions that the complete pass is followed on: arithmetic,
comparisons, elements of arrays, sizes, a native call, fields of fresh objects
and assignments anywhere among them.  What each node becomes follows it when
what its children become does.
-/

namespace StaticDispatch

open EvalM

/-! ## Expressions -/

/-- The variable holds an integer or null. -/
def State.HasInteger (state : State) (name : String) : Prop :=
  ∃ value, state.lookup? name = some value ∧ (value = .null ∨ ∃ n, value = .int n)

/-- The variable holds a string or null. -/
def State.HasText (state : State) (name : String) : Prop :=
  ∃ value, state.lookup? name = some value ∧ (value = .null ∨ ∃ text, value = .text text)

def State.HasArray (state : State) (name : String) : Prop :=
  ∃ a, state.lookup? name = some (.array a)

/-- The operator was resolved to a method of that name. -/
def Info.ResolvesTo (info : Info) (name : String) : Prop :=
  ∃ target, info.facts.operatorTarget = some target ∧ target.name = name

/-- Arithmetic with variables of a state, elements of arrays, comparisons, calls of the native
maximum, fields of fresh objects and assignments. -/
inductive Expr.IsTerm (config : Config) (types : TypeTable) (state : State) : Expr → Prop
  | integer (info : Info) (n : Int64) : IsTerm config types state (.literal info (.integer n))
  | var (info : Info) {name : String} (type : Option TypeId) (hname : state.HasInteger name)
      (hplain : ¬ config.Introduces name) : IsTerm config types state (.var info name type)
  | size (info vinfo : Info) {name : String} (type : Option TypeId) (hname : state.HasText name)
      (hplain : ¬ config.Introduces name) :
      IsTerm config types state (.methodCall info (.var vinfo name type) "size" [] true false)
  | getAt (info vinfo : Info) {name : String} (type : Option TypeId) {index : Expr}
      (hname : state.HasArray name) (hplain : ¬ config.Introduces name)
      (hindex : IsTerm config types state index) :
      IsTerm config types state
        (.methodCall info (.var vinfo name type) "getAt" [index] false false)
  | putAt (info vinfo : Info) {name : String} (type : Option TypeId) {index value : Expr}
      (hname : state.HasArray name) (hplain : ¬ config.Introduces name)
      (hindex : IsTerm config types state index) (hvalue : IsTerm config types state value) :
      IsTerm config types state
        (.methodCall info (.var vinfo name type) "putAt" [index, value] false false)
  | plus {info : Info} (hinfo : info.ResolvesTo "plus") (opSpan : Span) {left right : Expr}
      (hleft : IsTerm config types state left) (hright : IsTerm config types state right) :
      IsTerm config types state (.binary info (.arithmetic .plus) opSpan left right)
  | compare {info : Info} (hinfo : info.ResolvesTo "compareTo") (opSpan : Span)
      {left right : Expr} (hleft : IsTerm config types state left)
      (hright : IsTerm config types state right) :
      IsTerm config types state (.binary info (.comparison .threeWay) opSpan left right)
  | choose (info : Info) {cinfo : Info} (hinfo : cinfo.ResolvesTo "compareTo") (opSpan : Span)
      {op : Comparison} (hop : op ≠ .threeWay) {left right yes no : Expr}
      (hleft : IsTerm config types state left) (hright : IsTerm config types state right)
      (hyes : IsTerm config types state yes) (hno : IsTerm config types state no) :
      IsTerm config types state
        (.ternary info (.binary cinfo (.comparison op) opSpan left right) yes no)
  | maximum {info : Info} (hinfo : info.facts.callTarget.isSome = true) {owner : TypeId}
      (howner : types.name owner = "MathUtil") {left right : Expr}
      (hleft : IsTerm config types state left) (hright : IsTerm config types state right) :
      IsTerm config types state (.staticCall info owner "max" [left, right])
  | field (info : Info) {cinfo : Info} {ctor : MethodId} {type : TypeId}
      (hctor : cinfo.facts.callTarget = some (.constructor ctor))
      (howner : mapConstructorOwner? types ctor = some type) (minfo : Info)
      {entries : List Entry}
      (hkeys : ∀ entry ∈ entries, ∃ key, entry.key.stringLiteral? = some key)
      (hvalues : ∀ entry ∈ entries, IsTerm config types state entry.value) (name : String) :
      IsTerm config types state
        (.property info (.constructorCall cinfo type [.map minfo entries]) name)
  | addTo {info : Info} (hinfo : info.ResolvesTo "plus") (opSpan : Span) (vinfo : Info)
      {name : String} (type : Option TypeId) (hname : state.HasInteger name)
      (hplain : ¬ config.Introduces name) {value : Expr}
      (hvalue : IsTerm config types state value) :
      IsTerm config types state
        (.binary info (.compound .plus) opSpan (.var vinfo name type) value)

/-! ## Lowered expressions -/

/-- With a budget for so many nested closures, the second expression follows the first. -/
def Expr.FollowedBy (config : Config) (start : State) (lib : Library) (rounds : Nat)
    (bodies : Block → EvalM Flow) (depth number : Nat) (e out : Expr) : Prop :=
  ∀ loops budget, depth ≤ budget →
    EvalM.Follows config start number (Value.KnownIn start.heap) (e.eval lib rounds bodies)
      (out.eval lib loops (runBody lib budget))

section Rules

variable {settings : Settings} {lib : Library} {start : State} {rounds : Nat}
  {bodies : Block → EvalM Flow}

theorem Expr.FollowedBy.mono {depth deeper number larger : Nat} {e out : Expr}
    (h : e.FollowedBy settings.config start lib rounds bodies depth number out)
    (hdepth : depth ≤ deeper) (hnumber : number ≤ larger) :
    e.FollowedBy settings.config start lib rounds bodies deeper larger out :=
  fun loops budget hbudget => (h loops budget (Nat.le_trans hdepth hbudget)).mono hnumber

/-! ## Nodes -/

theorem State.HasInteger.follows {name : String} (hname : start.HasInteger name)
    {config : Config} (hplain : ¬ config.Introduces name) (number : Nat) :
    EvalM.Follows config start number (Value.KnownIn start.heap) (readVariable name)
      (readVariable name) := by
  obtain ⟨value, hvalue, rfl | ⟨n, rfl⟩⟩ := hname
  · exact follows_readVariable hplain hvalue trivial
  · exact follows_readVariable hplain hvalue trivial

theorem State.HasText.follows {name : String} (hname : start.HasText name)
    {config : Config} (hplain : ¬ config.Introduces name) (number : Nat) :
    EvalM.Follows config start number (Value.KnownIn start.heap) (readVariable name)
      (readVariable name) := by
  obtain ⟨value, hvalue, rfl | ⟨text, rfl⟩⟩ := hname
  · exact follows_readVariable hplain hvalue trivial
  · exact follows_readVariable hplain hvalue trivial

theorem State.HasInteger.follows_write {name : String} (hname : start.HasInteger name)
    {config : Config} (hplain : ¬ config.Introduces name) {value : Value}
    (hvalue : value.KnownIn start.heap) (number : Nat) :
    EvalM.Follows config start number (fun _ => True) (writeVariable name value)
      (writeVariable name value) := by
  obtain ⟨old, hold, rfl | ⟨n, rfl⟩⟩ := hname
  · exact follows_writeVariable hplain hold trivial nofun hvalue
  · exact follows_writeVariable hplain hold trivial nofun hvalue

section Nodes

variable {config : Config} {depth number : Nat}

theorem followedBy_plus (hnatives : lib.OnlyMaximum) {info : Info} {target : OperatorTarget}
    (htarget : info.facts.operatorTarget = some target) (hname : target.name = "plus")
    {left left' right right' : Expr}
    (hleft : left.FollowedBy config start lib rounds bodies depth number left')
    (hright : right.FollowedBy config start lib rounds bodies depth number right')
    (opSpan span : Span) (type : Option TypeId) :
    (Expr.binary info (.arithmetic .plus) opSpan left right).FollowedBy config start lib rounds
      bodies depth number (operatorCall span type target left' right') := by
  intro loops budget hbudget
  simp only [eval_operatorCall, Expr.eval, htarget, arithmetic, hname]
  refine (hleft loops budget hbudget).bind fun a ha => ?_
  exact (hright loops budget hbudget).bind fun b hb => follows_invoke_plus hnatives ha hb

theorem followedBy_comparison (hnatives : lib.OnlyMaximum) {info : Info}
    (hinfo : info.ResolvesTo "compareTo") {types : TypeTable} {routine : MethodId}
    {op : Comparison} (howner : types.methodOwner routine = .bytecodeAdapter)
    (hname : types.methodName routine = op.adapterName) {left left' right right' : Expr}
    (hleft : left.FollowedBy config start lib rounds bodies depth number left')
    (hright : right.FollowedBy config start lib rounds bodies depth number right')
    (opSpan span : Span) (type : Option TypeId) :
    (Expr.binary info (.comparison op) opSpan left right).FollowedBy config start lib rounds
      bodies depth number (adapterCall types span type routine left' right') := by
  intro loops budget hbudget
  obtain ⟨target, htarget, hmethod⟩ := hinfo
  simp only [adapterCall, howner, hname, Expr.eval, evalExprs, htarget, evalComparison, hmethod,
    bind_assoc, pure_bind, Bool.and_false, Bool.false_eq_true, if_false, invokeCall]
  refine (hleft loops budget hbudget).bind fun a ha => ?_
  exact (hright loops budget hbudget).bind fun b hb => follows_routine hnatives op a b

theorem followedBy_ternary {condition condition' yes yes' no no' : Expr}
    (hcondition : condition.FollowedBy config start lib rounds bodies depth number condition')
    (hyes : yes.FollowedBy config start lib rounds bodies depth number yes')
    (hno : no.FollowedBy config start lib rounds bodies depth number no') (info info' : Info) :
    (Expr.ternary info condition yes no).FollowedBy config start lib rounds bodies depth number
      (.ternary info' condition' yes' no') := by
  intro loops budget hbudget
  simp only [Expr.eval]
  refine (hcondition loops budget hbudget).bind fun value hvalue => ?_
  refine (follows_isTruthy hvalue).bind fun answer _ => ?_
  cases answer with
  | true => exact hyes loops budget hbudget
  | false => exact hno loops budget hbudget

theorem followedBy_maximum (hnatives : lib.OnlyMaximum) {left left' right right' : Expr}
    (hleft : left.FollowedBy config start lib rounds bodies depth number left')
    (hright : right.FollowedBy config start lib rounds bodies depth number right')
    (info info' cinfo : Info) (owner : TypeId) :
    (Expr.staticCall info owner "max" [left, right]).FollowedBy config start lib rounds bodies
      depth number
      (.methodCall info' (.classRef cinfo owner) "max" [left', right'] false false) := by
  intro loops budget hbudget
  simp only [Expr.eval, evalExprs, bind_assoc, pure_bind, Bool.and_false, Bool.false_eq_true,
    if_false, invokeCall]
  refine (hleft loops budget hbudget).bind fun a ha => ?_
  refine (hright loops budget hbudget).bind fun b hb => ?_
  apply follows_invoke_max hnatives
  simp [ha, hb]

theorem followedBy_getAt (hnatives : lib.OnlyMaximum) {name : String}
    (hname : start.HasArray name) (hplain : ¬ config.Introduces name) {index index' : Expr}
    (hindex : index.FollowedBy config start lib rounds bodies depth number index')
    (info info' vinfo : Info) (type : Option TypeId) (component : TypeId) :
    let call := Expr.methodCall info (.var vinfo name type) "getAt" [index] false false
    call.FollowedBy config start lib rounds bodies depth number
        (.methodCall info (.var vinfo name type) "getAt" [index'] false false) ∧
      call.FollowedBy config start lib rounds bodies depth number
        (elementAt info' (.var vinfo name type) component index') := by
  obtain ⟨a, ha⟩ := hname
  constructor
  · intro loops budget hbudget
    simp only [Expr.eval, evalExprs, bind_assoc, pure_bind, Bool.and_false, Bool.false_eq_true,
      if_false, invokeCall]
    refine (follows_readArray hplain ha).bind fun receiver hreceiver => ?_
    subst hreceiver
    refine (hindex loops budget hbudget).bind fun i _ => ?_
    have hnone : lib.natives.get? "getAt" = none := hnatives.get?_eq_none (by decide)
    rw [invoke_getAt hnone, invoke_getAt hnone]
    exact (follows_readElement a i).logBoth "getAt"
  · intro loops budget hbudget
    simp only [elementAt, Expr.eval, evalExprs, bind_assoc, pure_bind, Bool.and_false,
      Bool.false_eq_true, if_false, invokeCall]
    refine (follows_readArray hplain ha).bind fun receiver hreceiver => ?_
    subst hreceiver
    refine (hindex loops budget hbudget).bind fun i _ => ?_
    have hnone : lib.natives.get? "getAt" = none := hnatives.get?_eq_none (by decide)
    rw [invoke_getAt hnone]
    exact (follows_readElement a i).logLeft "getAt"

theorem followedBy_putAt (hnatives : lib.OnlyMaximum) {name : String}
    (hname : start.HasArray name) (hplain : ¬ config.Introduces name)
    {index index' value value' : Expr}
    (hindex : index.FollowedBy config start lib rounds bodies depth number index')
    (hvalue : value.FollowedBy config start lib rounds bodies depth number value')
    (info info' ainfo vinfo : Info) (type : Option TypeId) (component : TypeId) (span : Span) :
    let call := Expr.methodCall info (.var vinfo name type) "putAt" [index, value] false false
    call.FollowedBy config start lib rounds bodies depth number
        (.methodCall info (.var vinfo name type) "putAt" [index', value'] false false) ∧
      call.FollowedBy config start lib rounds bodies depth number
        (.binary ainfo .assign span (elementAt info' (.var vinfo name type) component index')
          value') := by
  obtain ⟨a, ha⟩ := hname
  constructor
  · intro loops budget hbudget
    simp only [Expr.eval, evalExprs, bind_assoc, pure_bind, Bool.and_false, Bool.false_eq_true,
      if_false, invokeCall]
    refine (follows_readArray hplain ha).bind fun receiver hreceiver => ?_
    subst hreceiver
    refine (hindex loops budget hbudget).bind fun i _ => ?_
    refine (hvalue loops budget hbudget).bind fun v hv => ?_
    have hnone : lib.natives.get? "putAt" = none := hnatives.get?_eq_none (by decide)
    rw [invoke_putAt hnone, invoke_putAt hnone]
    apply Follows.logBoth
    exact (follows_writeElement a i hv).bind fun _ _ => follows_pure hv
  · intro loops budget hbudget
    simp only [elementAt, Expr.eval, Expr.evalPlace, evalExprs, bind_assoc, pure_bind,
      Bool.and_false, Bool.false_eq_true, if_false, invokeCall, writePlace]
    refine (follows_readArray hplain ha).bind fun receiver hreceiver => ?_
    subst hreceiver
    refine (hindex loops budget hbudget).bind fun i _ => ?_
    refine (hvalue loops budget hbudget).bind fun v hv => ?_
    have hnone : lib.natives.get? "putAt" = none := hnatives.get?_eq_none (by decide)
    rw [invoke_putAt hnone]
    apply Follows.logLeft
    exact (follows_writeElement a i hv).bind fun _ _ => follows_pure hv

theorem followedBy_addTo (hnatives : lib.OnlyMaximum) {info : Info} {target : OperatorTarget}
    (htarget : info.facts.operatorTarget = some target) (hmethod : target.name = "plus")
    {name : String} (hname : start.HasInteger name) (hplain : ¬ config.Introduces name)
    {value value' : Expr}
    (hvalue : value.FollowedBy config start lib rounds bodies depth number value')
    (opSpan span : Span) (ainfo vinfo : Info) (type result : Option TypeId) :
    (Expr.binary info (.compound .plus) opSpan (.var vinfo name type) value).FollowedBy config
      start lib rounds bodies depth number
      (.binary ainfo .assign opSpan (.var vinfo name type)
        (operatorCall span result target (.var vinfo name type) value')) := by
  intro loops budget hbudget
  simp only [Expr.eval, Expr.evalPlace, eval_operatorCall, bind_assoc, pure_bind, htarget,
    arithmetic, hmethod, readPlace, writePlace]
  refine (hname.follows hplain number).bind fun current hcurrent => ?_
  refine (hvalue loops budget hbudget).bind fun operand hoperand => ?_
  refine (follows_invoke_plus hnatives hcurrent hoperand).bind fun sum hsum => ?_
  exact (hname.follows_write hplain hsum number).bind fun _ _ => follows_pure hsum

/-- The receiver of the call is the variable itself, or the temporary of its null check. -/
theorem followedBy_size (hnatives : lib.OnlyMaximum) {name : String}
    (hname : start.HasText name) (hplain : ¬ config.Introduces name) (info vinfo : Info)
    (type : Option TypeId) {checked called : Expr}
    (hsplit : (checked, called) = (Expr.var vinfo name type, Expr.var vinfo name type) ∨
      ∃ drawn drawnType, drawn < number ∧
        checked = .declaration vinfo.span.info (syntheticName config.temporaryStem drawn) drawnType
          (.var vinfo name type) ∧
        called = .var vinfo.span.info (syntheticName config.temporaryStem drawn) drawnType)
    (info' : Info) (span span' : Span) :
    (Expr.methodCall info (.var vinfo name type) "size" [] true false).FollowedBy config start lib
      rounds bodies depth number
      (.ternary info' (notNull span checked) (.methodCall info called "size" [] false false)
        (.null span')) := by
  intro loops budget hbudget
  rw [eval_safeCall, eval_nullCheck, eval_plainCall]
  have hcall : ∀ value : Value, value.KnownIn start.heap →
      EvalM.Follows config start number (Value.KnownIn start.heap)
        (invoke lib bodies value "size" []) (invoke lib (runBody lib budget) value "size" []) :=
    fun value hvalue => follows_invoke_size hnatives hvalue
  rcases hsplit with hsame | ⟨drawn, drawnType, hdrawn, rfl, rfl⟩
  · obtain ⟨rfl, rfl⟩ := Prod.mk.inj hsame
    have honce : (do
          let value ← (Expr.var vinfo name type).eval lib loops (runBody lib budget)
          if value.isNull then return Value.null
          else
            let receiver ← (Expr.var vinfo name type).eval lib loops (runBody lib budget)
            let args ← evalExprs lib loops (runBody lib budget) []
            invokeCall lib (runBody lib budget) receiver "size" args false) = (do
          let value ← (Expr.var vinfo name type).eval lib loops (runBody lib budget)
          if value.isNull then return Value.null
          else invoke lib (runBody lib budget) value "size" []) := by
      apply (Expr.readsOnly_eval lib loops (runBody lib budget)
        (e := .var vinfo name type) rfl).bind_congr
      intro value state hrun
      exact ite_congr_run (run_bind_of_ok hrun)
    rw [honce]
    refine (hname.follows hplain number).bind fun value hvalue => ?_
    split
    · exact follows_pure trivial
    · exact hcall value hvalue
  · simp only [Expr.eval, evalExprs, bind_assoc, pure_bind]
    refine (hname.follows hplain number).bind fun value hvalue => ?_
    split
    · exact Follows.defineRight (follows_pure trivial) hdrawn value
    · exact Follows.bindTemporary (hcall value hvalue) hdrawn

end Nodes

end Rules

end StaticDispatch
