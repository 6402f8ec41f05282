import StaticDispatch.Proofs.Lowering.Cases
import StaticDispatch.Proofs.Lowering.Census
import StaticDispatch.Proofs.Lowering.Glue

/-!
# The calls of a lowered tree

A lowering neither loses nor repeats a call.  A safe call stays one call, and so
does a static one; a resolved operator becomes a call, the call of a keyword
constructor becomes two, and access to an element is no call any more.  The
counts of a run therefore say how many calls there are afterwards.
-/

namespace StaticDispatch

open LowerM

/-! ## Calls -/

def Expr.isCall : Expr → Bool
  | .methodCall _ _ _ _ _ _ => true
  | .staticCall _ _ _ _ => true
  | .constructorCall _ _ _ => true
  | _ => false

theorem Expr.isCall_of_isGlue (e : Expr) (h : e.isGlue = true) : e.isCall = false := by
  cases e <;> simp_all [Expr.isGlue, Expr.isCall]

/-- The counts say how many calls the second trees have more than the first. -/
def Stats.Balances (applied : Stats) (before after : List Expr) : Prop :=
  countOfExprs Expr.isCall after + applied.arrayAccesses =
    countOfExprs Expr.isCall before + applied.operatorCalls + applied.comparisons +
      applied.compoundAssignments + applied.namedConstructors

theorem Stats.balances_refl (es : List Expr) : Stats.Balances {} es es :=
  rfl

/-! ## The rules -/

section Rules

variable (settings : Settings) (cls : TypeId)

theorem counts_lowerPlainCall_calls (info : Info) (receiver : Expr) (name : String)
    (args : List Expr) (spread : Bool) :
    Counts (lowerPlainCall settings cls info receiver name args spread) fun applied out =>
      applied.Balances [.methodCall info receiver name args false spread] [out] := by
  obtain h | ⟨component, index, rfl, h⟩ | ⟨component, index, value, rfl, h⟩ :=
    lowerPlainCall_cases settings cls info receiver name args spread
  · rw [h]
    exact counts_pure (Stats.balances_refl _)
  · rw [h]
    apply counts_count_bind
    apply counts_pure
    simp [Stats.Balances, elementAt, Expr.countOf_eq (.binary ..),
      Expr.countOf_eq (.methodCall ..), Expr.isCall, Expr.children]
  · rw [h]
    apply counts_count_bind
    apply counts_pure
    simp [Stats.Balances, elementAt, Expr.countOf_eq (.binary ..),
      Expr.countOf_eq (.methodCall ..), Expr.isCall, Expr.children, Nat.add_assoc]

theorem yields_splitReceiver_calls (receiver : Expr) :
    Yields (splitReceiver settings cls receiver) fun pair =>
      pair.1.countOf Expr.isCall = receiver.countOf Expr.isCall ∧
        pair.2.countOf Expr.isCall = 0 := by
  unfold splitReceiver
  split
  · refine (yields_bindTemporary settings cls receiver).mono ?_
    rintro ⟨checked, called⟩ ⟨name, rfl, rfl⟩
    simp [Expr.countOf_eq (.declaration ..), Expr.countOf_eq (.var ..), Expr.isCall, Expr.children]
  · rename_i hbinds
    apply yields_pure
    exact ⟨rfl, Expr.countOf_of_isSideEffectFree Expr.isCall_of_isGlue
      (Config.isSideEffectFree_of_not_bindsReceiver hbinds)⟩

theorem counts_lowerMethodCall_calls (info : Info) (receiver : Expr) (name : String)
    (args : List Expr) (safe spread : Bool) :
    Counts (lowerMethodCall settings cls info receiver name args safe spread) fun applied out =>
      applied.Balances [.methodCall info receiver name args safe spread] [out] := by
  unfold lowerMethodCall
  cases safe with
  | false =>
      exact counts_lowerPlainCall_calls settings cls info receiver name args spread
  | true =>
      simp only [if_true]
      split
      · unfold lowerSafeCall
        refine (countsNothing_splitReceiver settings cls receiver).bind_counts
          (yields_splitReceiver_calls settings cls receiver) ?_
        rintro ⟨checked, called⟩ ⟨hchecked, hcalled⟩
        apply counts_count_bind
        refine (counts_lowerPlainCall_calls settings cls info called name args spread).bind ?_
        intro applied call hcall
        apply counts_pure
        simp only at hchecked hcalled
        -- the calls of the receiver are in the check, and the reference to it has none
        simp [Stats.Balances, notNull, Expr.null, Expr.countOf_eq (.ternary ..),
          Expr.countOf_eq (.binary ..), Expr.countOf_eq (.literal ..),
          Expr.countOf_eq (.methodCall ..), Expr.isCall, Expr.children, hchecked,
          hcalled] at hcall ⊢
        omega
      · exact counts_pure (Stats.balances_refl _)

theorem counts_lowerStaticCall_calls (info : Info) (owner : TypeId) (name : String)
    (args : List Expr) :
    Counts (lowerStaticCall settings info owner name args) fun applied out =>
      applied.Balances [.staticCall info owner name args] [out] := by
  unfold lowerStaticCall
  split
  · apply counts_count_bind
    apply counts_pure
    simp [Stats.Balances, Expr.countOf_eq (.methodCall ..), Expr.countOf_eq (.staticCall ..),
      Expr.countOf_eq (.classRef ..), Expr.isCall, Expr.children]
  · exact counts_pure (Stats.balances_refl _)

theorem calls_initializerCall (info : Info) (owner : TypeId) (name : String)
    (entries : List Entry) (scope : VariableScope)
    (hkeys : ∀ entry ∈ entries, entry.key.stringLiteral?.isSome = true) :
    Expr.countOf Expr.isCall
        (initializerCall info owner (initializerBody info.span owner name entries) scope) =
      countOfExprs Expr.isCall (exprsOfEntries entries) + 2 := by
  have hentries := countOfExprs_setProperties Expr.isCall_of_isGlue owner name entries hkeys
  simp [initializerCall, initializerBody, blankInstance, localReference, exprsOfStmts,
    exprsOfStmts_append, Stmt.exprs, hentries, Expr.countOf_eq (.methodCall ..),
    Expr.countOf_eq (.closure ..), Expr.countOf_eq (.declaration ..),
    Expr.countOf_eq (.constructorCall ..), Expr.countOf_eq (.var ..), Expr.isCall, Expr.children]
  omega

theorem counts_lowerConstructorCall_calls (info : Info) (type : TypeId) (args : List Expr) :
    Counts (lowerConstructorCall settings info type args) fun applied out =>
      applied.Balances [.constructorCall info type args] [out] := by
  obtain h | ⟨owner, mapInfo, entries, rfl, hkeys, h⟩ :=
    lowerConstructorCall_cases settings info type args
  · rw [h]
    exact counts_pure (Stats.balances_refl _)
  · rw [h]
    intro session
    refine ⟨{ namedConstructors := 1 }, rfl, ?_⟩
    change Stats.Balances _ _ [initializerCall info owner
      (initializerBody info.span owner _ entries) _]
    simp [Stats.Balances, calls_initializerCall info owner _ entries _ hkeys,
      Expr.countOf_eq (.constructorCall ..), Expr.countOf_eq (.map ..), Expr.isCall,
      Expr.children]

section Kinds

variable {kind : Expr → Bool} (hkind : ∀ e : Expr, e.isCall = false → kind e = false)

include hkind

/-- What holds of calls only does not hold of glue. -/
theorem kind_of_isGlue (e : Expr) (h : e.isGlue = true) : kind e = false :=
  hkind e (e.isCall_of_isGlue h)

theorem yields_stableOperand_countOf (operand : Expr) :
    Yields (stableOperand settings cls operand) fun pair =>
      countOfExprs kind (exprsOfStmts pair.1) = operand.countOf kind := by
  unfold stableOperand
  split
  · rename_i hpure
    exact yields_pure (Expr.countOf_of_isSideEffectFree (kind_of_isGlue hkind) hpure).symm
  · refine (yields_bindTemporary settings cls operand).bind ?_
    rintro ⟨declaration, reference⟩ ⟨name, rfl, rfl⟩
    apply yields_pure
    simp [exprsOfStmts, Stmt.exprs, Expr.countOf_eq (.declaration ..), hkind (.declaration ..) rfl,
      Expr.children]

/-- The calls of a plain target are in what is bound before. -/
theorem yields_stableTarget_countOf {target : Expr} (h : target.isPlainTarget = true) :
    Yields (stableTarget settings cls target) fun pair =>
      countOfExprs kind (exprsOfStmts pair.1) = target.countOf kind := by
  cases target with
  | var info name type =>
      apply yields_pure
      simp [exprsOfStmts, Expr.countOf_eq (.var ..), hkind (.var ..) rfl, Expr.children]
  | property info receiver name =>
      refine (yields_stableOperand_countOf settings cls hkind receiver).bind ?_
      rintro ⟨before, receiver'⟩ hreceiver
      apply yields_pure
      simpa [Expr.countOf_eq (.property ..), hkind (.property ..) rfl, Expr.children]
        using hreceiver
  | binary info op opSpan left right =>
      cases op with
      | index =>
          refine (yields_stableOperand_countOf settings cls hkind left).bind ?_
          rintro ⟨before, left'⟩ hleft
          refine (yields_stableOperand_countOf settings cls hkind right).bind ?_
          rintro ⟨between, right'⟩ hright
          apply yields_pure
          simp only at hleft hright
          simp [exprsOfStmts_append, hleft, hright, Expr.countOf_eq (.binary ..),
            hkind (.binary ..) rfl, Expr.children]
      | _ => exact absurd h (by simp [Expr.isPlainTarget])
  | _ => exact absurd h (by simp [Expr.isPlainTarget])

end Kinds

theorem counts_lowerOperatorAssignment_calls (info : Info) (op : BinaryOp) (opSpan : Span)
    (target : OperatorTarget) {left : Expr} (right : Expr) (h : left.isPlainTarget = true) :
    Counts (lowerOperatorAssignment settings cls info.span opSpan info.facts.inferredType target
        left right) fun applied out =>
      applied.Balances [.binary info op opSpan left right] [out] := by
  unfold lowerOperatorAssignment
  refine (countsNothing_stableTarget settings cls left).bind_counts
    ((yields_stableTarget_countOf settings cls (fun _ hcall => hcall) h).and
      (yields_stableTarget_place settings cls h)) ?_
  rintro ⟨before, place⟩ ⟨hbefore, hplain, hstable⟩
  apply counts_count_bind
  apply counts_pure
  simp only at hbefore
  -- the place stands there twice, but all its calls are bound before
  have hplace := Expr.countOf_of_isStableTarget Expr.isCall_of_isGlue hplain hstable
  simp [Stats.Balances, countOf_assignmentAfter Expr.isCall_of_isGlue, hbefore, operatorCall,
    hplace, Expr.countOf_eq (.binary ..), Expr.countOf_eq (.methodCall ..), Expr.isCall,
    Expr.children, Nat.add_assoc]

theorem counts_lowerBinary_calls (info : Info) (op : BinaryOp) (opSpan : Span)
    (left right : Expr)
    (hplain : info.facts.operatorTarget.isSome = true → op.isAssignment = true →
      left.isPlainTarget = true) :
    Counts (lowerBinary settings cls info op opSpan left right) fun applied out =>
      applied.Balances [.binary info op opSpan left right] [out] := by
  obtain h | ⟨routine, h⟩ | ⟨target, htarget, hassignment, h⟩ | ⟨target, h⟩ :=
    lowerBinary_cases settings cls info op opSpan left right
  · rw [h]
    exact counts_pure (Stats.balances_refl _)
  · rw [h]
    apply counts_count_bind
    apply counts_pure
    simp [Stats.Balances, adapterCall, Expr.countOf_eq (.methodCall ..),
      Expr.countOf_eq (.binary ..), Expr.countOf_eq (.classRef ..), Expr.isCall, Expr.children]
  · rw [h]
    exact counts_lowerOperatorAssignment_calls settings cls info op opSpan target right
      (hplain (by rw [htarget]; rfl) hassignment)
  · rw [h]
    apply counts_count_bind
    apply counts_pure
    simp [Stats.Balances, operatorCall, Expr.countOf_eq (.methodCall ..),
      Expr.countOf_eq (.binary ..), Expr.isCall, Expr.children]

end Rules

/-! ## Runs -/

/-- Where targets of resolved assignments are plain, the counts that a run adds balance the
calls before and after. -/
def BalancesCalls (es : List Expr) (s : Session) (es' : List Expr) (s' : Session) : Prop :=
  (∀ node ∈ nodesOfExprs es, node.hasPlainTarget = true) →
    ∃ applied, s'.stats = s.stats + applied ∧
      applied.Balances es es'

section Runs

variable {settings : Settings}

theorem Expr.SameFrame.isCall {e e' : Expr} (h : e.SameFrame e') : e'.isCall = e.isCall := by
  cases h <;> rfl

theorem BalancesCalls.rule {s s' s'' : Session} (e e' : Expr) {out : Expr}
    (h : BalancesCalls e.children s e'.children s') (hcall : e'.isCall = e.isCall)
    (hnode : e.hasPlainTarget = true → ∃ applied, s''.stats = s'.stats + applied ∧
      applied.Balances [e'] [out]) :
    BalancesCalls [e] s [out] s'' := by
  intro htargets
  simp only [nodesOfExprs, List.append_nil, e.nodes_eq, List.forall_mem_cons] at htargets
  obtain ⟨applied, hstats, hbalance⟩ := h htargets.2
  obtain ⟨more, hstats', hbalance'⟩ := hnode htargets.1
  refine ⟨applied + more, by rw [hstats', hstats, Stats.add_assoc], ?_⟩
  simp only [Stats.Balances, countOfExprs_cons, countOfExprs_nil, e.countOf_eq, e'.countOf_eq,
    hcall, Stats.add_operatorCalls, Stats.add_comparisons, Stats.add_compoundAssignments,
    Stats.add_namedConstructors, Stats.add_arrayAccesses] at hbalance hbalance' ⊢
  omega

theorem loweringInvariant_calls : LoweringInvariant settings BalancesCalls where
  nil _ _ := fun _ => ⟨{}, rfl, rfl⟩
  append h h' := by
    intro htargets
    rw [nodesOfExprs_append, List.forall_mem_append] at htargets
    obtain ⟨applied, hstats, hbalance⟩ := h htargets.1
    obtain ⟨more, hstats', hbalance'⟩ := h' htargets.2
    refine ⟨applied + more, by rw [hstats', hstats, Stats.add_assoc], ?_⟩
    simp only [Stats.Balances, countOfExprs_append, Stats.add_operatorCalls,
      Stats.add_comparisons, Stats.add_compoundAssignments, Stats.add_namedConstructors,
      Stats.add_arrayAccesses] at hbalance hbalance' ⊢
    omega
  frame {e e' _ _} h hchildren :=
    BalancesCalls.rule e e' hchildren h.isCall fun _ => ⟨{}, rfl, Stats.balances_refl _⟩
  methodCall cls info name safe spread receiver receiver' args args' _ s' h := by
    have hnode := counts_lowerMethodCall_calls settings cls info receiver' name args' safe spread
    exact BalancesCalls.rule (.methodCall info receiver name args safe spread)
      (.methodCall info receiver' name args' safe spread) h rfl fun _ => hnode s'
  staticCall info owner name args args' _ s' h := by
    have hnode := counts_lowerStaticCall_calls settings info owner name args'
    exact BalancesCalls.rule (.staticCall info owner name args) (.staticCall info owner name args')
      h rfl fun _ => hnode s'
  constructorCall cls info type args s h := by
    have hnode := counts_lowerConstructorCall_calls settings info type
    exact BalancesCalls.rule (.constructorCall info type args) (.constructorCall info type _) h rfl
      fun _ => hnode _ _
  binary cls info op opSpan left right s h := by
    refine BalancesCalls.rule (.binary info op opSpan left right) (.binary info op opSpan _ _) h rfl
      fun htarget => ?_
    have hplain := isPlainTarget_lower settings cls htarget s
    exact counts_lowerBinary_calls settings cls info op opSpan _ _ hplain _
  closure cls info params body scope s h := by
    refine BalancesCalls.rule (.closure info params body scope) (.closure info params _ scope) h rfl
      fun _ => ⟨{}, countsNothing_renewScope s.nextName params _ scope _, ?_⟩
    simp [Stats.Balances, Expr.countOf_eq (.closure ..), Expr.isCall, Expr.children]

end Runs

/-- Where targets of resolved assignments are plain, the lowering of an expression or a unit
loses no call and repeats none: after it there are as many as before it, one more for every
operator that became a call and every keyword constructor, and one less for every access to an
element. -/
theorem callCount_lower (settings : Settings) (task : Task) (session : Session)
    (htargets : ∀ node ∈ nodesOfExprs task.exprs, node.hasPlainTarget = true) :
    ∃ applied, ((task.lower settings).run session).2.stats = session.stats + applied ∧
      countOfExprs Expr.isCall (outputExprs ((task.lower settings).run session).1) +
          applied.arrayAccesses =
        countOfExprs Expr.isCall task.exprs + applied.operatorCalls + applied.comparisons +
          applied.compoundAssignments + applied.namedConstructors :=
  loweringInvariant_calls.task task session htargets

/-- `account().balance += deposit()`, resolved to `plus`. -/
def depositToAccount (plus : MethodId) : Expr :=
  .binary { facts := { operatorTarget := some ⟨plus, "plus"⟩ } } (.compound .plus) {}
    (.property {} (.methodCall {} (.this {}) "account" [] false false) "balance")
    (.methodCall {} (.this {}) "deposit" [] false false)

/-- The account is looked up once, and there is the call of `plus` besides. -/
theorem callCount_lower_depositToAccount :
    let settings : Settings := ⟨.initial, .ofTypes .initial, {}⟩
    let task := Task.expr .object (depositToAccount ⟨0⟩)
    let outcome := (task.lower settings).run {}
    (∀ node ∈ nodesOfExprs task.exprs, node.hasPlainTarget = true) ∧
      countOfExprs Expr.isCall task.exprs = 2 ∧
      countOfExprs Expr.isCall (outputExprs outcome.1) = 3 ∧
      ∃ applied, outcome.2.stats = {} + applied ∧
        countOfExprs Expr.isCall (outputExprs outcome.1) + applied.arrayAccesses =
          countOfExprs Expr.isCall task.exprs + applied.operatorCalls + applied.comparisons +
            applied.compoundAssignments + applied.namedConstructors := by
  intro settings task outcome
  have htargets : ∀ node ∈ nodesOfExprs task.exprs, node.hasPlainTarget = true := by decide
  have hcalls : countOfExprs Expr.isCall (outputExprs outcome.1) = 3 := by decide +kernel
  exact ⟨htargets, rfl, hcalls, callCount_lower settings task {} htargets⟩

end StaticDispatch
