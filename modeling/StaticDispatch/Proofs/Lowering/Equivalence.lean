import StaticDispatch.Proofs.Lowering.Behaviour
import StaticDispatch.Proofs.Lowering.Names

/-!
# Lowered trees behave like their originals

With the rules for safe calls, operators and static calls, a lowered tree gives
in every state the answer of the tree that it was made from, and leaves the same
state but for the bindings of temporaries.  The same argument with no rule at
all says that a body without temporaries does not see them, which is what the
closures of the heap need.
-/

namespace StaticDispatch

open EvalM

/-! ## Trees -/

/-- A node that keeps its meaning: an operator with a rule is arithmetic or assigns to a
simple target, and a closure has a body that no rule touches. -/
def Expr.Survives (settings : Settings) (cls : TypeId) : Expr → Prop
  | .binary info op _ left _ =>
      settings.config.isEnabled .binaryOperators = true →
        info.facts.operatorTarget.isSome = true → op.keepsMeaning left = true
  | .closure _ _ body _ => settings.Settled cls (nodesOfStmts body)
  | _ => True

section Trees

variable {settings : Settings} {lib : Library} {hidden : String → Prop}
  {runBody : Block → EvalM Flow} (cls : TypeId) (loops : Nat)

mutual

/-- A lowered expression can stand for its original. -/
theorem yields_lower_keeps (h : Surroundings settings lib hidden runBody) :
    (e : Expr) → (∀ name ∈ e.names, ¬ hidden name) →
      (∀ node ∈ e.nodes, node.Survives settings cls) →
      (e.lower settings cls).Yields (e.Keeps hidden lib loops runBody)
  | .literal info value, _, _ => LowerM.yields_pure ⟨agrees_pure _, agrees_fail _⟩
  | .var info name declaredType, hnames, _ => by
      simp only [Expr.names, List.forall_mem_singleton] at hnames
      exact LowerM.yields_pure ⟨agrees_readVariable hnames, agrees_pure _⟩
  | .this info, _, _ => LowerM.yields_pure ⟨agrees_this, agrees_fail _⟩
  | .classRef info type, _, _ => LowerM.yields_pure ⟨agrees_pure _, agrees_fail _⟩
  | .property info receiver name, hnames, hnodes => by
      simp only [Expr.names] at hnames
      simp only [Expr.nodes, List.forall_mem_cons] at hnodes
      refine (yields_lower_keeps h receiver hnames hnodes.2).bind fun receiver' hreceiver => ?_
      apply LowerM.yields_pure
      constructor
      · simp only [Expr.eval]
        refine hreceiver.value.bind fun receiver => ?_
        exact steady_readPlace trivial
      · simp only [Expr.evalPlace]
        exact hreceiver.value.bind fun receiver => agrees_pure _
  | .methodCall info receiver name args safe spread, hnames, hnodes => by
      simp only [Expr.names, List.forall_mem_append] at hnames
      simp only [Expr.nodes, List.forall_mem_cons, List.forall_mem_append] at hnodes
      refine (yields_lower_keeps h receiver hnames.1 hnodes.2.1).bind
        fun receiver' hreceiver => ?_
      refine (yields_lowerExprs_keeps h args hnames.2 hnodes.2.2).bind fun args' hargs => ?_
      exact yields_lowerMethodCall_keeps h cls loops info name safe spread hreceiver.value hargs
  | .staticCall info owner name args, hnames, hnodes => by
      simp only [Expr.names] at hnames
      simp only [Expr.nodes, List.forall_mem_cons] at hnodes
      refine (yields_lowerExprs_keeps h args hnames hnodes.2).bind fun args' hargs => ?_
      exact yields_lowerStaticCall_keeps h loops info owner name hargs
  | .constructorCall info type args, hnames, hnodes => by
      simp only [Expr.names] at hnames
      simp only [Expr.nodes, List.forall_mem_cons] at hnodes
      refine (yields_lowerExprs_keeps h args hnames hnodes.2).bind fun args' hargs => ?_
      exact yields_lowerConstructorCall_keeps h loops info type hargs
  | .binary info op opSpan left right, hnames, hnodes => by
      simp only [Expr.names, List.forall_mem_append] at hnames
      simp only [Expr.nodes, List.forall_mem_cons, List.forall_mem_append] at hnodes
      have hsame : (left.lower settings cls).Yields fun left' =>
          left.isSimpleTarget = true → left' = left := by
        intro session hsimple
        rw [Expr.lower_of_isSimpleTarget settings cls hsimple]
        rfl
      refine ((yields_lower_keeps h left hnames.1 hnodes.2.1).and hsame).bind
        fun left' hleft => ?_
      refine (yields_lower_keeps h right hnames.2 hnodes.2.2).bind fun right' hright => ?_
      exact yields_lowerBinary_keeps h cls loops info op opSpan hnodes.1 hleft.2 hleft.1 hright
        hnames.1
  | .ternary info condition yes no, hnames, hnodes => by
      simp only [Expr.names, List.forall_mem_append] at hnames
      simp only [Expr.nodes, List.forall_mem_cons, List.forall_mem_append] at hnodes
      refine (yields_lower_keeps h condition hnames.1 hnodes.2.1).bind
        fun condition' hcondition => ?_
      refine (yields_lower_keeps h yes hnames.2.1 hnodes.2.2.1).bind fun yes' hyes => ?_
      refine (yields_lower_keeps h no hnames.2.2 hnodes.2.2.2).bind fun no' hno => ?_
      apply LowerM.yields_pure
      refine ⟨?_, agrees_fail _⟩
      simp only [Expr.eval]
      refine hcondition.value.bind fun value => ?_
      refine (steady_isTruthy value).bind fun truthy => ?_
      split
      · exact hyes.value
      · exact hno.value
  | .closure info params body scope, hnames, hnodes => by
      simp only [Expr.names, List.forall_mem_append] at hnames
      simp only [Expr.nodes, List.forall_mem_cons] at hnodes
      have hsettled : settings.Settled cls (Expr.closure info params body scope).nodes := by
        simp only [Expr.nodes, Settings.settled_cons]
        exact ⟨fun rule => Settings.rewrites_closure settings rule cls info params body scope,
          hnodes.1⟩
      rw [lower_of_settled settings cls _ hsettled]
      apply LowerM.yields_pure
      exact ⟨steady_makeClosure params hnames.2, agrees_fail _⟩
  | .block info body, hnames, hnodes => by
      simp only [Expr.names] at hnames
      simp only [Expr.nodes, List.forall_mem_cons] at hnodes
      refine (yields_lowerStmts_keeps h body hnames hnodes.2).bind fun body' hbody => ?_
      apply LowerM.yields_pure
      refine ⟨?_, agrees_fail _⟩
      simp only [Expr.eval]
      refine (agrees_inChildScope {} (hbody none)).bind fun flow => ?_
      exact steady_blockValue flow
  | .map info entries, hnames, hnodes => by
      simp only [Expr.names] at hnames
      simp only [Expr.nodes, List.forall_mem_cons] at hnodes
      refine (yields_lowerEntries_keeps h entries hnames hnodes.2).bind
        fun entries' hentries => ?_
      apply LowerM.yields_pure
      refine ⟨?_, agrees_fail _⟩
      simp only [Expr.eval]
      exact (hentries {}).bind fun done => agrees_allocate fun _ hheap => hheap
  | .list info items, hnames, hnodes => by
      simp only [Expr.names] at hnames
      simp only [Expr.nodes, List.forall_mem_cons] at hnodes
      refine (yields_lowerExprs_keeps h items hnames hnodes.2).bind fun items' hitems => ?_
      apply LowerM.yields_pure
      refine ⟨?_, agrees_fail _⟩
      simp only [Expr.eval]
      exact hitems.bind fun items => steady_newList _
  | .declaration info name declaredType initializer, hnames, hnodes => by
      simp only [Expr.names, List.forall_mem_cons] at hnames
      simp only [Expr.nodes, List.forall_mem_cons] at hnodes
      refine (yields_lower_keeps h initializer hnames.2 hnodes.2).bind
        fun initializer' hinitializer => ?_
      apply LowerM.yields_pure
      refine ⟨?_, agrees_fail _⟩
      simp only [Expr.eval]
      refine hinitializer.value.bind fun value => ?_
      exact (agrees_define name value).bind fun _ => agrees_pure _
  | .cast info type operand, hnames, hnodes => by
      simp only [Expr.names] at hnames
      simp only [Expr.nodes, List.forall_mem_cons] at hnodes
      refine (yields_lower_keeps h operand hnames hnodes.2).bind fun operand' hoperand => ?_
      exact LowerM.yields_pure ⟨hoperand.value, agrees_fail _⟩
  | .unary info op operand, hnames, hnodes => by
      simp only [Expr.names] at hnames
      simp only [Expr.nodes, List.forall_mem_cons] at hnodes
      refine (yields_lower_keeps h operand hnames hnodes.2).bind fun operand' hoperand => ?_
      apply LowerM.yields_pure
      refine ⟨?_, agrees_fail _⟩
      simp only [Expr.eval]
      refine hoperand.value.bind fun value => ?_
      cases op with
      | not => exact (steady_isTruthy value).bind fun _ => agrees_pure _
      | negate => exact steady_negate h.natives h.bodies value

theorem yields_lowerExprs_keeps (h : Surroundings settings lib hidden runBody) :
    (es : List Expr) → (∀ name ∈ namesOfExprs es, ¬ hidden name) →
      (∀ node ∈ nodesOfExprs es, node.Survives settings cls) →
      (lowerExprs settings cls es).Yields fun out =>
        Agrees hidden (evalExprs lib loops runBody es) (evalExprs lib loops runBody out)
  | [], _, _ => LowerM.yields_pure (agrees_pure _)
  | e :: rest, hnames, hnodes => by
      simp only [namesOfExprs, List.forall_mem_append] at hnames
      simp only [nodesOfExprs, List.forall_mem_append] at hnodes
      refine (yields_lower_keeps h e hnames.1 hnodes.1).bind fun e' he => ?_
      refine (yields_lowerExprs_keeps h rest hnames.2 hnodes.2).bind fun rest' hrest => ?_
      apply LowerM.yields_pure
      simp only [evalExprs]
      refine he.value.bind fun value => ?_
      exact hrest.bind fun values => agrees_pure _

theorem yields_lowerEntries_keeps (h : Surroundings settings lib hidden runBody) :
    (entries : List Entry) → (∀ name ∈ namesOfEntries entries, ¬ hidden name) →
      (∀ node ∈ nodesOfEntries entries, node.Survives settings cls) →
      (lowerEntries settings cls entries).Yields fun out =>
        ∀ done, Agrees hidden (evalEntries lib loops runBody done entries)
          (evalEntries lib loops runBody done out)
  | [], _, _ => LowerM.yields_pure fun _ => agrees_pure _
  | .mk key value span :: rest, hnames, hnodes => by
      simp only [namesOfEntries, List.forall_mem_append] at hnames
      simp only [nodesOfEntries, List.forall_mem_append] at hnodes
      refine (yields_lower_keeps h key hnames.1 hnodes.1).bind fun key' hkey => ?_
      refine (yields_lower_keeps h value hnames.2.1 hnodes.2.1).bind fun value' hvalue => ?_
      refine (yields_lowerEntries_keeps h rest hnames.2.2 hnodes.2.2).bind fun rest' hrest => ?_
      apply LowerM.yields_pure
      intro done
      simp only [evalEntries]
      refine hkey.value.bind fun key => ?_
      refine (steady_textOf key).bind fun text => ?_
      refine hvalue.value.bind fun value => ?_
      exact hrest (done.insert text value)

theorem yields_lowerStmt_keeps (h : Surroundings settings lib hidden runBody) :
    (s : Stmt) → (∀ name ∈ s.names, ¬ hidden name) →
      (∀ node ∈ s.nodes, node.Survives settings cls) →
      (s.lower settings cls).Yields fun out =>
        Agrees hidden (s.eval lib loops runBody) (out.eval lib loops runBody)
  | .expr value, hnames, hnodes => by
      simp only [Stmt.names] at hnames
      simp only [Stmt.nodes] at hnodes
      refine (yields_lower_keeps h value hnames hnodes).bind fun value' hvalue => ?_
      apply LowerM.yields_pure
      simp only [Stmt.eval]
      exact hvalue.value.bind fun value => agrees_pure _
  | .block body, hnames, hnodes => by
      simp only [Stmt.names] at hnames
      simp only [Stmt.nodes] at hnodes
      refine (yields_lowerStmts_keeps h body hnames hnodes).bind fun body' hbody => ?_
      apply LowerM.yields_pure
      simp only [Stmt.eval]
      exact agrees_inChildScope {} (hbody none)
  | .ret none span, _, _ => LowerM.yields_pure (agrees_pure _)
  | .ret (some value) span, hnames, hnodes => by
      simp only [Stmt.names] at hnames
      simp only [Stmt.nodes] at hnodes
      refine (yields_lower_keeps h value hnames hnodes).bind fun value' hvalue => ?_
      apply LowerM.yields_pure
      simp only [Stmt.eval]
      exact hvalue.value.bind fun value => agrees_pure _
  | .ifElse condition yes none, hnames, hnodes => by
      simp only [Stmt.names, List.forall_mem_append] at hnames
      simp only [Stmt.nodes, List.forall_mem_append] at hnodes
      refine (yields_lower_keeps h condition hnames.1 hnodes.1).bind
        fun condition' hcondition => ?_
      refine (yields_lowerStmts_keeps h yes hnames.2 hnodes.2).bind fun yes' hyes => ?_
      apply LowerM.yields_pure
      simp only [Stmt.eval]
      refine hcondition.value.bind fun value => ?_
      refine (steady_isTruthy value).bind fun truthy => ?_
      split
      · exact agrees_inChildScope {} (hyes none)
      · exact agrees_pure _
  | .ifElse condition yes (some no), hnames, hnodes => by
      simp only [Stmt.names, List.forall_mem_append] at hnames
      simp only [Stmt.nodes, List.forall_mem_append] at hnodes
      refine (yields_lower_keeps h condition hnames.1 hnodes.1).bind
        fun condition' hcondition => ?_
      refine (yields_lowerStmts_keeps h yes hnames.2.1 hnodes.2.1).bind fun yes' hyes => ?_
      refine (yields_lowerStmts_keeps h no hnames.2.2 hnodes.2.2).bind fun no' hno => ?_
      apply LowerM.yields_pure
      simp only [Stmt.eval]
      refine hcondition.value.bind fun value => ?_
      refine (steady_isTruthy value).bind fun truthy => ?_
      split
      · exact agrees_inChildScope {} (hyes none)
      · exact agrees_inChildScope {} (hno none)
  | .whileLoop condition body, hnames, hnodes => by
      simp only [Stmt.names, List.forall_mem_append] at hnames
      simp only [Stmt.nodes, List.forall_mem_append] at hnodes
      refine (yields_lower_keeps h condition hnames.1 hnodes.1).bind
        fun condition' hcondition => ?_
      refine (yields_lowerStmts_keeps h body hnames.2 hnodes.2).bind fun body' hbody => ?_
      apply LowerM.yields_pure
      simp only [Stmt.eval]
      exact (hcondition.value.loopStep (hbody none)).repeatLoop loops
  | .forIn loopVar iterable body, hnames, hnodes => by
      simp only [Stmt.names, List.forall_mem_cons, List.forall_mem_append] at hnames
      simp only [Stmt.nodes, List.forall_mem_append] at hnodes
      refine (yields_lower_keeps h iterable hnames.2.1 hnodes.1).bind
        fun iterable' hiterable => ?_
      refine (yields_lowerStmts_keeps h body hnames.2.2 hnodes.2).bind fun body' hbody => ?_
      apply LowerM.yields_pure
      simp only [Stmt.eval]
      refine hiterable.value.bind fun value => ?_
      refine (steady_iterationValues value).bind fun items => ?_
      exact Agrees.forEach (fun item => agrees_inChildScope _ (hbody none)) items
  | .throw value, hnames, hnodes => by
      simp only [Stmt.names] at hnames
      simp only [Stmt.nodes] at hnodes
      refine (yields_lower_keeps h value hnames hnodes).bind fun value' hvalue => ?_
      apply LowerM.yields_pure
      simp only [Stmt.eval]
      refine hvalue.value.bind fun value => ?_
      exact (steady_textOf value).bind fun text => agrees_fail _

theorem yields_lowerStmts_keeps (h : Surroundings settings lib hidden runBody) :
    (body : List Stmt) → (∀ name ∈ namesOfStmts body, ¬ hidden name) →
      (∀ node ∈ nodesOfStmts body, node.Survives settings cls) →
      (lowerStmts settings cls body).Yields fun out =>
        ∀ last, Agrees hidden (evalStmts lib loops runBody last body)
          (evalStmts lib loops runBody last out)
  | [], _, _ => LowerM.yields_pure fun _ => agrees_pure _
  | s :: rest, hnames, hnodes => by
      simp only [namesOfStmts, List.forall_mem_append] at hnames
      simp only [nodesOfStmts, List.forall_mem_append] at hnodes
      refine (yields_lowerStmt_keeps h s hnames.1 hnodes.1).bind fun s' hs => ?_
      refine (yields_lowerStmts_keeps h rest hnames.2 hnodes.2).bind fun rest' hrest => ?_
      apply LowerM.yields_pure
      intro last
      simp only [evalStmts]
      refine hs.bind fun flow => ?_
      cases flow with
      | returned value => exact agrees_pure _
      | normal value => exact hrest value

end

end Trees

/-! ## Bodies of closures -/

theorem Rules.contains_none (rule : Rule) : Rules.none.contains rule = false := by
  cases rule <;> rfl

/-- The same settings with no rule enabled. -/
def Settings.withoutRules (settings : Settings) : Settings :=
  { settings with config := { settings.config with rules := .none } }

theorem Settings.isEnabled_withoutRules (settings : Settings) (rule : Rule) :
    settings.withoutRules.config.isEnabled rule = false :=
  Rules.contains_none rule

theorem Settings.settled_withoutRules (settings : Settings) (cls : TypeId)
    (nodes : List Expr) : settings.withoutRules.Settled cls nodes := by
  intro node _ rule
  unfold Settings.rewrites
  rw [settings.isEnabled_withoutRules rule, Bool.false_and]

theorem Expr.survives_withoutRules (settings : Settings) (cls : TypeId) (node : Expr) :
    node.Survives settings.withoutRules cls := by
  cases node with
  | binary info op opSpan left right =>
      intro henabled
      rw [settings.isEnabled_withoutRules] at henabled
      exact absurd henabled (by simp)
  | closure info params body scope => exact settings.settled_withoutRules cls _
  | _ => trivial

/-- A body without hidden names runs the same way in states that agree: it is what no rule
makes of it. -/
theorem stableBodies_runBody {settings : Settings} {lib : Library} {hidden : String → Prop}
    (htemporaries : ∀ number, hidden (syntheticName settings.config.temporaryStem number))
    (hnatives : lib.KeepsClosures) (budget : Nat) :
    StableBodies hidden (StaticDispatch.runBody lib budget) := by
  induction budget with
  | zero => exact fun _ _ => agrees_throw _
  | succ budget ih =>
      intro body hnames
      have hsurroundings : Surroundings settings.withoutRules lib hidden
          (StaticDispatch.runBody lib budget) :=
        ⟨htemporaries, settings.isEnabled_withoutRules _, settings.isEnabled_withoutRules _,
          hnatives, ih⟩
      have hbody := yields_lowerStmts_keeps .object budget hsurroundings body hnames
        (fun node _ => node.survives_withoutRules settings .object) {} none
      rw [lowerStmts_of_settled settings.withoutRules .object body
        (settings.settled_withoutRules .object _)] at hbody
      exact hbody

/-! ## Programs -/

/-- No closure, and no operator resolved to a method but arithmetic and assignment with it
to a target that can be read twice. -/
def Expr.IsPlain : Expr → Prop
  | .closure _ _ _ _ => False
  | .binary info op _ left _ =>
      info.facts.operatorTarget.isSome = true → op.keepsMeaning left = true
  | _ => True

theorem Expr.IsPlain.survives {node : Expr} (h : node.IsPlain) (settings : Settings)
    (cls : TypeId) : node.Survives settings cls := by
  cases node with
  | binary info op opSpan left right => exact fun _ htarget => h htarget
  | closure info params body scope => exact h.elim
  | _ => trivial

/-- Without the rules for arrays and keyword constructors, a lowered tree gives in every
state the answer of its original and leaves the same state but for temporaries. -/
theorem evaluate_lower_agrees (settings : Settings) (lib : Library)
    (harray : settings.config.isEnabled .arrayIndex = false)
    (hkeywords : settings.config.isEnabled .namedConstructors = false)
    (hnatives : lib.KeepsClosures) (cls : TypeId) (session : Session) (budget : Nat)
    (state : State) (hscope : state.HasScope)
    (hclosures : state.heap.Avoids (IsSynthetic settings.config.temporaryStem)) :
    (∀ e : Expr, (∀ name ∈ e.names, ¬ IsSynthetic settings.config.temporaryStem name) →
      (∀ node ∈ e.nodes, node.IsPlain) →
      let out := ((e.lower settings cls).run session).1
      let before := (evaluate lib budget e).run state
      let after := (evaluate lib budget out).run state
      after.1 = before.1 ∧
        before.2.Agrees (IsSynthetic settings.config.temporaryStem) after.2) ∧
    (∀ body : Block,
      (∀ name ∈ namesOfStmts body, ¬ IsSynthetic settings.config.temporaryStem name) →
      (∀ node ∈ nodesOfStmts body, node.IsPlain) →
      let out := ((lowerStmts settings cls body).run session).1
      let before := (executeBlock lib budget body).run state
      let after := (executeBlock lib budget out).run state
      after.1 = before.1 ∧
        before.2.Agrees (IsSynthetic settings.config.temporaryStem) after.2) := by
  have htemporaries : ∀ number, IsSynthetic settings.config.temporaryStem
      (syntheticName settings.config.temporaryStem number) := fun number => ⟨number, rfl⟩
  have hsurroundings : Surroundings settings lib (IsSynthetic settings.config.temporaryStem)
      (runBody lib budget) :=
    ⟨htemporaries, harray, hkeywords, hnatives,
      stableBodies_runBody htemporaries hnatives budget⟩
  have hstate := State.Agrees.refl hscope hclosures
  constructor
  · intro e hnames hnodes out before after
    have hkeeps := yields_lower_keeps cls budget hsurroundings e hnames
      (fun node hnode => (hnodes node hnode).survives settings cls) session
    obtain ⟨hresult, hagrees, -⟩ := hkeeps.value state state hstate
    exact ⟨hresult, hagrees⟩
  · intro body hnames hnodes out before after
    have hkeeps := yields_lowerStmts_keeps cls budget hsurroundings body hnames
      (fun node hnode => (hnodes node hnode).survives settings cls) session none
    have hblock : Agrees (IsSynthetic settings.config.temporaryStem)
        (executeBlock lib budget body) (executeBlock lib budget out) :=
      (agrees_inChildScope {} hkeeps).bind fun flow => agrees_pure _
    obtain ⟨hresult, hagrees, -⟩ := hblock state state hstate
    exact ⟨hresult, hagrees⟩

/-- `text?.trim()?.size()` -/
def safeChain : Expr :=
  .methodCall {} (.methodCall {} (.var {} "text" none) "trim" [] true false) "size" [] true false

theorem evaluate_lower_agrees_safeChain :
    let settings : Settings := ⟨.initial, .empty, { rules := ⟨11⟩ }⟩
    let state : State := { scopes := #[⟨[("text", .text " ab ")]⟩] }
    let out := ((safeChain.lower settings .object).run {}).1
    ((evaluate ⟨.initial, {}⟩ 0 out).run state).1 = .ok (.int 2) := by
  intro settings state out
  have hnatives : Library.KeepsClosures ⟨.initial, {}⟩ := fun key native h => nomatch h
  have hclosures : state.heap.Avoids (IsSynthetic settings.config.temporaryStem) :=
    fun a code h => nomatch h
  have hnames : ∀ name ∈ safeChain.names,
      ¬ IsSynthetic settings.config.temporaryStem name := by
    intro name hname
    obtain rfl : name = "text" := by simpa [safeChain, Expr.names, namesOfExprs] using hname
    exact not_isSynthetic_of_not_prefix (by decide)
  have hnodes : ∀ node ∈ safeChain.nodes, node.IsPlain := by
    simp [safeChain, Expr.nodes, nodesOfExprs, Expr.IsPlain]
  have hagrees := (evaluate_lower_agrees settings ⟨.initial, {}⟩ (by decide) (by decide)
    hnatives .object {} 0 state ⟨0, [], rfl, by decide⟩ hclosures).1 safeChain hnames hnodes
  exact hagrees.1.trans rfl

end StaticDispatch
