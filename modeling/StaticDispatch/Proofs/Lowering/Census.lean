import StaticDispatch.Proofs.Lowering.Invariant
import StaticDispatch.Proofs.Lowering.Sugar

/-!
# The counts of a lowering

Every node of a tree is looked at by its rule exactly once, and whether the
rule takes it can be seen on the tree before anything is lowered.  The counts of
a run are therefore numbers of nodes of the input.  Only access to elements
depends on static types of lowered trees; the names of the calls bound it.
-/

namespace StaticDispatch

namespace Stats

variable (a b c : Stats)

@[simp] theorem add_safeNavigation :
    (a + b).safeNavigation = a.safeNavigation + b.safeNavigation := rfl

@[simp] theorem add_operatorCalls :
    (a + b).operatorCalls = a.operatorCalls + b.operatorCalls := rfl

@[simp] theorem add_comparisons : (a + b).comparisons = a.comparisons + b.comparisons := rfl

@[simp] theorem add_compoundAssignments :
    (a + b).compoundAssignments = a.compoundAssignments + b.compoundAssignments := rfl

@[simp] theorem add_arrayAccesses :
    (a + b).arrayAccesses = a.arrayAccesses + b.arrayAccesses := rfl

@[simp] theorem add_staticCalls : (a + b).staticCalls = a.staticCalls + b.staticCalls := rfl

@[simp] theorem add_namedConstructors :
    (a + b).namedConstructors = a.namedConstructors + b.namedConstructors := rfl

theorem add_comm : a + b = b + a := by
  change combine (· + ·) a b = combine (· + ·) b a
  simp [combine, Nat.add_comm]

theorem add_assoc : a + b + c = a + (b + c) := by
  change combine (· + ·) (combine (· + ·) a b) c = combine (· + ·) a (combine (· + ·) b c)
  simp [combine, Nat.add_assoc]

end Stats

/-! ## Counting steps -/

namespace LowerM

variable {α β : Type}

/-- In every session the step adds counts that have the property together with its answer. -/
def Counts (step : LowerM α) (property : Stats → α → Prop) : Prop :=
  ∀ session, ∃ applied, (step.run session).2.stats = session.stats + applied ∧
    property applied (step.run session).1

def CountsNothing (step : LowerM α) : Prop :=
  ∀ session, (step.run session).2.stats = session.stats

variable {step : LowerM α} {next : α → LowerM β} {property : Stats → α → Prop}
  {goal : Stats → β → Prop}

theorem counts_pure {a : α} (h : property {} a) : Counts (pure a) property :=
  fun _ => ⟨{}, rfl, h⟩

theorem Counts.mono {weaker : Stats → α → Prop} (h : Counts step property)
    (himp : ∀ applied a, property applied a → weaker applied a) : Counts step weaker := by
  intro session
  obtain ⟨applied, hstats, hproperty⟩ := h session
  exact ⟨applied, hstats, himp _ _ hproperty⟩

theorem Counts.bind (hstep : Counts step property)
    (hnext : ∀ applied a, property applied a →
      Counts (next a) fun more b => goal (applied + more) b) :
    Counts (step >>= next) goal := by
  intro session
  obtain ⟨applied, hstats, hproperty⟩ := hstep session
  obtain ⟨more, hstats', hgoal⟩ := hnext applied _ hproperty (step.run session).2
  refine ⟨applied + more, ?_, hgoal⟩
  rw [← Stats.add_assoc, ← hstats]
  exact hstats'

theorem counts_count_bind {applied : Stats} {next : Unit → LowerM β}
    (hnext : Counts (next ()) fun more b => goal (applied + more) b) :
    Counts (count applied >>= next) goal := by
  intro session
  obtain ⟨more, hstats, hgoal⟩ := hnext { session with stats := session.stats + applied }
  exact ⟨applied + more, hstats.trans (Stats.add_assoc ..), hgoal⟩

theorem countsNothing_pure (a : α) : CountsNothing (pure a : LowerM α) :=
  fun _ => rfl

theorem CountsNothing.bind (hstep : CountsNothing step) (hnext : ∀ a, CountsNothing (next a)) :
    CountsNothing (step >>= next) :=
  fun session => (hnext _ (step.run session).2).trans (hstep session)

theorem CountsNothing.bind_counts {answer : α → Prop} (hstep : CountsNothing step)
    (hanswer : Yields step answer) (hnext : ∀ a, answer a → Counts (next a) goal) :
    Counts (step >>= next) goal := by
  intro session
  obtain ⟨applied, hstats, hgoal⟩ := hnext _ (hanswer session) (step.run session).2
  exact ⟨applied, hstats.trans (by rw [hstep session]), hgoal⟩

end LowerM

open LowerM

section Rules

variable (settings : Settings) (cls : TypeId)

theorem countsNothing_bindTemporary (value : Expr) :
    CountsNothing (bindTemporary settings cls value) :=
  fun _ => rfl

theorem countsNothing_splitReceiver (receiver : Expr) :
    CountsNothing (splitReceiver settings cls receiver) := by
  unfold splitReceiver
  split
  · exact countsNothing_bindTemporary settings cls receiver
  · exact countsNothing_pure _

theorem countsNothing_stableOperand (operand : Expr) :
    CountsNothing (stableOperand settings cls operand) := by
  unfold stableOperand
  split
  · exact countsNothing_pure _
  · exact (countsNothing_bindTemporary settings cls operand).bind fun _ => countsNothing_pure _

theorem countsNothing_stableTarget (target : Expr) :
    CountsNothing (stableTarget settings cls target) := by
  unfold stableTarget
  split
  · exact (countsNothing_stableOperand settings cls _).bind fun _ => countsNothing_pure _
  · refine (countsNothing_stableOperand settings cls _).bind fun _ => ?_
    exact (countsNothing_stableOperand settings cls _).bind fun _ => countsNothing_pure _
  · exact countsNothing_pure _

theorem countsNothing_renewScope (before : Nat) (params : List Param) (body : Block)
    (scope : Option VariableScope) : CountsNothing (renewScope before params body scope) := by
  intro session
  rw [run_renewScope]
  split <;> rfl

end Rules

/-! ## What is counted -/

def Expr.isSafeCall : Expr → Bool
  | .methodCall _ _ _ _ safe _ => safe
  | _ => false

def isElementName (name : String) : Bool :=
  name == "getAt" || name == "putAt"

/-- A call of a name that may stand for access to an element. -/
def Expr.isElementCall : Expr → Bool
  | .methodCall _ _ name _ _ _ => isElementName name
  | _ => false

def Expr.isResolvedStaticCall : Expr → Bool
  | .staticCall info _ _ _ => info.facts.callTarget.isSome
  | _ => false

/-- A call that passes keywords to a map constructor that the resolver added. -/
def Expr.isKeywordCall (types : TypeTable) : Expr → Bool
  | .constructorCall info _ args => (keywordConstructor? types info args).isSome
  | _ => false

/-- The operator of a binary node that was resolved to a method. -/
def Expr.resolvedOperator? : Expr → Option BinaryOp
  | .binary info op _ _ _ => if info.facts.operatorTarget.isSome then some op else none
  | _ => none

namespace Settings

variable (settings : Settings)

/-- A resolved comparison that goes through a routine of the adapter. -/
def isRoutedComparison (node : Expr) : Bool :=
  node.resolvedOperator?.any settings.hasRoutine

def isResolvedAssignment (node : Expr) : Bool :=
  node.resolvedOperator?.any BinaryOp.isAssignment

/-- Any other resolved operator. -/
def isCalledOperator (node : Expr) : Bool :=
  node.resolvedOperator?.any fun op => !settings.hasRoutine op && !op.isAssignment

/-- The number of nodes of that kind if the rule is enabled, and else zero. -/
def countFor (rule : Rule) (kind : Expr → Bool) (nodes : List Expr) : Nat :=
  if settings.config.isEnabled rule then nodes.countP kind else 0

@[simp] theorem countFor_nil (rule : Rule) (kind : Expr → Bool) :
    settings.countFor rule kind [] = 0 := by
  simp [countFor]

@[simp] theorem countFor_append (rule : Rule) (kind : Expr → Bool) (before after : List Expr) :
    settings.countFor rule kind (before ++ after) =
      settings.countFor rule kind before + settings.countFor rule kind after := by
  unfold countFor
  split
  · exact List.countP_append
  · rfl

theorem countFor_singleton (rule : Rule) (kind : Expr → Bool) (node : Expr) :
    settings.countFor rule kind [node] =
      (settings.config.isEnabled rule && kind node).toNat := by
  unfold countFor
  cases settings.config.isEnabled rule <;> cases hkind : kind node <;> simp [hkind]

/-- The counts are the numbers of nodes that the enabled rules take; access to elements is
counted for some of the calls of its names. -/
structure Census (nodes : List Expr) (applied : Stats) : Prop where
  safeNavigation :
    applied.safeNavigation = settings.countFor .safeNavigation Expr.isSafeCall nodes
  comparisons :
    applied.comparisons = settings.countFor .binaryOperators settings.isRoutedComparison nodes
  compoundAssignments :
    applied.compoundAssignments = settings.countFor .binaryOperators isResolvedAssignment nodes
  operatorCalls :
    applied.operatorCalls = settings.countFor .binaryOperators settings.isCalledOperator nodes
  staticCalls :
    applied.staticCalls = settings.countFor .staticCalls Expr.isResolvedStaticCall nodes
  namedConstructors :
    applied.namedConstructors =
      settings.countFor .namedConstructors (Expr.isKeywordCall settings.types) nodes
  arrayAccesses :
    applied.arrayAccesses ≤ settings.countFor .arrayIndex Expr.isElementCall nodes

variable {settings}

theorem Census.nil : settings.Census [] {} := by
  constructor <;> simp

theorem Census.append {before after : List Expr} {applied more : Stats}
    (hbefore : settings.Census before applied) (hafter : settings.Census after more) :
    settings.Census (before ++ after) (applied + more) where
  safeNavigation := by simp [hbefore.safeNavigation, hafter.safeNavigation]
  comparisons := by simp [hbefore.comparisons, hafter.comparisons]
  compoundAssignments := by simp [hbefore.compoundAssignments, hafter.compoundAssignments]
  operatorCalls := by simp [hbefore.operatorCalls, hafter.operatorCalls]
  staticCalls := by simp [hbefore.staticCalls, hafter.staticCalls]
  namedConstructors := by simp [hbefore.namedConstructors, hafter.namedConstructors]
  arrayAccesses := by
    have hle := Nat.add_le_add hbefore.arrayAccesses hafter.arrayAccesses
    simpa using hle

end Settings

/-! ## What the rules count -/

section Kinds

variable {settings : Settings} {applied : Stats}

theorem Settings.Census.inert {node : Expr} (hsafe : node.isSafeCall = false)
    (helement : node.isElementCall = false) (hstatic : node.isResolvedStaticCall = false)
    (hkeyword : node.isKeywordCall settings.types = false)
    (hoperator : node.resolvedOperator? = none) : settings.Census [node] {} := by
  constructor <;>
    simp [Settings.countFor_singleton, Settings.isRoutedComparison,
      Settings.isResolvedAssignment, Settings.isCalledOperator, hsafe, helement, hstatic,
      hkeyword, hoperator]

theorem census_of_sameFrame {e e' : Expr} (h : e.SameFrame e') : settings.Census [e] {} := by
  cases h <;> exact Settings.Census.inert rfl rfl rfl rfl rfl

theorem census_methodCall (info : Info) (receiver : Expr) (args : List Expr) (spread : Bool)
    {name : String} {safe : Bool}
    (hsafe : applied.safeNavigation = (settings.config.isEnabled .safeNavigation && safe).toNat)
    (haccesses : applied.arrayAccesses ≤
      (settings.config.isEnabled .arrayIndex && isElementName name).toNat)
    (hrest : applied =
      { safeNavigation := applied.safeNavigation, arrayAccesses := applied.arrayAccesses }) :
    settings.Census [.methodCall info receiver name args safe spread] applied := by
  rw [hrest]
  constructor <;>
    simp [Settings.countFor_singleton, Settings.isRoutedComparison,
      Settings.isResolvedAssignment, Settings.isCalledOperator, Expr.isSafeCall,
      Expr.isElementCall, Expr.isResolvedStaticCall, Expr.isKeywordCall, Expr.resolvedOperator?,
      hsafe, haccesses]

theorem census_staticCall (info : Info) (owner : TypeId) (name : String) (args : List Expr) :
    settings.Census [.staticCall info owner name args]
      { staticCalls :=
          (settings.config.isEnabled .staticCalls && info.facts.callTarget.isSome).toNat } := by
  constructor <;>
    simp [Settings.countFor_singleton, Settings.isRoutedComparison,
      Settings.isResolvedAssignment, Settings.isCalledOperator, Expr.isSafeCall,
      Expr.isElementCall, Expr.isResolvedStaticCall, Expr.isKeywordCall, Expr.resolvedOperator?]

theorem census_constructorCall (info : Info) (type : TypeId) (args : List Expr) :
    settings.Census [.constructorCall info type args]
      { namedConstructors :=
          (settings.config.isEnabled .namedConstructors &&
            (keywordConstructor? settings.types info args).isSome).toNat } := by
  constructor <;>
    simp [Settings.countFor_singleton, Settings.isRoutedComparison,
      Settings.isResolvedAssignment, Settings.isCalledOperator, Expr.isSafeCall,
      Expr.isElementCall, Expr.isResolvedStaticCall, Expr.isKeywordCall, Expr.resolvedOperator?]

/-- What an operator adds that the rule takes. -/
def Settings.operatorStats (settings : Settings) (op : BinaryOp) : Stats :=
  { comparisons := (settings.hasRoutine op).toNat
    compoundAssignments := op.isAssignment.toNat
    operatorCalls := (!settings.hasRoutine op && !op.isAssignment).toNat }

theorem census_binary (info : Info) (op : BinaryOp) (opSpan : Span) (left right : Expr) :
    settings.Census [.binary info op opSpan left right]
      (if settings.config.isEnabled .binaryOperators && info.facts.operatorTarget.isSome then
        settings.operatorStats op else {}) := by
  cases henabled : settings.config.isEnabled .binaryOperators <;>
    cases htarget : info.facts.operatorTarget.isSome <;>
      constructor <;>
        simp [Settings.countFor_singleton, Settings.isRoutedComparison,
          Settings.isResolvedAssignment, Settings.isCalledOperator, Expr.isSafeCall,
          Expr.isElementCall, Expr.isResolvedStaticCall, Expr.isKeywordCall,
          Expr.resolvedOperator?, Settings.operatorStats, henabled, htarget]

end Kinds

section Rules

variable (settings : Settings) (cls : TypeId)

theorem counts_lowerPlainCall (info : Info) (receiver : Expr) (name : String)
    (args : List Expr) (spread : Bool) :
    Counts (lowerPlainCall settings cls info receiver name args spread) fun applied _ =>
      applied = { arrayAccesses := applied.arrayAccesses } ∧
        applied.arrayAccesses ≤
          (settings.config.isEnabled .arrayIndex && isElementName name).toNat := by
  unfold lowerPlainCall
  split
  · rename_i henabled
    unfold lowerArrayAccess
    cases haccess : arrayAccess? settings.types cls receiver name args with
    | none => exact counts_pure ⟨rfl, Nat.zero_le _⟩
    | some access =>
        have hname : isElementName name = true := by
          cases access with
          | read component index => simp [isElementName, (arrayAccess?_eq_read cls haccess).1]
          | write component index value =>
              simp [isElementName, (arrayAccess?_eq_write cls haccess).1]
        have hone : 1 ≤ (settings.config.isEnabled .arrayIndex && isElementName name).toNat := by
          simp [henabled, hname]
        cases access with
        | read component index => exact counts_count_bind (counts_pure ⟨rfl, hone⟩)
        | write component index value => exact counts_count_bind (counts_pure ⟨rfl, hone⟩)
  · exact counts_pure ⟨rfl, Nat.zero_le _⟩

theorem counts_lowerMethodCall_census (info : Info) (receiver receiver' : Expr) (name : String)
    (args args' : List Expr) (safe spread : Bool) :
    Counts (lowerMethodCall settings cls info receiver' name args' safe spread) fun applied _ =>
      settings.Census [.methodCall info receiver name args safe spread] applied := by
  unfold lowerMethodCall
  cases safe with
  | true =>
      simp only [if_true]
      split
      · rename_i henabled
        unfold lowerSafeCall
        refine (countsNothing_splitReceiver settings cls receiver').bind_counts
          (yields_splitReceiver_staticType? settings cls receiver') fun pair _ => ?_
        apply counts_count_bind
        -- the plain call inside may be counted as access to an element besides
        refine (counts_lowerPlainCall settings cls info pair.2 name args' spread).bind ?_
        rintro applied call ⟨hrest, haccesses⟩
        apply counts_pure
        rw [hrest]
        apply census_methodCall
        · simp [henabled]
        · simpa using haccesses
        · rfl
      · rename_i hdisabled
        apply counts_pure
        apply census_methodCall
        · simp [hdisabled]
        · exact Nat.zero_le _
        · rfl
  | false =>
      refine (counts_lowerPlainCall settings cls info receiver' name args' spread).mono ?_
      rintro applied call ⟨hrest, haccesses⟩
      apply census_methodCall
      · rw [hrest]
        simp
      · exact haccesses
      · rw [hrest]

theorem counts_lowerStaticCall_census (info : Info) (owner : TypeId) (name : String)
    (args args' : List Expr) :
    Counts (lowerStaticCall settings info owner name args') fun applied _ =>
      settings.Census [.staticCall info owner name args] applied := by
  have hcensus : settings.Census _ _ := census_staticCall info owner name args
  unfold lowerStaticCall
  split
  · rename_i htaken
    rw [htaken] at hcensus
    exact counts_count_bind (counts_pure hcensus)
  · rename_i hdeclined
    rw [Bool.not_eq_true] at hdeclined
    rw [hdeclined] at hcensus
    exact counts_pure hcensus

theorem counts_lowerConstructorCall (info : Info) (type : TypeId) (args : List Expr) :
    Counts (lowerConstructorCall settings info type args) fun applied _ =>
      applied =
        { namedConstructors :=
            (settings.config.isEnabled .namedConstructors &&
              (keywordConstructor? settings.types info args).isSome).toNat } := by
  unfold lowerConstructorCall
  cases hkeyword : keywordConstructor? settings.types info args with
  | none => exact counts_pure (by simp)
  | some found =>
      obtain ⟨owner, entries⟩ := found
      cases henabled : settings.config.isEnabled .namedConstructors with
      | false => exact counts_pure (by simp)
      | true =>
          -- neither drawing the name nor recording the scope touches the counts
          exact fun session => ⟨_, rfl, rfl⟩

theorem counts_lowerConstructorCall_census (info : Info) (type : TypeId)
    {args args' : List Expr}
    (hkeywords : (keywordEntries? args').isSome = (keywordEntries? args).isSome) :
    Counts (lowerConstructorCall settings info type args') fun applied _ =>
      settings.Census [.constructorCall info type args] applied := by
  refine (counts_lowerConstructorCall settings info type args').mono ?_
  rintro applied out rfl
  rw [keywordConstructor?_isSome, hkeywords, ← keywordConstructor?_isSome]
  exact census_constructorCall info type args

theorem counts_lowerOperatorAssignment (span opSpan : Span) (type : Option TypeId)
    (target : OperatorTarget) (left right : Expr) :
    Counts (lowerOperatorAssignment settings cls span opSpan type target left right)
      fun applied _ => applied = { compoundAssignments := 1 } := by
  unfold lowerOperatorAssignment
  refine (countsNothing_stableTarget settings cls left).bind_counts
    (yields_stableTarget settings cls left) fun pair _ => ?_
  exact counts_count_bind (counts_pure rfl)

theorem counts_lowerResolvedOperator (info : Info) (target : OperatorTarget) (op : BinaryOp)
    (opSpan : Span) (left right : Expr) :
    Counts (lowerResolvedOperator settings cls info target op opSpan left right)
      fun applied _ => applied = settings.operatorStats op := by
  have hassignment := counts_lowerOperatorAssignment settings cls info.span opSpan
    info.facts.inferredType target left right
  unfold lowerResolvedOperator
  cases op with
  | comparison comparison =>
      simp only [Settings.operatorStats, Settings.hasRoutine]
      cases settings.adapters.routine? comparison with
      | none => exact counts_count_bind (counts_pure rfl)
      | some routine => exact counts_count_bind (counts_pure rfl)
  | assign => exact hassignment
  | compound _ => exact hassignment
  | arithmetic _ => exact counts_count_bind (counts_pure rfl)
  | and => exact counts_count_bind (counts_pure rfl)
  | or => exact counts_count_bind (counts_pure rfl)
  | index => exact counts_count_bind (counts_pure rfl)

theorem counts_lowerBinary_census (info : Info) (op : BinaryOp) (opSpan : Span)
    (left left' right right' : Expr) :
    Counts (lowerBinary settings cls info op opSpan left' right') fun applied _ =>
      settings.Census [.binary info op opSpan left right] applied := by
  have hcensus : settings.Census _ _ := census_binary info op opSpan left right
  unfold lowerBinary
  cases htarget : info.facts.operatorTarget with
  | none =>
      rw [htarget, Option.isSome_none, Bool.and_false] at hcensus
      exact counts_pure hcensus
  | some target =>
      rw [htarget, Option.isSome_some, Bool.and_true] at hcensus
      cases henabled : settings.config.isEnabled .binaryOperators with
      | false =>
          rw [henabled] at hcensus
          exact counts_pure hcensus
      | true =>
          rw [henabled] at hcensus
          refine (counts_lowerResolvedOperator settings cls info target op opSpan left'
            right').mono ?_
          rintro applied out rfl
          exact hcensus

end Rules

/-! ## What a run counts -/

/-- A run adds to the counts a census of the trees before it. -/
def CountsCensus (settings : Settings) (es : List Expr) (s : Session) (s' : Session) : Prop :=
  ∃ applied, s'.stats = s.stats + applied ∧ settings.Census (nodesOfExprs es) applied

section Runs

variable {settings : Settings}

theorem CountsCensus.rule {e : Expr} {s s' s'' : Session}
    (hchildren : CountsCensus settings e.children s s')
    (hnode : ∃ applied, s''.stats = s'.stats + applied ∧ settings.Census [e] applied) :
    CountsCensus settings [e] s s'' := by
  obtain ⟨applied, hstats, hcensus⟩ := hchildren
  obtain ⟨more, hstats', hcensus'⟩ := hnode
  refine ⟨applied + more, by rw [hstats', hstats, Stats.add_assoc], ?_⟩
  have hnodes : nodesOfExprs [e] = [e] ++ nodesOfExprs e.children := by
    simp [nodesOfExprs, e.nodes_eq]
  rw [hnodes, Stats.add_comm]
  exact hcensus'.append hcensus

theorem loweringInvariant_census :
    LoweringInvariant settings fun es s _ s' => CountsCensus settings es s s' where
  nil session diagnostics := ⟨{}, rfl, Settings.Census.nil⟩
  append h h' := by
    obtain ⟨applied, hstats, hcensus⟩ := h
    obtain ⟨more, hstats', hcensus'⟩ := h'
    refine ⟨applied + more, by rw [hstats', hstats, Stats.add_assoc], ?_⟩
    rw [nodesOfExprs_append]
    exact hcensus.append hcensus'
  frame h hchildren := hchildren.rule ⟨{}, rfl, census_of_sameFrame h⟩
  methodCall cls info name safe spread _ receiver' _ args' _ s' h :=
    h.rule (counts_lowerMethodCall_census settings cls info _ receiver' name _ args' safe spread s')
  staticCall info owner name _ args' _ s' h :=
    h.rule (counts_lowerStaticCall_census settings info owner name _ args' s')
  constructorCall cls info type args s h :=
    h.rule (counts_lowerConstructorCall_census settings info type
      (yields_lowerExprs_keywords settings cls args s) _)
  binary cls info op opSpan left right s h :=
    h.rule (counts_lowerBinary_census settings cls info op opSpan left _ right _ _)
  closure cls info params body scope s h :=
    h.rule ⟨{}, countsNothing_renewScope s.nextName params _ scope _,
      Settings.Census.inert rfl rfl rfl rfl rfl⟩

end Runs

/-- In every session the lowering of an expression, a class or a method adds to the counts a
census of its nodes.  A field by itself is rejected before any of its nodes is worked through,
and adds nothing. -/
theorem lower_adds_census (settings : Settings) (task : Task) (session : Session) :
    ∃ applied, ((task.lower settings).run session).2.stats = session.stats + applied ∧
      settings.Census (nodesOfExprs task.exprs) applied :=
  loweringInvariant_census.task task session

/-- The field `length = text?.size()` by itself. -/
def lengthField : FieldUnit :=
  { name := "length"
    type := .object
    initializer := some (.methodCall {} (.var {} "text" none) "size" [] true false)
    span := {} }

/-- The safe call in a rejected field is not counted. -/
theorem not_census_lengthField :
    let settings : Settings := ⟨.initial, .ofTypes .initial, {}⟩
    let task := Task.whole (.fieldUnit lengthField)
    ¬ ∃ applied, ((task.lower settings).run {}).2.stats = {} + applied ∧
      settings.Census (nodesOfExprs lengthField.exprs) applied := by
  rintro settings task ⟨applied, hstats, hcensus⟩
  have hcalls : settings.countFor .safeNavigation Expr.isSafeCall
      (nodesOfExprs lengthField.exprs) = 1 := by
    decide
  have hone := hcensus.safeNavigation
  have hzero : 0 = 0 + applied.safeNavigation := congrArg Stats.safeNavigation hstats
  omega

end StaticDispatch
