import StaticDispatch.Proofs.Lowering.Sugar

/-!
# Lowering lowered trees

A tree with no node that an enabled rule takes is left as it is, and the session
with it.  What a lowering leaves for the rules is known node by node, so that
the trees on which a second lowering changes nothing are known as well.
-/

namespace StaticDispatch

/-! ## Settled trees -/

namespace Settings

/-- No enabled rule takes any of the nodes. -/
def Settled (settings : Settings) (cls : TypeId) (nodes : List Expr) : Prop :=
  ∀ node ∈ nodes, ∀ rule, settings.rewrites rule cls node = false

variable {settings : Settings} {cls : TypeId}

theorem settled_cons {node : Expr} {rest : List Expr} :
    settings.Settled cls (node :: rest) ↔
      (∀ rule, settings.rewrites rule cls node = false) ∧ settings.Settled cls rest :=
  List.forall_mem_cons

theorem settled_append {before after : List Expr} :
    settings.Settled cls (before ++ after) ↔
      settings.Settled cls before ∧ settings.Settled cls after :=
  List.forall_mem_append

theorem settled_iff_rewritesAny {nodes : List Expr} :
    settings.Settled cls nodes ↔ ∀ rule, settings.rewritesAny rule cls nodes = false := by
  constructor
  · intro h rule
    apply List.any_eq_false.mpr
    intro node hnode
    simp [h node hnode rule]
  · intro h node hnode rule
    have hany := List.any_eq_false.mp (h rule) node hnode
    simpa using hany

end Settings

open Settings

section Rules

variable {settings : Settings} {cls : TypeId}

theorem lowerMethodCall_of_settled {info : Info} {receiver : Expr} {name : String}
    {args : List Expr} {safe spread : Bool}
    (h : ∀ rule,
      settings.rewrites rule cls (.methodCall info receiver name args safe spread) = false) :
    lowerMethodCall settings cls info receiver name args safe spread =
      pure (.methodCall info receiver name args safe spread) := by
  have hsafe := h .safeNavigation
  have harray := h .arrayIndex
  unfold lowerMethodCall
  cases safe with
  | true =>
      have hdisabled : settings.config.isEnabled .safeNavigation = false := by
        simpa using hsafe
      simp [hdisabled]
  | false =>
      unfold lowerPlainCall
      cases henabled : settings.config.isEnabled .arrayIndex with
      | false => rfl
      | true =>
          have haccess : arrayAccess? settings.types cls receiver name args = none := by
            simpa [henabled] using harray
          simp [lowerArrayAccess, haccess]

theorem lowerStaticCall_of_settled {info : Info} {owner : TypeId} {name : String}
    {args : List Expr}
    (h : ∀ rule, settings.rewrites rule cls (.staticCall info owner name args) = false) :
    lowerStaticCall settings info owner name args = pure (.staticCall info owner name args) := by
  have hstatic := h .staticCalls
  simp only [rewrites_staticCall, BEq.rfl, Bool.true_and] at hstatic
  unfold lowerStaticCall
  rw [hstatic]
  rfl

theorem lowerConstructorCall_of_settled {info : Info} {type : TypeId} {args : List Expr}
    (h : ∀ rule, settings.rewrites rule cls (.constructorCall info type args) = false) :
    lowerConstructorCall settings info type args =
      pure (.constructorCall info type args) := by
  have hkeyword := h .namedConstructors
  unfold lowerConstructorCall
  cases hfound : keywordConstructor? settings.types info args with
  | none => rfl
  | some found =>
      have hdisabled : settings.config.isEnabled .namedConstructors = false := by
        simpa [hfound] using hkeyword
      simp [hdisabled]

theorem lowerBinary_of_settled {info : Info} {op : BinaryOp} {opSpan : Span}
    {left right : Expr}
    (h : ∀ rule, settings.rewrites rule cls (.binary info op opSpan left right) = false) :
    lowerBinary settings cls info op opSpan left right =
      pure (.binary info op opSpan left right) := by
  have hoperator := h .binaryOperators
  unfold lowerBinary
  cases htarget : info.facts.operatorTarget with
  | none => rfl
  | some target =>
      have hdisabled : settings.config.isEnabled .binaryOperators = false := by
        simpa [htarget] using hoperator
      simp [hdisabled]

end Rules

/-- A closure whose body drew no names keeps its scope. -/
theorem renewScope_unchanged (params : List Param) (body : Block)
    (scope : Option VariableScope) (session : Session) :
    (renewScope session.nextName params body scope).run session = (scope, session) := by
  change (if session.nextName = session.nextName then (pure scope : LowerM _) else _).run
    session = _
  rw [if_pos rfl]
  rfl

section Trees

variable (settings : Settings) (cls : TypeId)

mutual

/-- A settled expression is left as it is. -/
theorem lower_of_settled :
    (e : Expr) → settings.Settled cls e.nodes → e.lower settings cls = pure e
  | .literal info value, _ => rfl
  | .var info name declaredType, _ => rfl
  | .this info, _ => rfl
  | .classRef info type, _ => rfl
  | .property info receiver name, h => by
      simp only [Expr.nodes, settled_cons] at h
      simp only [Expr.lower, lower_of_settled receiver h.2, pure_bind]
  | .methodCall info receiver name args safe spread, h => by
      simp only [Expr.nodes, settled_cons, settled_append] at h
      obtain ⟨hcall, hreceiver, hargs⟩ := h
      simp only [Expr.lower, lower_of_settled receiver hreceiver,
        lowerExprs_of_settled args hargs, pure_bind]
      exact lowerMethodCall_of_settled hcall
  | .staticCall info owner name args, h => by
      simp only [Expr.nodes, settled_cons] at h
      simp only [Expr.lower, lowerExprs_of_settled args h.2, pure_bind]
      exact lowerStaticCall_of_settled h.1
  | .constructorCall info type args, h => by
      simp only [Expr.nodes, settled_cons] at h
      simp only [Expr.lower, lowerExprs_of_settled args h.2, pure_bind]
      exact lowerConstructorCall_of_settled h.1
  | .binary info op opSpan left right, h => by
      simp only [Expr.nodes, settled_cons, settled_append] at h
      obtain ⟨hoperator, hleft, hright⟩ := h
      simp only [Expr.lower, lower_of_settled left hleft, lower_of_settled right hright,
        pure_bind]
      exact lowerBinary_of_settled hoperator
  | .ternary info condition yes no, h => by
      simp only [Expr.nodes, settled_cons, settled_append] at h
      obtain ⟨-, hcondition, hyes, hno⟩ := h
      simp only [Expr.lower, lower_of_settled condition hcondition, lower_of_settled yes hyes,
        lower_of_settled no hno, pure_bind]
  | .closure info params body scope, h => by
      simp only [Expr.nodes, settled_cons] at h
      simp only [Expr.lower, lowerStmts_of_settled body h.2, pure_bind]
      funext session
      have hscope := renewScope_unchanged params body scope session
      change (Expr.closure info params body
        ((renewScope session.nextName params body scope).run session).1,
        ((renewScope session.nextName params body scope).run session).2) = _
      rw [hscope]
      rfl
  | .block info body, h => by
      simp only [Expr.nodes, settled_cons] at h
      simp only [Expr.lower, lowerStmts_of_settled body h.2, pure_bind]
  | .map info entries, h => by
      simp only [Expr.nodes, settled_cons] at h
      simp only [Expr.lower, lowerEntries_of_settled entries h.2, pure_bind]
  | .list info items, h => by
      simp only [Expr.nodes, settled_cons] at h
      simp only [Expr.lower, lowerExprs_of_settled items h.2, pure_bind]
  | .declaration info name declaredType initializer, h => by
      simp only [Expr.nodes, settled_cons] at h
      simp only [Expr.lower, lower_of_settled initializer h.2, pure_bind]
  | .cast info type operand, h => by
      simp only [Expr.nodes, settled_cons] at h
      simp only [Expr.lower, lower_of_settled operand h.2, pure_bind]
  | .unary info op operand, h => by
      simp only [Expr.nodes, settled_cons] at h
      simp only [Expr.lower, lower_of_settled operand h.2, pure_bind]

theorem lowerExprs_of_settled :
    (es : List Expr) → settings.Settled cls (nodesOfExprs es) →
      lowerExprs settings cls es = pure es
  | [], _ => rfl
  | e :: rest, h => by
      simp only [nodesOfExprs, settled_append] at h
      simp only [lowerExprs, lower_of_settled e h.1, lowerExprs_of_settled rest h.2, pure_bind]

theorem lowerEntries_of_settled :
    (entries : List Entry) → settings.Settled cls (nodesOfEntries entries) →
      lowerEntries settings cls entries = pure entries
  | [], _ => rfl
  | .mk key value span :: rest, h => by
      simp only [nodesOfEntries, settled_append] at h
      obtain ⟨hkey, hvalue, hrest⟩ := h
      simp only [lowerEntries, lower_of_settled key hkey, lower_of_settled value hvalue,
        lowerEntries_of_settled rest hrest, pure_bind]

theorem lowerStmt_of_settled :
    (s : Stmt) → settings.Settled cls s.nodes → s.lower settings cls = pure s
  | .expr value, h => by
      simp only [Stmt.nodes] at h
      simp only [Stmt.lower, lower_of_settled value h, pure_bind]
  | .block body, h => by
      simp only [Stmt.nodes] at h
      simp only [Stmt.lower, lowerStmts_of_settled body h, pure_bind]
  | .ret none span, _ => rfl
  | .ret (some value) span, h => by
      simp only [Stmt.nodes] at h
      simp only [Stmt.lower, lower_of_settled value h, pure_bind]
  | .ifElse condition yes none, h => by
      simp only [Stmt.nodes, settled_append] at h
      simp only [Stmt.lower, lower_of_settled condition h.1, lowerStmts_of_settled yes h.2,
        pure_bind]
  | .ifElse condition yes (some no), h => by
      simp only [Stmt.nodes, settled_append] at h
      obtain ⟨hcondition, hyes, hno⟩ := h
      simp only [Stmt.lower, lower_of_settled condition hcondition,
        lowerStmts_of_settled yes hyes, lowerStmts_of_settled no hno, pure_bind]
  | .whileLoop condition body, h => by
      simp only [Stmt.nodes, settled_append] at h
      simp only [Stmt.lower, lower_of_settled condition h.1, lowerStmts_of_settled body h.2,
        pure_bind]
  | .forIn loopVar iterable body, h => by
      simp only [Stmt.nodes, settled_append] at h
      simp only [Stmt.lower, lower_of_settled iterable h.1, lowerStmts_of_settled body h.2,
        pure_bind]
  | .throw value, h => by
      simp only [Stmt.nodes] at h
      simp only [Stmt.lower, lower_of_settled value h, pure_bind]

theorem lowerStmts_of_settled :
    (body : List Stmt) → settings.Settled cls (nodesOfStmts body) →
      lowerStmts settings cls body = pure body
  | [], _ => rfl
  | s :: rest, h => by
      simp only [nodesOfStmts, settled_append] at h
      simp only [lowerStmts, lowerStmt_of_settled s h.1, lowerStmts_of_settled rest h.2,
        pure_bind]

end

end Trees

/-! ## Settled units -/

section Units

variable (settings : Settings)

theorem fieldUnit_lower_of_settled {cls : TypeId} {field : FieldUnit}
    (h : settings.Settled cls field.nodes) : field.lower settings cls = pure field := by
  unfold FieldUnit.lower
  cases hinitializer : field.initializer with
  | none => rfl
  | some initializer =>
      simp only [FieldUnit.nodes, hinitializer] at h
      simp only [lower_of_settled settings cls initializer h, pure_bind]
      rw [← hinitializer]

theorem methodUnit_lower_of_settled {cls : TypeId} {method : MethodUnit}
    (h : settings.Settled cls method.nodes) : method.lower settings cls = pure method := by
  unfold MethodUnit.lower
  simp only [lowerStmts_of_settled settings cls method.body h, pure_bind]

theorem lowerFields_of_settled {cls : TypeId} {fields : List FieldUnit}
    (h : ∀ field ∈ fields, settings.Settled cls field.nodes) :
    lowerFields settings cls fields = pure fields := by
  induction fields with
  | nil => rfl
  | cons field rest ih =>
      obtain ⟨hfield, hrest⟩ := List.forall_mem_cons.mp h
      simp only [lowerFields, fieldUnit_lower_of_settled settings hfield, ih hrest, pure_bind]

theorem lowerMethods_of_settled {cls : TypeId} {methods : List MethodUnit}
    (h : ∀ method ∈ methods, settings.Settled cls method.nodes) :
    lowerMethods settings cls methods = pure methods := by
  induction methods with
  | nil => rfl
  | cons method rest ih =>
      obtain ⟨hmethod, hrest⟩ := List.forall_mem_cons.mp h
      simp only [lowerMethods, methodUnit_lower_of_settled settings hmethod, ih hrest, pure_bind]

mutual

/-- No enabled rule takes a node of a member, each in the context of its own class. -/
def ClassUnit.Settled : ClassUnit → Prop
  | .mk type fields constructors methods inner _ =>
      (∀ field ∈ fields, settings.Settled type field.nodes) ∧
        (∀ ctor ∈ constructors, settings.Settled type ctor.nodes) ∧
          (∀ method ∈ methods, settings.Settled type method.nodes) ∧ ClassesSettled inner

def ClassesSettled : List ClassUnit → Prop
  | [] => True
  | unit :: rest => unit.Settled ∧ ClassesSettled rest

end

mutual

theorem classUnit_lower_of_settled :
    (unit : ClassUnit) → unit.Settled settings → unit.lower settings = pure unit
  | .mk type fields constructors methods inner span, h => by
      obtain ⟨hfields, hconstructors, hmethods, hinner⟩ := h
      simp only [ClassUnit.lower, lowerFields_of_settled settings hfields,
        lowerMethods_of_settled settings hconstructors, lowerMethods_of_settled settings hmethods,
        lowerClasses_of_settled inner hinner, pure_bind]

theorem lowerClasses_of_settled :
    (units : List ClassUnit) → ClassesSettled settings units →
      lowerClasses settings units = pure units
  | [], _ => rfl
  | unit :: rest, h => by
      simp only [lowerClasses, classUnit_lower_of_settled unit h.1,
        lowerClasses_of_settled rest h.2, pure_bind]

end

end Units

/-! ## Operators of a name -/

/-- The name of the method that an operator was resolved to. -/
def Expr.operatorName? : Expr → Option String
  | .binary info _ _ _ _ => info.facts.operatorTarget.map OperatorTarget.name
  | _ => none

/-- No operator among the nodes was resolved to a method of that name. -/
def AvoidsOperator (name : String) (nodes : List Expr) : Prop :=
  ∀ node ∈ nodes, node.operatorName? ≠ some name

theorem avoidsOperator_append {name : String} {before after : List Expr} :
    AvoidsOperator name (before ++ after) ↔
      AvoidsOperator name before ∧ AvoidsOperator name after :=
  List.forall_mem_append

theorem elementType?_singleton {types : TypeTable} {name : String}
    {receiver index : Option TypeId}
    (h : (elementType? types name receiver [index]).isSome = true) : name = "getAt" := by
  unfold elementType? at h
  split at h
  · split at h
    · rename_i hcond
      simp only [Bool.and_eq_true, beq_iff_eq] at hcond
      exact hcond.1
    · exact absurd h (by simp)
  · rename_i hargs
    exact absurd hargs (by simp)
  · exact absurd h (by simp)

theorem makesElementCallAny_eq_false (settings : Settings) (cls : TypeId) {nodes : List Expr}
    (h : AvoidsOperator "getAt" nodes) : settings.makesElementCallAny cls nodes = false := by
  apply List.any_eq_false.mpr
  intro node hnode hbecomes
  cases node with
  | binary info op opSpan left right =>
      have hname := h _ hnode
      simp only [Expr.becomesElementCall, makesElementCall] at hbecomes
      cases htarget : info.facts.operatorTarget with
      | none => simp [htarget] at hbecomes
      | some target =>
          simp only [htarget, Bool.and_eq_true] at hbecomes
          apply hname
          simp [Expr.operatorName?, htarget, elementType?_singleton hbecomes.2]
  | _ => simp [Expr.becomesElementCall] at hbecomes

/-! ## What a lowering leaves for the rules -/

section Left

variable (settings : Settings) (cls : TypeId)

/-- An enabled rule has something left to take after a lowering exactly when it is the
array rule and some operator became a call that reads an element. -/
theorem exists_accepts_lower_iff (hreach : settings.types.Reachable) (e : Expr)
    (session : Session) (rule : Rule) (henabled : settings.config.isEnabled rule = true) :
    (∃ node ∈ ((e.lower settings cls).run session).1.nodes,
        rule.accepts settings.types cls node = true) ↔
      rule = .arrayIndex ∧ ∃ node ∈ e.nodes, node.becomesElementCall settings cls = true := by
  have hany := yields_lower_rewritesAny settings rule cls hreach e session
  have hleft : settings.rewritesAny rule cls ((e.lower settings cls).run session).1.nodes = true ↔
      ∃ node ∈ ((e.lower settings cls).run session).1.nodes,
        rule.accepts settings.types cls node = true := by
    simp [rewritesAny, rewrites, henabled]
  rw [← hleft, hany]
  simp [makesElementCallAny]

/-- The table of programs that have arrays of integers; the array type comes last. -/
def arrayTable : TypeTable :=
  TypeTable.initial.declare (.arrayType .int)

/-- `numbers[0]` with the subscript resolved to `getAt`. -/
def elementOperator : Expr :=
  .binary { facts := { operatorTarget := some ⟨⟨0⟩, "getAt"⟩ } } .index {}
    (.var {} "numbers" (some ⟨27⟩)) (.literal {} (.integer 0))

theorem exists_accepts_lower_elementOperator :
    ∃ node ∈ ((elementOperator.lower ⟨arrayTable, .ofTypes arrayTable, {}⟩ .object).run
        {}).1.nodes,
      Rule.arrayIndex.accepts arrayTable .object node = true := by
  have hreach : arrayTable.Reachable :=
    TypeTable.Reachable.start.step (.arrayType .int) (by unfold Declaration.InRange; decide)
  apply (exists_accepts_lower_iff ⟨arrayTable, .ofTypes arrayTable, {}⟩ .object hreach
    elementOperator {} .arrayIndex (by decide)).mpr
  exact ⟨rfl, elementOperator, Expr.mem_nodes_self _, by decide +kernel⟩

/-- Where no operator was resolved to `getAt`, a lowered expression is settled. -/
theorem yields_lower_settled (hreach : settings.types.Reachable) {e : Expr}
    (h : AvoidsOperator "getAt" e.nodes) :
    (e.lower settings cls).Yields fun out => settings.Settled cls out.nodes := by
  intro session
  apply settled_iff_rewritesAny.mpr
  intro rule
  rw [yields_lower_rewritesAny settings rule cls hreach e session,
    makesElementCallAny_eq_false settings cls h, Bool.and_false]

theorem yields_lowerStmts_settled (hreach : settings.types.Reachable) {body : List Stmt}
    (h : AvoidsOperator "getAt" (nodesOfStmts body)) :
    (lowerStmts settings cls body).Yields fun out =>
      settings.Settled cls (nodesOfStmts out) := by
  intro session
  apply settled_iff_rewritesAny.mpr
  intro rule
  rw [yields_lowerStmts_rewritesAny settings rule cls hreach body session,
    makesElementCallAny_eq_false settings cls h, Bool.and_false]

theorem yields_fieldUnit_lower_settled (hreach : settings.types.Reachable) {field : FieldUnit}
    (h : AvoidsOperator "getAt" field.nodes) :
    (field.lower settings cls).Yields fun out => settings.Settled cls out.nodes := by
  unfold FieldUnit.lower
  cases hinitializer : field.initializer with
  | none =>
      apply LowerM.yields_pure
      simp [FieldUnit.nodes, hinitializer, Settled]
  | some initializer =>
      simp only [FieldUnit.nodes, hinitializer] at h
      refine (yields_lower_settled settings cls hreach h).bind fun initializer' hsettled => ?_
      exact LowerM.yields_pure hsettled

theorem yields_methodUnit_lower_settled (hreach : settings.types.Reachable)
    {method : MethodUnit} (h : AvoidsOperator "getAt" method.nodes) :
    (method.lower settings cls).Yields fun out => settings.Settled cls out.nodes := by
  unfold MethodUnit.lower
  refine (yields_lowerStmts_settled settings cls hreach h).bind fun body' hsettled => ?_
  exact LowerM.yields_pure hsettled

theorem yields_lowerFields_settled (hreach : settings.types.Reachable)
    {fields : List FieldUnit}
    (h : ∀ field ∈ fields, AvoidsOperator "getAt" field.nodes) :
    (lowerFields settings cls fields).Yields fun out =>
      ∀ field ∈ out, settings.Settled cls field.nodes := by
  induction fields with
  | nil => exact LowerM.yields_pure (by simp)
  | cons field rest ih =>
      obtain ⟨hfield, hrest⟩ := List.forall_mem_cons.mp h
      refine (yields_fieldUnit_lower_settled settings cls hreach hfield).bind
        fun field' hfield' => ?_
      refine (ih hrest).bind fun rest' hrest' => ?_
      exact LowerM.yields_pure (List.forall_mem_cons.mpr ⟨hfield', hrest'⟩)

theorem yields_lowerMethods_settled (hreach : settings.types.Reachable)
    {methods : List MethodUnit}
    (h : ∀ method ∈ methods, AvoidsOperator "getAt" method.nodes) :
    (lowerMethods settings cls methods).Yields fun out =>
      ∀ method ∈ out, settings.Settled cls method.nodes := by
  induction methods with
  | nil => exact LowerM.yields_pure (by simp)
  | cons method rest ih =>
      obtain ⟨hmethod, hrest⟩ := List.forall_mem_cons.mp h
      refine (yields_methodUnit_lower_settled settings cls hreach hmethod).bind
        fun method' hmethod' => ?_
      refine (ih hrest).bind fun rest' hrest' => ?_
      exact LowerM.yields_pure (List.forall_mem_cons.mpr ⟨hmethod', hrest'⟩)

theorem avoidsOperator_flatMap {α : Type} {name : String} {items : List α}
    {nodes : α → List Expr} :
    AvoidsOperator name (items.flatMap nodes) ↔
      ∀ item ∈ items, AvoidsOperator name (nodes item) := by
  simp only [AvoidsOperator, List.mem_flatMap]
  constructor
  · intro h item hitem node hnode
    exact h node ⟨item, hitem, hnode⟩
  · rintro h node ⟨item, hitem, hnode⟩
    exact h item hitem node hnode

mutual

theorem yields_classUnit_lower_settled (hreach : settings.types.Reachable) :
    (unit : ClassUnit) → AvoidsOperator "getAt" unit.nodes →
      (unit.lower settings).Yields fun out => out.Settled settings
  | .mk type fields constructors methods inner span, h => by
      simp only [ClassUnit.nodes, avoidsOperator_append, avoidsOperator_flatMap] at h
      obtain ⟨hfields, hconstructors, hmethods, hinner⟩ := h
      refine (yields_lowerFields_settled settings type hreach hfields).bind
        fun fields' hfields' => ?_
      refine (yields_lowerMethods_settled settings type hreach hconstructors).bind
        fun constructors' hconstructors' => ?_
      refine (yields_lowerMethods_settled settings type hreach hmethods).bind
        fun methods' hmethods' => ?_
      refine (yields_lowerClasses_settled hreach inner hinner).bind fun inner' hinner' => ?_
      exact LowerM.yields_pure ⟨hfields', hconstructors', hmethods', hinner'⟩

theorem yields_lowerClasses_settled (hreach : settings.types.Reachable) :
    (units : List ClassUnit) → AvoidsOperator "getAt" (nodesOfClasses units) →
      (lowerClasses settings units).Yields fun out => ClassesSettled settings out
  | [], _ => LowerM.yields_pure trivial
  | unit :: rest, h => by
      simp only [nodesOfClasses, avoidsOperator_append] at h
      refine (yields_classUnit_lower_settled hreach unit h.1).bind fun unit' hunit' => ?_
      refine (yields_lowerClasses_settled hreach rest h.2).bind fun rest' hrest' => ?_
      exact LowerM.yields_pure ⟨hunit', hrest'⟩

end

end Left

/-- Where no operator was resolved to `getAt`, a second lowering changes neither the tree
nor its session: it counts nothing, draws no name and registers no scope. -/
theorem lower_idempotent (settings : Settings) (hreach : settings.types.Reachable)
    (session again : Session) :
    (∀ (cls : TypeId) (e : Expr), AvoidsOperator "getAt" e.nodes →
      let out := ((e.lower settings cls).run session).1
      (out.lower settings cls).run again = (out, again)) ∧
    (∀ unit : ClassUnit, AvoidsOperator "getAt" unit.nodes →
      let out := ((unit.lower settings).run session).1
      (out.lower settings).run again = (out, again)) ∧
    (∀ (cls : TypeId) (method : MethodUnit), AvoidsOperator "getAt" method.nodes →
      let out := ((method.lower settings cls).run session).1
      (out.lower settings cls).run again = (out, again)) := by
  refine ⟨?_, ?_, ?_⟩
  · intro cls e h out
    rw [lower_of_settled settings cls out (yields_lower_settled settings cls hreach h session)]
    rfl
  · intro unit h out
    rw [classUnit_lower_of_settled settings out
      (yields_classUnit_lower_settled settings hreach unit h session)]
    rfl
  · intro cls method h out
    rw [methodUnit_lower_of_settled settings
      (yields_methodUnit_lower_settled settings cls hreach h session)]
    rfl

/-- `text?.size()` -/
def safeSize : Expr :=
  .methodCall {} (.var {} "text" none) "size" [] true false

theorem lower_idempotent_safeSize :
    let settings : Settings := ⟨.initial, .ofTypes .initial, {}⟩
    let once := (safeSize.lower settings .object).run {}
    once.2.stats.safeNavigation = 1 ∧ (once.1.lower settings .object).run {} = (once.1, {}) := by
  intro settings once
  have havoids : AvoidsOperator "getAt" safeSize.nodes := by
    unfold AvoidsOperator
    decide
  exact ⟨by decide +kernel, (lower_idempotent settings .start {} {}).1 .object safeSize havoids⟩

end StaticDispatch
