import StaticDispatch.Proofs.Lowering.StaticType
import StaticDispatch.Proofs.Tree.Nodes
import StaticDispatch.Proofs.Types.Reachable

/-!
# What is left to lower

A rule takes a node of its kind that carries the facts the rule asks for.  A
lowered tree has no such node, with one exception: the call that the operator
rule makes of an operator resolved to `getAt` is not looked at by the array
rule.  Where no operator is resolved to that name, a second lowering changes
nothing.
-/

namespace StaticDispatch

open LowerM

/-! ## Nodes that rules take -/

/-- Whether the rule takes a node whose children are lowered already. -/
def Rule.accepts (types : TypeTable) (cls : TypeId) : Rule → Expr → Bool
  | .safeNavigation, .methodCall _ _ _ _ safe _ => safe
  | .arrayIndex, .methodCall _ receiver name args safe _ =>
      !safe && (arrayAccess? types cls receiver name args).isSome
  | .binaryOperators, .binary info _ _ _ _ => info.facts.operatorTarget.isSome
  | .staticCalls, .staticCall info _ _ _ => info.facts.callTarget.isSome
  | .namedConstructors, .constructorCall info _ args =>
      (keywordConstructor? types info args).isSome
  | _, _ => false

namespace Settings

variable (settings : Settings) (rule : Rule) (cls : TypeId)

/-- The rule is enabled and takes the node. -/
def rewrites (node : Expr) : Bool :=
  settings.config.isEnabled rule && rule.accepts settings.types cls node

def rewritesAny (nodes : List Expr) : Bool :=
  nodes.any (settings.rewrites rule cls)

@[simp] theorem rewritesAny_nil : settings.rewritesAny rule cls [] = false := rfl

@[simp] theorem rewritesAny_cons (node : Expr) (rest : List Expr) :
    settings.rewritesAny rule cls (node :: rest) =
      (settings.rewrites rule cls node || settings.rewritesAny rule cls rest) := rfl

@[simp] theorem rewritesAny_append (before after : List Expr) :
    settings.rewritesAny rule cls (before ++ after) =
      (settings.rewritesAny rule cls before || settings.rewritesAny rule cls after) :=
  List.any_append

@[simp] theorem rewrites_literal (info : Info) (value : Literal) :
    settings.rewrites rule cls (.literal info value) = false := by
  cases rule <;> exact Bool.and_false _

@[simp] theorem rewrites_var (info : Info) (name : String) (type : Option TypeId) :
    settings.rewrites rule cls (.var info name type) = false := by
  cases rule <;> exact Bool.and_false _

@[simp] theorem rewrites_this (info : Info) :
    settings.rewrites rule cls (.this info) = false := by
  cases rule <;> exact Bool.and_false _

@[simp] theorem rewrites_classRef (info : Info) (type : TypeId) :
    settings.rewrites rule cls (.classRef info type) = false := by
  cases rule <;> exact Bool.and_false _

@[simp] theorem rewrites_property (info : Info) (receiver : Expr) (name : String) :
    settings.rewrites rule cls (.property info receiver name) = false := by
  cases rule <;> exact Bool.and_false _

@[simp] theorem rewrites_methodCall (info : Info) (receiver : Expr) (name : String)
    (args : List Expr) (safe spread : Bool) :
    settings.rewrites rule cls (.methodCall info receiver name args safe spread) =
      (rule == .safeNavigation && (settings.config.isEnabled .safeNavigation && safe) ||
        rule == .arrayIndex && (settings.config.isEnabled .arrayIndex &&
          (!safe && (arrayAccess? settings.types cls receiver name args).isSome))) := by
  cases rule <;> simp [rewrites, Rule.accepts]

@[simp] theorem rewrites_staticCall (info : Info) (owner : TypeId) (name : String)
    (args : List Expr) :
    settings.rewrites rule cls (.staticCall info owner name args) =
      (rule == .staticCalls &&
        (settings.config.isEnabled .staticCalls && info.facts.callTarget.isSome)) := by
  cases rule <;> simp [rewrites, Rule.accepts]

@[simp] theorem rewrites_constructorCall (info : Info) (type : TypeId) (args : List Expr) :
    settings.rewrites rule cls (.constructorCall info type args) =
      (rule == .namedConstructors && (settings.config.isEnabled .namedConstructors &&
        (keywordConstructor? settings.types info args).isSome)) := by
  cases rule <;> simp [rewrites, Rule.accepts]

@[simp] theorem rewrites_binary (info : Info) (op : BinaryOp) (opSpan : Span)
    (left right : Expr) :
    settings.rewrites rule cls (.binary info op opSpan left right) =
      (rule == .binaryOperators &&
        (settings.config.isEnabled .binaryOperators && info.facts.operatorTarget.isSome)) := by
  cases rule <;> simp [rewrites, Rule.accepts]

@[simp] theorem rewrites_ternary (info : Info) (condition yes no : Expr) :
    settings.rewrites rule cls (.ternary info condition yes no) = false := by
  cases rule <;> exact Bool.and_false _

@[simp] theorem rewrites_closure (info : Info) (params : List Param) (body : List Stmt)
    (scope : Option VariableScope) :
    settings.rewrites rule cls (.closure info params body scope) = false := by
  cases rule <;> exact Bool.and_false _

@[simp] theorem rewrites_block (info : Info) (body : List Stmt) :
    settings.rewrites rule cls (.block info body) = false := by
  cases rule <;> exact Bool.and_false _

@[simp] theorem rewrites_map (info : Info) (entries : List Entry) :
    settings.rewrites rule cls (.map info entries) = false := by
  cases rule <;> exact Bool.and_false _

@[simp] theorem rewrites_list (info : Info) (items : List Expr) :
    settings.rewrites rule cls (.list info items) = false := by
  cases rule <;> exact Bool.and_false _

@[simp] theorem rewrites_declaration (info : Info) (name : String) (type : Option TypeId)
    (initializer : Expr) :
    settings.rewrites rule cls (.declaration info name type initializer) = false := by
  cases rule <;> exact Bool.and_false _

@[simp] theorem rewrites_cast (info : Info) (type : TypeId) (operand : Expr) :
    settings.rewrites rule cls (.cast info type operand) = false := by
  cases rule <;> exact Bool.and_false _

@[simp] theorem rewrites_unary (info : Info) (op : UnaryOp) (operand : Expr) :
    settings.rewrites rule cls (.unary info op operand) = false := by
  cases rule <;> exact Bool.and_false _

end Settings

namespace Settings

variable (settings : Settings) (cls : TypeId)

/-- The operator is a comparison that goes through a routine of the adapter. -/
def hasRoutine : BinaryOp → Bool
  | .comparison op => (settings.adapters.routine? op).isSome
  | _ => false

end Settings

/-- The rule makes of an operator on operands of these static types a call that reads an
element of an array. -/
def Settings.makesElementCall (settings : Settings) (info : Info) (op : BinaryOp)
    (left right : Option TypeId) : Bool :=
  match info.facts.operatorTarget with
  | some target =>
      settings.config.isEnabled .binaryOperators && settings.config.isEnabled .arrayIndex &&
        !settings.hasRoutine op &&
        (elementType? settings.types target.name left [right]).isSome
  | none => false

/-- An operator that ends up as the call that reads an element of an array. -/
def Expr.becomesElementCall (settings : Settings) (cls : TypeId) : Expr → Bool
  | .binary info op _ left right =>
      settings.makesElementCall info op (left.loweredType? settings cls)
        (right.loweredType? settings cls)
  | _ => false

namespace Settings

variable (settings : Settings) (cls : TypeId)

def makesElementCallAny (nodes : List Expr) : Bool :=
  nodes.any (Expr.becomesElementCall settings cls)

@[simp] theorem makesElementCallAny_nil : settings.makesElementCallAny cls [] = false := rfl

@[simp] theorem makesElementCallAny_cons (node : Expr) (rest : List Expr) :
    settings.makesElementCallAny cls (node :: rest) =
      (node.becomesElementCall settings cls || settings.makesElementCallAny cls rest) := rfl

@[simp] theorem makesElementCallAny_append (before after : List Expr) :
    settings.makesElementCallAny cls (before ++ after) =
      (settings.makesElementCallAny cls before || settings.makesElementCallAny cls after) :=
  List.any_append

end Settings

/-! ## What the rules leave -/

section Rules

variable (settings : Settings) (rule : Rule) (cls : TypeId)

theorem yields_lowerPlainCall_rewritesAny (info : Info) (receiver : Expr) (name : String)
    (args : List Expr) (spread : Bool) :
    Yields (lowerPlainCall settings cls info receiver name args spread) fun out =>
      settings.rewritesAny rule cls out.nodes =
        (settings.rewritesAny rule cls receiver.nodes ||
          settings.rewritesAny rule cls (nodesOfExprs args)) := by
  unfold lowerPlainCall
  split
  · unfold lowerArrayAccess
    cases haccess : arrayAccess? settings.types cls receiver name args with
    | none =>
        apply yields_pure
        simp [Expr.nodes, haccess]
    | some access =>
        cases access with
        | read component index =>
            obtain ⟨-, rfl⟩ := arrayAccess?_eq_read cls haccess
            apply yields_count_bind
            apply yields_pure
            simp [elementAt, Expr.nodes, nodesOfExprs, Info.typed]
        | write component index value =>
            obtain ⟨-, rfl⟩ := arrayAccess?_eq_write cls haccess
            apply yields_count_bind
            apply yields_pure
            simp [elementAt, Expr.nodes, nodesOfExprs, Info.typed, Span.info]
  · rename_i hdisabled
    apply yields_pure
    simp [Expr.nodes, hdisabled]

theorem yields_splitReceiver_rewritesAny (receiver : Expr) :
    Yields (splitReceiver settings cls receiver) fun pair =>
      (settings.rewritesAny rule cls pair.1.nodes || settings.rewritesAny rule cls pair.2.nodes) =
        settings.rewritesAny rule cls receiver.nodes := by
  unfold splitReceiver
  split
  · refine (yields_bindTemporary settings cls receiver).mono ?_
    rintro ⟨checked, called⟩ ⟨name, rfl, rfl⟩
    simp [Expr.nodes]
  · apply yields_pure
    simp

theorem yields_lowerMethodCall_rewritesAny (info : Info) (receiver : Expr) (name : String)
    (args : List Expr) (safe spread : Bool) :
    Yields (lowerMethodCall settings cls info receiver name args safe spread) fun out =>
      settings.rewritesAny rule cls out.nodes =
        (settings.rewritesAny rule cls receiver.nodes ||
          settings.rewritesAny rule cls (nodesOfExprs args)) := by
  unfold lowerMethodCall
  cases safe with
  | false =>
      exact yields_lowerPlainCall_rewritesAny settings rule cls info receiver name args spread
  | true =>
      simp only [if_true]
      split
      · unfold lowerSafeCall
        refine (yields_splitReceiver_rewritesAny settings rule cls receiver).bind ?_
        rintro ⟨checked, called⟩ hsplit
        apply yields_count_bind
        refine (yields_lowerPlainCall_rewritesAny settings rule cls info called name args
          spread).bind fun call hcall => ?_
        apply yields_pure
        simp only at hsplit
        simp [Expr.nodes, notNull, Expr.null, Span.info, hcall, ← hsplit, Bool.or_assoc]
      · rename_i hdisabled
        apply yields_pure
        simp [Expr.nodes, hdisabled]

/-- A call on a class is no access to an element. -/
theorem arrayAccess?_classRef {types : TypeTable} (hreach : types.Reachable) (info : Info)
    (owner : TypeId) (name : String) (args : List Expr) :
    arrayAccess? types cls (.classRef info owner) name args = none := by
  have hcomponent : arrayComponent? types cls (.classRef info owner) = none :=
    hreach.component?_classObject
  unfold arrayAccess?
  rw [hcomponent]

theorem yields_lowerStaticCall_rewritesAny (hreach : settings.types.Reachable) (info : Info)
    (owner : TypeId) (name : String) (args : List Expr) :
    Yields (lowerStaticCall settings info owner name args) fun out =>
      settings.rewritesAny rule cls out.nodes =
        settings.rewritesAny rule cls (nodesOfExprs args) := by
  unfold lowerStaticCall
  split
  · apply yields_count_bind
    apply yields_pure
    simp [Expr.nodes, arrayAccess?_classRef cls hreach]
  · rename_i hdeclined
    apply yields_pure
    simp only [Bool.not_eq_true] at hdeclined
    simp [Expr.nodes, hdeclined]

theorem rewritesAny_setProperties (owner : TypeId) (name : String) (entries : List Entry)
    (hkeys : ∀ entry ∈ entries, entry.key.stringLiteral?.isSome = true) :
    settings.rewritesAny rule cls (nodesOfStmts (entries.filterMap (setProperty? owner name))) =
      settings.rewritesAny rule cls (nodesOfEntries entries) := by
  induction entries with
  | nil => rfl
  | cons entry rest ih =>
      obtain ⟨key, value, span⟩ := entry
      have hrest := ih fun entry hentry => hkeys entry (List.mem_cons_of_mem _ hentry)
      have hkey : key.stringLiteral?.isSome = true := hkeys _ List.mem_cons_self
      cases key with
      | literal info literal =>
          cases literal with
          | string text =>
              simp [setProperty?, Expr.stringLiteral?, nodesOfStmts, nodesOfEntries, Stmt.nodes,
                Expr.nodes, localReference, Span.info, hrest]
          | _ => exact absurd hkey (by simp [Expr.stringLiteral?])
      | _ => exact absurd hkey (by simp [Expr.stringLiteral?])

theorem keywordEntries?_eq_some {args : List Expr} {entries : List Entry}
    (h : keywordEntries? args = some entries) :
    (∃ info, args = [.map info entries]) ∧
      ∀ entry ∈ entries, entry.key.stringLiteral?.isSome = true := by
  unfold keywordEntries? at h
  split at h
  · rename_i info entries'
    split at h
    · rename_i hall
      obtain rfl : entries' = entries := by simpa using h
      exact ⟨⟨info, rfl⟩, by simpa using hall⟩
    · exact absurd h (by simp)
  · exact absurd h (by simp)

theorem yields_lowerConstructorCall_rewritesAny (info : Info) (type : TypeId)
    (args : List Expr) :
    Yields (lowerConstructorCall settings info type args) fun out =>
      settings.rewritesAny rule cls out.nodes =
        settings.rewritesAny rule cls (nodesOfExprs args) := by
  unfold lowerConstructorCall
  cases hkeyword : keywordConstructor? settings.types info args with
  | none =>
      apply yields_pure
      simp [Expr.nodes, hkeyword]
  | some found =>
      obtain ⟨owner, entries⟩ := found
      obtain ⟨-, hentries⟩ := keywordConstructor?_eq_some hkeyword
      obtain ⟨⟨mapInfo, rfl⟩, hkeys⟩ := keywordEntries?_eq_some hentries
      simp only
      split
      · intro session
        change settings.rewritesAny rule cls (Expr.nodes (initializerCall info owner
          (initializerBody info.span owner _ entries) _)) = _
        simp [initializerCall, initializerBody, Expr.nodes, nodesOfExprs, nodesOfStmts,
          nodesOfStmts_append, Stmt.nodes, blankInstance, localReference, keywordConstructor?,
          Metadata.targetConstructor?, arrayAccess?,
          rewritesAny_setProperties settings rule cls owner _ entries hkeys]
      · rename_i hdisabled
        apply yields_pure
        simp [Expr.nodes, nodesOfExprs, hdisabled]

theorem yields_stableOperand_rewritesAny (operand : Expr) :
    Yields (stableOperand settings cls operand) fun pair =>
      (settings.rewritesAny rule cls (nodesOfStmts pair.1) ||
        settings.rewritesAny rule cls pair.2.nodes) =
          settings.rewritesAny rule cls operand.nodes := by
  unfold stableOperand
  split
  · apply yields_pure
    simp [nodesOfStmts]
  · refine (yields_bindTemporary settings cls operand).bind ?_
    rintro ⟨declaration, reference⟩ ⟨name, rfl, rfl⟩
    apply yields_pure
    simp [nodesOfStmts, Stmt.nodes, Expr.nodes]

theorem yields_stableTarget_rewritesAny (target : Expr) :
    Yields (stableTarget settings cls target) fun pair =>
      (settings.rewritesAny rule cls (nodesOfStmts pair.1) ||
        settings.rewritesAny rule cls pair.2.nodes) =
          settings.rewritesAny rule cls target.nodes := by
  unfold stableTarget
  split
  · rename_i info receiver name
    refine (yields_stableOperand_rewritesAny settings rule cls receiver).bind ?_
    rintro ⟨before, receiver'⟩ hreceiver
    apply yields_pure
    simpa [Expr.nodes] using hreceiver
  · rename_i info opSpan left right
    refine (yields_stableOperand_rewritesAny settings rule cls left).bind ?_
    rintro ⟨before, left'⟩ hleft
    refine (yields_stableOperand_rewritesAny settings rule cls right).bind ?_
    rintro ⟨between, right'⟩ hright
    apply yields_pure
    simp only at hleft hright
    simp only [Expr.nodes, nodesOfStmts_append, Settings.rewritesAny_append,
      Settings.rewritesAny_cons, Settings.rewrites_binary, ← hleft, ← hright]
    ac_rfl
  · apply yields_pure
    simp [nodesOfStmts]

theorem rewrites_operatorCall (span : Span) (type : Option TypeId) (target : OperatorTarget)
    (left right : Expr) :
    settings.rewrites rule cls (operatorCall span type target left right) =
      (rule == .arrayIndex && (settings.config.isEnabled .arrayIndex &&
        (elementType? settings.types target.name (left.staticType? settings.types cls)
          [right.staticType? settings.types cls]).isSome)) := by
  simp [operatorCall, arrayAccess?_isSome]

theorem rewritesAny_assignmentAfter (span : Span) (type : Option TypeId)
    (before : List Stmt) (assignment : Expr) :
    settings.rewritesAny rule cls (assignmentAfter span type before assignment).nodes =
      (settings.rewritesAny rule cls (nodesOfStmts before) ||
        settings.rewritesAny rule cls assignment.nodes) := by
  unfold assignmentAfter
  cases before with
  | nil => rfl
  | cons s rest =>
      simp [Expr.nodes, nodesOfStmts, nodesOfStmts_append, Stmt.nodes, Bool.or_assoc]

theorem yields_lowerOperatorAssignment_rewritesAny (span opSpan : Span)
    (type : Option TypeId) (target : OperatorTarget) (left right : Expr) :
    Yields (lowerOperatorAssignment settings cls span opSpan type target left right)
      fun out => settings.rewritesAny rule cls out.nodes =
        (settings.rewritesAny rule cls left.nodes || (settings.rewritesAny rule cls right.nodes ||
          rule == .arrayIndex && (settings.config.isEnabled .arrayIndex &&
            (elementType? settings.types target.name (left.staticType? settings.types cls)
              [right.staticType? settings.types cls]).isSome))) := by
  unfold lowerOperatorAssignment
  refine ((yields_stableTarget_rewritesAny settings rule cls left).and
    (yields_stableTarget settings cls left)).bind ?_
  rintro ⟨before, place⟩ ⟨hnodes, -, htype⟩
  apply yields_count_bind
  apply yields_pure
  simp only at hnodes htype
  have hcall := rewrites_operatorCall settings rule cls span type target place right
  rw [htype] at hcall
  rw [rewritesAny_assignmentAfter, ← hcall, ← hnodes]
  simp only [Expr.nodes, operatorCall, nodesOfExprs, Settings.rewritesAny_cons,
    Settings.rewritesAny_append, Settings.rewrites_binary, Info.typed, Option.isSome_none,
    Bool.and_false, Bool.false_or, Settings.rewritesAny_nil, Bool.or_false]
  cases settings.rewritesAny rule cls place.nodes <;> simp [Bool.or_comm]

theorem yields_lowerOperatorCall_rewritesAny (span : Span) (type : Option TypeId)
    (target : OperatorTarget) (left right : Expr) :
    Yields (lowerOperatorCall span type target left right)
      fun out => settings.rewritesAny rule cls out.nodes =
        (settings.rewritesAny rule cls left.nodes || (settings.rewritesAny rule cls right.nodes ||
          rule == .arrayIndex && (settings.config.isEnabled .arrayIndex &&
            (elementType? settings.types target.name (left.staticType? settings.types cls)
              [right.staticType? settings.types cls]).isSome))) := by
  apply yields_count_bind
  apply yields_pure
  rw [← rewrites_operatorCall settings rule cls span type target left right]
  simp only [operatorCall, Expr.nodes, nodesOfExprs, Settings.rewritesAny_cons,
    Settings.rewritesAny_append, Settings.rewritesAny_nil, Bool.or_false]
  ac_rfl

theorem yields_lowerBinary_rewritesAny (hreach : settings.types.Reachable) (info : Info)
    (op : BinaryOp) (opSpan : Span) (left right : Expr) :
    Yields (lowerBinary settings cls info op opSpan left right) fun out =>
      settings.rewritesAny rule cls out.nodes =
        (settings.rewritesAny rule cls left.nodes || (settings.rewritesAny rule cls right.nodes ||
          rule == .arrayIndex && settings.makesElementCall info op
            (left.staticType? settings.types cls) (right.staticType? settings.types cls))) := by
  unfold lowerBinary Settings.makesElementCall
  cases htarget : info.facts.operatorTarget with
  | none =>
      apply yields_pure
      simp [Expr.nodes, htarget]
  | some target =>
      simp only
      split
      · rename_i henabled
        have hassignment := yields_lowerOperatorAssignment_rewritesAny settings rule cls info.span
          opSpan info.facts.inferredType target left right
        have hcall := yields_lowerOperatorCall_rewritesAny settings rule cls info.span
          info.facts.inferredType target left right
        unfold lowerResolvedOperator
        simp only [henabled, Bool.true_and, Settings.hasRoutine]
        cases op with
        | comparison comparison =>
            simp only
            cases settings.adapters.routine? comparison with
            | none => simpa using hcall
            | some routine =>
                apply yields_count_bind
                apply yields_pure
                simp [adapterCall, Expr.nodes, nodesOfExprs, arrayAccess?_classRef cls hreach]
        | assign => simpa using hassignment
        | compound _ => simpa using hassignment
        | arithmetic _ => simpa using hcall
        | and => simpa using hcall
        | or => simpa using hcall
        | index => simpa using hcall
      · rename_i hdisabled
        apply yields_pure
        simp [Expr.nodes, hdisabled]

end Rules

/-! ## What a lowering leaves -/

section Trees

variable (settings : Settings) (rule : Rule) (cls : TypeId)

mutual

/-- The only nodes of a lowered tree that a rule takes are calls that operators became. -/
theorem yields_lower_rewritesAny (hreach : settings.types.Reachable) :
    (e : Expr) → Yields (e.lower settings cls) fun out =>
      settings.rewritesAny rule cls out.nodes =
        (rule == .arrayIndex && settings.makesElementCallAny cls e.nodes)
  | .literal info value =>
      yields_pure (by simp [Expr.nodes, Expr.becomesElementCall])
  | .var info name declaredType =>
      yields_pure (by simp [Expr.nodes, Expr.becomesElementCall])
  | .this info => yields_pure (by simp [Expr.nodes, Expr.becomesElementCall])
  | .classRef info type => yields_pure (by simp [Expr.nodes, Expr.becomesElementCall])
  | .property info receiver name => by
      refine (yields_lower_rewritesAny hreach receiver).bind fun receiver' hreceiver => ?_
      apply yields_pure
      simp [Expr.nodes, Expr.becomesElementCall, hreceiver]
  | .methodCall info receiver name args safe spread => by
      refine (yields_lower_rewritesAny hreach receiver).bind fun receiver' hreceiver => ?_
      refine (yields_lowerExprs_rewritesAny hreach args).bind fun args' hargs => ?_
      refine (yields_lowerMethodCall_rewritesAny settings rule cls info receiver' name args' safe
        spread).mono fun out hout => ?_
      simp [hout, Expr.nodes, Expr.becomesElementCall, hreceiver, hargs, Bool.and_or_distrib_left]
  | .staticCall info owner name args => by
      refine (yields_lowerExprs_rewritesAny hreach args).bind fun args' hargs => ?_
      refine (yields_lowerStaticCall_rewritesAny settings rule cls hreach info owner name
        args').mono fun out hout => ?_
      simp [hout, Expr.nodes, Expr.becomesElementCall, hargs]
  | .constructorCall info type args => by
      refine (yields_lowerExprs_rewritesAny hreach args).bind fun args' hargs => ?_
      refine (yields_lowerConstructorCall_rewritesAny settings rule cls info type
        args').mono fun out hout => ?_
      simp [hout, Expr.nodes, Expr.becomesElementCall, hargs]
  | .binary info op opSpan left right => by
      refine ((yields_lower_rewritesAny hreach left).and
        (yields_lower_staticType? settings cls left)).bind fun left' hleft => ?_
      refine ((yields_lower_rewritesAny hreach right).and
        (yields_lower_staticType? settings cls right)).bind fun right' hright => ?_
      refine (yields_lowerBinary_rewritesAny settings rule cls hreach info op opSpan left'
        right').mono fun out hout => ?_
      simp only [hout, Expr.nodes, Expr.becomesElementCall, hleft, hright,
        Settings.makesElementCallAny_cons, Settings.makesElementCallAny_append,
        Bool.and_or_distrib_left]
      ac_rfl
  | .ternary info condition yes no => by
      refine (yields_lower_rewritesAny hreach condition).bind fun condition' hcondition => ?_
      refine (yields_lower_rewritesAny hreach yes).bind fun yes' hyes => ?_
      refine (yields_lower_rewritesAny hreach no).bind fun no' hno => ?_
      apply yields_pure
      simp [Expr.nodes, Expr.becomesElementCall, hcondition, hyes, hno, Bool.and_or_distrib_left]
  | .closure info params body scope => by
      intro session
      have hbody := yields_lowerStmts_rewritesAny hreach body session
      change settings.rewritesAny rule cls (Expr.nodes (.closure info params _ _)) = _
      simp only [Expr.nodes, Expr.becomesElementCall, Settings.rewritesAny_cons,
        Settings.makesElementCallAny_cons, Settings.rewrites_closure, Bool.false_or]
      exact hbody
  | .block info body => by
      refine (yields_lowerStmts_rewritesAny hreach body).bind fun body' hbody => ?_
      apply yields_pure
      simp [Expr.nodes, Expr.becomesElementCall, hbody]
  | .map info entries => by
      refine (yields_lowerEntries_rewritesAny hreach entries).bind fun entries' hentries => ?_
      apply yields_pure
      simp [Expr.nodes, Expr.becomesElementCall, hentries]
  | .list info items => by
      refine (yields_lowerExprs_rewritesAny hreach items).bind fun items' hitems => ?_
      apply yields_pure
      simp [Expr.nodes, Expr.becomesElementCall, hitems]
  | .declaration info name declaredType initializer => by
      refine (yields_lower_rewritesAny hreach initializer).bind fun initializer' hinitializer => ?_
      apply yields_pure
      simp [Expr.nodes, Expr.becomesElementCall, hinitializer]
  | .cast info type operand => by
      refine (yields_lower_rewritesAny hreach operand).bind fun operand' hoperand => ?_
      apply yields_pure
      simp [Expr.nodes, Expr.becomesElementCall, hoperand]
  | .unary info op operand => by
      refine (yields_lower_rewritesAny hreach operand).bind fun operand' hoperand => ?_
      apply yields_pure
      simp [Expr.nodes, Expr.becomesElementCall, hoperand]

theorem yields_lowerExprs_rewritesAny (hreach : settings.types.Reachable) :
    (es : List Expr) → Yields (lowerExprs settings cls es) fun out =>
      settings.rewritesAny rule cls (nodesOfExprs out) =
        (rule == .arrayIndex && settings.makesElementCallAny cls (nodesOfExprs es))
  | [] => yields_pure (by simp [nodesOfExprs])
  | e :: rest => by
      refine (yields_lower_rewritesAny hreach e).bind fun e' he => ?_
      refine (yields_lowerExprs_rewritesAny hreach rest).bind fun rest' hrest => ?_
      apply yields_pure
      simp [nodesOfExprs, he, hrest, Bool.and_or_distrib_left]

theorem yields_lowerEntries_rewritesAny (hreach : settings.types.Reachable) :
    (entries : List Entry) → Yields (lowerEntries settings cls entries) fun out =>
      settings.rewritesAny rule cls (nodesOfEntries out) =
        (rule == .arrayIndex && settings.makesElementCallAny cls (nodesOfEntries entries))
  | [] => yields_pure (by simp [nodesOfEntries])
  | .mk key value span :: rest => by
      refine (yields_lower_rewritesAny hreach key).bind fun key' hkey => ?_
      refine (yields_lower_rewritesAny hreach value).bind fun value' hvalue => ?_
      refine (yields_lowerEntries_rewritesAny hreach rest).bind fun rest' hrest => ?_
      apply yields_pure
      simp [nodesOfEntries, hkey, hvalue, hrest, Bool.and_or_distrib_left]

theorem yields_lowerStmt_rewritesAny (hreach : settings.types.Reachable) :
    (s : Stmt) → Yields (s.lower settings cls) fun out =>
      settings.rewritesAny rule cls out.nodes =
        (rule == .arrayIndex && settings.makesElementCallAny cls s.nodes)
  | .expr value => by
      refine (yields_lower_rewritesAny hreach value).bind fun value' hvalue => ?_
      exact yields_pure hvalue
  | .block body => by
      refine (yields_lowerStmts_rewritesAny hreach body).bind fun body' hbody => ?_
      exact yields_pure hbody
  | .ret none span => yields_pure (by simp [Stmt.nodes])
  | .ret (some value) span => by
      refine (yields_lower_rewritesAny hreach value).bind fun value' hvalue => ?_
      exact yields_pure hvalue
  | .ifElse condition yes none => by
      refine (yields_lower_rewritesAny hreach condition).bind fun condition' hcondition => ?_
      refine (yields_lowerStmts_rewritesAny hreach yes).bind fun yes' hyes => ?_
      apply yields_pure
      simp [Stmt.nodes, hcondition, hyes, Bool.and_or_distrib_left]
  | .ifElse condition yes (some no) => by
      refine (yields_lower_rewritesAny hreach condition).bind fun condition' hcondition => ?_
      refine (yields_lowerStmts_rewritesAny hreach yes).bind fun yes' hyes => ?_
      refine (yields_lowerStmts_rewritesAny hreach no).bind fun no' hno => ?_
      apply yields_pure
      simp [Stmt.nodes, hcondition, hyes, hno, Bool.and_or_distrib_left]
  | .whileLoop condition body => by
      refine (yields_lower_rewritesAny hreach condition).bind fun condition' hcondition => ?_
      refine (yields_lowerStmts_rewritesAny hreach body).bind fun body' hbody => ?_
      apply yields_pure
      simp [Stmt.nodes, hcondition, hbody, Bool.and_or_distrib_left]
  | .forIn loopVar iterable body => by
      refine (yields_lower_rewritesAny hreach iterable).bind fun iterable' hiterable => ?_
      refine (yields_lowerStmts_rewritesAny hreach body).bind fun body' hbody => ?_
      apply yields_pure
      simp [Stmt.nodes, hiterable, hbody, Bool.and_or_distrib_left]
  | .throw value => by
      refine (yields_lower_rewritesAny hreach value).bind fun value' hvalue => ?_
      exact yields_pure hvalue

theorem yields_lowerStmts_rewritesAny (hreach : settings.types.Reachable) :
    (body : List Stmt) → Yields (lowerStmts settings cls body) fun out =>
      settings.rewritesAny rule cls (nodesOfStmts out) =
        (rule == .arrayIndex && settings.makesElementCallAny cls (nodesOfStmts body))
  | [] => yields_pure (by simp [nodesOfStmts])
  | s :: rest => by
      refine (yields_lowerStmt_rewritesAny hreach s).bind fun s' hs => ?_
      refine (yields_lowerStmts_rewritesAny hreach rest).bind fun rest' hrest => ?_
      apply yields_pure
      simp [nodesOfStmts, hs, hrest, Bool.and_or_distrib_left]

end

end Trees

end StaticDispatch
