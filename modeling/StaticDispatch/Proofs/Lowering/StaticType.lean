import StaticDispatch.Proofs.Lowering.Result

/-!
# Static types of lowered trees

Every rule has a static type for its result that depends on the facts of the
node and on the static types of its lowered children, and not on the session.
A lowered expression therefore has one static type in all sessions.
-/

namespace StaticDispatch

open LowerM

/-! ## Results of the rules -/

/-- The static type of the access to an element that a call with these static types of
receiver and arguments stands for. -/
def elementType? (types : TypeTable) (name : String) (receiver : Option TypeId)
    (args : List (Option TypeId)) : Option (Option TypeId) :=
  match receiver.bind types.component?, args with
  | some component, [index] =>
      if name == "getAt" && (index.map types.wrapper == some .integer ||
          types.isEnum component && index.map types.wrapper == some .number) then
        some (some component)
      else none
  | some _, [index, value] =>
      if name == "putAt" && index.map types.wrapper == some .integer then some value else none
  | _, _ => none

def ArrayAccess.staticType? (types : TypeTable) (cls : TypeId) :
    ArrayAccess → Option TypeId
  | .read component _ => some component
  | .write _ _ value => value.staticType? types cls

/-- Whether a call is access to an element depends on static types only. -/
theorem arrayAccess?_map_staticType? (types : TypeTable) (cls : TypeId) (receiver : Expr)
    (name : String) (args : List Expr) :
    (arrayAccess? types cls receiver name args).map (ArrayAccess.staticType? types cls) =
      elementType? types name (receiver.staticType? types cls)
        (args.map (Expr.staticType? types cls)) := by
  unfold arrayAccess? elementType? arrayComponent? isIntegralIndex isNumberIndex
  cases (receiver.staticType? types cls).bind types.component? with
  | none =>
      match args with
      | [] => rfl
      | [_] => rfl
      | [_, _] => rfl
      | _ :: _ :: _ :: _ => rfl
  | some component =>
      match args with
      | [] => rfl
      | [index] =>
          simp only [List.map_cons, List.map_nil]
          split <;> rfl
      | [index, value] =>
          simp only [List.map_cons, List.map_nil]
          split <;> rfl
      | _ :: _ :: _ :: _ => rfl

theorem arrayAccess?_isSome (types : TypeTable) (cls : TypeId) (receiver : Expr)
    (name : String) (args : List Expr) :
    (arrayAccess? types cls receiver name args).isSome =
      (elementType? types name (receiver.staticType? types cls)
        (args.map (Expr.staticType? types cls))).isSome := by
  rw [← arrayAccess?_map_staticType?, Option.isSome_map]

section StaticType

variable (settings : Settings) (cls : TypeId)

/-- The static type that a plain call has after its lowering. -/
def plainCallType? (info : Info) (name : String) (receiver : Option TypeId)
    (args : List (Option TypeId)) : Option TypeId :=
  let callType := info.facts.inferredType <|> info.facts.callType? settings.types
  if settings.config.isEnabled .arrayIndex then
    (elementType? settings.types name receiver args).getD callType
  else callType

theorem yields_lowerPlainCall_staticType? (info : Info) (receiver : Expr) (name : String)
    (args : List Expr) (spread : Bool) :
    Yields (lowerPlainCall settings cls info receiver name args spread) fun out =>
      out.staticType? settings.types cls =
        plainCallType? settings info name (receiver.staticType? settings.types cls)
          (args.map (Expr.staticType? settings.types cls)) := by
  unfold lowerPlainCall plainCallType?
  split
  · rw [← arrayAccess?_map_staticType?]
    unfold lowerArrayAccess
    cases arrayAccess? settings.types cls receiver name args with
    | none => exact yields_pure rfl
    | some access =>
        cases access with
        | read component index => exact yields_count_bind (yields_pure rfl)
        | write component index value => exact yields_count_bind (yields_pure rfl)
  · exact yields_pure rfl

theorem yields_splitReceiver_staticType? (receiver : Expr) :
    Yields (splitReceiver settings cls receiver) fun pair =>
      pair.2.staticType? settings.types cls = receiver.staticType? settings.types cls := by
  unfold splitReceiver
  split
  · refine (yields_bindTemporary settings cls receiver).mono ?_
    rintro ⟨checked, called⟩ ⟨name, -, hcalled⟩
    simp only at hcalled
    subst hcalled
    simp [Expr.staticType?, Span.info]
  · exact yields_pure rfl

/-- The static type that a method call has after its lowering. -/
def methodCallType? (info : Info) (name : String) (safe : Bool) (receiver : Option TypeId)
    (args : List (Option TypeId)) : Option TypeId :=
  if safe then
    if settings.config.isEnabled .safeNavigation then
      info.facts.inferredType <|>
        joinTypes (plainCallType? settings info name receiver args) (some .object)
    else info.facts.inferredType <|> info.facts.callType? settings.types
  else plainCallType? settings info name receiver args

theorem yields_lowerMethodCall_staticType? (info : Info) (receiver : Expr) (name : String)
    (args : List Expr) (safe spread : Bool) :
    Yields (lowerMethodCall settings cls info receiver name args safe spread) fun out =>
      out.staticType? settings.types cls =
        methodCallType? settings info name safe (receiver.staticType? settings.types cls)
          (args.map (Expr.staticType? settings.types cls)) := by
  unfold lowerMethodCall methodCallType?
  split
  · split
    · refine (yields_splitReceiver_staticType? settings cls receiver).bind ?_
      rintro ⟨checked, called⟩ hcalled
      apply yields_count_bind
      refine (yields_lowerPlainCall_staticType? settings cls info called name args
        spread).bind ?_
      intro call hcall
      apply yields_pure
      rw [hcalled] at hcall
      rw [← hcall]
      rfl
    · exact yields_pure rfl
  · exact yields_lowerPlainCall_staticType? settings cls info receiver name args spread

/-- The static type that a static call has after its lowering is the one it has before. -/
theorem yields_lowerStaticCall_staticType? (info : Info) (owner : TypeId) (name : String)
    (args : List Expr) :
    Yields (lowerStaticCall settings info owner name args) fun out =>
      out.staticType? settings.types cls =
        (info.facts.inferredType <|> info.facts.callType? settings.types) := by
  unfold lowerStaticCall
  split
  · exact yields_count_bind (yields_pure rfl)
  · exact yields_pure rfl

/-- The static type that a constructor call has after its lowering. -/
def constructorCallType? (info : Info) (type : TypeId) (isKeyword : Bool) : Option TypeId :=
  match info.facts.targetConstructor?.bind (mapConstructorOwner? settings.types) with
  | some owner =>
      if isKeyword && settings.config.isEnabled .namedConstructors then
        some (info.facts.inferredType.getD owner)
      else info.facts.inferredType <|> some type
  | none => info.facts.inferredType <|> some type

theorem keywordConstructor?_eq_some {types : TypeTable} {info : Info} {args : List Expr}
    {owner : TypeId} {entries : List Entry}
    (h : keywordConstructor? types info args = some (owner, entries)) :
    info.facts.targetConstructor?.bind (mapConstructorOwner? types) = some owner ∧
      keywordEntries? args = some entries := by
  unfold keywordConstructor? at h
  split at h
  · exact absurd h (by simp)
  · rename_i ctor hctor
    split at h
    · rename_i owner' entries' howner hentries
      obtain ⟨rfl, rfl⟩ : owner' = owner ∧ entries' = entries := by simpa using h
      exact ⟨by rw [hctor]; exact howner, hentries⟩
    · exact absurd h (by simp)

theorem keywordConstructor?_isSome (types : TypeTable) (info : Info) (args : List Expr) :
    (keywordConstructor? types info args).isSome =
      ((info.facts.targetConstructor?.bind (mapConstructorOwner? types)).isSome &&
        (keywordEntries? args).isSome) := by
  unfold keywordConstructor?
  cases info.facts.targetConstructor? with
  | none => rfl
  | some ctor =>
      simp only [Option.bind_some]
      cases mapConstructorOwner? types ctor with
      | none => rfl
      | some owner =>
          cases keywordEntries? args with
          | none => rfl
          | some entries => rfl

theorem yields_lowerConstructorCall_staticType? (info : Info) (type : TypeId)
    (args : List Expr) :
    Yields (lowerConstructorCall settings info type args) fun out =>
      out.staticType? settings.types cls =
        constructorCallType? settings info type (keywordEntries? args).isSome := by
  unfold lowerConstructorCall
  cases hkeyword : keywordConstructor? settings.types info args with
  | none =>
      apply yields_pure
      have hsome := keywordConstructor?_isSome settings.types info args
      rw [hkeyword] at hsome
      unfold constructorCallType?
      split
      · rename_i owner howner
        rw [howner] at hsome
        have hnone : (keywordEntries? args).isSome = false := by simpa using hsome.symm
        rw [hnone]
        rfl
      · rfl
  | some found =>
      obtain ⟨owner, entries⟩ := found
      obtain ⟨howner, hentries⟩ := keywordConstructor?_eq_some hkeyword
      simp only [constructorCallType?, howner, hentries]
      split
      · rename_i henabled
        intro session
        simp [henabled]
        rfl
      · rename_i henabled
        apply yields_pure
        simp [henabled, Expr.staticType?]

/-! ## Assignment targets -/

/-- No part of the target has to be bound before the target is read and written. -/
def Expr.isStableTarget : Expr → Bool
  | .property _ receiver _ => receiver.isSideEffectFree
  | .binary _ .index _ left right => left.isSideEffectFree && right.isSideEffectFree
  | _ => true

theorem yields_stableOperand (operand : Expr) :
    Yields (stableOperand settings cls operand) fun pair =>
      pair.1.isEmpty = operand.isSideEffectFree ∧
        pair.2.staticType? settings.types cls = operand.staticType? settings.types cls := by
  unfold stableOperand
  split
  · rename_i hpure
    exact yields_pure ⟨hpure.symm, rfl⟩
  · rename_i himpure
    refine (yields_bindTemporary settings cls operand).bind ?_
    rintro ⟨declaration, reference⟩ ⟨name, -, rfl⟩
    apply yields_pure
    constructor
    · simp only [Bool.not_eq_true] at himpure
      rw [himpure]
      rfl
    · simp [Expr.staticType?, Span.info]

/-- A target keeps its static type when it is made stable. -/
theorem yields_stableTarget (target : Expr) :
    Yields (stableTarget settings cls target) fun pair =>
      pair.1.isEmpty = target.isStableTarget ∧
        pair.2.staticType? settings.types cls = target.staticType? settings.types cls := by
  unfold stableTarget
  split
  · rename_i info receiver name
    refine (yields_stableOperand settings cls receiver).bind ?_
    rintro ⟨before, receiver'⟩ ⟨hempty, htype⟩
    apply yields_pure
    constructor
    · exact hempty
    · simp only [Expr.staticType?]
      rw [htype]
  · rename_i info opSpan left right
    refine (yields_stableOperand settings cls left).bind ?_
    rintro ⟨before, left'⟩ ⟨hempty, htype⟩
    refine (yields_stableOperand settings cls right).bind ?_
    rintro ⟨between, right'⟩ ⟨hempty', htype'⟩
    apply yields_pure
    constructor
    · simp only [Expr.isStableTarget] at hempty hempty' ⊢
      rw [← hempty, ← hempty']
      cases before <;> rfl
    · simp only [Expr.staticType?]
      rw [htype]
  · rename_i hproperty hindex
    apply yields_pure
    constructor
    · unfold Expr.isStableTarget
      split
      · exact absurd rfl (hproperty _ _ _)
      · exact absurd rfl (hindex _ _ _ _)
      · rfl
    · rfl

/-- The static type of the call of an operator's method. -/
def operatorCallType? (info : Info) (method : MethodId) : Option TypeId :=
  info.facts.inferredType <|> CallTarget.resultType? settings.types (.method method)

/-- The static type that an assignment with an operator has after its lowering. -/
def operatorAssignmentType? (info : Info) (target : OperatorTarget) (isStable : Bool) :
    Option TypeId :=
  if isStable then info.facts.inferredType <|> operatorCallType? settings info target.method
  else info.facts.inferredType

/-- The static type that an operator with a target has after its lowering. -/
def resolvedOperatorType? (info : Info) (target : OperatorTarget) (op : BinaryOp)
    (isStable : Bool) : Option TypeId :=
  match op with
  | .comparison comparison =>
      operatorCallType? settings info
        ((settings.adapters.routine? comparison).getD target.method)
  | .assign => operatorAssignmentType? settings info target isStable
  | .compound _ => operatorAssignmentType? settings info target isStable
  | _ => operatorCallType? settings info target.method

theorem yields_lowerOperatorAssignment_staticType? (info : Info) (opSpan : Span)
    (target : OperatorTarget) (left right : Expr) :
    Yields
      (lowerOperatorAssignment settings cls info.span opSpan info.facts.inferredType target
        left right)
      fun out => out.staticType? settings.types cls =
        operatorAssignmentType? settings info target left.isStableTarget := by
  unfold lowerOperatorAssignment operatorAssignmentType?
  refine (yields_stableTarget settings cls left).bind ?_
  rintro ⟨before, place⟩ ⟨hempty, -⟩
  apply yields_count_bind
  apply yields_pure
  simp only at hempty
  unfold assignmentAfter
  rw [hempty]
  split <;> rfl

theorem yields_lowerResolvedOperator_staticType? (info : Info) (target : OperatorTarget)
    (op : BinaryOp) (opSpan : Span) (left right : Expr) :
    Yields (lowerResolvedOperator settings cls info target op opSpan left right)
      fun out => out.staticType? settings.types cls =
        resolvedOperatorType? settings info target op left.isStableTarget := by
  unfold lowerResolvedOperator resolvedOperatorType?
  cases op with
  | comparison comparison =>
      simp only
      cases settings.adapters.routine? comparison with
      | some routine => exact yields_count_bind (yields_pure rfl)
      | none => exact yields_count_bind (yields_pure rfl)
  | assign =>
      exact yields_lowerOperatorAssignment_staticType? settings cls info opSpan target left right
  | compound _ =>
      exact yields_lowerOperatorAssignment_staticType? settings cls info opSpan target left right
  | arithmetic _ => exact yields_count_bind (yields_pure rfl)
  | and => exact yields_count_bind (yields_pure rfl)
  | or => exact yields_count_bind (yields_pure rfl)
  | index => exact yields_count_bind (yields_pure rfl)

/-- The static type that an operator has after its lowering. -/
def binaryType? (info : Info) (op : BinaryOp) (isStable : Bool) (left right : Option TypeId) :
    Option TypeId :=
  match info.facts.operatorTarget with
  | some target =>
      if settings.config.isEnabled .binaryOperators then
        resolvedOperatorType? settings info target op isStable
      else plainType
  | none => plainType
where
  plainType : Option TypeId :=
    info.facts.inferredType <|>
      match op with
      | .index => left.bind settings.types.component?
      | .assign => right
      | .and => some .boolean
      | .or => some .boolean
      | .comparison .threeWay => some .int
      | .comparison _ => some .boolean
      | .compound _ => none
      | .arithmetic _ => none

theorem yields_lowerBinary_staticType? (info : Info) (op : BinaryOp) (opSpan : Span)
    (left right : Expr) :
    Yields (lowerBinary settings cls info op opSpan left right) fun out =>
      out.staticType? settings.types cls =
        binaryType? settings info op left.isStableTarget
          (left.staticType? settings.types cls) (right.staticType? settings.types cls) := by
  have hplain : (Expr.binary info op opSpan left right).staticType? settings.types cls =
      binaryType?.plainType settings info op (left.staticType? settings.types cls)
        (right.staticType? settings.types cls) := by
    cases op <;> rfl
  unfold lowerBinary binaryType?
  cases info.facts.operatorTarget with
  | none => exact yields_pure hplain
  | some target =>
      simp only
      split
      · exact yields_lowerResolvedOperator_staticType? settings cls info target op opSpan left
          right
      · exact yields_pure hplain

/-! ## Targets after lowering -/

/-- Whether a plain call is a stable target after its lowering. -/
def plainCallIsStable (name : String) (receiver : Option TypeId)
    (args : List (Option TypeId)) (pure : Bool) : Bool :=
  if settings.config.isEnabled .arrayIndex && name == "getAt" &&
      (elementType? settings.types name receiver args).isSome then pure
  else true

theorem arrayAccess?_eq_read {types : TypeTable} {receiver : Expr} {name : String}
    {args : List Expr} {component : TypeId} {index : Expr}
    (h : arrayAccess? types cls receiver name args = some (.read component index)) :
    name = "getAt" ∧ args = [index] := by
  unfold arrayAccess? at h
  split at h
  · rename_i component' index' hcomponent
    split at h
    · rename_i hcond
      simp only [Option.some.injEq, ArrayAccess.read.injEq] at h
      simp only [Bool.and_eq_true, beq_iff_eq] at hcond
      exact ⟨hcond.1, by rw [h.2]⟩
    · exact absurd h (by simp)
  · split at h
    · simp at h
    · exact absurd h (by simp)
  · exact absurd h (by simp)

theorem arrayAccess?_eq_write {types : TypeTable} {receiver : Expr} {name : String}
    {args : List Expr} {component : TypeId} {index value : Expr}
    (h : arrayAccess? types cls receiver name args = some (.write component index value)) :
    name = "putAt" ∧ args = [index, value] := by
  unfold arrayAccess? at h
  split at h
  · split at h
    · simp at h
    · exact absurd h (by simp)
  · rename_i component' index' value' hcomponent
    split at h
    · rename_i hcond
      simp only [Option.some.injEq, ArrayAccess.write.injEq] at h
      simp only [Bool.and_eq_true, beq_iff_eq] at hcond
      exact ⟨hcond.1, by rw [h.2.1, h.2.2]⟩
    · exact absurd h (by simp)
  · exact absurd h (by simp)

theorem yields_lowerPlainCall_isStableTarget (info : Info) (receiver : Expr) (name : String)
    (args : List Expr) (spread : Bool) :
    Yields (lowerPlainCall settings cls info receiver name args spread) fun out =>
      out.isStableTarget =
        plainCallIsStable settings name (receiver.staticType? settings.types cls)
          (args.map (Expr.staticType? settings.types cls))
          (receiver.isSideEffectFree && args.all Expr.isSideEffectFree) := by
  unfold lowerPlainCall plainCallIsStable
  rw [← arrayAccess?_isSome]
  split
  · rename_i henabled
    unfold lowerArrayAccess
    cases haccess : arrayAccess? settings.types cls receiver name args with
    | none =>
        apply yields_pure
        simp [Expr.isStableTarget]
    | some access =>
        cases access with
        | read component index =>
            obtain ⟨rfl, rfl⟩ := arrayAccess?_eq_read cls haccess
            apply yields_count_bind
            apply yields_pure
            simp [henabled, elementAt, Expr.isStableTarget]
        | write component index value =>
            obtain ⟨rfl, rfl⟩ := arrayAccess?_eq_write cls haccess
            apply yields_count_bind
            apply yields_pure
            simp [Expr.isStableTarget]
  · rename_i hdisabled
    apply yields_pure
    simp [hdisabled, Expr.isStableTarget]

theorem yields_lowerMethodCall_isStableTarget (info : Info) (receiver : Expr)
    (name : String) (args : List Expr) (safe spread : Bool) :
    Yields (lowerMethodCall settings cls info receiver name args safe spread) fun out =>
      out.isStableTarget =
        (safe || plainCallIsStable settings name (receiver.staticType? settings.types cls)
          (args.map (Expr.staticType? settings.types cls))
          (receiver.isSideEffectFree && args.all Expr.isSideEffectFree)) := by
  unfold lowerMethodCall
  cases safe with
  | true =>
      simp only [if_true, Bool.true_or]
      split
      · intro session
        rfl
      · exact yields_pure rfl
  | false =>
      simp only [Bool.false_or]
      exact yields_lowerPlainCall_isStableTarget settings cls info receiver name args spread

theorem yields_lowerStaticCall_isStableTarget (info : Info) (owner : TypeId) (name : String)
    (args : List Expr) :
    Yields (lowerStaticCall settings info owner name args)
      fun out => out.isStableTarget = true := by
  unfold lowerStaticCall
  split
  · exact yields_count_bind (yields_pure rfl)
  · exact yields_pure rfl

theorem yields_lowerConstructorCall_isStableTarget (info : Info) (type : TypeId)
    (args : List Expr) :
    Yields (lowerConstructorCall settings info type args)
      fun out => out.isStableTarget = true := by
  unfold lowerConstructorCall
  split
  · split
    · intro session
      rfl
    · exact yields_pure rfl
  · exact yields_pure rfl

theorem assignmentAfter_isStableTarget (span : Span) (type : Option TypeId)
    (before : List Stmt) {assignment : Expr} (h : assignment.isStableTarget = true) :
    (assignmentAfter span type before assignment).isStableTarget = true := by
  unfold assignmentAfter
  split
  · exact h
  · rfl

theorem yields_lowerOperatorAssignment_isStableTarget (span opSpan : Span)
    (type : Option TypeId) (target : OperatorTarget) (left right : Expr) :
    Yields (lowerOperatorAssignment settings cls span opSpan type target left right)
      fun out => out.isStableTarget = true := by
  intro session
  exact assignmentAfter_isStableTarget span type _ rfl

/-- Whether an operator is a stable target after its lowering; only one that is left as it
is can have parts. -/
def binaryIsStable (info : Info) (op : BinaryOp) (pure : Bool) : Bool :=
  info.facts.operatorTarget.isSome && settings.config.isEnabled .binaryOperators ||
    (op != .index || pure)

theorem yields_lowerBinary_isStableTarget (info : Info) (op : BinaryOp) (opSpan : Span)
    (left right : Expr) :
    Yields (lowerBinary settings cls info op opSpan left right) fun out =>
      out.isStableTarget =
        binaryIsStable settings info op (left.isSideEffectFree && right.isSideEffectFree) := by
  have hplain : (Expr.binary info op opSpan left right).isStableTarget =
      (op != .index || (left.isSideEffectFree && right.isSideEffectFree)) := by
    cases op <;> rfl
  unfold lowerBinary binaryIsStable
  cases info.facts.operatorTarget with
  | none => exact yields_pure hplain
  | some target =>
      simp only [Option.isSome_some, Bool.true_and]
      split
      · rename_i henabled
        simp only [henabled, Bool.true_or]
        unfold lowerResolvedOperator
        split
        · split
          · exact yields_count_bind (yields_pure rfl)
          · exact yields_count_bind (yields_pure rfl)
        · exact yields_lowerOperatorAssignment_isStableTarget settings cls _ _ _ _ _ _
        · exact yields_lowerOperatorAssignment_isStableTarget settings cls _ _ _ _ _ _
        · exact yields_count_bind (yields_pure rfl)
      · rename_i hdisabled
        simp only [hdisabled, Bool.false_or]
        exact yields_pure hplain

end StaticType

/-! ## One answer for all sessions -/

/-- The static type of a lowered expression and whether it is a stable target. -/
structure Outline where
  type : Option TypeId
  isStable : Bool

def Expr.outline (types : TypeTable) (cls : TypeId) (e : Expr) : Outline :=
  ⟨e.staticType? types cls, e.isStableTarget⟩

section Outline

variable (settings : Settings) (cls : TypeId)

theorem LowerM.Yields.outline {step : LowerM Expr} {type : Option TypeId} {isStable : Bool}
    (htype : step.Yields fun out => out.staticType? settings.types cls = type)
    (hstable : step.Yields fun out => out.isStableTarget = isStable) :
    step.Yields fun out => out.outline settings.types cls = ⟨type, isStable⟩ := by
  refine (htype.and hstable).mono ?_
  rintro out ⟨rfl, rfl⟩
  rfl

theorem yields_lowerExprs_isSideEffectFree (es : List Expr) :
    Yields (lowerExprs settings cls es) fun out =>
      out.all Expr.isSideEffectFree = es.all Expr.isSideEffectFree := by
  induction es with
  | nil => exact yields_pure rfl
  | cons e rest ih =>
      refine (yields_lower_sameShape settings cls e).bind fun e' he => ?_
      refine ih.bind fun rest' hrest => ?_
      apply yields_pure
      simp only [List.all_cons]
      rw [he.sideEffects, hrest]

theorem keywordEntries?_cons_cons (e other : Expr) (rest : List Expr) :
    keywordEntries? (e :: other :: rest) = none := by
  cases e <;> rfl

theorem yields_lowerExprs_keywords (es : List Expr) :
    Yields (lowerExprs settings cls es) fun out =>
      (keywordEntries? out).isSome = (keywordEntries? es).isSome := by
  match es with
  | [] => exact yields_pure rfl
  | [e] =>
      refine (yields_lower_sameShape settings cls e).bind fun e' he => ?_
      exact yields_pure he.keywords.symm
  | e :: other :: rest =>
      intro session
      rw [keywordEntries?_cons_cons]
      exact congrArg Option.isSome (keywordEntries?_cons_cons _ _ _)

mutual

/-- The outline of a lowered expression is the same in every session. -/
theorem exists_outline :
    (e : Expr) → ∃ outline, Yields (e.lower settings cls) fun out =>
      out.outline settings.types cls = outline
  | .literal info value => ⟨_, yields_pure rfl⟩
  | .var info name declaredType => ⟨_, yields_pure rfl⟩
  | .this info => ⟨_, yields_pure rfl⟩
  | .classRef info type => ⟨_, yields_pure rfl⟩
  | .property info receiver name => by
      obtain ⟨outline, hreceiver⟩ := exists_outline receiver
      have hpure := yields_lower_sameShape settings cls receiver
      refine ⟨⟨info.facts.inferredType <|>
        outline.type.bind (settings.types.propertyType? · name),
        receiver.isSideEffectFree⟩, ?_⟩
      refine (hreceiver.and hpure).bind fun receiver' h => ?_
      obtain ⟨rfl, hshape⟩ := h
      apply yields_pure
      rw [hshape.sideEffects]
      rfl
  | .methodCall info receiver name args safe spread => by
      obtain ⟨outline, hreceiver⟩ := exists_outline receiver
      obtain ⟨types, hargs⟩ := exists_outlines args
      have hpure := yields_lower_sameShape settings cls receiver
      have hpures := yields_lowerExprs_isSideEffectFree settings cls args
      refine ⟨⟨methodCallType? settings info name safe outline.type types,
        safe || plainCallIsStable settings name outline.type types
          (receiver.isSideEffectFree && args.all Expr.isSideEffectFree)⟩, ?_⟩
      refine (hreceiver.and hpure).bind fun receiver' h => ?_
      obtain ⟨rfl, hshape⟩ := h
      refine (hargs.and hpures).bind fun args' h => ?_
      obtain ⟨rfl, hargs'⟩ := h
      rw [hshape.sideEffects, ← hargs']
      exact Yields.outline settings cls
        (yields_lowerMethodCall_staticType? settings cls info receiver' name args' safe spread)
        (yields_lowerMethodCall_isStableTarget settings cls info receiver' name args' safe
          spread)
  | .staticCall info owner name args => by
      refine ⟨⟨info.facts.inferredType <|> info.facts.callType? settings.types, true⟩, ?_⟩
      intro session
      exact Yields.outline settings cls
        (yields_lowerStaticCall_staticType? settings cls info owner name _)
        (yields_lowerStaticCall_isStableTarget settings info owner name _) _
  | .constructorCall info type args => by
      have hkeywords := yields_lowerExprs_keywords settings cls args
      refine ⟨⟨constructorCallType? settings info type (keywordEntries? args).isSome,
        true⟩, ?_⟩
      refine hkeywords.bind fun args' hargs => ?_
      rw [← hargs]
      exact Yields.outline settings cls
        (yields_lowerConstructorCall_staticType? settings cls info type args')
        (yields_lowerConstructorCall_isStableTarget settings info type args')
  | .binary info op opSpan left right => by
      obtain ⟨outline, hleft⟩ := exists_outline left
      obtain ⟨outline', hright⟩ := exists_outline right
      have hpure := yields_lower_sameShape settings cls left
      have hpure' := yields_lower_sameShape settings cls right
      refine ⟨⟨binaryType? settings info op outline.isStable outline.type outline'.type,
        binaryIsStable settings info op (left.isSideEffectFree && right.isSideEffectFree)⟩, ?_⟩
      refine (hleft.and hpure).bind fun left' h => ?_
      obtain ⟨rfl, hshape⟩ := h
      refine (hright.and hpure').bind fun right' h => ?_
      obtain ⟨rfl, hshape'⟩ := h
      rw [hshape.sideEffects, hshape'.sideEffects]
      exact Yields.outline settings cls
        (yields_lowerBinary_staticType? settings cls info op opSpan left' right')
        (yields_lowerBinary_isStableTarget settings cls info op opSpan left' right')
  | .ternary info condition yes no => by
      obtain ⟨outline, hyes⟩ := exists_outline yes
      obtain ⟨outline', hno⟩ := exists_outline no
      refine ⟨⟨info.facts.inferredType <|> joinTypes outline.type outline'.type, true⟩, ?_⟩
      intro session
      have hyes := hyes ((condition.lower settings cls).run session).2
      have hno := hno
        ((yes.lower settings cls).run ((condition.lower settings cls).run session).2).2
      rw [← hyes, ← hno]
      rfl
  | .closure info params body scope =>
      ⟨⟨info.facts.inferredType <|> some .closure, true⟩, fun _ => rfl⟩
  | .block info body => ⟨⟨info.facts.inferredType, true⟩, fun _ => rfl⟩
  | .map info entries =>
      ⟨⟨info.facts.inferredType <|> some .linkedHashMap, true⟩, fun _ => rfl⟩
  | .list info items => ⟨⟨info.facts.inferredType <|> some .list, true⟩, fun _ => rfl⟩
  | .declaration info name declaredType initializer => by
      obtain ⟨outline, hinit⟩ := exists_outline initializer
      refine ⟨⟨info.facts.inferredType <|> (declaredType <|> outline.type), true⟩, ?_⟩
      refine hinit.bind fun initializer' h => ?_
      subst h
      exact yields_pure rfl
  | .cast info type operand => ⟨⟨info.facts.inferredType <|> some type, true⟩, fun _ => rfl⟩
  | .unary info op operand => by
      obtain ⟨outline, hoperand⟩ := exists_outline operand
      refine ⟨⟨info.facts.inferredType <|>
        (match op with
        | .not => some .boolean
        | .negate => outline.type), true⟩, ?_⟩
      refine hoperand.bind fun operand' h => ?_
      subst h
      cases op with
      | not => exact yields_pure rfl
      | negate => exact yields_pure rfl

theorem exists_outlines :
    (es : List Expr) → ∃ types, Yields (lowerExprs settings cls es) fun out =>
      out.map (Expr.staticType? settings.types cls) = types
  | [] => ⟨[], yields_pure rfl⟩
  | e :: rest => by
      obtain ⟨outline, he⟩ := exists_outline e
      obtain ⟨types, hrest⟩ := exists_outlines rest
      refine ⟨outline.type :: types, ?_⟩
      refine he.bind fun e' h => ?_
      subst h
      refine hrest.bind fun rest' h => ?_
      subst h
      exact yields_pure rfl

end

/-- The static type that an expression has after its lowering. -/
def Expr.loweredType? (e : Expr) : Option TypeId :=
  ((e.lower settings cls).run {}).1.staticType? settings.types cls

theorem yields_lower_staticType? (e : Expr) :
    Yields (e.lower settings cls) fun out =>
      out.staticType? settings.types cls = e.loweredType? settings cls := by
  obtain ⟨outline, h⟩ := exists_outline settings cls e
  intro session
  unfold Expr.loweredType?
  exact congrArg Outline.type ((h session).trans (h {}).symm)

end Outline

end StaticDispatch
