import StaticDispatch.Proofs.Lowering.Invariant
import StaticDispatch.Proofs.Tree.Renaming

/-!
# Lowering in a moved session

A lowering does little to its session: it draws a name, adds to the counts, and
records a scope.  A map on sessions that goes along with these three goes along
with the lowering of every tree, whose names are changed as the map asks.
-/

namespace StaticDispatch

/-! ## Maps on sessions -/

/-- A map on sessions that goes along with all that a lowering of trees does to its session,
where `f` maps the names. -/
structure Config.Carries (config : Config) (f : String → String) (move : Session → Session) :
    Prop where
  injective : Function.Injective f
  sameNumber : ∀ s s', (move s).nextName = (move s').nextName ↔ s.nextName = s'.nextName
  temporary : ∀ s, syntheticName config.temporaryStem (move s).nextName =
    f (syntheticName config.temporaryStem s.nextName)
  localName : ∀ s, syntheticName config.localStem (move s).nextName =
    f (syntheticName config.localStem s.nextName)
  draw : ∀ s, { move s with nextName := (move s).nextName + 1 } =
    move { s with nextName := s.nextName + 1 }
  count : ∀ s applied, { move s with stats := (move s).stats + applied } =
    move { s with stats := s.stats + applied }
  record : ∀ s scope, { move s with scopes := (move s).scopes ++ [scope.rename f] } =
    move { s with scopes := s.scopes ++ [scope] }

namespace LowerM

variable {α β : Type}

/-- In the moved session the second step does what the first does in the session itself, and
its answer is the moved one. -/
def Carried (move : Session → Session) (moved : α → α) (step step' : LowerM α) : Prop :=
  ∀ session, step'.run (move session) =
    (moved (step.run session).1, move (step.run session).2)

variable {config : Config} {f : String → String} {move : Session → Session} {moved : α → α}
  {moved' : β → β}

theorem carried_pure {a a' : α} (h : a' = moved a) :
    Carried move moved (pure a) (pure a') := by
  intro session
  subst h
  rfl

theorem Carried.bind {step step' : LowerM α} {next next' : α → LowerM β}
    (hstep : Carried move moved step step')
    (hnext : ∀ a, Carried move moved' (next a) (next' (moved a))) :
    Carried move moved' (step >>= next) (step' >>= next') := by
  intro session
  change (next' (step'.run _).1).run (step'.run _).2 = _
  rw [hstep session]
  exact hnext _ _

theorem Carried.count_bind (hmove : config.Carries f move) {applied : Stats}
    {next next' : Unit → LowerM β} (hnext : Carried move moved' (next ()) (next' ())) :
    Carried move moved' (count applied >>= next) (count applied >>= next') := by
  have hcount : Carried move id (count applied) (count applied) :=
    fun session => congrArg (Prod.mk ()) (hmove.count session applied)
  exact hcount.bind fun _ => hnext

/-- Drawing goes along, whichever of the stems it is for. -/
theorem carried_freshName (hmove : config.Carries f move) {stem : String}
    (hstem : ∀ s, syntheticName stem (move s).nextName = f (syntheticName stem s.nextName)) :
    Carried move f (freshName stem) (freshName stem) :=
  fun session => Prod.ext (hstem session) (hmove.draw session)

theorem carried_registerScope (hmove : config.Carries f move) (params : List Param)
    (body : Block) :
    Carried move (VariableScope.rename f) (registerScope params body)
      (registerScope (params.map (Param.rename f)) (renameStmts f body)) := by
  intro session
  have hscope := VariableScope.ofClosure_rename hmove.injective params body
  change (VariableScope.ofClosure (params.map (Param.rename f)) (renameStmts f body),
    { move session with scopes := (move session).scopes ++
        [VariableScope.ofClosure (params.map (Param.rename f)) (renameStmts f body)] }) = _
  rw [hscope, hmove.record]
  rfl

end LowerM

open LowerM

/-! ## What rules see of renamed trees -/

section Renamed

variable (f : String → String)

def ArrayAccess.rename : ArrayAccess → ArrayAccess
  | .read component index => .read component (index.rename f)
  | .write component index value => .write component (index.rename f) (value.rename f)

theorem arrayAccess?_rename (types : TypeTable) (cls : TypeId) (receiver : Expr) (name : String)
    (args : List Expr) :
    arrayAccess? types cls (receiver.rename f) name (renameExprs f args) =
      (arrayAccess? types cls receiver name args).map (ArrayAccess.rename f) := by
  have hcomponent : arrayComponent? types cls (receiver.rename f) =
      arrayComponent? types cls receiver := by
    unfold arrayComponent?
    rw [Expr.staticType?_rename]
  have hindex : ∀ index : Expr, isIntegralIndex types cls (index.rename f) =
      isIntegralIndex types cls index := by
    intro index
    unfold isIntegralIndex
    rw [Expr.staticType?_rename]
  have hnumber : ∀ index : Expr, isNumberIndex types cls (index.rename f) =
      isNumberIndex types cls index := by
    intro index
    unfold isNumberIndex
    rw [Expr.staticType?_rename]
  unfold arrayAccess?
  rw [hcomponent]
  cases arrayComponent? types cls receiver with
  | none => rfl
  | some component =>
      match args with
      | [] => rfl
      | [index] =>
          simp only [renameExprs, hindex, hnumber]
          split <;> rfl
      | [index, value] =>
          simp only [renameExprs, hindex]
          split <;> rfl
      | _ :: _ :: _ :: _ => rfl

theorem bindsReceiver_rename (config : Config) (receiver : Expr) :
    config.bindsReceiver (receiver.rename f) = config.bindsReceiver receiver := by
  unfold Config.bindsReceiver
  rw [Expr.isSideEffectFree_rename]

theorem all_keys_rename (entries : List Entry) :
    ((renameEntries f entries).all fun entry => entry.key.stringLiteral?.isSome) =
      entries.all fun entry => entry.key.stringLiteral?.isSome := by
  induction entries with
  | nil => rfl
  | cons entry rest ih =>
      obtain ⟨key, value, span⟩ := entry
      simp only [renameEntries, List.all_cons, ih]
      change ((key.rename f).stringLiteral?.isSome && _) = (key.stringLiteral?.isSome && _)
      rw [Expr.stringLiteral?_rename]

theorem keywordEntries?_rename (args : List Expr) :
    keywordEntries? (renameExprs f args) = (keywordEntries? args).map (renameEntries f) := by
  match args with
  | [] => rfl
  | [.map info entries] =>
      simp only [renameExprs, Expr.rename, keywordEntries?, all_keys_rename]
      split <;> rfl
  | [.literal _ _] | [.var _ _ _] | [.this _] | [.classRef _ _] | [.property _ _ _]
  | [.methodCall _ _ _ _ _ _] | [.staticCall _ _ _ _] | [.constructorCall _ _ _]
  | [.binary _ _ _ _ _] | [.ternary _ _ _ _] | [.closure _ _ _ _] | [.block _ _]
  | [.list _ _] | [.declaration _ _ _ _] | [.cast _ _ _] | [.unary _ _ _] => rfl
  | e :: _ :: _ =>
      simp only [renameExprs]
      cases e <;> rfl

theorem keywordConstructor?_rename (types : TypeTable) (info : Info) (args : List Expr) :
    keywordConstructor? types info (renameExprs f args) =
      (keywordConstructor? types info args).map (Prod.map id (renameEntries f)) := by
  unfold keywordConstructor?
  rw [keywordEntries?_rename]
  cases info.facts.targetConstructor? with
  | none => rfl
  | some ctor =>
      simp only
      cases mapConstructorOwner? types ctor <;> cases keywordEntries? args <;> rfl

theorem renameStmts_setProperties (owner : TypeId) (name : String) (entries : List Entry) :
    renameStmts f (entries.filterMap (setProperty? owner name)) =
      (renameEntries f entries).filterMap (setProperty? owner (f name)) := by
  induction entries with
  | nil => rfl
  | cons entry rest ih =>
      obtain ⟨key, value, span⟩ := entry
      cases hkey : key.stringLiteral? with
      | none =>
          simp only [renameEntries, List.filterMap_cons, setProperty?,
            Expr.stringLiteral?_rename, hkey, Option.map_none, ih]
      | some property =>
          simp only [renameEntries, List.filterMap_cons, setProperty?,
            Expr.stringLiteral?_rename, hkey, Option.map_some, renameStmts, ih]
          rfl

theorem renameStmts_initializerBody (span : Span) (owner : TypeId) (name : String)
    (entries : List Entry) :
    renameStmts f (initializerBody span owner name entries) =
      initializerBody span owner (f name) (renameEntries f entries) := by
  simp only [initializerBody, List.cons_append, renameStmts, renameStmts_append,
    renameStmts_setProperties, Stmt.rename, Expr.rename, blankInstance, localReference,
    renameExprs]

theorem rename_initializerCall (info : Info) (owner : TypeId) (body : Block)
    (scope : VariableScope) :
    (initializerCall info owner body scope).rename f =
      initializerCall info owner (renameStmts f body) (scope.rename f) := rfl

theorem rename_assignmentAfter (span : Span) (type : Option TypeId)
    (before : List Stmt) (assignment : Expr) :
    (assignmentAfter span type before assignment).rename f =
      assignmentAfter span type (renameStmts f before) (assignment.rename f) := by
  cases before with
  | nil => rfl
  | cons s rest =>
      simp only [assignmentAfter, renameStmts, List.isEmpty_cons, Bool.false_eq_true, if_false,
        Expr.rename, List.cons_append, renameStmts_append, Stmt.rename]

end Renamed

/-! ## Rules -/

section Rules

variable {settings : Settings} {f : String → String} {move : Session → Session}
  (hmove : settings.config.Carries f move) (cls : TypeId)

include hmove

theorem carried_bindTemporary (value : Expr) :
    Carried move (Prod.map (Expr.rename f) (Expr.rename f))
      (bindTemporary settings cls value) (bindTemporary settings cls (value.rename f)) := by
  unfold bindTemporary
  rw [Expr.staticType?_rename, Expr.span_rename]
  refine (carried_freshName hmove hmove.temporary).bind ?_
  exact fun name => carried_pure rfl

theorem carried_lowerPlainCall (info : Info) (receiver : Expr) (name : String)
    (args : List Expr) (spread : Bool) :
    Carried move (Expr.rename f)
      (lowerPlainCall settings cls info receiver name args spread)
      (lowerPlainCall settings cls info (receiver.rename f) name (renameExprs f args) spread) := by
  unfold lowerPlainCall
  split
  · unfold lowerArrayAccess
    rw [arrayAccess?_rename]
    match arrayAccess? settings.types cls receiver name args with
    | none => exact carried_pure rfl
    | some (.read component index) =>
        refine Carried.count_bind hmove (carried_pure ?_)
        simp only [elementAt, Expr.rename, Expr.span_rename]
    | some (.write component index value) =>
        refine Carried.count_bind hmove (carried_pure ?_)
        simp only [elementAt, Expr.rename, Expr.span_rename]
  · exact carried_pure rfl

theorem carried_splitReceiver (receiver : Expr) :
    Carried move (Prod.map (Expr.rename f) (Expr.rename f))
      (splitReceiver settings cls receiver) (splitReceiver settings cls (receiver.rename f)) := by
  unfold splitReceiver
  rw [bindsReceiver_rename]
  split
  · exact carried_bindTemporary hmove cls receiver
  · exact carried_pure rfl

theorem carried_lowerMethodCall (info : Info) (receiver : Expr) (name : String)
    (args : List Expr) (safe spread : Bool) :
    Carried move (Expr.rename f)
      (lowerMethodCall settings cls info receiver name args safe spread)
      (lowerMethodCall settings cls info (receiver.rename f) name (renameExprs f args) safe
        spread) := by
  unfold lowerMethodCall
  split
  · split
    · refine (carried_splitReceiver hmove cls receiver).bind fun pair => ?_
      refine Carried.count_bind hmove ?_
      refine (carried_lowerPlainCall hmove cls info pair.2 name args spread).bind ?_
      intro call
      refine carried_pure ?_
      simp only [notNull, Expr.rename, Expr.null, Expr.span_rename]
    · exact carried_pure rfl
  · exact carried_lowerPlainCall hmove cls info receiver name args spread

theorem carried_lowerStaticCall (info : Info) (owner : TypeId) (name : String)
    (args : List Expr) :
    Carried move (Expr.rename f)
      (lowerStaticCall settings info owner name args)
      (lowerStaticCall settings info owner name (renameExprs f args)) := by
  unfold lowerStaticCall
  split
  · exact Carried.count_bind hmove (carried_pure rfl)
  · exact carried_pure rfl

theorem carried_lowerConstructorCall (info : Info) (type : TypeId) (args : List Expr) :
    Carried move (Expr.rename f)
      (lowerConstructorCall settings info type args)
      (lowerConstructorCall settings info type (renameExprs f args)) := by
  unfold lowerConstructorCall
  rw [keywordConstructor?_rename]
  match keywordConstructor? settings.types info args with
  | none => exact carried_pure rfl
  | some (owner, entries) =>
      simp only [Option.map_some, Prod.map, id]
      split
      · refine (carried_freshName hmove hmove.localName).bind ?_
        intro name
        refine Carried.count_bind hmove ?_
        rw [← renameStmts_initializerBody]
        refine (carried_registerScope hmove [] _).bind fun scope => carried_pure ?_
        exact (rename_initializerCall ..).symm
      · exact carried_pure rfl

theorem carried_stableOperand (operand : Expr) :
    Carried move (Prod.map (renameStmts f) (Expr.rename f))
      (stableOperand settings cls operand) (stableOperand settings cls (operand.rename f)) := by
  unfold stableOperand
  rw [Expr.isSideEffectFree_rename]
  split
  · exact carried_pure rfl
  · refine (carried_bindTemporary hmove cls operand).bind ?_
    exact fun pair => carried_pure rfl

theorem carried_stableTarget (target : Expr) :
    Carried move (Prod.map (renameStmts f) (Expr.rename f))
      (stableTarget settings cls target) (stableTarget settings cls (target.rename f)) := by
  match target with
  | .property info receiver name =>
      refine (carried_stableOperand hmove cls receiver).bind ?_
      exact fun pair => carried_pure rfl
  | .binary info .index opSpan left right =>
      refine (carried_stableOperand hmove cls left).bind fun before => ?_
      refine (carried_stableOperand hmove cls right).bind fun between => ?_
      refine carried_pure ?_
      simp only [Prod.map, renameStmts_append, Expr.rename]
  | .binary _ (.arithmetic _) _ _ _ | .binary _ (.comparison _) _ _ _ | .binary _ .and _ _ _
  | .binary _ .or _ _ _ | .binary _ .assign _ _ _ | .binary _ (.compound _) _ _ _
  | .literal _ _ | .var _ _ _ | .this _ | .classRef _ _ | .methodCall _ _ _ _ _ _
  | .staticCall _ _ _ _ | .constructorCall _ _ _ | .ternary _ _ _ _ | .closure _ _ _ _
  | .block _ _ | .map _ _ | .list _ _ | .declaration _ _ _ _ | .cast _ _ _ | .unary _ _ _ =>
      exact carried_pure rfl

theorem carried_lowerOperatorAssignment (span opSpan : Span) (type : Option TypeId)
    (target : OperatorTarget) (left right : Expr) :
    Carried move (Expr.rename f)
      (lowerOperatorAssignment settings cls span opSpan type target left right)
      (lowerOperatorAssignment settings cls span opSpan type target (left.rename f)
        (right.rename f)) := by
  unfold lowerOperatorAssignment
  refine (carried_stableTarget hmove cls left).bind fun pair => ?_
  refine Carried.count_bind hmove (carried_pure ?_)
  rw [rename_assignmentAfter]
  simp only [operatorCall, Expr.rename, renameExprs, Expr.span_rename]

theorem carried_lowerBinary (info : Info) (op : BinaryOp) (opSpan : Span)
    (left right : Expr) :
    Carried move (Expr.rename f)
      (lowerBinary settings cls info op opSpan left right)
      (lowerBinary settings cls info op opSpan (left.rename f) (right.rename f)) := by
  unfold lowerBinary
  cases info.facts.operatorTarget with
  | none => exact carried_pure rfl
  | some target =>
      simp only
      split
      · unfold lowerResolvedOperator
        cases op with
        | comparison comparison =>
            simp only
            cases settings.adapters.routine? comparison with
            | none => exact Carried.count_bind hmove (carried_pure rfl)
            | some routine => exact Carried.count_bind hmove (carried_pure rfl)
        | assign => exact carried_lowerOperatorAssignment hmove cls _ _ _ _ _ _
        | compound _ => exact carried_lowerOperatorAssignment hmove cls _ _ _ _ _ _
        | arithmetic _ => exact Carried.count_bind hmove (carried_pure rfl)
        | and => exact Carried.count_bind hmove (carried_pure rfl)
        | or => exact Carried.count_bind hmove (carried_pure rfl)
        | index => exact Carried.count_bind hmove (carried_pure rfl)
      · exact carried_pure rfl

/-! ## Trees -/

/-- Whether a scope is renewed depends on what was drawn since and not on the number itself. -/
theorem carried_renewScope (before : Session) (params : List Param) (body : Block)
    (scope : Option VariableScope) :
    Carried move (Option.map (VariableScope.rename f))
      (renewScope before.nextName params body scope)
      (renewScope (move before).nextName (params.map (Param.rename f)) (renameStmts f body)
        (scope.map (VariableScope.rename f))) := by
  intro session
  have hsame := hmove.sameNumber session before
  rw [run_renewScope, run_renewScope]
  by_cases hdrawn : session.nextName = before.nextName
  · rw [if_pos hdrawn, if_pos (hsame.mpr hdrawn)]
  · rw [if_neg hdrawn, if_neg fun h => hdrawn (hsame.mp h)]
    exact congrArg (Prod.map some id) (carried_registerScope hmove params body session)

theorem carried_closure {body body' : LowerM Block}
    (hbody : Carried move (renameStmts f) body body') (info : Info) (params : List Param)
    (scope : Option VariableScope) :
    Carried move (Expr.rename f)
      (do
        let session ← get
        let body ← body
        let scope ← renewScope session.nextName params body scope
        return .closure info params body scope)
      (do
        let session ← get
        let body ← body'
        let scope ← renewScope session.nextName (params.map (Param.rename f)) body
          (scope.map (VariableScope.rename f))
        return .closure info (params.map (Param.rename f)) body scope) := by
  intro session
  have hrenewed := carried_renewScope hmove session params (body.run session).1 scope
    (body.run session).2
  change (Expr.closure info (params.map (Param.rename f)) (body'.run _).1
    ((renewScope _ _ (body'.run _).1 _).run (body'.run _).2).1,
    ((renewScope _ _ (body'.run _).1 _).run (body'.run _).2).2) = _
  rw [hbody session]
  exact congrArg (Prod.map (Expr.closure info (params.map (Param.rename f))
    (renameStmts f (body.run session).1)) id) hrenewed

end Rules

section Trees

variable {settings : Settings} {f : String → String} {move : Session → Session}

mutual

/-- Lowering a renamed tree in the moved session is lowering the tree and then renaming. -/
theorem Expr.carried_lower (hmove : settings.config.Carries f move)
    (cls : TypeId) : (e : Expr) →
    Carried move (Expr.rename f)
      (e.lower settings cls)
      ((e.rename f).lower settings cls)
  | .literal _ _ => carried_pure rfl
  | .var _ _ _ => carried_pure rfl
  | .this _ => carried_pure rfl
  | .classRef _ _ => carried_pure rfl
  | .property _ receiver _ => (receiver.carried_lower hmove cls).bind fun _ => carried_pure rfl
  | .methodCall info receiver name args safe spread =>
      (receiver.carried_lower hmove cls).bind fun receiver =>
        (carried_lowerExprs hmove cls args).bind fun args =>
          carried_lowerMethodCall hmove cls info receiver name args safe spread
  | .staticCall info owner name args =>
      (carried_lowerExprs hmove cls args).bind fun args =>
        carried_lowerStaticCall hmove info owner name args
  | .constructorCall info type args =>
      (carried_lowerExprs hmove cls args).bind fun args =>
        carried_lowerConstructorCall hmove info type args
  | .binary info op opSpan left right =>
      (left.carried_lower hmove cls).bind fun left =>
        (right.carried_lower hmove cls).bind fun right =>
          carried_lowerBinary hmove cls info op opSpan left right
  | .ternary _ condition yes no =>
      (condition.carried_lower hmove cls).bind fun _ => (yes.carried_lower hmove cls).bind fun _ =>
        (no.carried_lower hmove cls).bind fun _ => carried_pure rfl
  | .closure info params body scope =>
      carried_closure hmove (carried_lowerStmts hmove cls body) info params scope
  | .block _ body => (carried_lowerStmts hmove cls body).bind fun _ => carried_pure rfl
  | .map _ entries => (carried_lowerEntries hmove cls entries).bind fun _ => carried_pure rfl
  | .list _ items => (carried_lowerExprs hmove cls items).bind fun _ => carried_pure rfl
  | .declaration _ _ _ initializer =>
      (initializer.carried_lower hmove cls).bind fun _ => carried_pure rfl
  | .cast _ _ operand => (operand.carried_lower hmove cls).bind fun _ => carried_pure rfl
  | .unary _ _ operand => (operand.carried_lower hmove cls).bind fun _ => carried_pure rfl

theorem carried_lowerExprs (hmove : settings.config.Carries f move)
    (cls : TypeId) : (es : List Expr) →
    Carried move (renameExprs f)
      (lowerExprs settings cls es)
      (lowerExprs settings cls (renameExprs f es))
  | [] => carried_pure rfl
  | e :: rest =>
      (e.carried_lower hmove cls).bind fun _ => (carried_lowerExprs hmove cls rest).bind fun _ =>
        carried_pure rfl

theorem carried_lowerEntries (hmove : settings.config.Carries f move)
    (cls : TypeId) : (entries : List Entry) →
    Carried move (renameEntries f)
      (lowerEntries settings cls entries)
      (lowerEntries settings cls (renameEntries f entries))
  | [] => carried_pure rfl
  | .mk key value _ :: rest =>
      (key.carried_lower hmove cls).bind fun _ => (value.carried_lower hmove cls).bind fun _ =>
        (carried_lowerEntries hmove cls rest).bind fun _ => carried_pure rfl

theorem Stmt.carried_lower (hmove : settings.config.Carries f move)
    (cls : TypeId) : (s : Stmt) →
    Carried move (Stmt.rename f)
      (s.lower settings cls)
      ((s.rename f).lower settings cls)
  | .expr value => (value.carried_lower hmove cls).bind fun _ => carried_pure rfl
  | .block body => (carried_lowerStmts hmove cls body).bind fun _ => carried_pure rfl
  | .ret none _ => carried_pure rfl
  | .ret (some value) _ => (value.carried_lower hmove cls).bind fun _ => carried_pure rfl
  | .ifElse condition yes none =>
      (condition.carried_lower hmove cls).bind fun _ =>
        (carried_lowerStmts hmove cls yes).bind fun _ => carried_pure rfl
  | .ifElse condition yes (some no) =>
      (condition.carried_lower hmove cls).bind fun _ =>
        (carried_lowerStmts hmove cls yes).bind fun _ =>
          (carried_lowerStmts hmove cls no).bind fun _ => carried_pure rfl
  | .whileLoop condition body =>
      (condition.carried_lower hmove cls).bind fun _ =>
        (carried_lowerStmts hmove cls body).bind fun _ => carried_pure rfl
  | .forIn _ iterable body =>
      (iterable.carried_lower hmove cls).bind fun _ =>
        (carried_lowerStmts hmove cls body).bind fun _ => carried_pure rfl
  | .throw value => (value.carried_lower hmove cls).bind fun _ => carried_pure rfl

theorem carried_lowerStmts (hmove : settings.config.Carries f move)
    (cls : TypeId) : (body : List Stmt) →
    Carried move (renameStmts f)
      (lowerStmts settings cls body)
      (lowerStmts settings cls (renameStmts f body))
  | [] => carried_pure rfl
  | s :: rest =>
      (s.carried_lower hmove cls).bind fun _ => (carried_lowerStmts hmove cls rest).bind fun _ =>
        carried_pure rfl

end

/-! ## Units -/

theorem FieldUnit.carried_lower (hmove : settings.config.Carries f move) (cls : TypeId)
    (field : FieldUnit) :
    Carried move (FieldUnit.rename f) (field.lower settings cls)
      ((field.rename f).lower settings cls) := by
  obtain ⟨name, type, initializer, span⟩ := field
  cases initializer with
  | none => exact carried_pure rfl
  | some initializer =>
      exact (initializer.carried_lower hmove cls).bind fun _ => carried_pure rfl

theorem MethodUnit.carried_lower (hmove : settings.config.Carries f move) (cls : TypeId)
    (method : MethodUnit) :
    Carried move (MethodUnit.rename f) (method.lower settings cls)
      ((method.rename f).lower settings cls) :=
  (carried_lowerStmts hmove cls method.body).bind fun _ => carried_pure rfl

theorem carried_lowerFields (hmove : settings.config.Carries f move) (cls : TypeId)
    (fields : List FieldUnit) :
    Carried move (List.map (FieldUnit.rename f))
      (lowerFields settings cls fields)
      (lowerFields settings cls (fields.map (FieldUnit.rename f))) := by
  induction fields with
  | nil => exact carried_pure rfl
  | cons field rest ih =>
      exact (field.carried_lower hmove cls).bind fun _ => ih.bind fun _ =>
        carried_pure rfl

theorem carried_lowerMethods (hmove : settings.config.Carries f move) (cls : TypeId)
    (methods : List MethodUnit) :
    Carried move (List.map (MethodUnit.rename f))
      (lowerMethods settings cls methods)
      (lowerMethods settings cls (methods.map (MethodUnit.rename f))) := by
  induction methods with
  | nil => exact carried_pure rfl
  | cons method rest ih =>
      exact (method.carried_lower hmove cls).bind fun _ => ih.bind fun _ =>
        carried_pure rfl

mutual

theorem ClassUnit.carried_lower (hmove : settings.config.Carries f move) : (unit : ClassUnit) →
    Carried move (ClassUnit.rename f)
      (unit.lower settings)
      ((unit.rename f).lower settings)
  | .mk type fields constructors methods inner _ =>
      (carried_lowerFields hmove type fields).bind fun _ =>
        (carried_lowerMethods hmove type constructors).bind fun _ =>
          (carried_lowerMethods hmove type methods).bind fun _ =>
            (carried_lowerClasses hmove inner).bind fun _ => carried_pure rfl

theorem carried_lowerClasses (hmove : settings.config.Carries f move) : (units : List ClassUnit) →
    Carried move (renameClasses f)
      (lowerClasses settings units)
      (lowerClasses settings (renameClasses f units))
  | [] => carried_pure rfl
  | unit :: rest =>
      (unit.carried_lower hmove).bind fun _ => (carried_lowerClasses hmove rest).bind fun _ =>
        carried_pure rfl

end

/-- A field by itself. -/
def CompilationUnit.isField : CompilationUnit → Bool
  | .fieldUnit _ => true
  | _ => false

/-- A field by itself aside, what has been reported makes no difference. -/
theorem CompilationUnit.carried_lower (hmove : settings.config.Carries f move)
    {unit : CompilationUnit} (hunit : unit.isField = false) :
    Carried move (Except.map (CompilationUnit.rename f)) (unit.lower settings)
      ((unit.rename f).lower settings) := by
  match unit with
  | .classUnit unit =>
      exact (unit.carried_lower hmove).bind fun _ => carried_pure rfl
  | .methodUnit unit =>
      exact (unit.carried_lower hmove unit.declaringType).bind fun _ => carried_pure rfl

end Trees

end StaticDispatch
