import Mathlib.Data.List.Forall2
import StaticDispatch.Proofs.Lowering.Cases
import StaticDispatch.Proofs.Lowering.Glue
import StaticDispatch.Proofs.Lowering.Invariant
import StaticDispatch.Proofs.Lowering.Names

/-!
# The record of scopes

A session records the scope of a closure whenever it works it out.  What it has
recorded at the end are the scopes of those closures in its output that gained
an introduced name, from left to right and inner closures first.  Every other
closure comes from the source and has the scope that it had there.

The renewal of scopes compares name counters and does not look for declarations.
Both come to the same as long as every name drawn is declared exactly once, which
is why what is introduced and which closures there are is followed rule by rule.
-/

namespace StaticDispatch

open LowerM

/-! ## Introduced declarations -/

namespace Config

variable (config : Config)

/-- The name is one of the two stems with a dollar sign and a number. -/
def makesName (name : String) : Bool :=
  IsSynthetic config.temporaryStem name ∨ IsSynthetic config.localStem name

def isIntroduction : Expr → Bool
  | .declaration _ name _ _ => config.makesName name
  | _ => false

/-- There is a declaration of such a name in the tree. -/
def gains (e : Expr) : Bool :=
  e.nodes.any config.isIntroduction

theorem makesName_temporary (number : Nat) :
    config.makesName (syntheticName config.temporaryStem number) = true :=
  decide_eq_true (.inl ⟨number, rfl⟩)

theorem makesName_local (number : Nat) :
    config.makesName (syntheticName config.localStem number) = true :=
  decide_eq_true (.inr ⟨number, rfl⟩)

theorem isIntroduction_of_isGlue (e : Expr) (h : e.isGlue = true) :
    config.isIntroduction e = false := by
  cases e <;> simp_all [Expr.isGlue, isIntroduction]

theorem gains_eq_false_iff (e : Expr) :
    config.gains e = false ↔ e.countOf config.isIntroduction = 0 := by
  simp [gains, Expr.countOf, List.countP_eq_zero]

/-- The second trees have so many introduced declarations more than the first, and the same
closures. -/
structure Wraps (drawn : Nat) (before after : List Expr) : Prop where
  introductions : countOfExprs config.isIntroduction after =
    countOfExprs config.isIntroduction before + drawn
  closures : closuresOfExprs after = closuresOfExprs before

variable {config}

theorem wraps_refl (es : List Expr) : config.Wraps 0 es es :=
  ⟨rfl, rfl⟩

theorem Wraps.trans {drawn more : Nat} {es fs gs : List Expr} (h : config.Wraps drawn es fs)
    (h' : config.Wraps more fs gs) : config.Wraps (drawn + more) es gs where
  introductions := by
    rw [h'.introductions, h.introductions, Nat.add_assoc]
  closures := h'.closures.trans h.closures

theorem Wraps.append {drawn more : Nat} {es es' fs fs' : List Expr}
    (h : config.Wraps drawn es es') (h' : config.Wraps more fs fs') :
    config.Wraps (drawn + more) (es ++ fs) (es' ++ fs') where
  introductions := by
    simp only [countOfExprs_append, h.introductions, h'.introductions]
    omega
  closures := by
    rw [closuresOfExprs_append, closuresOfExprs_append, h.closures, h'.closures]

theorem wraps_children (e : Expr) (hnode : config.isIntroduction e = false)
    (hclosure : e.isClosure = false) : config.Wraps 0 e.children [e] where
  introductions := by
    simp [e.countOf_eq, hnode]
  closures := by
    simp [e.closures_eq, hclosure]

end Config

/-! ## Steps that record nothing -/

namespace LowerM

variable {α β : Type} {step : LowerM α} {next : α → LowerM β} {property : Nat → α → Prop}
  {goal : Nat → β → Prop}

/-- The step records no scope, and the number of names that it draws has the property together
with its answer. -/
def Draws (step : LowerM α) (property : Nat → α → Prop) : Prop :=
  ∀ session, ∃ drawn, (step.run session).2.nextName = session.nextName + drawn ∧
    (step.run session).2.scopes = session.scopes ∧ property drawn (step.run session).1

theorem draws_pure {a : α} (h : property 0 a) : Draws (pure a) property :=
  fun _ => ⟨0, rfl, rfl, h⟩

theorem Draws.bind (hstep : Draws step property)
    (hnext : ∀ drawn a, property drawn a → Draws (next a) fun more b => goal (drawn + more) b) :
    Draws (step >>= next) goal := by
  intro session
  obtain ⟨drawn, hname, hscopes, hproperty⟩ := hstep session
  obtain ⟨more, hname', hscopes', hgoal⟩ := hnext drawn _ hproperty (step.run session).2
  refine ⟨drawn + more, ?_, hscopes'.trans hscopes, hgoal⟩
  rw [← Nat.add_assoc, ← hname]
  exact hname'

theorem draws_count_bind {applied : Stats} {next : Unit → LowerM β} (hnext : Draws (next ()) goal) :
    Draws (count applied >>= next) goal :=
  fun session => hnext { session with stats := session.stats + applied }

theorem Draws.and_yields {answer : α → Prop} (hstep : Draws step property)
    (hanswer : Yields step answer) : Draws step fun drawn a => property drawn a ∧ answer a := by
  intro session
  obtain ⟨drawn, hname, hscopes, hproperty⟩ := hstep session
  exact ⟨drawn, hname, hscopes, hproperty, hanswer session⟩

end LowerM

section Rules

variable (settings : Settings) (cls : TypeId)

theorem draws_lowerPlainCall (info : Info) (receiver : Expr) (name : String) (args : List Expr)
    (spread : Bool) :
    Draws (lowerPlainCall settings cls info receiver name args spread) fun drawn out =>
      settings.config.Wraps drawn [.methodCall info receiver name args false spread] [out] := by
  obtain h | ⟨component, index, rfl, h⟩ | ⟨component, index, value, rfl, h⟩ :=
    lowerPlainCall_cases settings cls info receiver name args spread
  · rw [h]
    exact draws_pure (Config.wraps_refl _)
  · rw [h]
    apply draws_count_bind
    apply draws_pure
    constructor <;>
      simp [elementAt, Expr.countOf_eq (.binary ..), Expr.countOf_eq (.methodCall ..),
        Config.isIntroduction, Expr.children, Expr.closures]
  · rw [h]
    apply draws_count_bind
    apply draws_pure
    constructor <;>
      simp [elementAt, Expr.countOf_eq (.binary ..), Expr.countOf_eq (.methodCall ..),
        Config.isIntroduction, Expr.children, Expr.closures, Nat.add_assoc]

theorem draws_bindTemporary (value : Expr) :
    Draws (bindTemporary settings cls value) fun drawn pair =>
      settings.config.Wraps drawn [value] [pair.1] ∧ pair.2.isSideEffectFree = true := by
  intro session
  -- one name is drawn and declared in front of the value
  refine ⟨1, rfl, rfl, ?_, rfl⟩
  let name := syntheticName settings.config.temporaryStem session.nextName
  change settings.config.Wraps 1 [value] [.declaration value.span.info name _ value]
  have hname : settings.config.makesName name = true := settings.config.makesName_temporary _
  constructor <;>
    simp [Expr.countOf_eq (.declaration ..), Config.isIntroduction, hname, Expr.children,
      Expr.closures]

theorem draws_splitReceiver (receiver : Expr) :
    Draws (splitReceiver settings cls receiver) fun drawn pair =>
      settings.config.Wraps drawn [receiver] [pair.1] ∧ pair.2.isSideEffectFree = true := by
  unfold splitReceiver
  split
  · exact draws_bindTemporary settings cls receiver
  · rename_i hbinds
    exact draws_pure
      ⟨Config.wraps_refl _, Config.isSideEffectFree_of_not_bindsReceiver hbinds⟩

theorem draws_lowerMethodCall (info : Info) (receiver : Expr) (name : String) (args : List Expr)
    (safe spread : Bool) :
    Draws (lowerMethodCall settings cls info receiver name args safe spread) fun drawn out =>
      settings.config.Wraps drawn [.methodCall info receiver name args safe spread] [out] := by
  have hglue := settings.config.isIntroduction_of_isGlue
  unfold lowerMethodCall
  cases safe with
  | false => exact draws_lowerPlainCall settings cls info receiver name args spread
  | true =>
      simp only [if_true]
      split
      · unfold lowerSafeCall
        refine (draws_splitReceiver settings cls receiver).bind ?_
        rintro drawn ⟨checked, called⟩ ⟨⟨hcount, hclosures⟩, hfree⟩
        apply draws_count_bind
        refine (draws_lowerPlainCall settings cls info called name args spread).bind ?_
        rintro more call ⟨hcount', hclosures'⟩
        apply draws_pure
        simp [Expr.countOf_eq (.methodCall ..), Expr.children, Expr.closures,
          Expr.countOf_of_isSideEffectFree hglue hfree, Expr.closures_of_isSideEffectFree hfree,
          Config.isIntroduction] at hcount hclosures hcount' hclosures'
        constructor
        · simp [notNull, Expr.null, Expr.countOf_eq (.ternary ..), Expr.countOf_eq (.binary ..),
            Expr.countOf_eq (.literal ..), Expr.countOf_eq (.methodCall ..), Expr.children,
            Config.isIntroduction, hcount, hcount']
          omega
        · simp [notNull, Expr.null, Expr.closures, hclosures, hclosures']
      · exact draws_pure (Config.wraps_refl _)

theorem draws_lowerStaticCall (info : Info) (owner : TypeId) (name : String) (args : List Expr) :
    Draws (lowerStaticCall settings info owner name args) fun drawn out =>
      settings.config.Wraps drawn [.staticCall info owner name args] [out] := by
  unfold lowerStaticCall
  split
  · apply draws_count_bind
    apply draws_pure
    constructor <;>
      simp [Expr.countOf_eq (.methodCall ..), Expr.countOf_eq (.staticCall ..),
        Expr.countOf_eq (.classRef ..), Expr.children, Config.isIntroduction, Expr.closures]
  · exact draws_pure (Config.wraps_refl _)

theorem draws_stableOperand (operand : Expr) :
    Draws (stableOperand settings cls operand) fun drawn pair =>
      settings.config.Wraps drawn [operand] (exprsOfStmts pair.1) := by
  have hglue := settings.config.isIntroduction_of_isGlue
  unfold stableOperand
  split
  · rename_i hfree
    apply draws_pure
    constructor
    · simp [exprsOfStmts, Expr.countOf_of_isSideEffectFree hglue hfree]
    · simp [exprsOfStmts, Expr.closures_of_isSideEffectFree hfree]
  · refine (draws_bindTemporary settings cls operand).bind ?_
    rintro drawn ⟨declaration, reference⟩ ⟨hwraps, -⟩
    exact draws_pure hwraps

theorem draws_stableTarget {target : Expr} (h : target.isPlainTarget = true) :
    Draws (stableTarget settings cls target) fun drawn pair =>
      settings.config.Wraps drawn [target] (exprsOfStmts pair.1) := by
  cases target with
  | var info name type => exact draws_pure ⟨rfl, rfl⟩
  | property info receiver name =>
      refine (draws_stableOperand settings cls receiver).bind ?_
      rintro drawn ⟨before, receiver'⟩ ⟨hcount, hclosures⟩
      apply draws_pure
      simp only at hcount hclosures
      constructor <;>
        simp [hcount, hclosures, Expr.countOf_eq (.property ..), Config.isIntroduction,
          Expr.children, Expr.closures]
  | binary info op opSpan left right =>
      cases op with
      | index =>
          refine (draws_stableOperand settings cls left).bind ?_
          rintro drawn ⟨before, left'⟩ hleft
          refine (draws_stableOperand settings cls right).bind ?_
          rintro more ⟨between, right'⟩ hright
          apply draws_pure
          obtain ⟨hcount, hclosures⟩ := hleft.append hright
          simp only at hcount hclosures
          constructor <;>
            simp [exprsOfStmts_append, hcount, hclosures, Expr.countOf_eq (.binary ..),
              Config.isIntroduction, Expr.children, Expr.closures]
      | _ => exact absurd h (by simp [Expr.isPlainTarget])
  | _ => exact absurd h (by simp [Expr.isPlainTarget])

theorem draws_lowerOperatorAssignment (info : Info) (op : BinaryOp) (opSpan : Span)
    (target : OperatorTarget) {left : Expr} (right : Expr) (h : left.isPlainTarget = true) :
    Draws (lowerOperatorAssignment settings cls info.span opSpan info.facts.inferredType target
        left right) fun drawn out =>
      settings.config.Wraps drawn [.binary info op opSpan left right] [out] := by
  have hglue := settings.config.isIntroduction_of_isGlue
  unfold lowerOperatorAssignment
  refine ((draws_stableTarget settings cls h).and_yields
    (yields_stableTarget_place settings cls h)).bind ?_
  rintro drawn ⟨before, place⟩ ⟨⟨hcount, hclosures⟩, hplain, hstable⟩
  apply draws_count_bind
  apply draws_pure
  simp only at hcount hclosures
  have hplace := Expr.countOf_of_isStableTarget hglue hplain hstable
  have hplace' := Expr.closures_of_isStableTarget hplain hstable
  constructor
  · simp [countOf_assignmentAfter hglue, hcount, operatorCall, hplace,
      Expr.countOf_eq (.binary ..), Expr.countOf_eq (.methodCall ..), Config.isIntroduction,
      Expr.children, Nat.add_right_comm]
  · simp [closures_assignmentAfter, hclosures, operatorCall, hplace', Expr.closures]

theorem draws_lowerBinary (info : Info) (op : BinaryOp) (opSpan : Span) (left right : Expr)
    (hplain : info.facts.operatorTarget.isSome = true → op.isAssignment = true →
      left.isPlainTarget = true) :
    Draws (lowerBinary settings cls info op opSpan left right) fun drawn out =>
      settings.config.Wraps drawn [.binary info op opSpan left right] [out] := by
  obtain h | ⟨routine, h⟩ | ⟨target, htarget, hassignment, h⟩ | ⟨target, h⟩ :=
    lowerBinary_cases settings cls info op opSpan left right
  · rw [h]
    exact draws_pure (Config.wraps_refl _)
  · rw [h]
    apply draws_count_bind
    apply draws_pure
    constructor <;>
      simp [adapterCall, Expr.countOf_eq (.methodCall ..), Expr.countOf_eq (.binary ..),
        Expr.countOf_eq (.classRef ..), Config.isIntroduction, Expr.children, Expr.closures]
  · rw [h]
    exact draws_lowerOperatorAssignment settings cls info op opSpan target right
      (hplain (by rw [htarget]; rfl) hassignment)
  · rw [h]
    apply draws_count_bind
    apply draws_pure
    constructor <;>
      simp [operatorCall, Expr.countOf_eq (.methodCall ..), Expr.countOf_eq (.binary ..),
        Config.isIntroduction, Expr.children, Expr.closures]

end Rules

/-! ## Records -/

def Expr.scope? : Expr → Option VariableScope
  | .closure _ _ _ scope => scope
  | _ => none

/-- The second closure is what the first was lowered to, and has its scope unless it gained an
introduced name. -/
def Settings.KeptFrom (settings : Settings) (source closure : Expr) : Prop :=
  (∃ cls session, closure = ((source.lower settings cls).run session).1) ∧
    (settings.config.gains closure = false → closure.scope? = source.scope?)

/-- Between the trees and the session before and after there is an exact record of scopes. -/
structure Settings.Records (settings : Settings) (es : List Expr) (s : Session)
    (es' : List Expr) (s' : Session) : Prop where
  /-- Every name drawn is declared once. -/
  names : s'.nextName = s.nextName + countOfExprs settings.config.isIntroduction es'
  /-- What was recorded are the scopes of the closures that gained a name. -/
  scopes : s'.scopes.map some =
    s.scopes.map some ++ ((closuresOfExprs es').filter settings.config.gains).map Expr.scope?
  /-- The closures of the source stand among those of the output in the same order, and every
  closure that gained no name is one of them. -/
  kept : ∃ kept, kept.Sublist (closuresOfExprs es') ∧
    kept.filter (!settings.config.gains ·) =
      (closuresOfExprs es').filter (!settings.config.gains ·) ∧
    List.Forall₂ settings.KeptFrom (closuresOfExprs es) kept

namespace Settings.Records

variable {settings : Settings} {es es' fs fs' : List Expr} {s s' s'' : Session}

theorem append (h : settings.Records es s es' s') (h' : settings.Records fs s' fs' s'') :
    settings.Records (es ++ fs) s (es' ++ fs') s'' := by
  obtain ⟨kept, hsublist, hfilter, hkept⟩ := h.kept
  obtain ⟨kept', hsublist', hfilter', hkept'⟩ := h'.kept
  refine ⟨?_, ?_, kept ++ kept', ?_, ?_, ?_⟩
  · rw [h'.names, h.names, countOfExprs_append, Nat.add_assoc]
  · simp only [h'.scopes, h.scopes, closuresOfExprs_append, List.filter_append, List.map_append,
      List.append_assoc]
  · rw [closuresOfExprs_append]
    exact hsublist.append hsublist'
  · rw [closuresOfExprs_append, List.filter_append, List.filter_append, hfilter, hfilter']
  · rw [closuresOfExprs_append]
    exact List.rel_append hkept hkept'

theorem wrap (h : settings.Records es s es' s') {drawn : Nat}
    (hname : s''.nextName = s'.nextName + drawn) (hscopes : s''.scopes = s'.scopes)
    (hsource : closuresOfExprs fs = closuresOfExprs es)
    (hwraps : settings.config.Wraps drawn es' fs') : settings.Records fs s fs' s'' := by
  refine ⟨?_, ?_, ?_⟩
  · rw [hname, h.names, hwraps.introductions, Nat.add_assoc]
  · rw [hscopes, h.scopes, hwraps.closures]
  · rw [hwraps.closures, hsource]
    exact h.kept

/-- A closure that is made around the trees gains a name and is recorded. -/
theorem make (h : settings.Records es s es' s') {drawn : Nat} {closure : Expr}
    {scope : VariableScope} (hname : s''.nextName = s'.nextName + drawn)
    (hscopes : s''.scopes = s'.scopes ++ [scope])
    (hsource : closuresOfExprs fs = closuresOfExprs es)
    (hcount : countOfExprs settings.config.isIntroduction fs' =
      countOfExprs settings.config.isIntroduction es' + drawn)
    (hclosures : closuresOfExprs fs' = closuresOfExprs es' ++ [closure])
    (hgains : settings.config.gains closure = true) (hscope : closure.scope? = some scope) :
    settings.Records fs s fs' s'' := by
  obtain ⟨kept, hsublist, hfilter, hkept⟩ := h.kept
  refine ⟨?_, ?_, kept, ?_, ?_, ?_⟩
  · rw [hname, h.names, hcount, Nat.add_assoc]
  · simp [hscopes, h.scopes, hclosures, hgains, hscope]
  · rw [hclosures]
    exact hsublist.trans (List.sublist_append_left _ _)
  · simp [hclosures, hfilter, hgains]
  · rw [hsource]
    exact hkept

/-- A closure of the source is recorded if a name was drawn in it, and else as it was. -/
theorem keep (h : settings.Records es s es' s') {source closure : Expr}
    (hnames : s''.nextName = s'.nextName)
    (hscopes : s''.scopes.map some =
      s'.scopes.map some ++ ([closure].filter settings.config.gains).map Expr.scope?)
    (hsource : closuresOfExprs fs = closuresOfExprs es ++ [source])
    (hcount : countOfExprs settings.config.isIntroduction fs' =
      countOfExprs settings.config.isIntroduction es')
    (hclosures : closuresOfExprs fs' = closuresOfExprs es' ++ [closure])
    (hkept : settings.KeptFrom source closure) : settings.Records fs s fs' s'' := by
  obtain ⟨kept, hsublist, hfilter, hpairs⟩ := h.kept
  refine ⟨?_, ?_, kept ++ [closure], ?_, ?_, ?_⟩
  · rw [hnames, h.names, hcount]
  · rw [hscopes, h.scopes, hclosures, List.filter_append, List.map_append, List.append_assoc]
  · rw [hclosures]
    exact hsublist.append_right _
  · rw [hclosures, List.filter_append, List.filter_append, hfilter]
  · rw [hsource]
    exact List.rel_append hpairs (.cons hkept .nil)

end Settings.Records

/-! ## Closures -/

section Closures

variable {settings : Settings} {s s' : Session}

theorem introductions_initializerBody (config : Config) (span : Span) (owner : TypeId)
    (number : Nat) (entries : List Entry)
    (hkeys : ∀ entry ∈ entries, entry.key.stringLiteral?.isSome = true) :
    let body := initializerBody span owner (syntheticName config.localStem number) entries
    countOfExprs config.isIntroduction (exprsOfStmts body) =
      countOfExprs config.isIntroduction (exprsOfEntries entries) + 1 := by
  have hentries := countOfExprs_setProperties config.isIntroduction_of_isGlue owner
    (syntheticName config.localStem number) entries hkeys
  simp [initializerBody, blankInstance, localReference, exprsOfStmts, exprsOfStmts_append,
    Stmt.exprs, hentries, config.makesName_local, Expr.countOf_eq (.declaration ..),
    Expr.countOf_eq (.constructorCall ..), Expr.countOf_eq (.var ..), Config.isIntroduction,
    Expr.children, Nat.add_comm]

theorem closures_initializerBody (span : Span) (owner : TypeId) (name : String)
    (entries : List Entry) (hkeys : ∀ entry ∈ entries, entry.key.stringLiteral?.isSome = true) :
    closuresOfExprs (exprsOfStmts (initializerBody span owner name entries)) =
      closuresOfExprs (exprsOfEntries entries) := by
  simp [initializerBody, blankInstance, localReference, exprsOfStmts, exprsOfStmts_append,
    Stmt.exprs, closures_setProperties owner name entries hkeys, Expr.closures]

/-- A keyword constructor draws one name, which the closure that is made of it declares. -/
theorem records_lowerConstructorCall (info : Info) (type : TypeId) (args args' : List Expr)
    (h : settings.Records args s args' s') :
    let out := (lowerConstructorCall settings info type args').run s'
    settings.Records [.constructorCall info type args] s [out.1] out.2 := by
  have hwraps : settings.config.Wraps 0 args' [.constructorCall info type args'] :=
    Config.wraps_children (.constructorCall info type args') rfl rfl
  have hsource : closuresOfExprs [.constructorCall info type args] = closuresOfExprs args := by
    simp [Expr.closures]
  have hkept : settings.Records [.constructorCall info type args] s
      [.constructorCall info type args'] s' :=
    h.wrap rfl rfl hsource hwraps
  intro out
  subst out
  obtain hcase | ⟨owner, mapInfo, entries, rfl, hkeys, hcase⟩ :=
    lowerConstructorCall_cases settings info type args'
  · rw [hcase]
    exact hkept
  · rw [hcase]
    let name := syntheticName settings.config.localStem s'.nextName
    let body := initializerBody info.span owner name entries
    let closure : Expr :=
      .closure (.typed info.span (some .closure)) [] body (some (.ofClosure [] body))
    have hcount : closure.countOf settings.config.isIntroduction =
        countOfExprs settings.config.isIntroduction [.map mapInfo entries] + 1 := by
      have hbody := introductions_initializerBody settings.config info.span owner s'.nextName
        entries hkeys
      simpa [closure, body, name, Expr.countOf_eq (.closure ..), Expr.countOf_eq (.map ..),
        Config.isIntroduction, Expr.children] using hbody
    have hclosures : closure.closures = closuresOfExprs [.map mapInfo entries] ++ [closure] := by
      have hbody := closures_initializerBody info.span owner name entries hkeys
      simpa [closure, Expr.closures, closuresOfStmts_eq, closuresOfEntries_eq] using hbody
    have hgains : settings.config.gains closure = true := by
      rw [← Bool.not_eq_false, Config.gains_eq_false_iff, hcount]
      omega
    -- the closures of the entries come first, as they were recorded before
    refine h.make rfl rfl hsource ?_ ?_ hgains rfl
    · change countOfExprs _ [.methodCall _ closure "call" [] false false] = _
      simp [Expr.countOf_eq (.methodCall ..), Expr.children, Config.isIntroduction, hcount]
    · change closuresOfExprs [.methodCall _ closure "call" [] false false] = _
      simp [Expr.closures, hclosures]

theorem countOf_closure (config : Config) (info : Info) (params : List Param) (body : Block)
    (scope : Option VariableScope) :
    Expr.countOf config.isIntroduction (.closure info params body scope) =
      countOfExprs config.isIntroduction (exprsOfStmts body) := by
  simp [Expr.countOf_eq (.closure ..), Config.isIntroduction, Expr.children]

theorem closures_closure (info : Info) (params : List Param) (body : Block)
    (scope : Option VariableScope) :
    closuresOfExprs [.closure info params body scope] =
      closuresOfExprs (exprsOfStmts body) ++ [.closure info params body scope] := by
  simp [Expr.closures, closuresOfStmts_eq]

/-- A closure gained a name exactly where one was drawn in its body. -/
theorem records_closure (cls : TypeId) (info : Info) (params : List Param) (body : Block)
    (scope : Option VariableScope)
    (h : settings.Records (exprsOfStmts body) s
      (exprsOfStmts ((lowerStmts settings cls body).run s).1)
      ((lowerStmts settings cls body).run s).2) :
    let out := ((Expr.closure info params body scope).lower settings cls).run s
    settings.Records [.closure info params body scope] s [out.1] out.2 := by
  intro out
  let body' := (lowerStmts settings cls body).run s
  have hout : out =
      (.closure info params body'.1 ((renewScope s.nextName params body'.1 scope).run body'.2).1,
        ((renewScope s.nextName params body'.1 scope).run body'.2).2) := rfl
  have hnames : body'.2.nextName = s.nextName +
    countOfExprs settings.config.isIntroduction (exprsOfStmts body'.1) := h.names
  have hlowered : ∃ cls session,
      out.1 = (((Expr.closure info params body scope).lower settings cls).run session).1 :=
    ⟨cls, s, rfl⟩
  rw [run_renewScope] at hout
  split at hout
  · -- as many declarations were introduced as names were drawn, that is none
    rename_i hsilent
    rw [hout] at hlowered ⊢
    have hgains : settings.config.gains (.closure info params body'.1 scope) = false := by
      rw [Config.gains_eq_false_iff, countOf_closure]
      omega
    refine h.keep rfl ?_ (closures_closure ..) ?_ (closures_closure ..) ⟨hlowered, fun _ => rfl⟩
    · simp [body', hgains]
    · simp [body', countOf_closure]
  · -- the name that was drawn is declared in the body, however deep
    rename_i hdrawn
    rw [hout] at hlowered ⊢
    have hgains : settings.config.gains
        (.closure info params body'.1 (some (.ofClosure params body'.1))) = true := by
      rw [← Bool.not_eq_false, Config.gains_eq_false_iff, countOf_closure]
      omega
    refine h.keep rfl ?_ (closures_closure ..) ?_ (closures_closure ..)
      ⟨hlowered, fun hkept => absurd hgains (by simp [hkept])⟩
    · simp [body', hgains, Expr.scope?]
    · simp [body', countOf_closure]

end Closures

/-! ## Runs -/

/-- Where targets of resolved assignments are plain and the source declares no name that a
lowering makes, the record of scopes is exact. -/
def Settings.RecordsScopes (settings : Settings) (es : List Expr) (s : Session)
    (es' : List Expr) (s' : Session) : Prop :=
  (∀ node ∈ nodesOfExprs es,
      node.hasPlainTarget = true ∧ settings.config.isIntroduction node = false) →
    settings.Records es s es' s'

section Runs

variable {settings : Settings}

theorem Expr.SameFrame.isIntroduction {e e' : Expr} (h : e.SameFrame e') (config : Config) :
    config.isIntroduction e' = config.isIntroduction e := by
  cases h <;> rfl

theorem Expr.SameFrame.isClosure {e e' : Expr} (h : e.SameFrame e') :
    e.isClosure = false ∧ e'.isClosure = false := by
  cases h <;> exact ⟨rfl, rfl⟩

theorem Settings.RecordsScopes.rule {s s' s'' : Session} (e e' : Expr) {out : Expr}
    (h : settings.RecordsScopes e.children s e'.children s')
    (hintroduction : settings.config.isIntroduction e' = settings.config.isIntroduction e)
    (hclosure : e.isClosure = false) (hclosure' : e'.isClosure = false)
    (hnode : e.hasPlainTarget = true → ∃ drawn, s''.nextName = s'.nextName + drawn ∧
      s''.scopes = s'.scopes ∧ settings.config.Wraps drawn [e'] [out]) :
    settings.RecordsScopes [e] s [out] s'' := by
  intro hnodes
  simp only [nodesOfExprs, List.append_nil, e.nodes_eq, List.forall_mem_cons] at hnodes
  obtain ⟨⟨htarget, hplain⟩, hchildren⟩ := hnodes
  obtain ⟨drawn, hname, hscopes, hwraps⟩ := hnode htarget
  have hframe : settings.config.Wraps 0 e'.children [e'] :=
    Config.wraps_children e' (hintroduction.trans hplain) hclosure'
  have hsource : closuresOfExprs [e] = closuresOfExprs e.children := by
    simp [e.closures_eq, hclosure]
  have hout := hframe.trans hwraps
  rw [Nat.zero_add] at hout
  exact (h hchildren).wrap hname hscopes hsource hout

theorem loweringInvariant_records :
    LoweringInvariant settings settings.RecordsScopes where
  nil session diagnostics := fun _ => ⟨rfl, by simp, [], .slnil, rfl, .nil⟩
  append h h' := by
    intro hnodes
    rw [nodesOfExprs_append, List.forall_mem_append] at hnodes
    exact (h hnodes.1).append (h' hnodes.2)
  frame {e e' _ _} h hchildren :=
    Settings.RecordsScopes.rule e e' hchildren (h.isIntroduction settings.config)
      h.isClosure.1 h.isClosure.2 fun _ => ⟨0, rfl, rfl, Config.wraps_refl _⟩
  methodCall cls info name safe spread receiver receiver' args args' _ s' h := by
    have hnode := draws_lowerMethodCall settings cls info receiver' name args' safe spread
    exact Settings.RecordsScopes.rule (.methodCall info receiver name args safe spread)
      (.methodCall info receiver' name args' safe spread) h rfl rfl rfl fun _ => hnode s'
  staticCall info owner name args args' _ s' h := by
    have hnode := draws_lowerStaticCall settings info owner name args'
    exact Settings.RecordsScopes.rule (.staticCall info owner name args)
      (.staticCall info owner name args') h rfl rfl rfl fun _ => hnode s'
  constructorCall cls info type args s h := by
    intro out hnodes
    simp only [nodesOfExprs, List.append_nil, Expr.nodes, List.forall_mem_cons] at hnodes
    exact records_lowerConstructorCall info type args _ (h hnodes.2)
  binary cls info op opSpan left right s h := by
    refine Settings.RecordsScopes.rule (.binary info op opSpan left right)
      (.binary info op opSpan _ _) h rfl rfl rfl fun htarget => ?_
    have hplain := isPlainTarget_lower settings cls htarget s
    exact draws_lowerBinary settings cls info op opSpan _ _ hplain _
  closure cls info params body scope s h := by
    intro scope' hnodes
    simp only [nodesOfExprs, List.append_nil, Expr.nodes, List.forall_mem_cons,
      nodesOfStmts_eq] at hnodes
    exact records_closure cls info params body scope (h hnodes.2)

end Runs

/-- A run over expressions and units keeps an exact record, as long as targets of resolved
assignments are plain and no name that the source declares is made of a stem, a dollar sign and
a number: what it records are the scopes of the closures in its output that gained an introduced
name, inner closures first and from left to right, and every other closure comes from the source
and has the scope that it had there. -/
theorem lowerTasks_records (settings : Settings) (tasks : List Task) (session : Session)
    (htargets : ∀ node ∈ nodesOfExprs (tasks.flatMap Task.exprs), node.hasPlainTarget = true)
    (hnames : ∀ node ∈ nodesOfExprs (tasks.flatMap Task.exprs),
      settings.config.isIntroduction node = false) :
    let out := (lowerTasks settings tasks).run session
    settings.Records (tasks.flatMap Task.exprs) session (out.1.flatMap outputExprs) out.2 :=
  loweringInvariant_records.lowerTasks tasks session fun node hnode =>
    ⟨htargets node hnode, hnames node hnode⟩

/-- `{ -> def item = repo.find()?.size(); { -> item } }` and `{ -> item?.size() }` with no scopes
so far. -/
def unscopedClosures : List Task :=
  [.expr .object (.closure {} []
      [.expr (.declaration {} "item" none
          (.methodCall {} (.methodCall {} (.var {} "repo" none) "find" [] false false)
            "size" [] true false)),
        .expr (.closure {} [] [.expr (.var {} "item" none)] none)]
      none),
    .expr .object (.closure {} []
      [.expr (.methodCall {} (.var {} "item" none) "size" [] true false)] none)]

/-- Of the three closures only the first gained a name. -/
theorem lowerTasks_records_unscopedClosures :
    let settings : Settings := ⟨.initial, .ofTypes .initial, {}⟩
    let nodes := nodesOfExprs (unscopedClosures.flatMap Task.exprs)
    let out := (lowerTasks settings unscopedClosures).run {}
    (∀ node ∈ nodes, node.hasPlainTarget = true) ∧
      (∀ node ∈ nodes, settings.config.isIntroduction node = false) ∧
      out.2.scopes = [{ declared := ["tmp$0", "item"], captured := ["repo"] }] ∧
      settings.Records (unscopedClosures.flatMap Task.exprs) {} (out.1.flatMap outputExprs)
        out.2 := by
  intro settings nodes out
  have htargets : ∀ node ∈ nodes, node.hasPlainTarget = true := by decide
  have hnames : ∀ node ∈ nodes, settings.config.isIntroduction node = false := by decide +kernel
  have hscopes : out.2.scopes = [{ declared := ["tmp$0", "item"], captured := ["repo"] }] := by
    decide +kernel
  exact ⟨htargets, hnames, hscopes, lowerTasks_records settings unscopedClosures {} htargets hnames⟩

end StaticDispatch
