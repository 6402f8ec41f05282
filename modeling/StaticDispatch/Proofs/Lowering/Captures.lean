import StaticDispatch.Proofs.Lowering.Cases
import StaticDispatch.Proofs.Lowering.Glue
import StaticDispatch.Proofs.Lowering.Registration
import StaticDispatch.Proofs.Tree.Scan

/-!
# Introduced names are declared before they are read

A walk over a lowered tree meets the declaration of an introduced name before
any reference to it, so that no introduced name is captured.  A rule that binds
a value puts the declaration where it is walked over first, whether in a null
check, in a block or in the body of an initializer.
-/

namespace StaticDispatch

open LowerM VariableScope

/-! ## Walks that capture no introduced name -/

namespace Config

variable (config : Config)

/-- A variable with a name that lowerings introduce. -/
def isMention : Expr → Bool
  | .var _ name _ => config.makesName name
  | _ => false

/-- No introduced name has been captured. -/
def Clean (scope : VariableScope) : Prop :=
  ∀ name ∈ scope.captured, config.makesName name = false

variable {config}

theorem clean_reference {scope : VariableScope} {name : String} (hclean : config.Clean scope)
    (h : name ∈ scope.declared ∨ config.makesName name = false) :
    config.Clean (scope.reference name) := by
  unfold reference
  split
  · exact hclean
  · rename_i hfresh
    intro other hother
    rcases mem_addName.mp hother with hother | rfl
    · exact hclean other hother
    · rcases h with hdeclared | hname
      · exact absurd (List.contains_iff_mem.mpr hdeclared) hfresh
      · exact hname

theorem clean_referenceAll {names : List String} {scope : VariableScope}
    (hclean : config.Clean scope) (hnames : ∀ name ∈ names, config.makesName name = false) :
    config.Clean (scope.referenceAll names) := by
  induction names generalizing scope with
  | nil => exact hclean
  | cons name rest ih =>
      rw [List.forall_mem_cons] at hnames
      exact ih (clean_reference hclean (.inr hnames.1)) hnames.2

theorem clean_ofParams (params : List Param) : config.Clean (ofParams params) := by
  have hfold : ∀ (params : List Param) (scope : VariableScope), config.Clean scope →
      config.Clean (params.foldl (fun scope param => scope.declare param.name) scope) := by
    intro params
    induction params with
    | nil => exact fun _ h => h
    | cons param rest ih => exact fun scope h => ih (scope.declare param.name) h
  exact hfold params {} (fun _ h => nomatch h)

end Config

/-! ## Closed trees -/

/-- A walk over the expression captures no introduced name, wherever it starts. -/
def Config.Closed (config : Config) (e : Expr) : Prop :=
  ∀ scope, config.Clean scope → config.Clean (e.scan scope)

/-- The expression is closed, and if it can be the target of an assignment, its parts are. -/
structure Config.ClosedParts (config : Config) (e : Expr) : Prop where
  whole : config.Closed e
  parts : e.isPlainTarget = true → ∀ child ∈ e.children, config.Closed child

section Trees

variable {config : Config}

theorem clean_scanExprs (es : List Expr) (h : ∀ e ∈ es, config.Closed e) {scope : VariableScope}
    (hclean : config.Clean scope) : config.Clean (scanExprs es scope) := by
  induction es generalizing scope with
  | nil => exact hclean
  | cons e rest ih =>
      rw [List.forall_mem_cons] at h
      exact ih h.2 (h.1 _ hclean)

theorem clean_scanEntries {entries : List Entry}
    (h : ∀ e ∈ exprsOfEntries entries, config.Closed e) {scope : VariableScope}
    (hclean : config.Clean scope) : config.Clean (scanEntries entries scope) := by
  induction entries generalizing scope with
  | nil => exact hclean
  | cons entry rest ih =>
      obtain ⟨key, value, span⟩ := entry
      simp only [exprsOfEntries, List.forall_mem_cons] at h
      exact ih h.2.2 (h.2.1 _ (h.1 _ hclean))

mutual

theorem Stmt.clean_scan : (s : Stmt) → (∀ e ∈ s.exprs, config.Closed e) →
    (scope : VariableScope) → config.Clean scope → config.Clean (s.scan scope)
  | .expr value, h, scope, hclean => h value List.mem_cons_self _ hclean
  | .block body, h, scope, hclean => clean_scanStmts body h scope hclean
  | .ret none _, _, _, hclean => hclean
  | .ret (some value) _, h, scope, hclean => h value List.mem_cons_self _ hclean
  | .ifElse condition yes none, h, scope, hclean => by
      simp only [Stmt.exprs, List.forall_mem_cons] at h
      exact clean_scanStmts yes h.2 _ (h.1 _ hclean)
  | .ifElse condition yes (some no), h, scope, hclean => by
      simp only [Stmt.exprs, List.forall_mem_cons, List.forall_mem_append] at h
      exact clean_scanStmts no h.2.2 _ (clean_scanStmts yes h.2.1 _ (h.1 _ hclean))
  | .whileLoop condition body, h, scope, hclean => by
      simp only [Stmt.exprs, List.forall_mem_cons] at h
      exact clean_scanStmts body h.2 _ (h.1 _ hclean)
  | .forIn loopVar iterable body, h, scope, hclean => by
      simp only [Stmt.exprs, List.forall_mem_cons] at h
      have hdeclared : config.Clean ((iterable.scan scope).declare loopVar.name) :=
        h.1 _ hclean
      exact clean_scanStmts body h.2 _ hdeclared
  | .throw value, h, scope, hclean => h value List.mem_cons_self _ hclean

theorem clean_scanStmts : (body : List Stmt) → (∀ e ∈ exprsOfStmts body, config.Closed e) →
    (scope : VariableScope) → config.Clean scope → config.Clean (scanStmts body scope)
  | [], _, _, hclean => hclean
  | s :: rest, h, scope, hclean => by
      simp only [exprsOfStmts, List.forall_mem_append] at h
      exact clean_scanStmts rest h.2 _ (s.clean_scan h.1 scope hclean)

end

theorem scanStmts_append (before after : List Stmt) (scope : VariableScope) :
    scanStmts (before ++ after) scope = scanStmts after (scanStmts before scope) := by
  induction before generalizing scope with
  | nil => rfl
  | cons s rest ih => exact ih (s.scan scope)

/-- A node is closed as soon as the expressions below it are, unless it mentions an introduced
name itself. -/
theorem Config.closed_of_children {e : Expr} (hnode : config.isMention e = false)
    (h : ∀ child ∈ e.children, config.Closed child) : config.Closed e := by
  intro scope hclean
  cases e with
  | literal info value => exact hclean
  | var info name type => exact clean_reference hclean (.inr hnode)
  | this info => exact hclean
  | classRef info type => exact hclean
  | property info receiver name => exact h receiver List.mem_cons_self _ hclean
  | methodCall info receiver name args safe spread =>
      exact clean_scanExprs (receiver :: args) h hclean
  | staticCall info owner name args => exact clean_scanExprs _ h hclean
  | constructorCall info type args => exact clean_scanExprs _ h hclean
  | binary info op opSpan left right => exact clean_scanExprs [left, right] h hclean
  | ternary info condition yes no => exact clean_scanExprs [condition, yes, no] h hclean
  | closure info params body scope =>
      exact clean_referenceAll hclean (clean_scanStmts body h _ (clean_ofParams params))
  | block info body => exact clean_scanStmts body h scope hclean
  | map info entries => exact clean_scanEntries h hclean
  | list info items => exact clean_scanExprs _ h hclean
  | declaration info name type initializer =>
      have hdeclared : config.Clean ((initializer.scan scope).declare name) :=
        h initializer List.mem_cons_self _ hclean
      exact hdeclared
  | cast info type operand => exact h operand List.mem_cons_self _ hclean
  | unary info op operand => exact h operand List.mem_cons_self _ hclean

theorem Config.ClosedParts.of_children {e : Expr} (hnode : config.isMention e = false)
    (h : ∀ child ∈ e.children, config.Closed child) : config.ClosedParts e :=
  ⟨Config.closed_of_children hnode h, fun _ => h⟩

end Trees

/-! ## Rules -/

section Rules

variable (settings : Settings) (cls : TypeId)

/-- Access to an element is walked over like the call. -/
theorem yields_lowerPlainCall_scan (info : Info) (receiver : Expr) (name : String)
    (args : List Expr) (spread : Bool) :
    Yields (lowerPlainCall settings cls info receiver name args spread) fun out =>
      ∀ scope, out.scan scope = scanExprs args (receiver.scan scope) := by
  obtain h | ⟨component, index, rfl, h⟩ | ⟨component, index, value, rfl, h⟩ :=
    lowerPlainCall_cases settings cls info receiver name args spread
  · rw [h]
    exact yields_pure fun _ => rfl
  · rw [h]
    exact yields_count_bind (yields_pure fun _ => rfl)
  · rw [h]
    exact yields_count_bind (yields_pure fun _ => rfl)

/-- The parts of an element that a call became are parts of the call. -/
theorem yields_lowerPlainCall_children (info : Info) (receiver : Expr) (name : String)
    (args : List Expr) (spread : Bool) :
    Yields (lowerPlainCall settings cls info receiver name args spread) fun out =>
      out.isPlainTarget = true → ∀ child ∈ out.children, child ∈ receiver :: args := by
  obtain h | ⟨component, index, rfl, h⟩ | ⟨component, index, value, rfl, h⟩ :=
    lowerPlainCall_cases settings cls info receiver name args spread
  · rw [h]
    exact yields_pure fun hplain => nomatch hplain
  · rw [h]
    exact yields_count_bind (yields_pure fun _ child hchild => hchild)
  · rw [h]
    exact yields_count_bind (yields_pure fun hplain => nomatch hplain)

theorem yields_lowerMethodCall_closed (info : Info) {receiver : Expr} (name : String)
    {args : List Expr} (safe spread : Bool) (hreceiver : settings.config.Closed receiver)
    (hargs : ∀ arg ∈ args, settings.config.Closed arg) :
    Yields (lowerMethodCall settings cls info receiver name args safe spread)
      settings.config.ClosedParts := by
  have hchildren : ∀ child ∈ receiver :: args, settings.config.Closed child :=
    List.forall_mem_cons.mpr ⟨hreceiver, hargs⟩
  unfold lowerMethodCall
  cases safe with
  | false =>
      refine ((yields_lowerPlainCall_scan settings cls info receiver name args spread).and
        (yields_lowerPlainCall_children settings cls info receiver name args spread)).mono ?_
      rintro out ⟨hscan, hparts⟩
      refine ⟨fun scope hclean => ?_, fun hplain child hchild =>
        hchildren child (hparts hplain child hchild)⟩
      rw [hscan]
      exact clean_scanExprs _ hchildren hclean
  | true =>
      rw [if_pos rfl]
      split
      · unfold lowerSafeCall
        -- once the check was walked over, the receiver of the call adds no captured name
        have hsplit : Yields (splitReceiver settings cls receiver) fun pair =>
            settings.config.Closed pair.1 ∧
              ∀ scope, settings.config.Clean (pair.1.scan scope) →
                settings.config.Clean (pair.2.scan (pair.1.scan scope)) := by
          unfold splitReceiver
          split
          · refine (yields_bindTemporary settings cls receiver).mono ?_
            rintro ⟨declaration, reference⟩ ⟨temporary, rfl, rfl⟩
            refine ⟨Config.closed_of_children rfl (List.forall_mem_singleton.mpr hreceiver), ?_⟩
            intro scope hclean
            exact Config.clean_reference hclean (.inl (mem_addName.mpr (.inr rfl)))
          · exact yields_pure ⟨hreceiver, fun scope hclean => hreceiver _ hclean⟩
        refine hsplit.bind ?_
        rintro ⟨checked, called⟩ ⟨hchecked, hcalled⟩
        apply yields_count_bind
        refine (yields_lowerPlainCall_scan settings cls info called name args spread).bind ?_
        intro call hcall
        apply yields_pure
        refine ⟨fun scope hclean => ?_, fun hplain => nomatch hplain⟩
        change settings.config.Clean (call.scan (checked.scan scope))
        rw [hcall]
        exact clean_scanExprs _ hargs (hcalled scope (hchecked _ hclean))
      · exact yields_pure (.of_children rfl hchildren)

theorem yields_lowerStaticCall_closed (info : Info) (owner : TypeId) (name : String)
    {args : List Expr} (hargs : ∀ arg ∈ args, settings.config.Closed arg) :
    Yields (lowerStaticCall settings info owner name args) settings.config.ClosedParts := by
  unfold lowerStaticCall
  split
  · refine yields_count_bind (yields_pure ?_)
    have howner : settings.config.Closed (.classRef info.span.info owner) :=
      Config.closed_of_children rfl (fun _ h => nomatch h)
    exact .of_children rfl (List.forall_mem_cons.mpr ⟨howner, hargs⟩)
  · exact yields_pure (.of_children rfl hargs)

/-! ### Keyword constructors -/

theorem reference_of_mem {scope : VariableScope} {name : String} (h : name ∈ scope.declared) :
    scope.reference name = scope := by
  unfold reference
  rw [if_pos (List.contains_iff_mem.mpr h)]

/-- The assignments of an initializer are walked over like the entries, as the local is declared
and the keys are literals. -/
theorem scanStmts_setProperties (owner : TypeId) (name : String) {entries : List Entry}
    (hkeys : ∀ entry ∈ entries, entry.key.stringLiteral?.isSome = true) {scope : VariableScope}
    (hname : name ∈ scope.declared) :
    scanStmts (entries.filterMap (setProperty? owner name)) scope = scanEntries entries scope := by
  induction entries generalizing scope with
  | nil => rfl
  | cons entry rest ih =>
      obtain ⟨key, value, span⟩ := entry
      rw [List.forall_mem_cons] at hkeys
      obtain ⟨text, htext⟩ := Option.isSome_iff_exists.mp hkeys.1
      change key.stringLiteral? = some text at htext
      have hkey : key.scan scope = scope := by
        cases key <;> simp_all [Expr.stringLiteral?, Expr.scan]
      have hdeclared : name ∈ (value.scan scope).declared :=
        (value.settles_scan.grows scope).declared name hname
      simp only [List.filterMap_cons, setProperty?, htext, Option.map_some, scanStmts, Stmt.scan,
        scanEntries, hkey, Expr.scan, localReference, reference_of_mem hname]
      exact ih hkeys.2 hdeclared

theorem clean_initializerBody {config : Config} (span : Span) (owner : TypeId) (name : String)
    (mapInfo : Info) {entries : List Entry}
    (hkeys : ∀ entry ∈ entries, entry.key.stringLiteral?.isSome = true)
    (h : config.Closed (.map mapInfo entries)) :
    config.Clean (VariableScope.ofClosure [] (initializerBody span owner name entries)) := by
  let start : VariableScope := VariableScope.declare {} name
  have hdeclared : name ∈ start.declared := List.mem_singleton.mpr rfl
  have hset : config.Clean (scanEntries entries start) := h start fun _ h => nomatch h
  have hgrows : start.Within (scanEntries entries start) :=
    (settles_scanEntries entries).grows start
  have hscope : VariableScope.ofClosure [] (initializerBody span owner name entries) =
      (scanEntries entries start).reference name := by
    rw [← scanStmts_setProperties owner name hkeys hdeclared]
    exact scanStmts_append _ _ _
  rw [hscope]
  exact Config.clean_reference hset (.inl (hgrows.declared name hdeclared))

theorem yields_lowerConstructorCall_closed (info : Info) (type : TypeId) {args : List Expr}
    (hargs : ∀ arg ∈ args, settings.config.Closed arg) :
    Yields (lowerConstructorCall settings info type args) settings.config.ClosedParts := by
  obtain h | ⟨owner, mapInfo, entries, rfl, hkeys, h⟩ :=
    lowerConstructorCall_cases settings info type args
  · rw [h]
    exact yields_pure (.of_children rfl hargs)
  · rw [h]
    intro session
    refine ⟨fun scope hclean => ?_, fun hplain => nomatch hplain⟩
    exact Config.clean_referenceAll hclean
      (clean_initializerBody info.span owner _ mapInfo hkeys (hargs _ List.mem_cons_self))

/-! ### Operators -/

/-- Wherever the declarations have been walked over, the operand captures no introduced name. -/
def Config.ClosedAfter (config : Config) (before : List Stmt) (operand : Expr) : Prop :=
  (∀ scope, config.Clean scope → config.Clean (scanStmts before scope)) ∧
    ∀ scope later, (scanStmts before scope).Within later → config.Clean later →
      config.Clean (operand.scan later)

theorem yields_stableOperand_closed {operand : Expr} (h : settings.config.Closed operand) :
    Yields (stableOperand settings cls operand) fun pair =>
      settings.config.ClosedAfter pair.1 pair.2 := by
  unfold stableOperand
  split
  · exact yields_pure ⟨fun _ hclean => hclean, fun _ later _ hclean => h later hclean⟩
  · refine (yields_bindTemporary settings cls operand).bind ?_
    rintro ⟨declaration, reference⟩ ⟨name, rfl, rfl⟩
    refine yields_pure ⟨fun scope hclean => h scope hclean, ?_⟩
    intro scope later hwithin hclean
    have hdeclared : name ∈ later.declared :=
      hwithin.declared name (mem_addName.mpr (.inr rfl))
    exact Config.clean_reference hclean (.inl hdeclared)

theorem yields_stableTarget_closed {target : Expr} (hplain : target.isPlainTarget = true)
    (htarget : settings.config.ClosedParts target) :
    Yields (stableTarget settings cls target) fun pair =>
      settings.config.ClosedAfter pair.1 pair.2 := by
  have h := htarget.parts hplain
  cases target with
  | var info name type =>
      exact yields_pure ⟨fun _ hclean => hclean, fun _ later _ hclean => htarget.whole later hclean⟩
  | property info receiver name =>
      refine (yields_stableOperand_closed settings cls (h receiver List.mem_cons_self)).bind ?_
      rintro ⟨before, receiver'⟩ hreceiver
      exact yields_pure hreceiver
  | binary info op opSpan left right =>
      cases op with
      | index =>
          simp only [Expr.children, List.forall_mem_cons] at h
          refine (yields_stableOperand_closed settings cls h.1).bind ?_
          rintro ⟨before, left'⟩ ⟨hbefore, hleft⟩
          refine (yields_stableOperand_closed settings cls h.2.1).bind ?_
          rintro ⟨between, right'⟩ ⟨hbetween, hright⟩
          apply yields_pure
          constructor
          · intro scope hclean
            rw [scanStmts_append]
            exact hbetween _ (hbefore scope hclean)
          · intro scope later hwithin hclean
            rw [scanStmts_append] at hwithin
            have hgrows := (settles_scanStmts between).grows (scanStmts before scope)
            have hleft' : settings.config.Clean (left'.scan later) :=
              hleft scope later (hgrows.trans hwithin) hclean
            exact hright _ _ (hwithin.trans (left'.settles_scan.grows later)) hleft'
      | _ => exact absurd hplain (by simp [Expr.isPlainTarget])
  | _ => exact absurd hplain (by simp [Expr.isPlainTarget])

theorem scan_assignmentAfter (span : Span) (type : Option TypeId) (before : List Stmt)
    (assignment : Expr) (scope : VariableScope) :
    (assignmentAfter span type before assignment).scan scope =
      assignment.scan (scanStmts before scope) := by
  cases before with
  | nil => rfl
  | cons s rest => exact scanStmts_append (s :: rest) [.expr assignment] scope

theorem yields_lowerOperatorAssignment_closed (span opSpan : Span) (type : Option TypeId)
    (target : OperatorTarget) {left right : Expr} (hplain : left.isPlainTarget = true)
    (hleft : settings.config.ClosedParts left) (hright : settings.config.Closed right) :
    Yields (lowerOperatorAssignment settings cls span opSpan type target left right)
      settings.config.ClosedParts := by
  unfold lowerOperatorAssignment
  refine (yields_stableTarget_closed settings cls hplain hleft).bind ?_
  rintro ⟨before, place⟩ ⟨hbefore, hplace⟩
  refine yields_count_bind (yields_pure ⟨?_, ?_⟩)
  · intro scope hclean
    rw [scan_assignmentAfter]
    -- the place is walked over as the target and again as the receiver
    have honce : settings.config.Clean (place.scan (scanStmts before scope)) :=
      hplace scope _ (Within.refl _) (hbefore scope hclean)
    have htwice := hplace scope _ (place.settles_scan.grows (scanStmts before scope)) honce
    exact hright _ htwice
  · intro h
    cases before <;> cases h

theorem yields_lowerBinary_closed (info : Info) (op : BinaryOp) (opSpan : Span)
    {left right : Expr} (hplain : info.facts.operatorTarget.isSome = true →
      op.isAssignment = true → left.isPlainTarget = true)
    (hleft : settings.config.ClosedParts left) (hright : settings.config.Closed right) :
    Yields (lowerBinary settings cls info op opSpan left right) settings.config.ClosedParts := by
  have hchildren : ∀ child ∈ [left, right], settings.config.Closed child := by
    simp [hleft.whole, hright]
  obtain h | ⟨routine, h⟩ | ⟨target, htarget, hassignment, h⟩ | ⟨target, h⟩ :=
    lowerBinary_cases settings cls info op opSpan left right
  · rw [h]
    exact yields_pure (.of_children rfl hchildren)
  · rw [h]
    refine yields_count_bind (yields_pure ?_)
    have hroutine : settings.config.Closed
        (.classRef info.span.info (settings.types.methodOwner routine)) :=
      Config.closed_of_children rfl (fun _ h => nomatch h)
    exact .of_children rfl (List.forall_mem_cons.mpr ⟨hroutine, hchildren⟩)
  · rw [h]
    exact yields_lowerOperatorAssignment_closed settings cls _ _ _ _
      (hplain (by rw [htarget]; rfl) hassignment) hleft hright
  · rw [h]
    exact yields_count_bind (yields_pure (.of_children rfl hchildren))

end Rules

/-! ## Runs -/

/-- Where targets of resolved assignments are plain and the source mentions no introduced name,
every tree captures none. -/
def Settings.KeepsClosed (settings : Settings) (es : List Expr) (_ : Session) (es' : List Expr)
    (_ : Session) : Prop :=
  (∀ node ∈ nodesOfExprs es,
      node.hasPlainTarget = true ∧ settings.config.isMention node = false) →
    ∀ e ∈ es', settings.config.ClosedParts e

section Runs

variable {settings : Settings}

theorem Expr.SameFrame.isMention {e e' : Expr} (h : e.SameFrame e') (config : Config) :
    config.isMention e' = config.isMention e := by
  cases h <;> rfl

theorem Settings.KeepsClosed.rule {e out : Expr} {es' : List Expr} {s s' s'' : Session}
    (h : settings.KeepsClosed e.children s es' s')
    (hrule : e.hasPlainTarget = true → settings.config.isMention e = false →
      (∀ child ∈ es', settings.config.ClosedParts child) → settings.config.ClosedParts out) :
    settings.KeepsClosed [e] s [out] s'' := by
  intro hnodes
  rw [nodesOfExprs_cons, e.nodes_eq] at hnodes
  simp only [nodesOfExprs, List.append_nil, List.forall_mem_cons] at hnodes
  obtain ⟨⟨hplain, hmention⟩, hchildren⟩ := hnodes
  exact List.forall_mem_singleton.mpr (hrule hplain hmention (h hchildren))

theorem loweringInvariant_closed : LoweringInvariant settings settings.KeepsClosed where
  nil _ _ := fun _ _ h => nomatch h
  append h h' := by
    intro hnodes
    rw [nodesOfExprs_append, List.forall_mem_append] at hnodes
    exact List.forall_mem_append.mpr ⟨h hnodes.1, h' hnodes.2⟩
  frame hframe h :=
    h.rule fun _ hmention hchildren =>
      .of_children ((hframe.isMention settings.config).trans hmention)
        fun child hchild => (hchildren child hchild).whole
  methodCall cls info name safe spread _ _ _ _ _ s' h :=
    Settings.KeepsClosed.rule (e := .methodCall info _ name _ safe spread) h
      fun _ _ hchildren => by
        rw [List.forall_mem_cons] at hchildren
        exact yields_lowerMethodCall_closed settings cls info name safe spread hchildren.1.whole
          (fun arg harg => (hchildren.2 arg harg).whole) s'
  staticCall info owner name _ _ _ s' h :=
    Settings.KeepsClosed.rule (e := .staticCall info owner name _) h fun _ _ hchildren =>
      yields_lowerStaticCall_closed settings info owner name
        (fun arg harg => (hchildren arg harg).whole) s'
  constructorCall cls info type args s h :=
    Settings.KeepsClosed.rule (e := .constructorCall info type args) h fun _ _ hchildren =>
      yields_lowerConstructorCall_closed settings info type
        (fun arg harg => (hchildren arg harg).whole) _
  binary cls info op opSpan left right s h :=
    Settings.KeepsClosed.rule (e := .binary info op opSpan left right) h
      fun hplain _ hchildren => by
        simp only [List.forall_mem_cons] at hchildren
        exact yields_lowerBinary_closed settings cls info op opSpan
          (isPlainTarget_lower settings cls hplain s) hchildren.1 hchildren.2.1.whole _
  closure cls info params body scope s h :=
    Settings.KeepsClosed.rule (e := .closure info params body scope) h fun _ _ hchildren =>
      .of_children rfl fun child hchild => (hchildren child hchild).whole

end Runs

end StaticDispatch
