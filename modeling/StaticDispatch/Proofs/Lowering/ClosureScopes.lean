import StaticDispatch.Proofs.Lowering.Cases
import StaticDispatch.Proofs.Lowering.Invariant
import StaticDispatch.Proofs.Tree.Scan

/-!
# Scopes of closures in lowered trees

The scope on a closure lists the names that its body declares and captures.  A
lowering works it out anew only where it drew a name in the body.  That is
enough: where it drew none, a walk over the lowered body meets the same names in
the same order, except that the target of a resolved assignment is walked over
twice, which adds nothing.
-/

namespace StaticDispatch

open LowerM

/-! ## Steps that draw no name -/

namespace LowerM

variable {α β : Type} {step : LowerM α} {next : α → LowerM β} {property : α → Prop}
  {goal : β → Prop}

/-- The step gives no number back, and where it draws none its answer has the property. -/
def IfSilent (step : LowerM α) (property : α → Prop) : Prop :=
  ∀ session, session.nextName ≤ (step.run session).2.nextName ∧
    ((step.run session).2.nextName = session.nextName → property (step.run session).1)

theorem ifSilent_pure {a : α} (h : property a) : IfSilent (pure a) property :=
  fun _ => ⟨Nat.le_refl _, fun _ => h⟩

theorem ifSilent_of_draws (h : ∀ session, session.nextName < (step.run session).2.nextName) :
    IfSilent step property :=
  fun session => ⟨Nat.le_of_lt (h session), fun heq => absurd heq (Nat.ne_of_gt (h session))⟩

theorem IfSilent.mono {weaker : α → Prop} (h : IfSilent step property)
    (himp : ∀ a, property a → weaker a) : IfSilent step weaker :=
  fun session => ⟨(h session).1, fun heq => himp _ ((h session).2 heq)⟩

theorem IfSilent.bind (hstep : IfSilent step property)
    (hnext : ∀ a, IfSilent (next a) fun b => property a → goal b) :
    IfSilent (step >>= next) goal := by
  intro session
  obtain ⟨hle, hproperty⟩ := hstep session
  obtain ⟨hle', hgoal⟩ := hnext (step.run session).1 (step.run session).2
  refine ⟨Nat.le_trans hle hle', fun heq => ?_⟩
  -- neither half can have drawn a name
  have hfirst : (step.run session).2.nextName = session.nextName :=
    Nat.le_antisymm (Nat.le_trans hle' (Nat.le_of_eq heq)) hle
  exact hgoal (heq.trans hfirst.symm) (hproperty hfirst)

theorem IfSilent.count_bind {applied : Stats} {next : Unit → LowerM β}
    (hnext : IfSilent (next ()) goal) : IfSilent (count applied >>= next) goal :=
  fun session => hnext { session with stats := session.stats + applied }

end LowerM

/-! ## Walks over what the rules make -/

section Rules

variable (settings : Settings) (cls : TypeId)

theorem ifSilent_bindTemporary (value : Expr) (property : Expr × Expr → Prop) :
    IfSilent (bindTemporary settings cls value) property :=
  ifSilent_of_draws fun _ => Nat.lt_succ_self _

theorem ifSilent_lowerPlainCall_scan (info : Info) (receiver : Expr) (name : String)
    (args : List Expr) (spread : Bool) :
    IfSilent (lowerPlainCall settings cls info receiver name args spread) fun out =>
      ∀ scope, out.scan scope = scanExprs args (receiver.scan scope) := by
  obtain h | ⟨component, index, rfl, h⟩ | ⟨component, index, value, rfl, h⟩ :=
    lowerPlainCall_cases settings cls info receiver name args spread
  · rw [h]
    exact ifSilent_pure fun _ => rfl
  · rw [h]
    exact IfSilent.count_bind (ifSilent_pure fun _ => rfl)
  · rw [h]
    exact IfSilent.count_bind (ifSilent_pure fun _ => rfl)

theorem ifSilent_splitReceiver (receiver : Expr) :
    IfSilent (splitReceiver settings cls receiver) fun pair => pair = (receiver, receiver) := by
  unfold splitReceiver
  split
  · exact ifSilent_bindTemporary settings cls receiver _
  · exact ifSilent_pure rfl

theorem ifSilent_lowerMethodCall_scan (info : Info) (receiver : Expr) (name : String)
    (args : List Expr) (safe spread : Bool) :
    IfSilent (lowerMethodCall settings cls info receiver name args safe spread) fun out =>
      ∀ scope, out.scan scope = scanExprs args (receiver.scan scope) := by
  unfold lowerMethodCall
  split
  · split
    · unfold lowerSafeCall
      refine (ifSilent_splitReceiver settings cls receiver).bind ?_
      rintro ⟨checked, called⟩
      apply IfSilent.count_bind
      refine (ifSilent_lowerPlainCall_scan settings cls info called name args spread).bind
        fun call => ?_
      apply ifSilent_pure
      rintro hcall hsplit scope
      obtain ⟨rfl, rfl⟩ := Prod.mk.inj hsplit
      simp [Expr.scan, notNull, Expr.null, hcall, Expr.scan_scan]
    · exact ifSilent_pure fun _ => rfl
  · exact ifSilent_lowerPlainCall_scan settings cls info receiver name args spread

theorem ifSilent_lowerStaticCall_scan (info : Info) (owner : TypeId) (name : String)
    (args : List Expr) :
    IfSilent (lowerStaticCall settings info owner name args) fun out =>
      ∀ scope, out.scan scope = scanExprs args scope := by
  unfold lowerStaticCall
  split
  · exact IfSilent.count_bind (ifSilent_pure fun _ => rfl)
  · exact ifSilent_pure fun _ => rfl

theorem ifSilent_lowerConstructorCall_scan (info : Info) (type : TypeId) (args : List Expr) :
    IfSilent (lowerConstructorCall settings info type args) fun out =>
      ∀ scope, out.scan scope = scanExprs args scope := by
  obtain h | ⟨owner, mapInfo, entries, -, -, h⟩ :=
    lowerConstructorCall_cases settings info type args
  · rw [h]
    exact ifSilent_pure fun _ => rfl
  · rw [h]
    exact ifSilent_of_draws fun _ => Nat.lt_succ_self _

theorem ifSilent_stableOperand (operand : Expr) :
    IfSilent (stableOperand settings cls operand) fun pair => pair = ([], operand) := by
  unfold stableOperand
  split
  · exact ifSilent_pure rfl
  · exact (ifSilent_bindTemporary settings cls operand fun _ => False).bind fun _ =>
      ifSilent_pure False.elim

theorem ifSilent_stableTarget (target : Expr) :
    IfSilent (stableTarget settings cls target) fun pair => pair = ([], target) := by
  unfold stableTarget
  split
  · refine (ifSilent_stableOperand settings cls _).bind fun pair => ifSilent_pure ?_
    rintro rfl
    rfl
  · refine (ifSilent_stableOperand settings cls _).bind fun pair => ?_
    refine (ifSilent_stableOperand settings cls _).bind fun pair' => ifSilent_pure ?_
    rintro rfl rfl
    rfl
  · exact ifSilent_pure rfl

theorem ifSilent_lowerOperatorAssignment_scan (span opSpan : Span) (type : Option TypeId)
    (target : OperatorTarget) (left right : Expr) :
    IfSilent (lowerOperatorAssignment settings cls span opSpan type target left right) fun out =>
      ∀ scope, out.scan scope = right.scan (left.scan scope) := by
  unfold lowerOperatorAssignment
  refine (ifSilent_stableTarget settings cls left).bind fun pair => ?_
  apply IfSilent.count_bind
  apply ifSilent_pure
  rintro rfl scope
  simp [assignmentAfter, operatorCall, Expr.scan, scanExprs, Expr.scan_scan]

theorem ifSilent_lowerBinary_scan (info : Info) (op : BinaryOp) (opSpan : Span)
    (left right : Expr) :
    IfSilent (lowerBinary settings cls info op opSpan left right) fun out =>
      ∀ scope, out.scan scope = right.scan (left.scan scope) := by
  obtain h | ⟨routine, h⟩ | ⟨target, -, -, h⟩ | ⟨target, h⟩ :=
    lowerBinary_cases settings cls info op opSpan left right
  · rw [h]
    exact ifSilent_pure fun _ => rfl
  · rw [h]
    exact IfSilent.count_bind (ifSilent_pure fun _ => rfl)
  · rw [h]
    exact ifSilent_lowerOperatorAssignment_scan settings cls _ _ _ _ left right
  · rw [h]
    exact IfSilent.count_bind (ifSilent_pure fun _ => rfl)

theorem ifSilent_renewScope (before : Nat) (params : List Param) (body : Block)
    (scope : Option VariableScope) :
    IfSilent (renewScope before params body scope) fun _ => True := by
  intro session
  rw [run_renewScope]
  split <;> exact ⟨Nat.le_refl _, fun _ => trivial⟩

end Rules

/-! ## Walks over lowered trees -/

section Trees

variable (settings : Settings) (cls : TypeId)

mutual

/-- Where its lowering draws no name, an expression leaves the names of a scope to a walk that
it left before. -/
theorem ifSilent_lower_scan : (e : Expr) →
    IfSilent (e.lower settings cls) fun out => ∀ scope, out.scan scope = e.scan scope
  | .literal info value => ifSilent_pure fun _ => rfl
  | .var info name type => ifSilent_pure fun _ => rfl
  | .this info => ifSilent_pure fun _ => rfl
  | .classRef info type => ifSilent_pure fun _ => rfl
  | .property info receiver name => by
      refine (ifSilent_lower_scan receiver).bind fun receiver' => ?_
      exact ifSilent_pure id
  | .methodCall info receiver name args safe spread => by
      refine (ifSilent_lower_scan receiver).bind fun receiver' => ?_
      refine (ifSilent_lowerExprs_scan args).bind fun args' => ?_
      refine (ifSilent_lowerMethodCall_scan settings cls info receiver' name args' safe
        spread).mono fun out hout hargs hreceiver scope => ?_
      rw [hout, hargs, hreceiver]
      rfl
  | .staticCall info owner name args => by
      refine (ifSilent_lowerExprs_scan args).bind fun args' => ?_
      refine (ifSilent_lowerStaticCall_scan settings info owner name args').mono
        fun out hout hargs scope => ?_
      rw [hout, hargs]
      rfl
  | .constructorCall info type args => by
      refine (ifSilent_lowerExprs_scan args).bind fun args' => ?_
      refine (ifSilent_lowerConstructorCall_scan settings info type args').mono
        fun out hout hargs scope => ?_
      rw [hout, hargs]
      rfl
  | .binary info op opSpan left right => by
      refine (ifSilent_lower_scan left).bind fun left' => ?_
      refine (ifSilent_lower_scan right).bind fun right' => ?_
      refine (ifSilent_lowerBinary_scan settings cls info op opSpan left' right').mono
        fun out hout hright hleft scope => ?_
      rw [hout, hright, hleft]
      rfl
  | .ternary info condition yes no => by
      refine (ifSilent_lower_scan condition).bind fun condition' => ?_
      refine (ifSilent_lower_scan yes).bind fun yes' => ?_
      refine (ifSilent_lower_scan no).bind fun no' => ?_
      apply ifSilent_pure
      intro hno hyes hcondition scope
      simp only [Expr.scan, hno, hyes, hcondition]
  | .closure info params body scope => by
      intro session
      have hbody : IfSilent (lowerStmts settings cls body >>= fun body' => do
          let scope' ← renewScope session.nextName params body' scope
          return Expr.closure info params body' scope') fun out =>
            ∀ outer, out.scan outer = (Expr.closure info params body scope).scan outer := by
        refine (ifSilent_lowerStmts_scan body).bind fun body' => ?_
        refine (ifSilent_renewScope session.nextName params body' scope).bind fun scope' => ?_
        apply ifSilent_pure
        intro _ hbody outer
        simp only [Expr.scan, hbody]
      exact hbody session
  | .block info body => by
      refine (ifSilent_lowerStmts_scan body).bind fun body' => ?_
      exact ifSilent_pure id
  | .map info entries => by
      refine (ifSilent_lowerEntries_scan entries).bind fun entries' => ?_
      exact ifSilent_pure id
  | .list info items => by
      refine (ifSilent_lowerExprs_scan items).bind fun items' => ?_
      exact ifSilent_pure id
  | .declaration info name type initializer => by
      refine (ifSilent_lower_scan initializer).bind fun initializer' => ?_
      apply ifSilent_pure
      intro hinitializer scope
      simp only [Expr.scan, hinitializer]
  | .cast info type operand => by
      refine (ifSilent_lower_scan operand).bind fun operand' => ?_
      exact ifSilent_pure id
  | .unary info op operand => by
      refine (ifSilent_lower_scan operand).bind fun operand' => ?_
      exact ifSilent_pure id

theorem ifSilent_lowerExprs_scan : (es : List Expr) →
    IfSilent (lowerExprs settings cls es) fun out =>
      ∀ scope, scanExprs out scope = scanExprs es scope
  | [] => ifSilent_pure fun _ => rfl
  | e :: rest => by
      refine (ifSilent_lower_scan e).bind fun e' => ?_
      refine (ifSilent_lowerExprs_scan rest).bind fun rest' => ?_
      apply ifSilent_pure
      intro hrest he scope
      simp only [scanExprs, hrest, he]

theorem ifSilent_lowerEntries_scan : (entries : List Entry) →
    IfSilent (lowerEntries settings cls entries) fun out =>
      ∀ scope, scanEntries out scope = scanEntries entries scope
  | [] => ifSilent_pure fun _ => rfl
  | .mk key value span :: rest => by
      refine (ifSilent_lower_scan key).bind fun key' => ?_
      refine (ifSilent_lower_scan value).bind fun value' => ?_
      refine (ifSilent_lowerEntries_scan rest).bind fun rest' => ?_
      apply ifSilent_pure
      intro hrest hvalue hkey scope
      simp only [scanEntries, hrest, hvalue, hkey]

theorem ifSilent_lowerStmt_scan : (s : Stmt) →
    IfSilent (s.lower settings cls) fun out => ∀ scope, out.scan scope = s.scan scope
  | .expr value => by
      refine (ifSilent_lower_scan value).bind fun value' => ?_
      exact ifSilent_pure id
  | .block body => by
      refine (ifSilent_lowerStmts_scan body).bind fun body' => ?_
      exact ifSilent_pure id
  | .ret none span => ifSilent_pure fun _ => rfl
  | .ret (some value) span => by
      refine (ifSilent_lower_scan value).bind fun value' => ?_
      exact ifSilent_pure id
  | .ifElse condition yes none => by
      refine (ifSilent_lower_scan condition).bind fun condition' => ?_
      refine (ifSilent_lowerStmts_scan yes).bind fun yes' => ?_
      apply ifSilent_pure
      intro hyes hcondition scope
      simp only [Stmt.scan, hyes, hcondition]
  | .ifElse condition yes (some no) => by
      refine (ifSilent_lower_scan condition).bind fun condition' => ?_
      refine (ifSilent_lowerStmts_scan yes).bind fun yes' => ?_
      refine (ifSilent_lowerStmts_scan no).bind fun no' => ?_
      apply ifSilent_pure
      intro hno hyes hcondition scope
      simp only [Stmt.scan, hno, hyes, hcondition]
  | .whileLoop condition body => by
      refine (ifSilent_lower_scan condition).bind fun condition' => ?_
      refine (ifSilent_lowerStmts_scan body).bind fun body' => ?_
      apply ifSilent_pure
      intro hbody hcondition scope
      simp only [Stmt.scan, hbody, hcondition]
  | .forIn loopVar iterable body => by
      refine (ifSilent_lower_scan iterable).bind fun iterable' => ?_
      refine (ifSilent_lowerStmts_scan body).bind fun body' => ?_
      apply ifSilent_pure
      intro hbody hiterable scope
      simp only [Stmt.scan, hbody, hiterable]
  | .throw value => by
      refine (ifSilent_lower_scan value).bind fun value' => ?_
      exact ifSilent_pure id

theorem ifSilent_lowerStmts_scan : (body : List Stmt) →
    IfSilent (lowerStmts settings cls body) fun out =>
      ∀ scope, scanStmts out scope = scanStmts body scope
  | [] => ifSilent_pure fun _ => rfl
  | s :: rest => by
      refine (ifSilent_lowerStmt_scan s).bind fun s' => ?_
      refine (ifSilent_lowerStmts_scan rest).bind fun rest' => ?_
      apply ifSilent_pure
      intro hrest hs scope
      simp only [scanStmts, hrest, hs]

end

end Trees

/-! ## Closures with their scopes -/

/-- If the node is a closure, it carries the names that its body declares and captures. -/
def Expr.hasOwnScope : Expr → Bool
  | .closure _ params body scope => scope = some (.ofClosure params body)
  | _ => true

def Expr.Scoped (e : Expr) : Prop :=
  ∀ node ∈ e.nodes, node.hasOwnScope = true

def ScopedExprs (es : List Expr) : Prop :=
  ∀ node ∈ nodesOfExprs es, node.hasOwnScope = true

instance (es : List Expr) : Decidable (ScopedExprs es) :=
  inferInstanceAs (Decidable (∀ node ∈ nodesOfExprs es, node.hasOwnScope = true))

@[simp] theorem scopedExprs_nil : ScopedExprs [] :=
  fun _ h => absurd h List.not_mem_nil

@[simp] theorem scopedExprs_append (es fs : List Expr) :
    ScopedExprs (es ++ fs) ↔ ScopedExprs es ∧ ScopedExprs fs := by
  unfold ScopedExprs
  rw [nodesOfExprs_append, List.forall_mem_append]

@[simp] theorem scopedExprs_cons (e : Expr) (rest : List Expr) :
    ScopedExprs (e :: rest) ↔ e.Scoped ∧ ScopedExprs rest := by
  unfold ScopedExprs Expr.Scoped
  rw [nodesOfExprs_cons, List.forall_mem_append]

theorem Expr.scoped_iff (e : Expr) :
    e.Scoped ↔ e.hasOwnScope = true ∧ ScopedExprs e.children := by
  unfold Expr.Scoped ScopedExprs
  rw [e.nodes_eq, List.forall_mem_cons]

section Rules

variable (settings : Settings) (cls : TypeId)

theorem yields_lowerPlainCall_scoped (info : Info) {receiver : Expr} (name : String)
    {args : List Expr} (spread : Bool) (hreceiver : receiver.Scoped) (hargs : ScopedExprs args) :
    Yields (lowerPlainCall settings cls info receiver name args spread) Expr.Scoped := by
  obtain h | ⟨component, index, rfl, h⟩ | ⟨component, index, value, rfl, h⟩ :=
    lowerPlainCall_cases settings cls info receiver name args spread
  · rw [h]
    apply yields_pure
    simp [Expr.scoped_iff (.methodCall ..), Expr.hasOwnScope, Expr.children, hreceiver, hargs]
  · rw [h]
    apply yields_count_bind
    apply yields_pure
    simpa [elementAt, Expr.scoped_iff (.binary ..), Expr.hasOwnScope, Expr.children,
      hreceiver] using hargs
  · rw [h]
    apply yields_count_bind
    apply yields_pure
    simpa [elementAt, Expr.scoped_iff (.binary ..), Expr.hasOwnScope, Expr.children,
      hreceiver] using hargs

theorem yields_bindTemporary_scoped {value : Expr} (hvalue : value.Scoped) :
    Yields (bindTemporary settings cls value) fun pair => pair.1.Scoped ∧ pair.2.Scoped := by
  refine (yields_bindTemporary settings cls value).mono ?_
  rintro ⟨declaration, reference⟩ ⟨name, rfl, rfl⟩
  simp [Expr.scoped_iff (.declaration ..), Expr.scoped_iff (.var ..), Expr.hasOwnScope,
    Expr.children, hvalue]

theorem yields_splitReceiver_scoped {receiver : Expr} (hreceiver : receiver.Scoped) :
    Yields (splitReceiver settings cls receiver) fun pair =>
      pair.1.Scoped ∧ pair.2.Scoped := by
  unfold splitReceiver
  split
  · exact yields_bindTemporary_scoped settings cls hreceiver
  · exact yields_pure ⟨hreceiver, hreceiver⟩

theorem yields_lowerMethodCall_scoped (info : Info) {receiver : Expr} (name : String)
    {args : List Expr} (safe spread : Bool) (hreceiver : receiver.Scoped)
    (hargs : ScopedExprs args) :
    Yields (lowerMethodCall settings cls info receiver name args safe spread) Expr.Scoped := by
  unfold lowerMethodCall
  split
  · split
    · unfold lowerSafeCall
      refine (yields_splitReceiver_scoped settings cls hreceiver).bind ?_
      rintro ⟨checked, called⟩ ⟨hchecked, hcalled⟩
      apply yields_count_bind
      refine (yields_lowerPlainCall_scoped settings cls info name spread hcalled hargs).bind ?_
      intro call hcall
      apply yields_pure
      simp only at hchecked
      simp [notNull, Expr.null, Expr.scoped_iff (.ternary ..), Expr.scoped_iff (.binary ..),
        Expr.scoped_iff (.literal ..), Expr.hasOwnScope, Expr.children, hchecked, hcall]
    · apply yields_pure
      simp [Expr.scoped_iff (.methodCall ..), Expr.hasOwnScope, Expr.children, hreceiver, hargs]
  · exact yields_lowerPlainCall_scoped settings cls info name spread hreceiver hargs

theorem yields_lowerStaticCall_scoped (info : Info) (owner : TypeId) (name : String)
    {args : List Expr} (hargs : ScopedExprs args) :
    Yields (lowerStaticCall settings info owner name args) Expr.Scoped := by
  unfold lowerStaticCall
  split
  · apply yields_count_bind
    apply yields_pure
    simp [Expr.scoped_iff (.methodCall ..), Expr.scoped_iff (.classRef ..), Expr.hasOwnScope,
      Expr.children, hargs]
  · apply yields_pure
    simp [Expr.scoped_iff (.staticCall ..), Expr.hasOwnScope, Expr.children, hargs]

theorem scopedExprs_setProperties (owner : TypeId) (name : String) {entries : List Entry}
    (hentries : ScopedExprs (exprsOfEntries entries)) :
    ScopedExprs (exprsOfStmts (entries.filterMap (setProperty? owner name))) := by
  induction entries with
  | nil => exact scopedExprs_nil
  | cons entry rest ih =>
      obtain ⟨key, value, span⟩ := entry
      simp only [exprsOfEntries, scopedExprs_cons] at hentries
      obtain ⟨-, hvalue, hrest⟩ := hentries
      cases hkey : key.stringLiteral? with
      | none => simpa [setProperty?, hkey] using ih hrest
      | some text =>
          simp [setProperty?, hkey, exprsOfStmts, Stmt.exprs, localReference,
            Expr.scoped_iff (.binary ..), Expr.scoped_iff (.property ..),
            Expr.scoped_iff (.var ..), Expr.hasOwnScope, Expr.children, hvalue, ih hrest]

theorem yields_lowerConstructorCall_scoped (info : Info) (type : TypeId) {args : List Expr}
    (hargs : ScopedExprs args) :
    Yields (lowerConstructorCall settings info type args) Expr.Scoped := by
  obtain h | ⟨owner, mapInfo, entries, rfl, -, h⟩ :=
    lowerConstructorCall_cases settings info type args
  · rw [h]
    apply yields_pure
    simp [Expr.scoped_iff (.constructorCall ..), Expr.hasOwnScope, Expr.children, hargs]
  · rw [h]
    intro session
    -- the closure is given the scope that was worked out for its body
    change (initializerCall info owner (initializerBody info.span owner _ entries)
      (.ofClosure [] (initializerBody info.span owner _ entries))).Scoped
    have hvalues : ScopedExprs (exprsOfEntries entries) := by
      simpa [Expr.scoped_iff (.map ..), Expr.hasOwnScope, Expr.children] using hargs
    have hassignments := scopedExprs_setProperties owner
      (syntheticName settings.config.localStem session.nextName) hvalues
    simp [initializerCall, initializerBody, blankInstance, localReference, exprsOfStmts,
      exprsOfStmts_append, Stmt.exprs, hassignments, Expr.scoped_iff (.methodCall ..),
      Expr.scoped_iff (.closure ..), Expr.scoped_iff (.declaration ..),
      Expr.scoped_iff (.constructorCall ..), Expr.scoped_iff (.var ..), Expr.hasOwnScope,
      Expr.children]

theorem yields_stableOperand_scoped {operand : Expr} (hoperand : operand.Scoped) :
    Yields (stableOperand settings cls operand) fun pair =>
      ScopedExprs (exprsOfStmts pair.1) ∧ pair.2.Scoped := by
  unfold stableOperand
  split
  · exact yields_pure ⟨scopedExprs_nil, hoperand⟩
  · refine (yields_bindTemporary_scoped settings cls hoperand).bind ?_
    rintro ⟨declaration, reference⟩ ⟨hdeclaration, hreference⟩
    apply yields_pure
    simp only at hdeclaration
    simp [exprsOfStmts, Stmt.exprs, hdeclaration, hreference]

theorem yields_stableTarget_scoped {target : Expr} (htarget : target.Scoped) :
    Yields (stableTarget settings cls target) fun pair =>
      ScopedExprs (exprsOfStmts pair.1) ∧ pair.2.Scoped := by
  unfold stableTarget
  split
  · simp only [Expr.scoped_iff (.property ..), Expr.children, scopedExprs_cons] at htarget
    refine (yields_stableOperand_scoped settings cls htarget.2.1).bind ?_
    rintro ⟨before, receiver⟩ ⟨hbefore, hreceiver⟩
    apply yields_pure
    simp only at hbefore hreceiver
    simp [Expr.scoped_iff (.property ..), Expr.hasOwnScope, Expr.children, hbefore, hreceiver]
  · simp only [Expr.scoped_iff (.binary ..), Expr.children, scopedExprs_cons] at htarget
    refine (yields_stableOperand_scoped settings cls htarget.2.1).bind ?_
    rintro ⟨before, left⟩ ⟨hbefore, hleft⟩
    refine (yields_stableOperand_scoped settings cls htarget.2.2.1).bind ?_
    rintro ⟨between, right⟩ ⟨hbetween, hright⟩
    apply yields_pure
    simp only at hbefore hleft hbetween hright
    simp [Expr.scoped_iff (.binary ..), Expr.hasOwnScope, Expr.children, exprsOfStmts_append,
      hbefore, hleft, hbetween, hright]
  · exact yields_pure ⟨scopedExprs_nil, htarget⟩

theorem yields_lowerOperatorAssignment_scoped (span opSpan : Span) (type : Option TypeId)
    (target : OperatorTarget) {left right : Expr} (hleft : left.Scoped) (hright : right.Scoped) :
    Yields (lowerOperatorAssignment settings cls span opSpan type target left right)
      Expr.Scoped := by
  unfold lowerOperatorAssignment
  refine (yields_stableTarget_scoped settings cls hleft).bind ?_
  rintro ⟨before, place⟩ ⟨hbefore, hplace⟩
  apply yields_count_bind
  apply yields_pure
  simp only at hbefore hplace
  have hassignment : (Expr.binary (.typed place.span type) .assign opSpan place
      (operatorCall span type target place right)).Scoped := by
    simp [operatorCall, Expr.scoped_iff (.binary ..), Expr.scoped_iff (.methodCall ..),
      Expr.hasOwnScope, Expr.children, hplace, hright]
  unfold assignmentAfter
  split
  · exact hassignment
  · simp [Expr.scoped_iff (.block ..), Expr.hasOwnScope, Expr.children, exprsOfStmts,
      exprsOfStmts_append, Stmt.exprs, hbefore, hassignment]

theorem yields_lowerBinary_scoped (info : Info) (op : BinaryOp) (opSpan : Span)
    {left right : Expr} (hleft : left.Scoped) (hright : right.Scoped) :
    Yields (lowerBinary settings cls info op opSpan left right) Expr.Scoped := by
  obtain h | ⟨routine, h⟩ | ⟨target, -, -, h⟩ | ⟨target, h⟩ :=
    lowerBinary_cases settings cls info op opSpan left right
  · rw [h]
    apply yields_pure
    simp [Expr.scoped_iff (.binary ..), Expr.hasOwnScope, Expr.children, hleft, hright]
  · rw [h]
    apply yields_count_bind
    apply yields_pure
    simp [adapterCall, Expr.scoped_iff (.methodCall ..), Expr.scoped_iff (.classRef ..),
      Expr.hasOwnScope, Expr.children, hleft, hright]
  · rw [h]
    exact yields_lowerOperatorAssignment_scoped settings cls info.span opSpan
      info.facts.inferredType target hleft hright
  · rw [h]
    apply yields_count_bind
    apply yields_pure
    simp [operatorCall, Expr.scoped_iff (.methodCall ..), Expr.hasOwnScope, Expr.children, hleft,
      hright]

end Rules

/-! ## Runs -/

/-- Where every closure carries its own scope before, every closure does so afterwards. -/
def KeepsScoped (es : List Expr) (_ : Session) (es' : List Expr) (_ : Session) : Prop :=
  ScopedExprs es → ScopedExprs es'

section Runs

variable {settings : Settings}

theorem KeepsScoped.rule {children : List Expr} {s s' s'' : Session} (e : Expr) {out : Expr}
    (h : KeepsScoped e.children s children s')
    (hnode : e.hasOwnScope = true → ScopedExprs children → out.Scoped) :
    KeepsScoped [e] s [out] s'' := by
  intro hscoped
  simp only [scopedExprs_cons, scopedExprs_nil, and_true, e.scoped_iff] at hscoped ⊢
  exact hnode hscoped.1 (h hscoped.2)

theorem Expr.SameFrame.hasOwnScope {e e' : Expr} (h : e.SameFrame e') :
    e'.hasOwnScope = true := by
  cases h <;> rfl

theorem loweringInvariant_scoped : LoweringInvariant settings KeepsScoped where
  nil _ _ := id
  append h h' := by
    intro hscoped
    rw [scopedExprs_append] at hscoped ⊢
    exact ⟨h hscoped.1, h' hscoped.2⟩
  frame {e e' _ _} h hchildren :=
    hchildren.rule e fun _ hscoped => e'.scoped_iff.mpr ⟨h.hasOwnScope, hscoped⟩
  methodCall cls info name safe spread _ _ _ _ _ s' h := by
    refine h.rule (.methodCall info _ name _ safe spread) fun _ hscoped => ?_
    rw [scopedExprs_cons] at hscoped
    exact yields_lowerMethodCall_scoped settings cls info name safe spread hscoped.1 hscoped.2 s'
  staticCall info owner name _ _ _ s' h := by
    refine h.rule (.staticCall info owner name _) fun _ hscoped => ?_
    exact yields_lowerStaticCall_scoped settings info owner name hscoped s'
  constructorCall cls info type args s h := by
    refine h.rule (.constructorCall info type args) fun _ hscoped => ?_
    exact yields_lowerConstructorCall_scoped settings info type hscoped _
  binary cls info op opSpan left right s h := by
    refine h.rule (.binary info op opSpan left right) fun _ hscoped => ?_
    simp only [scopedExprs_cons] at hscoped
    exact yields_lowerBinary_scoped settings cls info op opSpan hscoped.1 hscoped.2.1 _
  closure cls info params body scope s h := by
    refine h.rule (.closure info params body scope) fun hown hscoped => ?_
    refine (Expr.scoped_iff _).mpr ⟨?_, hscoped⟩
    rw [run_renewScope]
    split
    · -- nothing was drawn in the body, so that a walk over it meets the same names
      rename_i hsilent
      have hscan := (ifSilent_lowerStmts_scan settings cls body s).2 hsilent
      simp only [Expr.hasOwnScope, VariableScope.ofClosure, hscan] at hown ⊢
      exact hown
    · simp [Expr.hasOwnScope]

end Runs

/-- Where every closure of an expression or a unit carries its own scope, so does every closure
of what it is lowered to; only a field by itself is turned down. -/
theorem lower_scoped (settings : Settings) (task : Task) (session : Session)
    (hscoped : ScopedExprs task.exprs) :
    match ((task.lower settings).run session).1 with
    | .ok lowered => ScopedExprs lowered.exprs
    | .error _ => ∃ field, task = .whole (.fieldUnit field) := by
  have houtput : ScopedExprs (outputExprs ((task.lower settings).run session).1) :=
    loweringInvariant_scoped.task task session hscoped
  split
  · rename_i lowered hlowered
    rwa [hlowered] at houtput
  · rename_i error herror
    exact (task.lower_eq_error_iff settings session).mp ⟨error, herror⟩

/-- `{ -> repo.find()?.size(); { -> text?.size() } }`, where both closures carry their scopes. -/
def sizesInClosure : Expr :=
  .closure {} []
    [.expr (.methodCall {} (.methodCall {} (.var {} "repo" none) "find" [] false false)
        "size" [] true false),
      .expr (.closure {} [] [.expr (.methodCall {} (.var {} "text" none) "size" [] true false)]
        (some { captured := ["text"] }))]
    (some { captured := ["repo", "text"] })

/-- Only the scope of the outer closure is worked out anew. -/
theorem lower_scoped_sizesInClosure :
    let settings : Settings := ⟨.initial, .ofTypes .initial, {}⟩
    let outcome := ((Task.expr .object sizesInClosure).lower settings).run {}
    ScopedExprs [sizesInClosure] ∧
      outcome.2.scopes = [{ declared := ["tmp$0"], captured := ["repo", "text"] }] ∧
      match outcome.1 with
      | .ok lowered => ScopedExprs lowered.exprs
      | .error _ => ∃ field, Task.expr .object sizesInClosure = .whole (.fieldUnit field) := by
  intro settings outcome
  have hscoped : ScopedExprs [sizesInClosure] := by decide
  have hscopes : outcome.2.scopes = [{ declared := ["tmp$0"], captured := ["repo", "text"] }] := by
    decide +kernel
  exact ⟨hscoped, hscopes, lower_scoped settings (.expr .object sizesInClosure) {} hscoped⟩

end StaticDispatch
