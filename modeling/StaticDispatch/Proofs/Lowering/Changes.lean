import StaticDispatch.Proofs.Lowering.Cases
import StaticDispatch.Proofs.Lowering.Census
import StaticDispatch.Proofs.Lowering.Settled

/-!
# A lowering changes what it counts

A rule that is applied counts itself and answers a node of another kind, or with
other facts, so that nothing further up can bring the old tree back.  Where no
rule is applied every node is put together again as it was, and the session is
not touched.  The counts of a run therefore say whether it changed its tree.
-/

namespace StaticDispatch

/-! ## Totals -/

namespace Stats

theorem total_add (a b : Stats) : (a + b).total = a.total + b.total := by
  change (combine (· + ·) a b).total = _
  simp only [total, combine]
  omega

theorem total_eq_zero_iff (applied : Stats) : applied.total = 0 ↔ applied = {} := by
  constructor
  · intro h
    obtain ⟨a, b, c, d, e, f, g⟩ := applied
    simp only [total] at h
    congr <;> omega
  · rintro rfl
    rfl

end Stats

/-! ## Steps that keep a tree or count a rule -/

namespace LowerM

variable {α β : Type}

/-- In every session the step answers `kept` and leaves the session alone, or it adds to the
counts and its answer is not alike. -/
def KeepsOrCounts (step : LowerM α) (kept : α) (alike : α → Prop) : Prop :=
  ∀ session, step.run session = (kept, session) ∨
    ¬ alike (step.run session).1 ∧ session.stats.total < (step.run session).2.stats.total

/-- The step answers `kept` and leaves the session alone, or it adds to the counts and answers
something else. -/
def Tells (step : LowerM α) (kept : α) : Prop :=
  step.KeepsOrCounts kept (· = kept)

variable {step : LowerM α} {kept : α} {alike : α → Prop}

theorem keepsOrCounts_pure : KeepsOrCounts (pure kept) kept alike :=
  fun _ => .inl rfl

theorem tells_pure (a : α) : Tells (pure a) a :=
  keepsOrCounts_pure

theorem KeepsOrCounts.of_counts
    (h : Counts step fun applied out => 0 < applied.total ∧ ¬ alike out) :
    KeepsOrCounts step kept alike := by
  intro session
  obtain ⟨applied, hstats, hpos, hout⟩ := h session
  right
  refine ⟨hout, ?_⟩
  rw [hstats, Stats.total_add]
  omega

/-- The total never falls. -/
theorem KeepsOrCounts.total_le (h : KeepsOrCounts step kept alike) (session : Session) :
    session.stats.total ≤ (step.run session).2.stats.total := by
  rcases h session with hkept | ⟨-, hcounted⟩
  · rw [hkept]
  · exact Nat.le_of_lt hcounted

/-- A rule runs on what became of the parts: if one of them changed, so did the node, whatever
the rule makes of it. -/
theorem Tells.rule (node : α → β) {rule : α → LowerM β} (hparts : Tells step kept)
    (hnode : node.Injective)
    (hrule : ∀ parts,
      KeepsOrCounts (rule parts) (node parts) fun out => ∃ parts, out = node parts) :
    Tells (step >>= rule) (node kept) := by
  intro session
  have hrun : (step >>= rule).run session =
    (rule (step.run session).1).run (step.run session).2 := rfl
  rw [hrun]
  rcases hparts session with hkept | ⟨hchanged, hcounted⟩
  · rw [hkept]
    rcases hrule kept session with hnone | ⟨hout, htotal⟩
    · exact .inl hnone
    · exact .inr ⟨fun heq => hout ⟨kept, heq⟩, htotal⟩
  · right
    have hle := (hrule (step.run session).1).total_le (step.run session).2
    refine ⟨?_, by omega⟩
    rcases hrule (step.run session).1 (step.run session).2 with hnone | ⟨hout, -⟩
    · rw [hnone]
      exact fun heq => hchanged (hnode heq)
    · exact fun heq => hout ⟨kept, heq⟩

theorem Tells.map (node : α → β) (hparts : Tells step kept) (hnode : node.Injective) :
    Tells (step >>= fun parts => pure (node parts)) (node kept) :=
  hparts.rule node hnode fun _ => keepsOrCounts_pure

theorem Tells.pair {other : LowerM β} {kept' : β} (h : Tells step kept) (h' : Tells other kept') :
    Tells (step >>= fun a => other >>= fun b => pure (a, b)) (kept, kept') := by
  intro session
  have hrun : (step >>= fun a => other >>= fun b => pure (a, b)).run session =
    (((step.run session).1, (other.run (step.run session).2).1),
      (other.run (step.run session).2).2) := rfl
  rw [hrun]
  rcases h session with hkept | ⟨hchanged, hcounted⟩
  · rw [hkept]
    rcases h' session with hkept' | ⟨hchanged, hcounted⟩
    · rw [hkept']
      exact .inl rfl
    · exact .inr ⟨fun heq => hchanged (congrArg Prod.snd heq), hcounted⟩
  · have hle := h'.total_le (step.run session).2
    exact .inr ⟨fun heq => hchanged (congrArg Prod.fst heq), Nat.lt_of_lt_of_le hcounted hle⟩

end LowerM

open LowerM

/-! ## The rules -/

section Rules

variable (settings : Settings) (cls : TypeId)

theorem lowerPlainCall_keepsOrCounts (info : Info) (receiver : Expr) (name : String)
    (args : List Expr) (spread : Bool) :
    KeepsOrCounts (lowerPlainCall settings cls info receiver name args spread)
      (.methodCall info receiver name args false spread)
      fun out => ∃ parts : Expr × List Expr,
        out = .methodCall info parts.1 name parts.2 false spread := by
  obtain h | ⟨component, index, -, h⟩ | ⟨component, index, value, -, h⟩ :=
    lowerPlainCall_cases settings cls info receiver name args spread
  · rw [h]
    exact keepsOrCounts_pure
  · rw [h]
    apply KeepsOrCounts.of_counts
    exact counts_count_bind (counts_pure ⟨Nat.one_pos, nofun⟩)
  · rw [h]
    apply KeepsOrCounts.of_counts
    exact counts_count_bind (counts_pure ⟨Nat.one_pos, nofun⟩)

theorem lowerMethodCall_keepsOrCounts (info : Info) (receiver : Expr) (name : String)
    (args : List Expr) (safe spread : Bool) :
    KeepsOrCounts (lowerMethodCall settings cls info receiver name args safe spread)
      (.methodCall info receiver name args safe spread)
      fun out => ∃ parts : Expr × List Expr,
        out = .methodCall info parts.1 name parts.2 safe spread := by
  unfold lowerMethodCall
  cases safe with
  | false => exact lowerPlainCall_keepsOrCounts settings cls info receiver name args spread
  | true =>
      simp only [if_true]
      split
      · apply KeepsOrCounts.of_counts
        unfold lowerSafeCall
        refine (countsNothing_splitReceiver settings cls receiver).bind_counts
          (yields_splitReceiver_staticType? settings cls receiver) fun pair _ => ?_
        apply counts_count_bind
        refine (counts_lowerPlainCall settings cls info pair.2 name args spread).bind ?_
        rintro applied call ⟨-, -⟩
        apply counts_pure
        refine ⟨?_, nofun⟩
        rw [Stats.total_add]
        exact Nat.lt_add_right _ Nat.one_pos
      · exact keepsOrCounts_pure

theorem lowerStaticCall_keepsOrCounts (info : Info) (owner : TypeId) (name : String)
    (args : List Expr) :
    KeepsOrCounts (lowerStaticCall settings info owner name args)
      (.staticCall info owner name args)
      fun out => ∃ args, out = .staticCall info owner name args := by
  unfold lowerStaticCall
  split
  · apply KeepsOrCounts.of_counts
    exact counts_count_bind (counts_pure ⟨Nat.one_pos, nofun⟩)
  · exact keepsOrCounts_pure

theorem lowerConstructorCall_keepsOrCounts (info : Info) (type : TypeId) (args : List Expr) :
    KeepsOrCounts (lowerConstructorCall settings info type args)
      (.constructorCall info type args)
      fun out => ∃ args, out = .constructorCall info type args := by
  obtain h | ⟨owner, mapInfo, entries, -, -, h⟩ :=
    lowerConstructorCall_cases settings info type args
  · rw [h]
    exact keepsOrCounts_pure
  · rw [h]
    apply KeepsOrCounts.of_counts
    exact fun session => ⟨{ namedConstructors := 1 }, rfl, Nat.one_pos, nofun⟩

/-- What stands for a resolved assignment is a block, or an assignment without a method. -/
theorem assignmentAfter_ne_resolved (span span' : Span) (type type' : Option TypeId)
    (before : List Stmt) (opSpan opSpan' : Span) (op : BinaryOp) (place value left right : Expr)
    {info : Info} (hinfo : info.facts.operatorTarget.isSome = true) :
    assignmentAfter span type before (.binary (.typed span' type') .assign opSpan place value) ≠
      .binary info op opSpan' left right := by
  unfold assignmentAfter
  split
  · intro heq
    obtain rfl : Info.typed span' type' = info := congrArg Expr.info heq
    exact nomatch hinfo
  · exact nofun

theorem lowerBinary_keepsOrCounts (info : Info) (op : BinaryOp) (opSpan : Span)
    (left right : Expr) :
    KeepsOrCounts (lowerBinary settings cls info op opSpan left right)
      (.binary info op opSpan left right)
      fun out => ∃ parts : Expr × Expr, out = .binary info op opSpan parts.1 parts.2 := by
  obtain h | ⟨routine, h⟩ | ⟨target, htarget, -, h⟩ | ⟨target, h⟩ :=
    lowerBinary_cases settings cls info op opSpan left right
  · rw [h]
    exact keepsOrCounts_pure
  · rw [h]
    apply KeepsOrCounts.of_counts
    exact counts_count_bind (counts_pure ⟨Nat.one_pos, nofun⟩)
  · rw [h]
    apply KeepsOrCounts.of_counts
    unfold lowerOperatorAssignment
    refine (countsNothing_stableTarget settings cls left).bind_counts
      (yields_stableTarget settings cls left) fun pair _ => ?_
    apply counts_count_bind
    apply counts_pure
    refine ⟨Nat.one_pos, ?_⟩
    rintro ⟨parts, heq⟩
    exact assignmentAfter_ne_resolved _ _ _ _ _ _ _ _ _ _ _ _ (by rw [htarget]; rfl) heq
  · rw [h]
    apply KeepsOrCounts.of_counts
    exact counts_count_bind (counts_pure ⟨Nat.one_pos, nofun⟩)

/-- A closure with the body that it had keeps its scope. -/
theorem tells_closure {body : List Stmt} {step : LowerM (List Stmt)} (h : Tells step body)
    (info : Info) (params : List Param) (scope : Option VariableScope) :
    Tells (do
      let session ← get
      let body ← step
      let scope ← renewScope session.nextName params body scope
      return .closure info params body scope) (Expr.closure info params body scope) := by
  intro session
  let body' := step.run session
  let scope' := (renewScope session.nextName params body'.1 scope).run body'.2
  change (Expr.closure info params body'.1 scope'.1, scope'.2) = _ ∨
    ¬ Expr.closure info params body'.1 scope'.1 = _ ∧ _ < scope'.2.stats.total
  rcases h session with hkept | ⟨hchanged, hcounted⟩
  · left
    simp only [scope', body', hkept, renewScope_unchanged]
  · right
    constructor
    · intro heq
      exact hchanged (Expr.closure.inj heq).2.2.1
    · have hstats := countsNothing_renewScope session.nextName params body'.1 scope body'.2
      simp only [scope']
      rwa [hstats]

end Rules

/-! ## Trees -/

section Trees

variable (settings : Settings) (cls : TypeId)

mutual

/-- A lowered expression is the expression itself in the same session, or another one with
something counted. -/
theorem lower_tells : (e : Expr) → Tells (e.lower settings cls) e
  | .literal .. => tells_pure _
  | .var .. => tells_pure _
  | .this _ => tells_pure _
  | .classRef .. => tells_pure _
  | .property info receiver name =>
      (lower_tells receiver).map (fun receiver => Expr.property info receiver name)
        fun _ _ h => (Expr.property.inj h).2.1
  | .methodCall info receiver name args safe spread =>
      ((lower_tells receiver).pair (lowerExprs_tells args)).rule
        (fun parts : Expr × List Expr => Expr.methodCall info parts.1 name parts.2 safe spread)
        (fun _ _ h => Prod.ext (Expr.methodCall.inj h).2.1 (Expr.methodCall.inj h).2.2.2.1)
        fun parts =>
          lowerMethodCall_keepsOrCounts settings cls info parts.1 name parts.2 safe spread
  | .staticCall info owner name args =>
      (lowerExprs_tells args).rule (fun args => Expr.staticCall info owner name args)
        (fun _ _ h => (Expr.staticCall.inj h).2.2.2)
        fun args => lowerStaticCall_keepsOrCounts settings info owner name args
  | .constructorCall info type args =>
      (lowerExprs_tells args).rule (fun args => Expr.constructorCall info type args)
        (fun _ _ h => (Expr.constructorCall.inj h).2.2)
        fun args => lowerConstructorCall_keepsOrCounts settings info type args
  | .binary info op opSpan left right =>
      ((lower_tells left).pair (lower_tells right)).rule
        (fun parts : Expr × Expr => Expr.binary info op opSpan parts.1 parts.2)
        (fun _ _ h => Prod.ext (Expr.binary.inj h).2.2.2.1 (Expr.binary.inj h).2.2.2.2)
        fun parts => lowerBinary_keepsOrCounts settings cls info op opSpan parts.1 parts.2
  | .ternary info condition yes no =>
      ((lower_tells condition).pair ((lower_tells yes).pair (lower_tells no))).map
        (fun parts : Expr × Expr × Expr => Expr.ternary info parts.1 parts.2.1 parts.2.2)
        fun _ _ h => Prod.ext (Expr.ternary.inj h).2.1
          (Prod.ext (Expr.ternary.inj h).2.2.1 (Expr.ternary.inj h).2.2.2)
  | .closure info params body scope => tells_closure (lowerStmts_tells body) info params scope
  | .block info body =>
      (lowerStmts_tells body).map (fun body => Expr.block info body)
        fun _ _ h => (Expr.block.inj h).2
  | .map info entries =>
      (lowerEntries_tells entries).map (fun entries => Expr.map info entries)
        fun _ _ h => (Expr.map.inj h).2
  | .list info items =>
      (lowerExprs_tells items).map (fun items => Expr.list info items)
        fun _ _ h => (Expr.list.inj h).2
  | .declaration info name type initializer =>
      (lower_tells initializer).map (fun value => Expr.declaration info name type value)
        fun _ _ h => (Expr.declaration.inj h).2.2.2
  | .cast info type operand =>
      (lower_tells operand).map (fun operand => Expr.cast info type operand)
        fun _ _ h => (Expr.cast.inj h).2.2
  | .unary info op operand =>
      (lower_tells operand).map (fun operand => Expr.unary info op operand)
        fun _ _ h => (Expr.unary.inj h).2.2

theorem lowerExprs_tells : (es : List Expr) → Tells (lowerExprs settings cls es) es
  | [] => tells_pure _
  | e :: rest =>
      ((lower_tells e).pair (lowerExprs_tells rest)).map
        (fun parts : Expr × List Expr => parts.1 :: parts.2)
        fun _ _ h => Prod.ext (List.cons.inj h).1 (List.cons.inj h).2

theorem lowerEntries_tells :
    (entries : List Entry) → Tells (lowerEntries settings cls entries) entries
  | [] => tells_pure _
  | .mk key value span :: rest =>
      ((lower_tells key).pair ((lower_tells value).pair (lowerEntries_tells rest))).map
        (fun parts : Expr × Expr × List Entry => Entry.mk parts.1 parts.2.1 span :: parts.2.2)
        fun _ _ h => Prod.ext (Entry.mk.inj (List.cons.inj h).1).1
          (Prod.ext (Entry.mk.inj (List.cons.inj h).1).2.1 (List.cons.inj h).2)

theorem lowerStmt_tells : (s : Stmt) → Tells (s.lower settings cls) s
  | .expr value => (lower_tells value).map Stmt.expr fun _ _ h => Stmt.expr.inj h
  | .block body => (lowerStmts_tells body).map Stmt.block fun _ _ h => Stmt.block.inj h
  | .ret none _ => tells_pure _
  | .ret (some value) span =>
      (lower_tells value).map (fun value => Stmt.ret (some value) span)
        fun _ _ h => Option.some.inj (Stmt.ret.inj h).1
  | .ifElse condition yes none =>
      ((lower_tells condition).pair (lowerStmts_tells yes)).map
        (fun parts : Expr × Block => Stmt.ifElse parts.1 parts.2 none)
        fun _ _ h => Prod.ext (Stmt.ifElse.inj h).1 (Stmt.ifElse.inj h).2.1
  | .ifElse condition yes (some no) =>
      ((lower_tells condition).pair ((lowerStmts_tells yes).pair (lowerStmts_tells no))).map
        (fun parts : Expr × Block × Block => Stmt.ifElse parts.1 parts.2.1 (some parts.2.2))
        fun _ _ h => Prod.ext (Stmt.ifElse.inj h).1
          (Prod.ext (Stmt.ifElse.inj h).2.1 (Option.some.inj (Stmt.ifElse.inj h).2.2))
  | .whileLoop condition body =>
      ((lower_tells condition).pair (lowerStmts_tells body)).map
        (fun parts : Expr × Block => Stmt.whileLoop parts.1 parts.2)
        fun _ _ h => Prod.ext (Stmt.whileLoop.inj h).1 (Stmt.whileLoop.inj h).2
  | .forIn loopVar iterable body =>
      ((lower_tells iterable).pair (lowerStmts_tells body)).map
        (fun parts : Expr × Block => Stmt.forIn loopVar parts.1 parts.2)
        fun _ _ h => Prod.ext (Stmt.forIn.inj h).2.1 (Stmt.forIn.inj h).2.2
  | .throw value => (lower_tells value).map Stmt.throw fun _ _ h => Stmt.throw.inj h

theorem lowerStmts_tells : (body : List Stmt) → Tells (lowerStmts settings cls body) body
  | [] => tells_pure _
  | s :: rest =>
      ((lowerStmt_tells s).pair (lowerStmts_tells rest)).map
        (fun parts : Stmt × List Stmt => parts.1 :: parts.2)
        fun _ _ h => Prod.ext (List.cons.inj h).1 (List.cons.inj h).2

end

end Trees

/-! ## Units -/

section Units

variable (settings : Settings)

theorem fieldUnit_tells (cls : TypeId) (field : FieldUnit) :
    Tells (field.lower settings cls) field := by
  obtain ⟨name, type, initializer, span⟩ := field
  cases initializer with
  | none => exact tells_pure _
  | some initializer =>
      exact (lower_tells settings cls initializer).map
        (fun value => FieldUnit.mk name type (some value) span)
        fun _ _ h => Option.some.inj (FieldUnit.mk.inj h).2.2.1

theorem methodUnit_tells (cls : TypeId) (method : MethodUnit) :
    Tells (method.lower settings cls) method := by
  unfold MethodUnit.lower
  exact (lowerStmts_tells settings cls method.body).map (fun body => { method with body })
    fun _ _ h => congrArg MethodUnit.body h

theorem lowerFields_tells (cls : TypeId) :
    (fields : List FieldUnit) → Tells (lowerFields settings cls fields) fields
  | [] => tells_pure _
  | field :: rest =>
      ((fieldUnit_tells settings cls field).pair (lowerFields_tells cls rest)).map
        (fun parts : FieldUnit × List FieldUnit => parts.1 :: parts.2)
        fun _ _ h => Prod.ext (List.cons.inj h).1 (List.cons.inj h).2

theorem lowerMethods_tells (cls : TypeId) :
    (methods : List MethodUnit) → Tells (lowerMethods settings cls methods) methods
  | [] => tells_pure _
  | method :: rest =>
      ((methodUnit_tells settings cls method).pair (lowerMethods_tells cls rest)).map
        (fun parts : MethodUnit × List MethodUnit => parts.1 :: parts.2)
        fun _ _ h => Prod.ext (List.cons.inj h).1 (List.cons.inj h).2

mutual

theorem classUnit_tells : (unit : ClassUnit) → Tells (unit.lower settings) unit
  | .mk type fields constructors methods inner span =>
      ((lowerFields_tells settings type fields).pair
        ((lowerMethods_tells settings type constructors).pair
          ((lowerMethods_tells settings type methods).pair (lowerClasses_tells inner)))).map
        (fun parts : List FieldUnit × List MethodUnit × List MethodUnit × List ClassUnit =>
          ClassUnit.mk type parts.1 parts.2.1 parts.2.2.1 parts.2.2.2 span)
        fun _ _ h => Prod.ext (ClassUnit.mk.inj h).2.1 (Prod.ext (ClassUnit.mk.inj h).2.2.1
          (Prod.ext (ClassUnit.mk.inj h).2.2.2.1 (ClassUnit.mk.inj h).2.2.2.2.1))

theorem lowerClasses_tells :
    (units : List ClassUnit) → Tells (lowerClasses settings units) units
  | [] => tells_pure _
  | unit :: rest =>
      ((classUnit_tells unit).pair (lowerClasses_tells rest)).map
        (fun parts : ClassUnit × List ClassUnit => parts.1 :: parts.2)
        fun _ _ h => Prod.ext (List.cons.inj h).1 (List.cons.inj h).2

end

theorem task_tells {task : Task} (htask : ∀ field, task ≠ .whole (.fieldUnit field)) :
    Tells (task.lower settings) (.ok task) :=
  match task with
  | .expr cls e =>
      (lower_tells settings cls e).map (fun e => (.ok (.expr cls e) : Except LoweringError Task))
        fun _ _ h => (Task.expr.inj (Except.ok.inj h)).2
  | .whole (.classUnit unit) =>
      (classUnit_tells settings unit).map
        (fun unit => (.ok (.whole (.classUnit unit)) : Except LoweringError Task))
        fun _ _ h => CompilationUnit.classUnit.inj (Task.whole.inj (Except.ok.inj h))
  | .whole (.methodUnit unit) =>
      (methodUnit_tells settings unit.declaringType unit).map
        (fun unit => (.ok (.whole (.methodUnit unit)) : Except LoweringError Task))
        fun _ _ h => CompilationUnit.methodUnit.inj (Task.whole.inj (Except.ok.inj h))
  | .whole (.fieldUnit field) => absurd rfl (htask field)

end Units

/-- Rules that may not run count nothing. -/
theorem Settings.Census.eq_zero_of_disabled {settings : Settings} {nodes : List Expr}
    {applied : Stats} (h : settings.Census nodes applied)
    (hdisabled : ∀ rule, settings.config.isEnabled rule = false) : applied = {} := by
  have hnone (rule : Rule) (accepts : Expr → Bool) :
      settings.countFor rule accepts nodes = 0 := by
    simp [countFor, hdisabled rule]
  rw [← Stats.total_eq_zero_iff, Stats.total]
  have harrays := h.arrayAccesses
  rw [hnone] at harrays
  rw [h.safeNavigation, h.comparisons, h.compoundAssignments, h.operatorCalls, h.staticCalls,
    h.namedConstructors]
  simp only [hnone]
  omega

/-- A run adds nothing to the counts exactly when its output is its input: the nodes, their
positions and facts and the scopes of closures are all the same.  Such a run leaves the session as
it was, so that no name was drawn, no scope registered and nothing reported, and a run in which
no rule may be applied is one. -/
theorem lower_counts_nothing_iff (settings : Settings) (task : Task) (session : Session)
    (htask : ∀ field, task ≠ .whole (.fieldUnit field)) :
    let run := (task.lower settings).run session
    ∃ applied, run.2.stats = session.stats + applied ∧
      (applied = {} ↔ run.1 = .ok task) ∧
      (applied = {} → run.2 = session) ∧
      ((∀ rule, settings.config.isEnabled rule = false) → run = (.ok task, session)) := by
  intro run
  have hcounts : CountsCensus settings task.exprs session run.2 :=
    loweringInvariant_census.task task session
  obtain ⟨applied, hstats, hcensus⟩ := hcounts
  have htotal : run.2.stats.total = session.stats.total + applied.total := by
    rw [hstats, Stats.total_add]
  have hrun := task_tells settings htask session
  have hkept : applied = {} → run = (.ok task, session) := by
    intro hnothing
    rcases hrun with hkept | ⟨-, hcounted⟩
    · exact hkept
    · have hzero := Stats.total_eq_zero_iff applied |>.mpr hnothing
      have hlt : session.stats.total < run.2.stats.total := hcounted
      omega
  refine ⟨applied, hstats, ⟨fun h => congrArg Prod.fst (hkept h), fun hsame => ?_⟩,
    fun h => congrArg Prod.snd (hkept h), fun h => hkept (hcensus.eq_zero_of_disabled h)⟩
  rcases hrun with hkept | ⟨hchanged, -⟩
  · rw [← Stats.total_eq_zero_iff]
    have hsession : run.2 = session := congrArg Prod.snd hkept
    rw [hsession] at htotal
    omega
  · exact absurd hsame hchanged

/-- `text?.size()` is counted and changes; it stays as it is where no rule may be applied. -/
theorem lower_counts_nothing_iff_safeSize :
    let settings (rules : Rules) : Settings := ⟨.initial, .ofTypes .initial, { rules }⟩
    let task := Task.expr .object safeSize
    let run := (task.lower (settings .all)).run {}
    (∀ field, task ≠ .whole (.fieldUnit field)) ∧
      run.2.stats = { safeNavigation := 1 } ∧ run.1 ≠ .ok task ∧
      (task.lower (settings .none)).run {} = (.ok task, {}) := by
  intro settings task run
  have htask : ∀ field, task ≠ .whole (.fieldUnit field) := nofun
  have hstats : run.2.stats = { safeNavigation := 1 } := by decide +kernel
  have hdisabled : ∀ rule, (settings .none).config.isEnabled rule = false := by
    intro rule
    cases rule <;> decide
  obtain ⟨applied, hadded, hiff, -⟩ := lower_counts_nothing_iff (settings .all) task {} htask
  obtain ⟨-, -, -, -, hnone⟩ := lower_counts_nothing_iff (settings .none) task {} htask
  refine ⟨htask, hstats, fun hsame => ?_, hnone hdisabled⟩
  rw [hiff.mpr hsame] at hadded
  exact nomatch hstats.symm.trans hadded

end StaticDispatch
