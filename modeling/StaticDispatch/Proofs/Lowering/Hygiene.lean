import Mathlib.Data.List.Nodup
import StaticDispatch.Proofs.Lowering.Introductions

/-!
# Hygiene

A run declares every introduced name once, and the numbers of what it declares
are the numbers that it drew.  A declaration has the static type of its
initializer, every reference to it has that type too, and a walk over an output
never captures an introduced name.
-/

namespace StaticDispatch

open LowerM

/-! ## Numbers and references -/

/-- The introduced declarations of the trees have the numbers from `start` up to `next`, each
once, and every mention of an introduced name refers to one of them. -/
structure Config.Numbered (config : Config) (start next : Nat) (es : List Expr) : Prop where
  drawn : next = start + (nodesOfKind config.isIntroduction es).length
  numbers : (((nodesOfKind config.isIntroduction es).filterMap Expr.declaredName?).map
    trailingNumber).Perm (List.range' start (nodesOfKind config.isIntroduction es).length)
  mentioned : ∀ reference ∈ nodesOfKind config.isMention es,
    ∃ declaration ∈ nodesOfKind config.isIntroduction es, reference.RefersTo declaration

namespace Config.Numbered

variable {config : Config} {start middle next : Nat} {es fs : List Expr}

theorem append (h : config.Numbered start middle es) (h' : config.Numbered middle next fs) :
    config.Numbered start next (es ++ fs) where
  drawn := by
    rw [h'.drawn, h.drawn, nodesOfKind_append, List.length_append, Nat.add_assoc]
  numbers := by
    rw [nodesOfKind_append, List.filterMap_append, List.map_append, List.length_append,
      ← List.range'_append_1, ← h.drawn]
    exact h.numbers.append h'.numbers
  mentioned reference hreference := by
    rw [nodesOfKind_append, List.mem_append] at hreference
    rw [nodesOfKind_append]
    rcases hreference with hreference | hreference
    · obtain ⟨declaration, hmem, hrefers⟩ := h.mentioned reference hreference
      exact ⟨declaration, List.mem_append_left _ hmem, hrefers⟩
    · obtain ⟨declaration, hmem, hrefers⟩ := h'.mentioned reference hreference
      exact ⟨declaration, List.mem_append_right _ hmem, hrefers⟩

theorem adds {settings : Settings} {cls : TypeId} {fresh : List Expr}
    (h : settings.config.Numbered start middle es)
    (hfresh : settings.DeclaresFrom cls middle fresh) (hadds : settings.config.Adds fresh es fs) :
    settings.config.Numbered start (middle + fresh.length) fs where
  drawn := by
    rw [hadds.declared.length_eq, List.length_append, h.drawn]
    omega
  numbers := by
    have hnumbers := hfresh.numbers
    have hdeclared := (hadds.declared.filterMap Expr.declaredName?).map trailingNumber
    rw [hadds.declared.length_eq, List.length_append, Nat.add_comm fresh.length,
      ← List.range'_append_1, ← h.drawn]
    rw [List.filterMap_append, List.map_append, hnumbers] at hdeclared
    exact hdeclared.trans (List.perm_append_comm.trans (h.numbers.append_right _))
  mentioned reference hreference := by
    have hmem : ∀ declaration, declaration ∈ nodesOfKind settings.config.isIntroduction fs ↔
        declaration ∈ fresh ∨ declaration ∈ nodesOfKind settings.config.isIntroduction es := by
      intro declaration
      rw [hadds.declared.mem_iff, List.mem_append]
    rcases hadds.mentioned reference hreference with hold | ⟨declaration, hfresh, hrefers⟩
    · obtain ⟨declaration, hold, hrefers⟩ := h.mentioned reference hold
      exact ⟨declaration, (hmem declaration).mpr (.inr hold), hrefers⟩
    · exact ⟨declaration, (hmem declaration).mpr (.inl hfresh), hrefers⟩

end Config.Numbered

/-- The source mentions no introduced name, declares none, and has plain targets. -/
def Config.Avoids (config : Config) (es : List Expr) : Prop :=
  ∀ node ∈ nodesOfExprs es, node.hasPlainTarget = true ∧
    config.isIntroduction node = false ∧ config.isMention node = false

def Settings.KeepsNumbered (settings : Settings) (es : List Expr) (s : Session)
    (es' : List Expr) (s' : Session) : Prop :=
  settings.config.Avoids es → settings.config.Numbered s.nextName s'.nextName es'

/-- In the body of the class every introduced declaration has the type of its initializer. -/
def Settings.KeepsTyped (settings : Settings) (cls : TypeId) (es : List Expr) (_ : Session)
    (es' : List Expr) (_ : Session) : Prop :=
  settings.config.Avoids es →
    ∀ declaration ∈ nodesOfKind settings.config.isIntroduction es',
      ∃ number, settings.Declares cls number declaration

section Runs

variable {settings : Settings} {cls : TypeId}

theorem Config.avoids_append {config : Config} {es fs : List Expr} :
    config.Avoids (es ++ fs) ↔ config.Avoids es ∧ config.Avoids fs := by
  unfold Config.Avoids
  rw [nodesOfExprs_append, List.forall_mem_append]

theorem Config.avoids_singleton {config : Config} {e : Expr} :
    config.Avoids [e] ↔ (e.hasPlainTarget = true ∧ config.isIntroduction e = false ∧
      config.isMention e = false) ∧ config.Avoids e.children := by
  unfold Config.Avoids
  rw [nodesOfExprs_cons, e.nodes_eq]
  simp [nodesOfExprs]

/-- What a rule does to a node whose children became `es'`. -/
def Settings.Rewrites (settings : Settings) (cls : TypeId) (es' : List Expr) (s' : Session)
    (out : Expr) (s'' : Session) : Prop :=
  ∃ fresh, s''.nextName = s'.nextName + fresh.length ∧
    settings.DeclaresFrom cls s'.nextName fresh ∧ settings.config.Adds fresh es' [out]

theorem Settings.KeepsNumbered.rule {e out : Expr} {es' : List Expr} {s s' s'' : Session}
    (h : settings.KeepsNumbered e.children s es' s')
    (hrule : e.hasPlainTarget = true → settings.config.isIntroduction e = false →
      settings.config.isMention e = false → settings.Rewrites cls es' s' out s'') :
    settings.KeepsNumbered [e] s [out] s'' := by
  intro havoids
  obtain ⟨⟨hplain, hintroduction, hmention⟩, hchildren⟩ := Config.avoids_singleton.mp havoids
  obtain ⟨fresh, hname, hfresh, hadds⟩ := hrule hplain hintroduction hmention
  rw [hname]
  exact (h hchildren).adds hfresh hadds

theorem Settings.KeepsTyped.rule {e out : Expr} {es' : List Expr} {s s' s'' : Session}
    (h : settings.KeepsTyped cls e.children s es' s')
    (hrule : e.hasPlainTarget = true → settings.config.isIntroduction e = false →
      settings.config.isMention e = false → settings.Rewrites cls es' s' out s'') :
    settings.KeepsTyped cls [e] s [out] s'' := by
  intro havoids declaration hdeclaration
  obtain ⟨⟨hplain, hintroduction, hmention⟩, hchildren⟩ := Config.avoids_singleton.mp havoids
  obtain ⟨fresh, hname, hfresh, hadds⟩ := hrule hplain hintroduction hmention
  rcases List.mem_append.mp (hadds.declared.mem_iff.mp hdeclaration) with hnew | hold
  · exact hfresh.exists_of_mem settings cls hnew
  · exact h hchildren declaration hold

/-! ### Rules -/

section Rules

variable (settings : Settings) (cls : TypeId)

theorem rewrites_of_sameFrame {e e' : Expr} (h : e.SameFrame e')
    (hintroduction : settings.config.isIntroduction e = false)
    (hmention : settings.config.isMention e = false) (s : Session) :
    settings.Rewrites cls e'.children s e' s :=
  ⟨[], rfl, trivial, Config.adds_children ((h.isIntroduction settings.config).trans hintroduction)
    ((h.isMention settings.config).trans hmention)⟩

theorem rewrites_closure (info : Info) (params : List Param) (body : Block)
    (scope : Option VariableScope) (before : Nat) (s : Session) :
    let scope' := (renewScope before params body scope).run s
    settings.Rewrites cls (exprsOfStmts body) s (.closure info params body scope'.1) scope'.2 := by
  intro scope'
  have hname : scope'.2.nextName = s.nextName := by
    simp only [scope', run_renewScope]
    split <;> rfl
  exact ⟨[], hname, trivial,
    Config.adds_children (e := .closure info params body scope'.1) rfl rfl⟩

end Rules

theorem loweringInvariant_numbered : LoweringInvariant settings settings.KeepsNumbered where
  nil _ _ := fun _ => ⟨rfl, .refl _, fun _ h => nomatch h⟩
  append h h' := by
    intro havoids
    rw [Config.avoids_append] at havoids
    exact (h havoids.1).append (h' havoids.2)
  frame hframe h :=
    h.rule fun _ hintroduction hmention =>
      rewrites_of_sameFrame settings .object hframe hintroduction hmention _
  methodCall cls info name safe spread receiver receiver' args args' _ s' h :=
    Settings.KeepsNumbered.rule (e := .methodCall info receiver name args safe spread) h
      fun _ _ _ => introduces_lowerMethodCall settings cls info receiver' name args' safe spread s'
  staticCall info owner name args args' _ s' h :=
    Settings.KeepsNumbered.rule (e := .staticCall info owner name args) h
      fun _ _ _ => introduces_lowerStaticCall settings .object info owner name args' s'
  constructorCall cls info type args s h :=
    Settings.KeepsNumbered.rule (e := .constructorCall info type args) h
      fun _ _ _ => introduces_lowerConstructorCall settings cls info type _ _
  binary cls info op opSpan left right s h :=
    Settings.KeepsNumbered.rule (e := .binary info op opSpan left right) h
      fun hplain _ _ => introduces_lowerBinary settings cls info op opSpan _ _
        (isPlainTarget_lower settings cls hplain s) _
  closure cls info params body scope s h :=
    Settings.KeepsNumbered.rule (e := .closure info params body scope) h
      fun _ _ _ => rewrites_closure settings cls info params _ scope s.nextName _

theorem treeInvariant_typed (cls : TypeId) :
    TreeInvariant settings cls (settings.KeepsTyped cls) where
  unchanged _ := fun _ _ h => nomatch h
  append h h' := by
    intro havoids declaration hdeclaration
    rw [Config.avoids_append] at havoids
    rw [nodesOfKind_append, List.mem_append] at hdeclaration
    exact hdeclaration.elim (h havoids.1 declaration) (h' havoids.2 declaration)
  frame hframe h :=
    h.rule fun _ hintroduction hmention =>
      rewrites_of_sameFrame settings cls hframe hintroduction hmention _
  methodCall info name safe spread receiver receiver' args args' _ s' h :=
    Settings.KeepsTyped.rule (e := .methodCall info receiver name args safe spread) h
      fun _ _ _ => introduces_lowerMethodCall settings cls info receiver' name args' safe spread s'
  staticCall info owner name args args' _ s' h :=
    Settings.KeepsTyped.rule (e := .staticCall info owner name args) h
      fun _ _ _ => introduces_lowerStaticCall settings cls info owner name args' s'
  constructorCall info type args s h :=
    Settings.KeepsTyped.rule (e := .constructorCall info type args) h
      fun _ _ _ => introduces_lowerConstructorCall settings cls info type _ _
  binary info op opSpan left right s h :=
    Settings.KeepsTyped.rule (e := .binary info op opSpan left right) h
      fun hplain _ _ => introduces_lowerBinary settings cls info op opSpan _ _
        (isPlainTarget_lower settings cls hplain s) _
  closure info params body scope s h :=
    Settings.KeepsTyped.rule (e := .closure info params body scope) h
      fun _ _ _ => rewrites_closure settings cls info params _ scope s.nextName _

end Runs

/-! ## Bodies of outputs -/

/-- Statements that are walked over as one, with the class in whose body they stand. -/
structure Body where
  cls : TypeId
  params : List Param
  statements : Block

def Body.exprs (body : Body) : List Expr :=
  exprsOfStmts body.statements

/-- An expression by itself is a body of one statement. -/
def Body.ofExpr (cls : TypeId) (e : Expr) : Body :=
  ⟨cls, [], [.expr e]⟩

def FieldUnit.bodies (cls : TypeId) (field : FieldUnit) : List Body :=
  field.exprs.map (Body.ofExpr cls)

def MethodUnit.asBody (cls : TypeId) (method : MethodUnit) : Body :=
  ⟨cls, method.params, method.body⟩

mutual

def ClassUnit.bodies : ClassUnit → List Body
  | .mk type fields constructors methods inner _ =>
      fields.flatMap (FieldUnit.bodies type) ++ (constructors.map (MethodUnit.asBody type) ++
        (methods.map (MethodUnit.asBody type) ++ bodiesOfClasses inner))

def bodiesOfClasses : List ClassUnit → List Body
  | [] => []
  | unit :: rest => unit.bodies ++ bodiesOfClasses rest

end

def Task.bodies : Task → List Body
  | .expr cls e => [.ofExpr cls e]
  | .whole (.classUnit unit) => unit.bodies
  | .whole (.methodUnit unit) => [unit.asBody unit.declaringType]
  | .whole (.fieldUnit _) => []

def outputBodies : Except LoweringError Task → List Body
  | .ok task => task.bodies
  | .error _ => []

theorem exprs_fieldBodies (cls : TypeId) (fields : List FieldUnit) :
    (fields.flatMap (FieldUnit.bodies cls)).flatMap Body.exprs =
      fields.flatMap FieldUnit.exprs := by
  induction fields with
  | nil => rfl
  | cons field rest ih =>
      obtain ⟨name, type, initializer, span⟩ := field
      rw [List.flatMap_cons, List.flatMap_append, ih]
      cases initializer <;> rfl

theorem exprs_methodBodies (cls : TypeId) (methods : List MethodUnit) :
    (methods.map (MethodUnit.asBody cls)).flatMap Body.exprs =
      methods.flatMap MethodUnit.exprs := by
  rw [List.flatMap_map]
  rfl

mutual

theorem ClassUnit.exprs_bodies : (unit : ClassUnit) →
    unit.bodies.flatMap Body.exprs = unit.exprs
  | .mk type fields constructors methods inner _ => by
      simp only [ClassUnit.bodies, ClassUnit.exprs, List.flatMap_append, exprs_fieldBodies,
        exprs_methodBodies, exprs_bodiesOfClasses inner]

theorem exprs_bodiesOfClasses : (units : List ClassUnit) →
    (bodiesOfClasses units).flatMap Body.exprs = exprsOfClasses units
  | [] => rfl
  | unit :: rest => by
      simp only [bodiesOfClasses, exprsOfClasses, List.flatMap_append, unit.exprs_bodies,
        exprs_bodiesOfClasses rest]

end

theorem exprs_outputBodies (outcome : Except LoweringError Task) :
    (outputBodies outcome).flatMap Body.exprs = outputExprs outcome := by
  match outcome with
  | .error _ => rfl
  | .ok (.expr _ _) => rfl
  | .ok (.whole (.classUnit unit)) => exact unit.exprs_bodies
  | .ok (.whole (.methodUnit unit)) => exact List.append_nil _
  | .ok (.whole (.fieldUnit _)) => rfl

/-! ### Types in bodies -/

/-- In each of the bodies an introduced declaration has the type of its initializer. -/
def Settings.TypedBodies (settings : Settings) (bodies : List Body) : Prop :=
  ∀ body ∈ bodies, ∀ declaration ∈ nodesOfKind settings.config.isIntroduction body.exprs,
    ∃ number, settings.Declares body.cls number declaration

section Bodies

variable {settings : Settings}

theorem Settings.TypedBodies.append {bodies more : List Body} (h : settings.TypedBodies bodies)
    (h' : settings.TypedBodies more) : settings.TypedBodies (bodies ++ more) := by
  intro body hbody
  rcases List.mem_append.mp hbody with hbody | hbody
  · exact h body hbody
  · exact h' body hbody

/-- It is enough to look at the expressions of bodies that stand in one class. -/
theorem typedBodies_of_exprs {cls : TypeId} {bodies : List Body}
    (hcls : ∀ body ∈ bodies, body.cls = cls)
    (h : ∀ declaration ∈ nodesOfKind settings.config.isIntroduction (bodies.flatMap Body.exprs),
      ∃ number, settings.Declares cls number declaration) : settings.TypedBodies bodies := by
  induction bodies with
  | nil => exact fun _ hbody => nomatch hbody
  | cons body rest ih =>
      rw [List.forall_mem_cons] at hcls
      rw [List.flatMap_cons, nodesOfKind_append, List.forall_mem_append] at h
      intro other hother
      rcases List.mem_cons.mp hother with rfl | hother
      · rw [hcls.1]
        exact h.1
      · exact ih hcls.2 h.2 other hother

theorem cls_fieldBodies (cls : TypeId) (fields : List FieldUnit) :
    ∀ body ∈ fields.flatMap (FieldUnit.bodies cls), body.cls = cls := by
  intro body hbody
  obtain ⟨field, -, hbody⟩ := List.mem_flatMap.mp hbody
  obtain ⟨e, -, rfl⟩ := List.mem_map.mp hbody
  rfl

theorem cls_methodBodies (cls : TypeId) (methods : List MethodUnit) :
    ∀ body ∈ methods.map (MethodUnit.asBody cls), body.cls = cls := by
  intro body hbody
  obtain ⟨method, -, rfl⟩ := List.mem_map.mp hbody
  rfl

theorem typedBodies_lowerFields (cls : TypeId) {fields : List FieldUnit}
    (h : settings.config.Avoids (fields.flatMap FieldUnit.exprs)) (s : Session) :
    settings.TypedBodies
      (((lowerFields settings cls fields).run s).1.flatMap (FieldUnit.bodies cls)) := by
  refine typedBodies_of_exprs (cls_fieldBodies cls _) ?_
  rw [exprs_fieldBodies]
  exact (treeInvariant_typed cls).lowerFields fields s h

theorem typedBodies_lowerMethods (cls : TypeId) {methods : List MethodUnit}
    (h : settings.config.Avoids (methods.flatMap MethodUnit.exprs)) (s : Session) :
    settings.TypedBodies
      (((lowerMethods settings cls methods).run s).1.map (MethodUnit.asBody cls)) := by
  refine typedBodies_of_exprs (cls_methodBodies cls _) ?_
  rw [exprs_methodBodies]
  exact (treeInvariant_typed cls).lowerMethods methods s h

mutual

theorem ClassUnit.typedBodies_lower : (unit : ClassUnit) → settings.config.Avoids unit.exprs →
    (s : Session) → settings.TypedBodies ((unit.lower settings).run s).1.bodies
  | .mk type fields constructors methods inner _, h, s => by
      simp only [ClassUnit.exprs, Config.avoids_append] at h
      exact (typedBodies_lowerFields type h.1 s).append
        ((typedBodies_lowerMethods type h.2.1 _).append
          ((typedBodies_lowerMethods type h.2.2.1 _).append
            (typedBodies_lowerClasses inner h.2.2.2 _)))

theorem typedBodies_lowerClasses : (units : List ClassUnit) →
    settings.config.Avoids (exprsOfClasses units) → (s : Session) →
    settings.TypedBodies (bodiesOfClasses ((lowerClasses settings units).run s).1)
  | [], _, _ => fun _ hbody => nomatch hbody
  | unit :: rest, h, s => by
      rw [exprsOfClasses, Config.avoids_append] at h
      exact (unit.typedBodies_lower h.1 s).append (typedBodies_lowerClasses rest h.2 _)

end

theorem typedBodies_task {task : Task} (h : settings.config.Avoids task.exprs) (s : Session) :
    settings.TypedBodies (outputBodies ((task.lower settings).run s).1) := by
  match task with
  | .expr cls e =>
      intro body hbody
      obtain rfl := List.mem_singleton.mp hbody
      exact (treeInvariant_typed cls).lower e s h
  | .whole (.classUnit unit) => exact unit.typedBodies_lower h s
  | .whole (.methodUnit unit) =>
      intro body hbody
      obtain rfl := List.mem_singleton.mp hbody
      exact (treeInvariant_typed unit.declaringType).methodUnit unit s h
  | .whole (.fieldUnit _) => exact fun _ hbody => nomatch hbody

theorem typedBodies_lowerTasks {tasks : List Task}
    (h : settings.config.Avoids (tasks.flatMap Task.exprs)) (s : Session) :
    settings.TypedBodies (((lowerTasks settings tasks).run s).1.flatMap outputBodies) := by
  induction tasks generalizing s with
  | nil => exact fun _ hbody => nomatch hbody
  | cons task rest ih =>
      rw [List.flatMap_cons, Config.avoids_append] at h
      exact (typedBodies_task h.1 s).append (ih h.2 _)

end Bodies

/-! ## Hygiene of a run -/

/-- Of declarations with different names two with one name are the same. -/
theorem eq_of_declaredName? {declarations : List Expr}
    (h : (declarations.filterMap Expr.declaredName?).Nodup) {d e : Expr} {name : String}
    (hd : d ∈ declarations) (he : e ∈ declarations) (hname : d.declaredName? = some name)
    (hname' : e.declaredName? = some name) : d = e := by
  induction declarations with
  | nil => cases hd
  | cons first rest ih =>
      have hrest : (rest.filterMap Expr.declaredName?).Nodup :=
        h.sublist ((List.sublist_cons_self first rest).filterMap _)
      have hfresh : ∀ other ∈ rest, other.declaredName? = some name →
          first.declaredName? ≠ some name := by
        intro other hother hsame hfirst
        rw [List.filterMap_cons_some hfirst] at h
        exact (List.nodup_cons.mp h).1 (List.mem_filterMap.mpr ⟨other, hother, hsame⟩)
      rcases List.mem_cons.mp hd with rfl | hlater
      · rcases List.mem_cons.mp he with rfl | hlater'
        · rfl
        · exact absurd hname (hfresh e hlater' hname')
      · rcases List.mem_cons.mp he with rfl | hlater'
        · exact absurd hname' (hfresh d hlater hname)
        · exact ih hrest hlater hlater'

theorem mem_introductions {config : Config} {es : List Expr} {info : Info} {name : String}
    {type : Option TypeId} {initializer : Expr} (hname : config.makesName name = true)
    (h : .declaration info name type initializer ∈ nodesOfExprs es) :
    .declaration info name type initializer ∈ nodesOfKind config.isIntroduction es :=
  List.mem_filter.mpr ⟨h, hname⟩

/-- In a run from the start over a source that keeps clear of introduced names, the declarations
that it introduces have different names with the numbers drawn, one for each; each has the type
of its initializer, and so has every reference to it; and no output captures an introduced
name. -/
theorem lowerTasks_hygienic (settings : Settings) (tasks : List Task)
    (htargets : ∀ node ∈ nodesOfExprs (tasks.flatMap Task.exprs), node.hasPlainTarget = true)
    (hnames : ∀ node ∈ nodesOfExprs (tasks.flatMap Task.exprs),
      settings.config.isIntroduction node = false ∧ settings.config.isMention node = false) :
    let out := (lowerTasks settings tasks).run {}
    let bodies := out.1.flatMap outputBodies
    let exprs := bodies.flatMap Body.exprs
    let introduced := nodesOfKind settings.config.isIntroduction exprs
    let declared := introduced.filterMap Expr.declaredName?
    introduced.length = out.2.nextName ∧ declared.Nodup ∧
    (declared.map trailingNumber).Perm (List.range out.2.nextName) ∧
    (∀ body ∈ bodies, ∀ info name type initializer,
      .declaration info name type initializer ∈ nodesOfExprs body.exprs →
      settings.config.makesName name = true →
        type = initializer.staticType? settings.types body.cls ∧
        ∀ info' type', .var info' name type' ∈ nodesOfExprs exprs → type' = type) ∧
    ∀ body ∈ bodies, ∀ name ∈ (VariableScope.ofClosure body.params body.statements).captured,
      settings.config.makesName name = false := by
  intro out bodies exprs introduced declared
  have havoids : settings.config.Avoids (tasks.flatMap Task.exprs) :=
    fun node hnode => ⟨htargets node hnode, hnames node hnode⟩
  have hexprs : exprs = out.1.flatMap outputExprs := by
    simp only [exprs, bodies, List.flatMap_assoc, exprs_outputBodies]
  have hnumbered : settings.config.Numbered 0 out.2.nextName exprs := by
    rw [hexprs]
    exact loweringInvariant_numbered.lowerTasks tasks {} havoids
  have hlength : introduced.length = out.2.nextName := by
    rw [hnumbered.drawn, Nat.zero_add]
  have hnumbers : (declared.map trailingNumber).Perm (List.range out.2.nextName) := by
    rw [List.range_eq_range', ← hlength]
    exact hnumbered.numbers
  have hnodup : declared.Nodup :=
    List.Nodup.of_map trailingNumber (hnumbers.nodup_iff.mpr List.nodup_range)
  have htyped : settings.TypedBodies bodies := typedBodies_lowerTasks havoids {}
  refine ⟨hlength, hnodup, hnumbers, ?_, ?_⟩
  · intro body hbody info name type initializer hdeclaration hname
    have hinside : ∀ node ∈ nodesOfExprs body.exprs, node ∈ nodesOfExprs exprs := by
      intro node hnode
      obtain ⟨before, after, hsplit⟩ := List.append_of_mem hbody
      simp only [exprs, hsplit, List.flatMap_append, List.flatMap_cons, nodesOfExprs_append,
        List.mem_append]
      exact .inr (.inl hnode)
    obtain ⟨number, info', name', initializer', heq, -, -⟩ :=
      htyped body hbody _ (mem_introductions hname hdeclaration)
    cases heq
    refine ⟨rfl, fun info' type' hreference => ?_⟩
    have hmention : Expr.var info' name type' ∈ nodesOfKind settings.config.isMention exprs :=
      List.mem_filter.mpr ⟨hreference, hname⟩
    obtain ⟨declaration, hdeclared, _, _, _, _, _, hvar, rfl⟩ :=
      hnumbered.mentioned _ hmention
    cases hvar
    have hsame := eq_of_declaredName? hnodup hdeclared
      (mem_introductions hname (hinside _ hdeclaration)) rfl rfl
    cases hsame
    rfl
  · intro body hbody
    have hclosed : ∀ e ∈ exprs, settings.config.ClosedParts e := by
      rw [hexprs]
      exact loweringInvariant_closed.lowerTasks tasks {} fun node hnode =>
        ⟨htargets node hnode, (hnames node hnode).2⟩
    have hstatements : ∀ e ∈ exprsOfStmts body.statements, settings.config.Closed e :=
      fun e he => (hclosed e (List.mem_flatMap.mpr ⟨body, hbody, he⟩)).whole
    exact clean_scanStmts body.statements hstatements _ (Config.clean_ofParams body.params)

/-- `{ -> repo.find()?.size() }`, and a method with `repo.find().count += 1` where the operator was
resolved to a method `plus`. -/
def drawingTasks : List Task :=
  let found : Expr := .methodCall {} (.var {} "repo" none) "find" [] false false
  let resolved : Info := { facts := { operatorTarget := some ⟨⟨0⟩, "plus"⟩ } }
  [.expr .object (.closure {} [] [.expr (.methodCall {} found "size" [] true false)] none),
    .whole (.methodUnit ⟨none, "run", .object, [{ name := "repo" }],
      [.expr (.binary resolved (.compound .plus) {} (.property {} found "count")
        (.literal {} (.integer 1)))], {}⟩)]

/-- Each of the two draws a name, and the method reads its temporary twice. -/
theorem lowerTasks_hygienic_drawingTasks :
    let settings : Settings := ⟨.initial, .ofTypes .initial, {}⟩
    let nodes := nodesOfExprs (drawingTasks.flatMap Task.exprs)
    let out := (lowerTasks settings drawingTasks).run {}
    let bodies := out.1.flatMap outputBodies
    let exprs := bodies.flatMap Body.exprs
    let introduced := nodesOfKind settings.config.isIntroduction exprs
    (∀ node ∈ nodes, node.hasPlainTarget = true) ∧
      (∀ node ∈ nodes, settings.config.isIntroduction node = false ∧
        settings.config.isMention node = false) ∧
      introduced.filterMap Expr.declaredName? = ["tmp$0", "tmp$1"] ∧
      (nodesOfKind settings.config.isMention exprs).length = 3 ∧
      introduced.length = out.2.nextName ∧
      ∀ body ∈ bodies, ∀ name ∈ (VariableScope.ofClosure body.params body.statements).captured,
        settings.config.makesName name = false := by
  intro settings nodes out bodies exprs introduced
  have htargets : ∀ node ∈ nodes, node.hasPlainTarget = true := by decide
  have hnames : ∀ node ∈ nodes, settings.config.isIntroduction node = false ∧
      settings.config.isMention node = false := by decide +kernel
  have hhygienic := lowerTasks_hygienic settings drawingTasks htargets hnames
  exact ⟨htargets, hnames, by decide +kernel, by decide +kernel, hhygienic.1,
    hhygienic.2.2.2.2⟩

end StaticDispatch
