import StaticDispatch.Proofs.Lowering.Captures

/-!
# Introduced names

What is followed here are the declarations that a lowering introduces, one for
every name it draws.  Each has the next number and the static type of its
initializer, no rule takes one away or writes one twice, and references are
made only together with a declaration and with its type.
-/

namespace StaticDispatch

open LowerM

/-! ## Nodes of a kind -/

def Expr.nodesOf (kind : Expr → Bool) (e : Expr) : List Expr :=
  e.nodes.filter kind

def nodesOfKind (kind : Expr → Bool) (es : List Expr) : List Expr :=
  (nodesOfExprs es).filter kind

section Kinds

variable (kind : Expr → Bool)

@[simp] theorem nodesOfKind_nil : nodesOfKind kind [] = [] := rfl

@[simp] theorem nodesOfKind_cons (e : Expr) (rest : List Expr) :
    nodesOfKind kind (e :: rest) = e.nodesOf kind ++ nodesOfKind kind rest := by
  simp [nodesOfKind, Expr.nodesOf]

@[simp] theorem nodesOfKind_append (es fs : List Expr) :
    nodesOfKind kind (es ++ fs) = nodesOfKind kind es ++ nodesOfKind kind fs := by
  simp [nodesOfKind]

theorem Expr.nodesOf_eq (e : Expr) :
    e.nodesOf kind = [e].filter kind ++ nodesOfKind kind e.children := by
  unfold Expr.nodesOf nodesOfKind
  rw [e.nodes_eq, ← List.singleton_append, List.filter_append]

end Kinds

/-- A node that names a variable, as a reference or as a declaration. -/
def Expr.isNaming : Expr → Bool
  | .var _ _ _ => true
  | .declaration _ _ _ _ => true
  | _ => false

section Kinds

variable {kind : Expr → Bool} (hkind : ∀ e : Expr, e.isNaming = false → kind e = false)

include hkind

/-- A node that names nothing adds nothing to its children. -/
theorem Expr.nodesOf_of_not_isNaming {e : Expr} (h : e.isNaming = false) :
    e.nodesOf kind = nodesOfKind kind e.children := by
  rw [e.nodesOf_eq, List.filter_cons_of_neg (by simp [hkind e h])]
  rfl

theorem nodesOf_assignmentAfter (span opSpan : Span) (type : Option TypeId) (before : List Stmt)
    (info : Info) (target : OperatorTarget) (callSpan : Span) (place right : Expr) :
    (assignmentAfter span type before (.binary info .assign opSpan place
        (operatorCall callSpan type target place right))).nodesOf kind =
      nodesOfKind kind (exprsOfStmts before) ++
        (place.nodesOf kind ++ (place.nodesOf kind ++ right.nodesOf kind)) := by
  have hassignment : (Expr.binary info .assign opSpan place
      (operatorCall callSpan type target place right)).nodesOf kind =
        place.nodesOf kind ++ (place.nodesOf kind ++ right.nodesOf kind) := by
    rw [Expr.nodesOf_of_not_isNaming hkind rfl]
    simp [Expr.children, operatorCall, Expr.nodesOf_of_not_isNaming hkind
      (e := .methodCall ..) rfl]
  cases before with
  | nil => exact hassignment
  | cons s rest =>
      have hblock : (assignmentAfter span type (s :: rest) (.binary info .assign opSpan place
          (operatorCall callSpan type target place right))).nodesOf kind =
            nodesOfKind kind (exprsOfStmts ((s :: rest) ++ [.expr (.binary info .assign opSpan
              place (operatorCall callSpan type target place right))])) :=
        Expr.nodesOf_of_not_isNaming hkind rfl
      rw [hblock, exprsOfStmts_append, nodesOfKind_append, ← hassignment]
      simp [exprsOfStmts, Stmt.exprs]

theorem nodesOf_lowerPlainCall (settings : Settings) (cls : TypeId) (info : Info)
    (receiver : Expr) (name : String) (args : List Expr) (spread : Bool) :
    Yields (lowerPlainCall settings cls info receiver name args spread) fun out =>
      out.nodesOf kind = nodesOfKind kind (receiver :: args) := by
  obtain h | ⟨component, index, rfl, h⟩ | ⟨component, index, value, rfl, h⟩ :=
    lowerPlainCall_cases settings cls info receiver name args spread
  · rw [h]
    exact yields_pure (Expr.nodesOf_of_not_isNaming hkind rfl)
  · rw [h]
    exact yields_count_bind (yields_pure (Expr.nodesOf_of_not_isNaming hkind rfl))
  · rw [h]
    refine yields_count_bind (yields_pure ?_)
    rw [Expr.nodesOf_of_not_isNaming hkind rfl]
    simp [Expr.children, elementAt, Expr.nodesOf_of_not_isNaming hkind (e := .binary ..) rfl]

/-- Of the entries of a keyword constructor only the values stay, each after a reference to the
local. -/
theorem nodesOf_setProperties (owner : TypeId) (name : String) {entries : List Entry}
    (hkeys : ∀ entry ∈ entries, entry.key.stringLiteral?.isSome = true) :
    nodesOfKind kind (exprsOfStmts (entries.filterMap (setProperty? owner name))) =
      entries.flatMap fun entry =>
        (localReference entry.span owner name).nodesOf kind ++ entry.value.nodesOf kind := by
  induction entries with
  | nil => rfl
  | cons entry rest ih =>
      obtain ⟨key, value, span⟩ := entry
      rw [List.forall_mem_cons] at hkeys
      obtain ⟨text, htext⟩ := Option.isSome_iff_exists.mp hkeys.1
      change key.stringLiteral? = some text at htext
      have hassignment : (Expr.binary span.info .assign span
          (.property span.info (localReference span owner name) text) value).nodesOf kind =
            (localReference span owner name).nodesOf kind ++ value.nodesOf kind := by
        rw [Expr.nodesOf_of_not_isNaming hkind rfl]
        simp [Expr.children, Expr.nodesOf_of_not_isNaming hkind (e := .property ..) rfl]
      simp only [List.filterMap_cons, setProperty?, htext, Option.map_some, exprsOfStmts,
        Stmt.exprs, nodesOfKind_append, nodesOfKind_cons, nodesOfKind_nil, List.append_nil,
        hassignment, List.flatMap_cons, ih hkeys.2]
      rfl

theorem nodesOf_entries {entries : List Entry}
    (hkeys : ∀ entry ∈ entries, entry.key.stringLiteral?.isSome = true) :
    nodesOfKind kind (exprsOfEntries entries) =
      entries.flatMap fun entry => entry.value.nodesOf kind := by
  induction entries with
  | nil => rfl
  | cons entry rest ih =>
      obtain ⟨key, value, span⟩ := entry
      rw [List.forall_mem_cons] at hkeys
      have hkey : key.nodesOf kind = [] := by
        have hliteral := hkeys.1
        cases key <;> first | cases hliteral | exact Expr.nodesOf_of_not_isNaming hkind rfl
      simp only [exprsOfEntries, nodesOfKind_cons, hkey, List.nil_append, List.flatMap_cons,
        ih hkeys.2]
      rfl

end Kinds

/-! ## Declarations drawn -/

namespace Expr

def declaredName? : Expr → Option String
  | .declaration _ name _ _ => some name
  | _ => none

/-- A reference to what the declaration declares, with the type that it is declared with. -/
def RefersTo (reference declaration : Expr) : Prop :=
  ∃ info info' name type initializer,
    reference = .var info name type ∧ declaration = .declaration info' name type initializer

end Expr

namespace Settings

variable (settings : Settings) (cls : TypeId)

/-- The declaration of the introduced name with this number, with the static type of its
initializer in the body of the class. -/
def Declares (number : Nat) (e : Expr) : Prop :=
  ∃ info name initializer, e = .declaration info name
      (initializer.staticType? settings.types cls) initializer ∧
    settings.config.makesName name = true ∧ trailingNumber name = number

/-- Declarations of introduced names with consecutive numbers. -/
def DeclaresFrom : Nat → List Expr → Prop
  | _, [] => True
  | number, e :: rest => settings.Declares cls number e ∧ DeclaresFrom (number + 1) rest

theorem DeclaresFrom.append {number : Nat} {es fs : List Expr}
    (h : settings.DeclaresFrom cls number es)
    (h' : settings.DeclaresFrom cls (number + es.length) fs) :
    settings.DeclaresFrom cls number (es ++ fs) := by
  induction es generalizing number with
  | nil => exact h'
  | cons e rest ih =>
      refine ⟨h.1, ih h.2 ?_⟩
      rwa [List.length_cons, Nat.add_comm rest.length, ← Nat.add_assoc] at h'

theorem DeclaresFrom.numbers {number : Nat} {es : List Expr}
    (h : settings.DeclaresFrom cls number es) :
    (es.filterMap Expr.declaredName?).map trailingNumber = List.range' number es.length := by
  induction es generalizing number with
  | nil => rfl
  | cons e rest ih =>
      obtain ⟨⟨info, name, initializer, rfl, -, hnumber⟩, hrest⟩ := h
      change trailingNumber name :: (rest.filterMap Expr.declaredName?).map trailingNumber = _
      rw [hnumber, ih hrest]
      rfl

theorem DeclaresFrom.exists_of_mem {number : Nat} {es : List Expr}
    (h : settings.DeclaresFrom cls number es) {e : Expr} (he : e ∈ es) :
    ∃ number, settings.Declares cls number e := by
  induction es generalizing number with
  | nil => cases he
  | cons first rest ih =>
      rcases List.mem_cons.mp he with rfl | he
      · exact ⟨number, h.1⟩
      · exact ih h.2 he

end Settings

namespace Config

variable (config : Config)

/-- The second trees have these introduced declarations in addition to those of the first, and
mention introduced names only where the first do or in reference to one of these. -/
structure Adds (fresh before after : List Expr) : Prop where
  declared : (nodesOfKind config.isIntroduction after).Perm
    (fresh ++ nodesOfKind config.isIntroduction before)
  mentioned : ∀ reference ∈ nodesOfKind config.isMention after,
    reference ∈ nodesOfKind config.isMention before ∨
      ∃ declaration ∈ fresh, reference.RefersTo declaration

theorem isIntroduction_of_not_isNaming (e : Expr) (h : e.isNaming = false) :
    config.isIntroduction e = false := by
  cases e <;> first | rfl | cases h

theorem isMention_of_not_isNaming (e : Expr) (h : e.isNaming = false) :
    config.isMention e = false := by
  cases e <;> first | rfl | cases h

variable {config}

theorem adds_refl (config : Config) (es : List Expr) : config.Adds [] es es :=
  ⟨.refl _, fun _ h => .inl h⟩

theorem Adds.append {fresh more es es' fs fs' : List Expr} (h : config.Adds fresh es es')
    (h' : config.Adds more fs fs') : config.Adds (fresh ++ more) (es ++ fs) (es' ++ fs') where
  declared := by
    simp only [nodesOfKind_append]
    refine (h.declared.append h'.declared).trans ?_
    simp only [List.append_assoc]
    refine .append_left fresh ?_
    rw [← List.append_assoc, ← List.append_assoc]
    exact .append_right _ List.perm_append_comm
  mentioned reference hreference := by
    simp only [nodesOfKind_append, List.mem_append] at hreference ⊢
    rcases hreference with hreference | hreference
    · rcases h.mentioned reference hreference with hold | ⟨d, hd, hrefers⟩
      · exact .inl (.inl hold)
      · exact .inr ⟨d, .inl hd, hrefers⟩
    · rcases h'.mentioned reference hreference with hold | ⟨d, hd, hrefers⟩
      · exact .inl (.inr hold)
      · exact .inr ⟨d, .inr hd, hrefers⟩

/-- Glue around the trees and their order make no difference. -/
theorem Adds.perm {fresh es fs es' fs' : List Expr} (h : config.Adds fresh es es')
    (hbefore : ∀ {kind : Expr → Bool}, (∀ e : Expr, e.isNaming = false → kind e = false) →
      (nodesOfKind kind es).Perm (nodesOfKind kind fs))
    (hafter : ∀ {kind : Expr → Bool}, (∀ e : Expr, e.isNaming = false → kind e = false) →
      (nodesOfKind kind fs').Perm (nodesOfKind kind es')) : config.Adds fresh fs fs' where
  declared :=
    (hafter config.isIntroduction_of_not_isNaming).trans
      (h.declared.trans (.append_left fresh (hbefore config.isIntroduction_of_not_isNaming)))
  mentioned reference hreference := by
    have hmem := (hafter config.isMention_of_not_isNaming).mem_iff.mp hreference
    rcases h.mentioned reference hmem with hold | hnew
    · exact .inl ((hbefore config.isMention_of_not_isNaming).mem_iff.mp hold)
    · exact .inr hnew

theorem Adds.of_eq {fresh es es' fs' : List Expr} (h : config.Adds fresh es es')
    (hafter : ∀ {kind : Expr → Bool}, (∀ e : Expr, e.isNaming = false → kind e = false) →
      nodesOfKind kind fs' = nodesOfKind kind es') : config.Adds fresh es fs' :=
  h.perm (fun _ => .refl _) fun hkind => .of_eq (hafter hkind)

/-- A node that names nothing introduced stands around its children. -/
theorem adds_children {e : Expr} (hintroduction : config.isIntroduction e = false)
    (hmention : config.isMention e = false) : config.Adds [] e.children [e] where
  declared := by
    rw [nodesOfKind_cons, e.nodesOf_eq, List.filter_cons_of_neg (by simp [hintroduction])]
    simp
  mentioned reference hreference := by
    rw [nodesOfKind_cons, e.nodesOf_eq, List.filter_cons_of_neg (by simp [hmention])]
      at hreference
    exact .inl (by simpa using hreference)

end Config

/-! ## Steps that introduce names -/

namespace LowerM

variable {α β : Type}

/-- The step introduces declarations whose numbers go on from the session's, and they have the
property together with its answer. -/
def Introduces (settings : Settings) (cls : TypeId) (step : LowerM α)
    (property : List Expr → α → Prop) : Prop :=
  ∀ session, ∃ fresh, (step.run session).2.nextName = session.nextName + fresh.length ∧
    settings.DeclaresFrom cls session.nextName fresh ∧ property fresh (step.run session).1

variable {settings : Settings} {cls : TypeId} {step : LowerM α} {next : α → LowerM β}
  {property : List Expr → α → Prop} {goal : List Expr → β → Prop}

theorem introduces_pure {a : α} (h : property [] a) :
    Introduces settings cls (pure a) property :=
  fun _ => ⟨[], rfl, trivial, h⟩

theorem Introduces.bind (hstep : Introduces settings cls step property)
    (hnext : ∀ fresh a, property fresh a →
      Introduces settings cls (next a) fun more b => goal (fresh ++ more) b) :
    Introduces settings cls (step >>= next) goal := by
  intro session
  obtain ⟨fresh, hname, hfresh, hproperty⟩ := hstep session
  obtain ⟨more, hname', hmore, hgoal⟩ := hnext fresh _ hproperty (step.run session).2
  rw [hname] at hname' hmore
  refine ⟨fresh ++ more, ?_, Settings.DeclaresFrom.append settings cls hfresh hmore, hgoal⟩
  rw [List.length_append, ← Nat.add_assoc]
  exact hname'

theorem introduces_count_bind {applied : Stats} {next : Unit → LowerM β}
    (hnext : Introduces settings cls (next ()) goal) :
    Introduces settings cls (count applied >>= next) goal :=
  fun session => hnext { session with stats := session.stats + applied }

theorem Introduces.and_yields {answer : α → Prop} (hstep : Introduces settings cls step property)
    (hanswer : Yields step answer) :
    Introduces settings cls step fun fresh a => property fresh a ∧ answer a := by
  intro session
  obtain ⟨fresh, hname, hfresh, hproperty⟩ := hstep session
  exact ⟨fresh, hname, hfresh, hproperty, hanswer session⟩

end LowerM

section Rules

variable (settings : Settings) (cls : TypeId)

theorem introduces_bindTemporary (value : Expr) :
    Introduces settings cls (bindTemporary settings cls value) fun fresh pair =>
      settings.config.Adds fresh [value] [pair.1, pair.2] := by
  intro session
  let name := syntheticName settings.config.temporaryStem session.nextName
  let type := value.staticType? settings.types cls
  let declaration : Expr := .declaration value.span.info name type value
  let reference : Expr := .var value.span.info name type
  have hname : settings.config.makesName name = true := settings.config.makesName_temporary _
  have hdeclares : settings.Declares cls session.nextName declaration :=
    ⟨_, name, value, rfl, hname, trailingNumber_syntheticName _ _⟩
  have hdeclaration : ∀ kind, declaration.nodesOf kind =
      [declaration].filter kind ++ value.nodesOf kind := by
    intro kind
    rw [Expr.nodesOf_eq]
    simp [declaration, Expr.children]
  have hreference : ∀ kind, reference.nodesOf kind = [reference].filter kind := by
    intro kind
    rw [Expr.nodesOf_eq]
    simp [reference, Expr.children]
  refine ⟨[declaration], rfl, ⟨hdeclares, trivial⟩, ?_, ?_⟩
  · change (nodesOfKind _ [declaration, reference]).Perm _
    simp [hdeclaration, hreference, declaration, reference, Config.isIntroduction, hname]
  · change ∀ other ∈ nodesOfKind _ [declaration, reference], _
    simp only [nodesOfKind_cons, nodesOfKind_nil, hdeclaration, hreference]
    intro other hother
    have hcases : other ∈ value.nodesOf settings.config.isMention ∨ other = reference := by
      simpa [declaration, reference, Config.isMention, hname] using hother
    rcases hcases with hold | rfl
    · exact .inl (by simpa using hold)
    · exact .inr ⟨declaration, List.mem_singleton_self _, _, _, name, type, value, rfl, rfl⟩

theorem introduces_splitReceiver (receiver : Expr) :
    Introduces settings cls (splitReceiver settings cls receiver) fun fresh pair =>
      settings.config.Adds fresh [receiver] [pair.1, pair.2] := by
  unfold splitReceiver
  split
  · exact introduces_bindTemporary settings cls receiver
  · rename_i hbinds
    have hfree := Config.isSideEffectFree_of_not_bindsReceiver hbinds
    have hnone : receiver.nodesOf settings.config.isIntroduction = [] := by
      rw [Expr.nodesOf, Expr.nodes_of_isSideEffectFree hfree]
      cases receiver <;> first | rfl | cases hfree
    apply introduces_pure
    constructor
    · simp [hnone]
    · intro reference hreference
      simp only [nodesOfKind_cons, nodesOfKind_nil, List.append_nil, List.mem_append,
        or_self] at hreference
      exact .inl (by simpa using hreference)

/-- Neither a call nor access to an element introduces a name, and both stand around the
receiver and the arguments. -/
theorem introduces_lowerPlainCall (info : Info) (receiver : Expr) (name : String)
    (args : List Expr) (spread : Bool) :
    Introduces settings cls (lowerPlainCall settings cls info receiver name args spread)
      fun fresh out => fresh = [] ∧ ∀ {kind : Expr → Bool},
        (∀ e : Expr, e.isNaming = false → kind e = false) →
          out.nodesOf kind = nodesOfKind kind (receiver :: args) := by
  have hsilent : Introduces settings cls
      (lowerPlainCall settings cls info receiver name args spread) fun fresh _ => fresh = [] := by
    obtain h | ⟨component, index, -, h⟩ | ⟨component, index, value, -, h⟩ :=
      lowerPlainCall_cases settings cls info receiver name args spread
    · rw [h]
      exact introduces_pure rfl
    · rw [h]
      exact introduces_count_bind (introduces_pure rfl)
    · rw [h]
      exact introduces_count_bind (introduces_pure rfl)
  refine hsilent.and_yields fun session kind hkind => ?_
  exact nodesOf_lowerPlainCall hkind settings cls info receiver name args spread session

theorem introduces_lowerMethodCall (info : Info) (receiver : Expr) (name : String)
    (args : List Expr) (safe spread : Bool) :
    Introduces settings cls (lowerMethodCall settings cls info receiver name args safe spread)
      fun fresh out => settings.config.Adds fresh (receiver :: args) [out] := by
  have hkept : settings.config.Adds [] (receiver :: args)
      [.methodCall info receiver name args true spread] :=
    Config.adds_children (e := .methodCall info receiver name args true spread) rfl rfl
  unfold lowerMethodCall
  cases safe with
  | false =>
      intro session
      obtain ⟨fresh, hname, hfresh, rfl, hout⟩ :=
        introduces_lowerPlainCall settings cls info receiver name args spread session
      refine ⟨[], hname, hfresh,
        (settings.config.adds_refl (receiver :: args)).of_eq fun hkind => ?_⟩
      rw [← hout hkind]
      simp
  | true =>
      rw [if_pos rfl]
      split
      · unfold lowerSafeCall
        refine (introduces_splitReceiver settings cls receiver).bind ?_
        rintro fresh ⟨checked, called⟩ hsplit
        apply introduces_count_bind
        refine (introduces_lowerPlainCall settings cls info called name args spread).bind ?_
        rintro _ call ⟨rfl, hcall⟩
        apply introduces_pure
        -- the check and the call stand side by side, the receiver in the first or in both
        have hparts := hsplit.append (settings.config.adds_refl args)
        simp only [List.append_nil] at hparts ⊢
        refine hparts.of_eq fun {kind} hkind => ?_
        simp only [nodesOfKind_cons, nodesOfKind_nil, List.append_nil, nodesOfKind_append,
          Expr.nodesOf_of_not_isNaming hkind (e := .ternary ..) rfl, Expr.children, notNull,
          Expr.nodesOf_of_not_isNaming hkind (e := .binary ..) rfl, Expr.null,
          Expr.nodesOf_of_not_isNaming hkind (e := .literal ..) rfl, hcall hkind,
          List.append_assoc]
      · exact introduces_pure hkept

theorem introduces_lowerStaticCall (info : Info) (owner : TypeId) (name : String)
    (args : List Expr) :
    Introduces settings cls (lowerStaticCall settings info owner name args) fun fresh out =>
      settings.config.Adds fresh args [out] := by
  unfold lowerStaticCall
  split
  · refine introduces_count_bind (introduces_pure ?_)
    refine (settings.config.adds_refl args).of_eq fun hkind => ?_
    simp [Expr.nodesOf_of_not_isNaming hkind (e := .methodCall ..) rfl, Expr.children,
      Expr.nodesOf_of_not_isNaming hkind (e := .classRef ..) rfl]
  · exact introduces_pure
      (Config.adds_children (e := .staticCall info owner name args) rfl rfl)

/-- The local of a keyword constructor is declared once, in front of the values. -/
theorem introduces_lowerConstructorCall (info : Info) (type : TypeId) (args : List Expr) :
    Introduces settings cls (lowerConstructorCall settings info type args) fun fresh out =>
      settings.config.Adds fresh args [out] := by
  obtain h | ⟨owner, mapInfo, entries, rfl, hkeys, h⟩ :=
    lowerConstructorCall_cases settings info type args
  · rw [h]
    exact introduces_pure (Config.adds_children (e := .constructorCall info type args) rfl rfl)
  · rw [h]
    intro session
    let name := syntheticName settings.config.localStem session.nextName
    let declaration : Expr :=
      .declaration info.span.info name (some owner) (blankInstance info.span owner)
    have hname : settings.config.makesName name = true := settings.config.makesName_local _
    have hdeclares : settings.Declares cls session.nextName declaration :=
      ⟨info.span.info, name, blankInstance info.span owner, rfl, hname,
        trailingNumber_syntheticName _ _⟩
    have hentries : ∀ {kind : Expr → Bool}, (∀ e : Expr, e.isNaming = false → kind e = false) →
        nodesOfKind kind [.map mapInfo entries] =
          entries.flatMap fun entry => entry.value.nodesOf kind := by
      intro kind hkind
      rw [← nodesOf_entries hkind hkeys]
      simp [Expr.nodesOf_of_not_isNaming hkind (e := .map ..) rfl, Expr.children]
    have hlocal : ∀ span kind, (localReference span owner name).nodesOf kind =
        [localReference span owner name].filter kind := by
      intro span kind
      rw [Expr.nodesOf_eq]
      simp [localReference, Expr.children]
    have hout : ∀ {kind : Expr → Bool}, (∀ e : Expr, e.isNaming = false → kind e = false) →
        nodesOfKind kind [initializerCall info owner (initializerBody info.span owner name entries)
            (.ofClosure [] (initializerBody info.span owner name entries))] =
          [declaration].filter kind ++ ((entries.flatMap fun entry =>
            [localReference entry.span owner name].filter kind ++ entry.value.nodesOf kind) ++
              [localReference info.span owner name].filter kind) := by
      intro kind hkind
      have hblank : (blankInstance info.span owner).nodesOf kind = [] :=
        Expr.nodesOf_of_not_isNaming hkind (e := .constructorCall ..) rfl
      have hdeclaration : declaration.nodesOf kind = [declaration].filter kind := by
        rw [Expr.nodesOf_eq]
        simp [declaration, Expr.children, hblank]
      simp only [initializerCall, nodesOfKind_cons, nodesOfKind_nil, List.append_nil,
        Expr.nodesOf_of_not_isNaming hkind (e := .methodCall ..) rfl, Expr.children,
        Expr.nodesOf_of_not_isNaming hkind (e := .closure ..) rfl, initializerBody,
        exprsOfStmts_append, exprsOfStmts, Stmt.exprs, nodesOfKind_append, List.cons_append,
        List.nil_append, nodesOf_setProperties hkind owner name hkeys, hlocal]
      rw [hdeclaration]
    refine ⟨[declaration], rfl, ⟨hdeclares, trivial⟩, ?_, ?_⟩
    · change (nodesOfKind _ [initializerCall _ _ (initializerBody _ _ name _) _]).Perm _
      rw [hout settings.config.isIntroduction_of_not_isNaming,
        hentries settings.config.isIntroduction_of_not_isNaming]
      simp [declaration, Config.isIntroduction, hname, localReference]
    · change ∀ reference ∈ nodesOfKind _ [initializerCall _ _ (initializerBody _ _ name _) _], _
      rw [hout settings.config.isMention_of_not_isNaming,
        hentries settings.config.isMention_of_not_isNaming]
      have hrefers : ∀ span, ∃ d ∈ [declaration], (localReference span owner name).RefersTo d :=
        fun span => ⟨declaration, List.mem_singleton_self _, _, _, _, _, _, rfl, rfl⟩
      intro reference hreference
      simp only [List.mem_append, List.mem_flatMap, List.mem_filter, List.mem_singleton]
        at hreference ⊢
      rcases hreference with ⟨rfl, hmention⟩ | ⟨entry, hentry, ⟨rfl, -⟩ | hold⟩ | ⟨rfl, -⟩
      · cases hmention
      · exact .inr (by simpa using hrefers entry.span)
      · exact .inl ⟨entry, hentry, hold⟩
      · exact .inr (by simpa using hrefers info.span)

/-! ### Operators -/

theorem introduces_stableOperand (operand : Expr) :
    Introduces settings cls (stableOperand settings cls operand) fun fresh pair =>
      settings.config.Adds fresh [operand] (exprsOfStmts pair.1 ++ [pair.2]) := by
  unfold stableOperand
  split
  · exact introduces_pure (settings.config.adds_refl _)
  · refine (introduces_bindTemporary settings cls operand).bind ?_
    rintro fresh ⟨declaration, reference⟩ hadds
    apply introduces_pure
    rw [List.append_nil]
    exact hadds

theorem introduces_stableTarget {target : Expr} (h : target.isPlainTarget = true) :
    Introduces settings cls (stableTarget settings cls target) fun fresh pair =>
      settings.config.Adds fresh [target] (exprsOfStmts pair.1 ++ [pair.2]) := by
  cases target with
  | var info name type => exact introduces_pure (settings.config.adds_refl _)
  | property info receiver name =>
      refine (introduces_stableOperand settings cls receiver).bind ?_
      rintro fresh ⟨before, receiver'⟩ hreceiver
      apply introduces_pure
      rw [List.append_nil]
      refine hreceiver.perm (fun hkind => .of_eq ?_) fun hkind => .of_eq ?_ <;>
        simp [Expr.nodesOf_of_not_isNaming hkind (e := .property ..) rfl, Expr.children]
  | binary info op opSpan left right =>
      cases op with
      | index =>
          refine (introduces_stableOperand settings cls left).bind ?_
          rintro fresh ⟨before, left'⟩ hleft
          refine (introduces_stableOperand settings cls right).bind ?_
          rintro more ⟨between, right'⟩ hright
          apply introduces_pure
          simp only [List.append_nil]
          refine (hleft.append hright).perm (fun hkind => .of_eq ?_) fun {kind} hkind => ?_
          · simp [Expr.nodesOf_of_not_isNaming hkind (e := .binary ..) rfl, Expr.children]
          · simp only [exprsOfStmts_append, nodesOfKind_append, nodesOfKind_cons, nodesOfKind_nil,
              List.append_nil, Expr.nodesOf_of_not_isNaming hkind (e := .binary ..) rfl,
              Expr.children, List.append_assoc]
            -- the second group of declarations comes in front of what is left of the receiver
            refine .append_left _ ?_
            rw [← List.append_assoc, ← List.append_assoc]
            exact .append_right _ List.perm_append_comm
      | _ => exact absurd h (by simp [Expr.isPlainTarget])
  | _ => exact absurd h (by simp [Expr.isPlainTarget])

theorem nodesOf_introductions_of_isStableTarget {place : Expr}
    (hplain : place.isPlainTarget = true) (hstable : place.isStableTarget = true) :
    place.nodesOf settings.config.isIntroduction = [] := by
  have hcount := Expr.countOf_of_isStableTarget settings.config.isIntroduction_of_isGlue hplain
    hstable
  exact List.filter_eq_nil_iff.mpr (List.countP_eq_zero.mp hcount)

theorem introduces_lowerOperatorAssignment (span opSpan : Span) (type : Option TypeId)
    (target : OperatorTarget) {left : Expr} (right : Expr) (h : left.isPlainTarget = true) :
    Introduces settings cls
      (lowerOperatorAssignment settings cls span opSpan type target left right)
      fun fresh out => settings.config.Adds fresh [left, right] [out] := by
  unfold lowerOperatorAssignment
  refine ((introduces_stableTarget settings cls h).and_yields
    (yields_stableTarget_place settings cls h)).bind ?_
  rintro fresh ⟨before, place⟩ ⟨hadds, hplain, hstable⟩
  refine introduces_count_bind (introduces_pure ?_)
  rw [List.append_nil]
  have hplace := nodesOf_introductions_of_isStableTarget settings hplain hstable
  obtain ⟨hdeclared, hmentioned⟩ :=
    hadds.append (settings.config.adds_refl [right])
  simp only [List.append_nil, nodesOfKind_append, nodesOfKind_cons, nodesOfKind_nil, hplace,
    List.append_assoc, List.nil_append, List.mem_append] at hdeclared hmentioned
  constructor
  · rw [nodesOfKind_cons, nodesOf_assignmentAfter settings.config.isIntroduction_of_not_isNaming,
      hplace]
    simpa using hdeclared
  · intro reference hreference
    rw [nodesOfKind_cons, nodesOf_assignmentAfter settings.config.isMention_of_not_isNaming]
      at hreference
    have hmem : reference ∈ nodesOfKind settings.config.isMention (exprsOfStmts before) ∨
        reference ∈ place.nodesOf settings.config.isMention ∨
          reference ∈ right.nodesOf settings.config.isMention := by
      simp only [nodesOfKind_nil, List.append_nil, List.mem_append] at hreference
      tauto
    simpa using hmentioned reference hmem

theorem introduces_lowerBinary (info : Info) (op : BinaryOp) (opSpan : Span) (left right : Expr)
    (hplain : info.facts.operatorTarget.isSome = true → op.isAssignment = true →
      left.isPlainTarget = true) :
    Introduces settings cls (lowerBinary settings cls info op opSpan left right) fun fresh out =>
      settings.config.Adds fresh [left, right] [out] := by
  obtain h | ⟨routine, h⟩ | ⟨target, htarget, hassignment, h⟩ | ⟨target, h⟩ :=
    lowerBinary_cases settings cls info op opSpan left right
  · rw [h]
    exact introduces_pure
      (Config.adds_children (e := .binary info op opSpan left right) rfl rfl)
  · rw [h]
    refine introduces_count_bind (introduces_pure ?_)
    refine (settings.config.adds_refl [left, right]).of_eq fun hkind => ?_
    simp [adapterCall, Expr.nodesOf_of_not_isNaming hkind (e := .methodCall ..) rfl,
      Expr.children, Expr.nodesOf_of_not_isNaming hkind (e := .classRef ..) rfl]
  · rw [h]
    exact introduces_lowerOperatorAssignment settings cls _ _ _ _ right
      (hplain (by rw [htarget]; rfl) hassignment)
  · rw [h]
    refine introduces_count_bind (introduces_pure ?_)
    refine (settings.config.adds_refl [left, right]).of_eq fun hkind => ?_
    simp [operatorCall, Expr.nodesOf_of_not_isNaming hkind (e := .methodCall ..) rfl,
      Expr.children]

end Rules

end StaticDispatch
