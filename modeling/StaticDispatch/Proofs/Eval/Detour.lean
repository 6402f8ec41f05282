import StaticDispatch.Proofs.Eval.Agreement
import StaticDispatch.Proofs.Eval.Equality
import StaticDispatch.Proofs.Tree.Variables

/-!
# Evaluation in a scope aside

A lowered tree may evaluate a part of its original one scope further in, with
names there that the part does not use.  A detour says how the two states then
differ: the second has this scope besides, maybe objects that the first does
not have, and everything else at a known place.  Scopes that are opened later
correspond again, so that only a declaration, or the assignment of a name that
is not bound, made in the scope aside itself can tell the two apart.
-/

namespace StaticDispatch

variable {α β γ δ' : Type}

/-! ## Detours -/

/-- How the second of two states differs from the first. -/
structure Detour extends Relocation where
  scope : ScopeId → ScopeId
  /-- The scope that only the second state has. -/
  aside : ScopeId
  /-- The names that it may bind, and those that it is known to bind. -/
  hidden : String → Prop
  locals : String → Option Value
  /-- The objects that only the second state has. -/
  object? : Address → Option Instance
  /-- What the states had logged when they began to correspond. -/
  logLeft : Array String
  logRight : Array String
  scope_injective : Function.Injective scope
  scope_ne_aside : ∀ id, scope id ≠ aside

/-- Names stay bound. -/
def Scopes.Grows (before after : Array (OrderedMap Value)) : Prop :=
  ∀ id name, (Scopes.get? before id name).isSome = true →
    (Scopes.get? after id name).isSome = true

/-- The names that a call of a closure takes from the scopes around it. -/
def ClosureCode.free (code : ClosureCode) : List String :=
  (freeOfStmts code.body).filter fun name => name ∉ closureNames code.params

namespace Detour

variable (δ : Detour)

/-- The second environment is the first one, maybe with the scope aside in it.  A hidden name
that may be read is bound further in. -/
def Sees (scopes : Array (OrderedMap Value)) (reads : String → Prop) (env env' : Env) : Prop :=
  env' = env.map δ.scope ∨
    ∃ inner outer, env = inner ++ outer ∧
      env' = inner.map δ.scope ++ δ.aside :: outer.map δ.scope ∧
      ∀ name, reads name → δ.hidden name →
        ∃ id ∈ inner, (Scopes.get? scopes id name).isSome = true

/-- The same code, which sees the same variables. -/
def SameCode (scopes : Array (OrderedMap Value)) (code code' : ClosureCode) : Prop :=
  code'.params = code.params ∧ code'.body = code.body ∧
    δ.Sees scopes (· ∈ code.free) code.env code'.env

/-- The scope aside may bind these variables. -/
def Binds (vars : OrderedMap Value) : Prop :=
  (∀ name, ¬ δ.hidden name → vars.get? name = none) ∧
    ∀ name value, δ.locals name = some value → vars.get? name = some value

/-- The scope aside is known to bind the name besides. -/
def bind (name : String) (value : Value) : Detour :=
  { δ with locals := fun asked => if asked = name then some value else δ.locals asked }

theorem locals_bind_self (name : String) (value : Value) :
    (δ.bind name value).locals name = some value :=
  if_pos rfl

theorem locals_bind_of_ne {name other : String} (value : Value) (hne : other ≠ name) :
    (δ.bind name value).locals other = δ.locals other :=
  if_neg hne

end Detour

/-- The second state takes the detour. -/
structure State.Mirrors (δ : Detour) (s t : State) : Prop where
  heap : δ.Maps s.heap t.heap
  closures : ∀ a, Option.Rel (δ.SameCode s.scopes) (s.heap.closures[a]?)
    (t.heap.closures[δ.closure a]?)
  nextClosure : ∀ n, δ.closure (s.heap.closures.size + n) = t.heap.closures.size + n
  others : ∀ a, (∀ b, δ.object b ≠ a) → t.heap.objects[a]? = δ.object? a
  scopes : ∀ id, t.scopes[δ.scope id]? = (s.scopes[id]?).map (·.map δ.value)
  nextScope : ∀ n, δ.scope (s.scopes.size + n) = t.scopes.size + n
  aside : ∃ vars, t.scopes[δ.aside]? = some vars ∧ δ.Binds vars
  this : t.this = δ.value s.this
  log : ∃ added, s.log = δ.logLeft ++ added ∧ t.log = δ.logRight ++ added

/-- What an evaluation may do with the variables that are visible to it. -/
structure View where
  reads : String → Prop
  /-- Whether the innermost scopes correspond, so that names may be bound there. -/
  declares : Prop
  /-- Whether the innermost scope of the second state is the one aside. -/
  aside : Prop
  bound : String → Prop

/-- The view from a scope further in. -/
def View.inside (view : View) (vars : OrderedMap Value) : View where
  reads name := view.reads name ∨ vars.contains name = true
  declares := True
  aside := False
  bound _ := False

structure View.Holds (view : View) (δ : Detour) (s t : State) : Prop where
  sees : δ.Sees s.scopes view.reads s.env t.env
  innermost : view.declares → t.env.head? = s.env.head?.map δ.scope
  aside : view.aside → t.env.head? = some δ.aside
  bound : ∀ name, view.bound name → (s.lookup? name).isSome = true

/-! ## Scopes -/

namespace Scopes

theorem Grows.refl (scopes : Array (OrderedMap Value)) : Grows scopes scopes :=
  fun _ _ h => h

theorem Grows.trans {first second third : Array (OrderedMap Value)} (h : Grows first second)
    (h' : Grows second third) : Grows first third :=
  fun id name hbound => h' id name (h id name hbound)

theorem grows_set (scopes : Array (OrderedMap Value)) (id : ScopeId) (name : String)
    (value : Value) : Grows scopes (set scopes id name value) := by
  intro other asked hbound
  rw [get?_set]
  split
  · rfl
  · exact hbound

theorem grows_push (scopes : Array (OrderedMap Value)) (vars : OrderedMap Value) :
    Grows scopes (scopes.push vars) := by
  intro id name hbound
  unfold get? at hbound ⊢
  cases hscope : scopes[id]? with
  | none => simp [hscope] at hbound
  | some scope =>
      have hlt : id < scopes.size := (Array.getElem?_eq_some_iff.mp hscope).1
      rw [hscope] at hbound
      simpa [Array.getElem?_push, Nat.ne_of_lt hlt, hscope] using hbound

theorem isSome_lookup? {scopes : Array (OrderedMap Value)} {name : String} {env : Env} :
    (lookup? scopes name env).isSome = true ↔
      ∃ id ∈ env, (get? scopes id name).isSome = true := by
  induction env with
  | nil => simp [lookup?]
  | cons id outer ih =>
      simp only [lookup?, List.exists_mem_cons_iff]
      cases hget : get? scopes id name with
      | none => simpa [hget] using ih
      | some value => simp

theorem owner?_eq_none {scopes : Array (OrderedMap Value)} {name : String} {env : Env} :
    owner? scopes name env = none ↔ lookup? scopes name env = none := by
  rw [← Option.not_isSome_iff_eq_none (o := lookup? scopes name env), isSome_lookup?]
  unfold owner?
  rw [List.find?_eq_none]
  push Not
  rfl

end Scopes

namespace Detour.Sees

variable {δ : Detour} {scopes : Array (OrderedMap Value)} {reads : String → Prop} {env env' : Env}

theorem grow (h : δ.Sees scopes reads env env') {after : Array (OrderedMap Value)}
    (hgrows : Scopes.Grows scopes after) : δ.Sees after reads env env' := by
  rcases h with hsame | ⟨inner, outer, henv, henv', hshadowed⟩
  · exact .inl hsame
  · refine .inr ⟨inner, outer, henv, henv', ?_⟩
    intro name hname hhidden
    obtain ⟨id, hid, hbound⟩ := hshadowed name hname hhidden
    exact ⟨id, hid, hgrows id name hbound⟩

theorem mono (h : δ.Sees scopes reads env env') {fewer : String → Prop}
    (hfewer : ∀ name, fewer name → reads name) : δ.Sees scopes fewer env env' := by
  rcases h with hsame | ⟨inner, outer, henv, henv', hshadowed⟩
  · exact .inl hsame
  · exact .inr ⟨inner, outer, henv, henv', fun name hname => hshadowed name (hfewer name hname)⟩

theorem cons (h : δ.Sees scopes reads env env') {more : String → Prop} (id : ScopeId)
    (hmore : ∀ name, more name →
      reads name ∨ (Scopes.get? scopes id name).isSome = true) :
    δ.Sees scopes more (id :: env) (δ.scope id :: env') := by
  rcases h with rfl | ⟨inner, outer, rfl, rfl, hshadowed⟩
  · exact .inl rfl
  · refine .inr ⟨id :: inner, outer, rfl, rfl, ?_⟩
    intro name hname hhidden
    rcases hmore name hname with hreads | hbound
    · obtain ⟨other, hother, hbound⟩ := hshadowed name hreads hhidden
      exact ⟨other, List.mem_cons_of_mem _ hother, hbound⟩
    · exact ⟨id, List.mem_cons_self, hbound⟩

end Detour.Sees

theorem Detour.SameCode.grow {δ : Detour} {scopes after : Array (OrderedMap Value)}
    {code code' : ClosureCode} (h : δ.SameCode scopes code code')
    (hgrows : Scopes.Grows scopes after) : δ.SameCode after code code' :=
  ⟨h.1, h.2.1, h.2.2.grow hgrows⟩

theorem Detour.rel_sameCode_grow {δ : Detour} {scopes after : Array (OrderedMap Value)}
    {code? code'? : Option ClosureCode} (h : Option.Rel (δ.SameCode scopes) code? code'?)
    (hgrows : Scopes.Grows scopes after) : Option.Rel (δ.SameCode after) code? code'? := by
  cases h with
  | some hcode => exact .some (hcode.grow hgrows)
  | none => exact .none

/-! ## States -/

namespace State.Mirrors

variable {δ : Detour} {s t : State}

theorem get?_scope (h : s.Mirrors δ t) (id : ScopeId) (name : String) :
    Scopes.get? t.scopes (δ.scope id) name = (Scopes.get? s.scopes id name).map δ.value := by
  unfold Scopes.get?
  rw [h.scopes]
  cases s.scopes[id]? with
  | none => rfl
  | some scope => simp

theorem get?_aside (h : s.Mirrors δ t) {name : String} (hname : ¬ δ.hidden name) :
    Scopes.get? t.scopes δ.aside name = none := by
  obtain ⟨vars, hvars, hplain, -⟩ := h.aside
  unfold Scopes.get?
  rw [hvars]
  exact hplain name hname

theorem get?_local (h : s.Mirrors δ t) {name : String} {value : Value}
    (hlocal : δ.locals name = some value) :
    Scopes.get? t.scopes δ.aside name = some value := by
  obtain ⟨vars, hvars, -, hlocals⟩ := h.aside
  unfold Scopes.get?
  rw [hvars]
  exact hlocals name value hlocal

theorem lookup?_map (h : s.Mirrors δ t) (name : String) (env : Env) :
    Scopes.lookup? t.scopes name (env.map δ.scope) =
      (Scopes.lookup? s.scopes name env).map δ.value := by
  induction env with
  | nil => rfl
  | cons id outer ih =>
      simp only [List.map_cons, Scopes.lookup?, h.get?_scope]
      cases Scopes.get? s.scopes id name with
      | none => exact ih
      | some value => rfl

theorem owner?_map (h : s.Mirrors δ t) (name : String) (env : Env) :
    Scopes.owner? t.scopes name (env.map δ.scope) =
      (Scopes.owner? s.scopes name env).map δ.scope := by
  unfold Scopes.owner?
  rw [List.find?_map]
  congr 1
  apply List.find?_congr
  intro id _
  simp [h.get?_scope]

theorem lookup?_eq (h : s.Mirrors δ t) {reads : String → Prop} {env env' : Env}
    (hsees : δ.Sees s.scopes reads env env') {name : String} (hname : reads name) :
    Scopes.lookup? t.scopes name env' = (Scopes.lookup? s.scopes name env).map δ.value := by
  rcases hsees with rfl | ⟨inner, outer, rfl, rfl, hshadowed⟩
  · exact h.lookup?_map name env
  · rw [Scopes.lookup?_append, Scopes.lookup?_append, h.lookup?_map]
    cases hinner : Scopes.lookup? s.scopes name inner with
    | some value => rfl
    | none =>
        -- A hidden name would have been found before the scope aside.
        have hplain : ¬ δ.hidden name := by
          intro hhidden
          have hbound := Scopes.isSome_lookup?.mpr (hshadowed name hname hhidden)
          rw [hinner] at hbound
          exact nomatch hbound
        simp only [Option.map_none, Option.none_or, Scopes.lookup?, h.get?_aside hplain]
        exact h.lookup?_map name outer

theorem owner?_eq (h : s.Mirrors δ t) {reads : String → Prop} {env env' : Env}
    (hsees : δ.Sees s.scopes reads env env') {name : String} (hname : reads name) :
    Scopes.owner? t.scopes name env' = (Scopes.owner? s.scopes name env).map δ.scope := by
  rcases hsees with rfl | ⟨inner, outer, rfl, rfl, hshadowed⟩
  · exact h.owner?_map name env
  · have happend : ∀ (scopes : Array (OrderedMap Value)) (before after : Env),
        Scopes.owner? scopes name (before ++ after) =
          (Scopes.owner? scopes name before).or (Scopes.owner? scopes name after) :=
      fun _ _ _ => List.find?_append
    rw [happend, happend, h.owner?_map]
    cases hinner : Scopes.owner? s.scopes name inner with
    | some id => rfl
    | none =>
        have hplain : ¬ δ.hidden name := by
          intro hhidden
          have hbound := Scopes.isSome_lookup?.mpr (hshadowed name hname hhidden)
          rw [Scopes.owner?_eq_none.mp hinner] at hbound
          exact nomatch hbound
        have haside : Scopes.owner? t.scopes name (δ.aside :: outer.map δ.scope) =
            Scopes.owner? t.scopes name (outer.map δ.scope) :=
          List.find?_cons_of_neg (by simp [h.get?_aside hplain])
        simp only [Option.map_none, Option.none_or, haside]
        exact h.owner?_map name outer

theorem setBoth (h : s.Mirrors δ t) (id : ScopeId) (name : String) (value : Value) :
    State.Mirrors δ { s with scopes := Scopes.set s.scopes id name value }
      { t with scopes := Scopes.set t.scopes (δ.scope id) name (δ.value value) } := by
  refine { h with closures := ?_, scopes := ?_, nextScope := ?_, aside := ?_ }
  · exact fun a => Detour.rel_sameCode_grow (h.closures a) (Scopes.grows_set _ _ _ _)
  · intro other
    apply Relocation.getElem?_modify_object δ.scope_injective h.scopes
    intro scope
    exact (OrderedMap.map_insert δ.value scope name value).symm
  · simpa only [Scopes.size_set] using h.nextScope
  · simp only [Scopes.set, Array.getElem?_modify, if_neg (δ.scope_ne_aside id)]
    exact h.aside

theorem define (h : s.Mirrors δ t) (hinnermost : t.env.head? = s.env.head?.map δ.scope)
    (name : String) (value : Value) :
    (s.define name value).Mirrors δ (t.define name (δ.value value)) := by
  cases hs : s.env with
  | nil =>
      have ht : t.env = [] := by simpa [hs] using hinnermost
      simp only [State.define, hs, ht]
      exact h
  | cons id outer =>
      obtain ⟨rest, ht⟩ : ∃ rest, t.env = δ.scope id :: rest := by
        rw [hs, List.head?_cons, Option.map_some, List.head?_eq_some_iff] at hinnermost
        exact hinnermost
      rw [State.define_of_env hs, State.define_of_env ht]
      exact h.setBoth id name value

theorem assign (h : s.Mirrors δ t) {view : View} (hview : view.Holds δ s t) {name : String}
    (hreads : view.reads name) (hwrites : view.declares ∨ view.bound name) (value : Value) :
    (s.assign name value).Mirrors δ (t.assign name (δ.value value)) := by
  have howner := h.owner?_eq hview.sees hreads
  cases hs : Scopes.owner? s.scopes name s.env with
  | some id =>
      rw [hs, Option.map_some] at howner
      rw [State.assign_of_owner hs, State.assign_of_owner howner]
      exact h.setBoth id name value
  | none =>
      rw [hs, Option.map_none] at howner
      rw [State.assign_of_no_owner hs, State.assign_of_no_owner howner]
      rcases hwrites with hdeclares | hbound
      · exact h.define (hview.innermost hdeclares) name value
      · have hsome := hview.bound name hbound
        rw [State.lookup?, Scopes.owner?_eq_none.mp hs] at hsome
        cases hsome

theorem defineAside (h : s.Mirrors δ t) (henv : t.env.head? = some δ.aside) {name : String}
    (hname : δ.hidden name) (value : Value) :
    s.Mirrors (δ.bind name value) (t.define name value) := by
  obtain ⟨vars, hvars, hplain, hlocals⟩ := h.aside
  obtain ⟨rest, henv⟩ := List.head?_eq_some_iff.mp henv
  rw [State.define_of_env henv]
  refine { h with scopes := ?_, nextScope := ?_, aside := ?_ }
  · intro id
    change (t.scopes.modify δ.aside fun scope => scope.insert name value)[δ.scope id]? = _
    rw [Array.getElem?_modify, if_neg (δ.scope_ne_aside id).symm]
    exact h.scopes id
  · intro n
    rw [Scopes.size_set]
    exact h.nextScope n
  · refine ⟨vars.insert name value, ?_, ?_, ?_⟩
    · change (t.scopes.modify δ.aside fun scope => scope.insert name value)[δ.aside]? = _
      rw [Array.getElem?_modify, if_pos rfl, hvars]
      rfl
    · intro other hother
      have hne : other ≠ name := fun heq => hother (heq ▸ hname)
      rw [OrderedMap.get?_insert_ne _ _ hne]
      exact hplain other hother
    · intro other known hknown
      rw [OrderedMap.get?_insert]
      simp only [Detour.bind] at hknown
      split at hknown
      · rename_i heq
        rw [if_pos heq]
        exact hknown
      · rename_i hne
        rw [if_neg hne]
        exact hlocals other known hknown

theorem forget {name : String} {value : Value} (h : s.Mirrors (δ.bind name value) t)
    (hfresh : δ.locals name = none) : s.Mirrors δ t := by
  obtain ⟨vars, hvars, hplain, hlocals⟩ := h.aside
  refine { h with aside := ⟨vars, hvars, hplain, ?_⟩ }
  intro other known hknown
  apply hlocals
  have hne : other ≠ name := by
    rintro rfl
    exact nomatch hfresh.symm.trans hknown
  simpa only [Detour.bind, if_neg hne] using hknown

theorem setHeap (h : s.Mirrors δ t) {left right : Heap}
    (hsteps : δ.Steps s.heap t.heap left right) :
    State.Mirrors δ { s with heap := left } { t with heap := right } := by
  refine { h with heap := hsteps.maps, closures := ?_, nextClosure := ?_, others := ?_ }
  · intro a
    rw [hsteps.closures, hsteps.closures']
    exact h.closures a
  · rw [hsteps.closures, hsteps.closures']
    exact h.nextClosure
  · intro a ha
    exact (hsteps.others a ha).trans (h.others a ha)

theorem code_eq (h : s.Mirrors δ t) (a : Address) :
    (t.heap.closures[δ.closure a]?).map (fun code => (code.params, code.body)) =
      (s.heap.closures[a]?).map fun code => (code.params, code.body) := by
  have hcode := h.closures a
  revert hcode
  generalize s.heap.closures[a]? = code?
  generalize t.heap.closures[δ.closure a]? = code'?
  rintro (⟨hparams, hbody, -⟩ | -)
  · simp only [Option.map_some, hparams, hbody]
  · rfl

theorem sameParams (h : s.Mirrors δ t) : δ.SameParams s.heap t.heap := by
  intro a
  have hcode := congrArg (Option.map Prod.fst) (h.code_eq a)
  rwa [Option.map_map, Option.map_map] at hcode

end State.Mirrors

theorem Scopes.Grows.isSome_lookup? {before after : Array (OrderedMap Value)}
    (h : Scopes.Grows before after) {name : String} {env : Env}
    (hbound : (Scopes.lookup? before name env).isSome = true) :
    (Scopes.lookup? after name env).isSome = true := by
  rw [Scopes.isSome_lookup?] at hbound ⊢
  obtain ⟨id, hid, hget⟩ := hbound
  exact ⟨id, hid, h id name hget⟩

theorem State.grows_define (state : State) (name : String) (value : Value) :
    Scopes.Grows state.scopes (state.define name value).scopes := by
  unfold State.define
  split
  · exact Scopes.Grows.refl _
  · exact Scopes.grows_set _ _ _ _

theorem State.grows_assign (state : State) (name : String) (value : Value) :
    Scopes.Grows state.scopes (state.assign name value).scopes := by
  unfold State.assign
  split
  · exact Scopes.grows_set _ _ _ _
  · exact state.grows_define name value

theorem State.env_define (state : State) (name : String) (value : Value) :
    (state.define name value).env = state.env := by
  unfold State.define
  split
  · rfl
  · rfl

theorem State.env_assign (state : State) (name : String) (value : Value) :
    (state.assign name value).env = state.env := by
  unfold State.assign
  split
  · rfl
  · exact state.env_define name value

theorem State.this_define (state : State) (name : String) (value : Value) :
    (state.define name value).this = state.this := by
  unfold State.define
  split
  · rfl
  · rfl

theorem State.this_assign (state : State) (name : String) (value : Value) :
    (state.assign name value).this = state.this := by
  unfold State.assign
  split
  · rfl
  · exact state.this_define name value

/-! ## Evaluations -/

namespace EvalM

/-- What two evaluations come to that began in `s` and `t`: the same answer elsewhere, and
states of which the second takes the detour again. -/
structure Answers (δ : Detour) (f : α → β) (s t : State) (left : Except Halt α × State)
    (right : Except Halt β × State) : Prop where
  result : right.1 = left.1.map f
  mirrors : left.2.Mirrors δ right.2
  grows : Scopes.Grows s.scopes left.2.scopes
  this : left.2.this = s.this
  env : left.2.env = s.env
  env' : right.2.env = t.env

/-- The evaluations give corresponding answers wherever the view holds. -/
def Mirrors (δ : Detour) (view : View) (f : α → β) (x : EvalM α) (y : EvalM β) : Prop :=
  ∀ s t, s.Mirrors δ t → view.Holds δ s t → Answers δ f s t (x.run s) (y.run t)

section Rules

variable {δ : Detour} {view : View} {f : α → β}

theorem Answers.of_state {s t s' t' : State} {result : Except Halt α}
    {result' : Except Halt β} (hresult : result' = result.map f) (h : s'.Mirrors δ t')
    (hgrows : Scopes.Grows s.scopes s'.scopes) (hthis : s'.this = s.this)
    (henv : s'.env = s.env) (henv' : t'.env = t.env) :
    Answers δ f s t (result, s') (result', t') :=
  ⟨hresult, h, hgrows, hthis, henv, henv'⟩

theorem Answers.refl {s t : State} {result : Except Halt α} {result' : Except Halt β}
    (hresult : result' = result.map f) (h : s.Mirrors δ t) :
    Answers δ f s t (result, s) (result', t) :=
  ⟨hresult, h, Scopes.Grows.refl _, rfl, rfl, rfl⟩

theorem Answers.holds {s t : State} {left : Except Halt α × State}
    {right : Except Halt β × State} (h : Answers δ f s t left right)
    (hview : view.Holds δ s t) : view.Holds δ left.2 right.2 := by
  constructor
  · rw [h.env, h.env']
    exact hview.sees.grow h.grows
  · rw [h.env, h.env']
    exact hview.innermost
  · rw [h.env']
    exact hview.aside
  · intro name hname
    unfold State.lookup?
    rw [h.env]
    exact h.grows.isSome_lookup? (hview.bound name hname)

theorem mirrors_pure {a : α} {b : β} (hb : b = f a) : Mirrors δ view f (pure a) (pure b) :=
  fun _ _ h _ => .refl (congrArg Except.ok hb) h

theorem mirrors_throw (halt : Halt) : Mirrors δ view f (throw halt) (throw halt) :=
  fun _ _ h _ => .refl rfl h

theorem mirrors_fail (error : EvalError) : Mirrors δ view f (fail error) (fail error) :=
  mirrors_throw _

theorem Answers.bind {g : γ → δ'} {s t : State} {x : EvalM α} {y : EvalM β} {k : α → EvalM γ}
    {k' : β → EvalM δ'} (hxy : Answers δ f s t (x.run s) (y.run t))
    (hk : ∀ a s' t', x.run s = (.ok a, s') → y.run t = (.ok (f a), t') →
      Answers δ g s' t' ((k a).run s') ((k' (f a)).run t')) :
    Answers δ g s t ((x >>= k).run s) ((y >>= k').run t) := by
  rw [run_bind, run_bind]
  rcases hx : x.run s with ⟨result, s'⟩
  rcases hy : y.run t with ⟨result', t'⟩
  rw [hx, hy] at hxy
  obtain rfl := hxy.result
  cases result with
  | error halt => exact ⟨rfl, hxy.mirrors, hxy.grows, hxy.this, hxy.env, hxy.env'⟩
  | ok a =>
      have hsecond := hk a s' t' hx hy
      exact ⟨hsecond.result, hsecond.mirrors, hxy.grows.trans hsecond.grows,
        hsecond.this.trans hxy.this, hsecond.env.trans hxy.env, hsecond.env'.trans hxy.env'⟩

/-- What is known of the answers of the first step may be used for the second. -/
theorem Mirrors.bind_of {g : γ → δ'} {x : EvalM α} {y : EvalM β} {k : α → EvalM γ}
    {k' : β → EvalM δ'} (hxy : Mirrors δ view f x y) (known : α → Prop)
    (hknown : ∀ s a, (x.run s).1 = .ok a → known a)
    (hk : ∀ a, known a → Mirrors δ view g (k a) (k' (f a))) :
    Mirrors δ view g (x >>= k) (y >>= k') := by
  intro s t h hview
  have hfirst := hxy s t h hview
  refine hfirst.bind fun a s' t' hx hy => ?_
  have hmiddle := hfirst.holds hview
  have hmirrors := hfirst.mirrors
  rw [hx, hy] at hmiddle hmirrors
  exact hk a (hknown s a (congrArg Prod.fst hx)) s' t' hmirrors hmiddle

theorem Mirrors.bind {g : γ → δ'} {x : EvalM α} {y : EvalM β} {k : α → EvalM γ}
    {k' : β → EvalM δ'} (hxy : Mirrors δ view f x y)
    (hk : ∀ a, Mirrors δ view g (k a) (k' (f a))) : Mirrors δ view g (x >>= k) (y >>= k') :=
  hxy.bind_of (fun _ => True) (fun _ _ _ => trivial) fun a _ => hk a

theorem Mirrors.pure_right {g : β → γ} {x : EvalM α} {y : EvalM β} (hxy : Mirrors δ view f x y) :
    Mirrors δ view (fun a => g (f a)) x (y >>= fun b => pure (g b)) := by
  have hall : Mirrors δ view (fun a => g (f a)) (x >>= pure) (y >>= fun b => pure (g b)) :=
    hxy.bind fun a => mirrors_pure rfl
  rwa [bind_pure] at hall

theorem Mirrors.bind_same {g : γ → δ'} {x y : EvalM α} {k : α → EvalM γ} {k' : α → EvalM δ'}
    (hxy : Mirrors δ view id x y) (hk : ∀ a, Mirrors δ view g (k a) (k' a)) :
    Mirrors δ view g (x >>= k) (y >>= k') :=
  hxy.bind hk

/-- A step that reads the heaps knows that they correspond. -/
theorem mirrors_getHeap_bind {k : Heap → EvalM α} {k' : Heap → EvalM β}
    (hk : ∀ left right : Heap, δ.Maps left right → δ.SameParams left right →
      Mirrors δ view f (k left) (k' right)) :
    Mirrors δ view f (getHeap >>= k) (getHeap >>= k') :=
  fun s t h hview => hk s.heap t.heap h.heap h.sameParams s t h hview

theorem mirrors_modifyHeap {change change' : Heap → Heap}
    (hchange : ∀ left right : Heap, δ.Maps left right →
      δ.Steps left right (change left) (change' right)) :
    Mirrors δ view id (modifyHeap change) (modifyHeap change') :=
  fun s t h _ =>
    .of_state rfl (h.setHeap (hchange s.heap t.heap h.heap)) (Scopes.Grows.refl _) rfl rfl rfl

theorem mirrors_allocate {make make' : Heap → Heap × Value}
    (hmake : ∀ left right : Heap, δ.Maps left right →
      δ.Steps left right (make left).1 (make' right).1 ∧
        (make' right).2 = δ.value (make left).2) :
    Mirrors δ view δ.value (allocate make) (allocate make') := by
  intro s t h _
  obtain ⟨hsteps, hvalue⟩ := hmake s.heap t.heap h.heap
  exact .of_state (congrArg Except.ok hvalue) (h.setHeap hsteps) (Scopes.Grows.refl _) rfl rfl rfl

theorem mirrors_logCall (name : String) :
    Mirrors δ view id (logCall name) (logCall name) := by
  intro s t h _
  obtain ⟨added, hleft, hright⟩ := h.log
  refine .of_state rfl { h with log := ⟨added.push name, ?_, ?_⟩ } (Scopes.Grows.refl _) rfl rfl rfl
  · simp only [hleft, Array.append_push]
  · simp only [hright, Array.append_push]

theorem mirrors_readVariable {name : String} (hname : view.reads name) :
    Mirrors δ view δ.value (readVariable name) (readVariable name) := by
  intro s t h hview
  have hlookup : t.lookup? name = (s.lookup? name).map δ.value := h.lookup?_eq hview.sees hname
  rw [run_readVariable, run_readVariable, hlookup]
  cases s.lookup? name with
  | none => exact .refl rfl h
  | some value => exact .refl rfl h

theorem mirrors_writeVariable {name : String} (hreads : view.reads name)
    (hwrites : view.declares ∨ view.bound name) (value : Value) :
    Mirrors δ view id (writeVariable name value) (writeVariable name (δ.value value)) :=
  fun s t h hview =>
    .of_state rfl (h.assign hview hreads hwrites value) (s.grows_assign name value)
      (s.this_assign name value) (s.env_assign name value) (t.env_assign name _)

theorem mirrors_define (hdeclares : view.declares) (name : String) (value : Value) :
    Mirrors δ view id (modify fun state => state.define name value)
      (modify fun state => state.define name (δ.value value)) :=
  fun s t h hview =>
    .of_state rfl (h.define (hview.innermost hdeclares) name value) (s.grows_define name value)
      (s.this_define name value) (s.env_define name value) (t.env_define name _)

theorem mirrors_this :
    Mirrors δ view δ.value (do return (← get).this : EvalM Value) (do return (← get).this) :=
  fun _ _ h _ => .refl (congrArg Except.ok h.this) h

/-- A scope opened in both states, further in than what is visible there. -/
theorem Mirrors.withScope {inner : View} {x : EvalM α} {y : EvalM β}
    (hxy : Mirrors δ inner f x y) (haside : ¬ inner.aside) (hbound : ∀ name, ¬ inner.bound name)
    {s t : State} (h : s.Mirrors δ t) {reads : String → Prop} {outer outer' : Env}
    (hsees : δ.Sees s.scopes reads outer outer') (vars : OrderedMap Value)
    (hreads : ∀ name, inner.reads name → reads name ∨ vars.contains name = true) :
    Answers δ f s t ((StaticDispatch.withScope outer vars x).run s)
      ((StaticDispatch.withScope outer' (vars.map δ.value) y).run t) := by
  have hnext : δ.scope s.scopes.size = t.scopes.size := h.nextScope 0
  have hgrows := Scopes.grows_push s.scopes vars
  have hpush : State.Mirrors δ
      { s with scopes := s.scopes.push vars, env := s.scopes.size :: outer }
      { t with scopes := t.scopes.push (vars.map δ.value), env := t.scopes.size :: outer' } := by
    refine { h with closures := ?_, scopes := ?_, nextScope := ?_, aside := ?_ }
    · exact fun a => Detour.rel_sameCode_grow (h.closures a) hgrows
    · exact Relocation.getElem?_push_object δ.scope_injective hnext h.scopes vars
    · intro n
      simp only [Array.size_push]
      rw [Nat.add_assoc, h.nextScope, Nat.add_assoc]
    · obtain ⟨locals, haside, hbinds⟩ := h.aside
      have hlt : δ.aside < t.scopes.size := (Array.getElem?_eq_some_iff.mp haside).1
      refine ⟨locals, ?_, hbinds⟩
      simp only [Array.getElem?_push, if_neg (Nat.ne_of_lt hlt)]
      exact haside
  have hinner : inner.Holds δ
      { s with scopes := s.scopes.push vars, env := s.scopes.size :: outer }
      { t with scopes := t.scopes.push (vars.map δ.value), env := t.scopes.size :: outer' } := by
    refine ⟨?_, ?_, fun hinner => absurd hinner haside,
      fun name hname => absurd hname (hbound name)⟩
    · rw [← hnext]
      apply (hsees.grow hgrows).cons
      intro name hname
      rcases hreads name hname with hreads | hcontains
      · exact .inl hreads
      · right
        simpa [Scopes.get?, OrderedMap.contains] using hcontains
    · exact fun _ => congrArg some hnext.symm
  obtain ⟨hresult, hmirrors, hafter, hthis, -, -⟩ := hxy _ _ hpush hinner
  exact ⟨hresult, { hmirrors with }, hgrows.trans hafter, hthis, rfl, rfl⟩

theorem mirrors_inChildScope {vars : OrderedMap Value} {x : EvalM α} {y : EvalM β}
    (hxy : Mirrors δ (view.inside vars) f x y) :
    Mirrors δ view f (inChildScope vars x) (inChildScope (vars.map δ.value) y) :=
  fun _ _ h hview => hxy.withScope id (fun _ => id) h hview.sees vars fun _ => id

/-! ## Names of the scope aside -/

/-- A hidden name that the second evaluation binds to the answer of a first step. -/
theorem Answers.hoist {g : γ → δ'} {s t : State} {x y : EvalM Value} {k : Value → EvalM γ}
    {k' : Value → EvalM δ'} (hxy : Answers δ δ.value s t (x.run s) (y.run t))
    (hview : view.Holds δ s t) (haside : view.aside) {name : String} (hname : δ.hidden name)
    (hfresh : δ.locals name = none)
    (hk : ∀ v s' t', x.run s = (.ok v, s') → s'.this = s.this →
      s'.Mirrors (δ.bind name (δ.value v)) t' → view.Holds (δ.bind name (δ.value v)) s' t' →
      Answers (δ.bind name (δ.value v)) g s' t' ((k v).run s') ((k' (δ.value v)).run t')) :
    Answers δ g s t ((x >>= k).run s) ((do
      let value ← y
      modify fun state : State => state.define name value
      k' value).run t) := by
  have hview' := hxy.holds hview
  have hmirrors := hxy.mirrors
  have hthis := hxy.this
  refine hxy.bind fun v s' t' hx hy => ?_
  rw [hx, hy] at hview' hmirrors
  rw [hx] at hthis
  have henv := hview'.aside haside
  have hbind : s'.Mirrors (δ.bind name (δ.value v)) (t'.define name (δ.value v)) :=
    hmirrors.defineAside henv hname _
  have hholds : view.Holds (δ.bind name (δ.value v)) s' (t'.define name (δ.value v)) := by
    have hsame := t'.env_define name (δ.value v)
    exact ⟨hsame ▸ hview'.sees, hsame ▸ hview'.innermost, hsame ▸ hview'.aside, hview'.bound⟩
  have hanswers := hk v s' _ hx hthis hbind hholds
  exact ⟨hanswers.result, hanswers.mirrors.forget hfresh, hanswers.grows, hanswers.this,
    hanswers.env, hanswers.env'.trans (t'.env_define name _)⟩

theorem Mirrors.hoist {g : γ → δ'} {x y : EvalM Value} {k : Value → EvalM γ}
    {k' : Value → EvalM δ'} (hxy : Mirrors δ view δ.value x y) (haside : view.aside)
    {name : String} (hname : δ.hidden name) (hfresh : δ.locals name = none)
    (hk : ∀ v, Mirrors (δ.bind name (δ.value v)) view g (k v) (k' (δ.value v))) :
    Mirrors δ view g (x >>= k) (do
      let value ← y
      modify fun state : State => state.define name value
      k' value) :=
  fun s t h hview => (hxy s t h hview).hoist hview haside hname hfresh
    fun v s' t' _ _ h' hview' => hk v s' t' h' hview'

/-- A name that the scope aside is known to bind stands for its value. -/
theorem Mirrors.readLocal {x : EvalM α} {k : Value → EvalM β} (haside : view.aside)
    {name : String} {value : Value} (hlocal : δ.locals name = some value)
    (hx : Mirrors δ view f x (k value)) : Mirrors δ view f x (readVariable name >>= k) := by
  intro s t h hview
  have hread : (readVariable name).run t = (.ok value, t) := by
    obtain ⟨rest, henv⟩ := List.head?_eq_some_iff.mp (hview.aside haside)
    rw [run_readVariable, State.lookup?, henv, Scopes.lookup?, h.get?_local hlocal]
  rw [run_bind_of_ok hread]
  exact hx s t h hview

end Rules

end EvalM

end StaticDispatch
