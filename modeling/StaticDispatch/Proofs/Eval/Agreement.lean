import Mathlib.Data.List.Find
import Mathlib.Tactic.Push
import StaticDispatch.Eval.Run
import StaticDispatch.Proofs.Tree.Nodes

/-!
# Evaluation beside hidden names

Two states agree when nothing but the bindings of hidden names tells them
apart.  An evaluation that neither reads nor writes a hidden name gives the
same answer in both, and leaves two states that agree again.  The rules below
prove this for every step of the evaluator, so that it remains to be shown for
trees.
-/

namespace StaticDispatch

variable {α β : Type}

deriving instance DecidableEq for Value

/-! ## States -/

/-- No closure of the heap mentions a hidden name. -/
def Heap.Avoids (hidden : String → Prop) (heap : Heap) : Prop :=
  ∀ (a : Address) (code : ClosureCode), heap.closures[a]? = some code →
    ∀ name ∈ namesOfStmts code.body, ¬ hidden name

/-- The innermost visible scope exists. -/
def State.HasScope (state : State) : Prop :=
  ∃ id outer, state.env = id :: outer ∧ id < state.scopes.size

/-- The place is no hidden variable. -/
def Place.Avoids (hidden : String → Prop) : Place → Prop
  | .named name => ¬ hidden name
  | .property _ _ => True
  | .element _ _ => True

/-- The states differ in the bindings of hidden names only. -/
structure State.Agrees (hidden : String → Prop) (s t : State) : Prop where
  heap : t.heap = s.heap
  env : t.env = s.env
  this : t.this = s.this
  log : t.log = s.log
  size : t.scopes.size = s.scopes.size
  vars : ∀ (id : ScopeId) (name : String), ¬ hidden name →
    Scopes.get? t.scopes id name = Scopes.get? s.scopes id name
  scope : s.HasScope
  closures : s.heap.Avoids hidden

theorem State.Agrees.refl {hidden : String → Prop} {state : State}
    (hscope : state.HasScope) (hclosures : state.heap.Avoids hidden) :
    state.Agrees hidden state :=
  ⟨rfl, rfl, rfl, rfl, rfl, fun _ _ _ => rfl, hscope, hclosures⟩

/-! ## Scopes -/

theorem Scopes.get?_set (scopes : Array (OrderedMap Value)) (id other : ScopeId)
    (name asked : String) (value : Value) :
    Scopes.get? (Scopes.set scopes id name value) other asked =
      if id = other ∧ id < scopes.size ∧ asked = name then some value
      else Scopes.get? scopes other asked := by
  unfold Scopes.get? Scopes.set
  rw [Array.getElem?_modify]
  by_cases hid : id = other
  · subst hid
    by_cases hlt : id < scopes.size
    · by_cases hname : asked = name
      · subst hname
        simp [hlt]
      · simp [hlt, hname, OrderedMap.get?_insert_ne _ value hname]
    · simp [hlt]
  · simp [hid]

theorem Scopes.size_set (scopes : Array (OrderedMap Value)) (id : ScopeId) (name : String)
    (value : Value) : (Scopes.set scopes id name value).size = scopes.size :=
  Array.size_modify

theorem Scopes.lookup?_congr {scopes others : Array (OrderedMap Value)} {name : String}
    {env : Env} (h : ∀ id ∈ env, Scopes.get? others id name = Scopes.get? scopes id name) :
    Scopes.lookup? others name env = Scopes.lookup? scopes name env := by
  induction env with
  | nil => rfl
  | cons id outer ih =>
      unfold Scopes.lookup?
      rw [h id List.mem_cons_self, ih fun other hother => h other (List.mem_cons_of_mem _ hother)]

theorem Scopes.owner?_congr {scopes others : Array (OrderedMap Value)} {name : String}
    {env : Env} (h : ∀ id ∈ env, Scopes.get? others id name = Scopes.get? scopes id name) :
    Scopes.owner? others name env = Scopes.owner? scopes name env := by
  apply List.find?_congr
  intro id hid
  rw [h id hid]

namespace Scopes

variable {scopes : Array (OrderedMap Value)} {name : String}

theorem lookup?_append (before after : Env) :
    lookup? scopes name (before ++ after) =
      (lookup? scopes name before).or (lookup? scopes name after) := by
  induction before with
  | nil => rfl
  | cons id outer ih =>
      simp only [List.cons_append, lookup?]
      cases get? scopes id name with
      | none => exact ih
      | some value => rfl

theorem lookup?_eq_none {env : Env} (h : ∀ id ∈ env, get? scopes id name = none) :
    lookup? scopes name env = none := by
  induction env with
  | nil => rfl
  | cons id outer ih =>
      unfold lookup?
      rw [h id List.mem_cons_self]
      exact ih fun other hother => h other (List.mem_cons_of_mem _ hother)

theorem exists_owner {env : Env} {value : Value} (h : lookup? scopes name env = some value) :
    ∃ id ∈ env, owner? scopes name env = some id ∧ (get? scopes id name).isSome = true := by
  have hsome : (owner? scopes name env).isSome = true := by
    by_contra hnone
    unfold owner? at hnone
    rw [List.find?_isSome] at hnone
    push Not at hnone
    rw [lookup?_eq_none fun id hid => by simpa using hnone id hid] at h
    exact nomatch h
  obtain ⟨id, hid⟩ := Option.isSome_iff_exists.mp hsome
  exact ⟨id, List.mem_of_find?_eq_some hid, hid,
    List.find?_some (p := fun id => (get? scopes id name).isSome) hid⟩

/-- Writing where a name is found changes what is read under it, and nothing else. -/
theorem lookup?_set_owner {env : Env} {id : ScopeId}
    (howner : owner? scopes name env = some id) (hlt : id < scopes.size) (value : Value)
    (asked : String) :
    lookup? (set scopes id name value) asked env =
      if asked = name then some value else lookup? scopes asked env := by
  by_cases hasked : asked = name
  · subst hasked
    rw [if_pos rfl]
    induction env with
    | nil => exact nomatch howner
    | cons inner outer ih =>
        unfold lookup?
        rw [get?_set]
        by_cases hinner : id = inner
        · rw [if_pos ⟨hinner, hlt, rfl⟩]
        · rw [if_neg fun h => hinner h.1]
          unfold owner? at howner
          rw [List.find?_cons] at howner
          cases hget : get? scopes inner asked with
          | none =>
              simp only [hget, Option.isSome_none] at howner
              exact ih howner
          | some old =>
              simp only [hget, Option.isSome_some, Option.some.injEq] at howner
              exact absurd howner.symm hinner
  · rw [if_neg hasked]
    apply lookup?_congr
    intro other hother
    rw [get?_set, if_neg fun h => hasked h.2.2]

end Scopes

theorem State.define_of_env {state : State} {id : ScopeId} {outer : Env}
    (henv : state.env = id :: outer) (name : String) (value : Value) :
    state.define name value =
      { state with scopes := Scopes.set state.scopes id name value } := by
  unfold State.define
  split
  · rename_i hnil
    exact absurd (hnil.symm.trans henv) (by simp)
  · rename_i inner rest hcons
    obtain ⟨rfl, -⟩ : inner = id ∧ rest = outer := by simpa using hcons.symm.trans henv
    rfl

theorem State.HasScope.lookup?_define {state : State} (h : state.HasScope) (name : String)
    (value : Value) : (state.define name value).lookup? name = some value := by
  obtain ⟨id, outer, henv, hlt⟩ := h
  have hget : Scopes.get? (Scopes.set state.scopes id name value) id name = some value := by
    rw [Scopes.get?_set, if_pos ⟨rfl, hlt, rfl⟩]
  rw [State.define_of_env henv]
  simp only [State.lookup?, henv, Scopes.lookup?, hget]

theorem State.assign_of_owner {state : State} {name : String} {id : ScopeId}
    (howner : Scopes.owner? state.scopes name state.env = some id) (value : Value) :
    state.assign name value =
      { state with scopes := Scopes.set state.scopes id name value } := by
  unfold State.assign
  rw [howner]

theorem State.assign_of_no_owner {state : State} {name : String}
    (howner : Scopes.owner? state.scopes name state.env = none) (value : Value) :
    state.assign name value = state.define name value := by
  unfold State.assign
  rw [howner]

theorem State.size_define (state : State) (name : String) (value : Value) :
    (state.define name value).scopes.size = state.scopes.size := by
  unfold State.define
  split
  · rfl
  · exact Scopes.size_set _ _ _ _

theorem State.size_assign (state : State) (name : String) (value : Value) :
    (state.assign name value).scopes.size = state.scopes.size := by
  unfold State.assign
  split
  · exact Scopes.size_set _ _ _ _
  · exact state.size_define name value

namespace State.Agrees

variable {hidden : String → Prop} {s t : State}

theorem lookup?_eq (h : s.Agrees hidden t) {name : String} (hname : ¬ hidden name) :
    t.lookup? name = s.lookup? name := by
  unfold State.lookup?
  rw [h.env]
  exact Scopes.lookup?_congr fun id _ => h.vars id name hname

/-- The same binding made in both states. -/
theorem setBoth (h : s.Agrees hidden t) (id : ScopeId) (name : String) (value : Value) :
    State.Agrees hidden { s with scopes := Scopes.set s.scopes id name value }
      { t with scopes := Scopes.set t.scopes id name value } := by
  obtain ⟨inner, outer, henv, hlt⟩ := h.scope
  refine { h with size := ?_, vars := ?_, scope := ⟨inner, outer, henv, ?_⟩ }
  · simp only [Scopes.size_set, h.size]
  · intro other asked hasked
    simp only [Scopes.get?_set, h.size, h.vars other asked hasked]
  · simpa only [Scopes.size_set] using hlt

theorem define (h : s.Agrees hidden t) (name : String) (value : Value) :
    (s.define name value).Agrees hidden (t.define name value) := by
  obtain ⟨inner, outer, henv, hlt⟩ := h.scope
  rw [State.define_of_env henv, State.define_of_env (h.env.trans henv)]
  exact h.setBoth inner name value

theorem assign (h : s.Agrees hidden t) {name : String} (value : Value)
    (hname : ¬ hidden name) :
    (s.assign name value).Agrees hidden (t.assign name value) := by
  have howner : Scopes.owner? t.scopes name t.env = Scopes.owner? s.scopes name s.env := by
    rw [h.env]
    exact Scopes.owner?_congr fun id _ => h.vars id name hname
  cases hs : Scopes.owner? s.scopes name s.env with
  | none =>
      rw [State.assign_of_no_owner hs, State.assign_of_no_owner (howner.trans hs)]
      exact h.define name value
  | some id =>
      rw [State.assign_of_owner hs, State.assign_of_owner (howner.trans hs)]
      exact h.setBoth id name value

/-- A hidden name bound in the second state only. -/
theorem defineRight (h : s.Agrees hidden t) {name : String} (value : Value)
    (hname : hidden name) : s.Agrees hidden (t.define name value) := by
  obtain ⟨inner, outer, henv, hlt⟩ := h.scope
  rw [State.define_of_env (h.env.trans henv)]
  refine { h with size := ?_, vars := ?_ }
  · simp only [Scopes.size_set, h.size]
  · intro other asked hasked
    have hne : asked ≠ name := fun heq => hasked (heq ▸ hname)
    simp only [Scopes.get?_set, hne, and_false, if_false]
    exact h.vars other asked hasked

/-- The same change of the heap in both states. -/
theorem setHeap (h : s.Agrees hidden t) {heap : Heap} (hheap : heap.Avoids hidden) :
    State.Agrees hidden { s with heap } { t with heap } :=
  { h with heap := rfl, closures := hheap }

end State.Agrees

/-! ## Evaluations -/

theorem EvalM.run_bind (x : EvalM α) (f : α → EvalM β) (state : State) :
    (x >>= f).run state =
      match x.run state with
      | (.ok a, after) => (f a).run after
      | (.error halt, after) => (.error halt, after) := by
  have hbind : (x >>= f).run state = (ExceptT.bindCont f (x.run state).1) (x.run state).2 := rfl
  rw [hbind]
  rcases x.run state with ⟨_ | _, after⟩ <;> rfl

theorem EvalM.ext_run {x y : EvalM α} (h : ∀ state, x.run state = y.run state) : x = y :=
  funext h

theorem EvalM.run_bind_of_ok {x : EvalM α} {f : α → EvalM β} {state after : State} {a : α}
    (h : x.run state = (.ok a, after)) : (x >>= f).run state = (f a).run after := by
  rw [run_bind, h]

theorem EvalM.exists_of_run_bind {x : EvalM α} {f : α → EvalM β} {state after : State} {b : β}
    (h : (x >>= f).run state = (.ok b, after)) :
    ∃ a middle, x.run state = (.ok a, middle) ∧ (f a).run middle = (.ok b, after) := by
  rw [run_bind] at h
  rcases hx : x.run state with ⟨result, middle⟩
  rw [hx] at h
  cases result with
  | error halt => exact absurd (congrArg Prod.fst h) (by simp)
  | ok a => exact ⟨a, middle, rfl, h⟩

theorem EvalM.exists_of_bind_eq_ok {x : EvalM α} {f : α → EvalM β} {state : State} {b : β}
    (h : ((x >>= f).run state).1 = .ok b) :
    ∃ a middle, x.run state = (.ok a, middle) ∧ ((f a).run middle).1 = .ok b := by
  obtain ⟨a, middle, hx, hb⟩ := exists_of_run_bind (Prod.ext h rfl)
  exact ⟨a, middle, hx, congrArg Prod.fst hb⟩

/-- Only a variable is a target that is written by its name. -/
theorem Expr.exists_of_evalPlace_named {lib : Library} {loops : Nat}
    {runBody : Block → EvalM Flow} {target : Expr} {state : State} {name : String}
    (h : ((target.evalPlace lib loops runBody).run state).1 = .ok (.named name)) :
    ∃ info type, target = .var info name type := by
  cases target with
  | var info other type =>
      obtain rfl := Place.named.inj (Except.ok.inj h)
      exact ⟨info, type, rfl⟩
  | property info receiver property =>
      obtain ⟨value, after, -, hafter⟩ := EvalM.exists_of_bind_eq_ok h
      cases hafter
  | binary info op opSpan left right =>
      cases op with
      | index =>
          obtain ⟨receiver, between, -, hbetween⟩ := EvalM.exists_of_bind_eq_ok h
          obtain ⟨index, after, -, hafter⟩ := EvalM.exists_of_bind_eq_ok hbetween
          cases hafter
      | _ => cases h
  | _ => cases h

theorem EvalM.run_readVariable (name : String) (state : State) :
    (readVariable name).run state =
      match state.lookup? name with
      | some value => (.ok value, state)
      | none => (.error (.failed (.unknownName name)), state) := by
  unfold readVariable
  rw [run_bind]
  change (match state.lookup? name with
    | some value => (pure value : EvalM Value)
    | none => fail (.unknownName name)).run state = _
  cases state.lookup? name <;> rfl

/-- A value just bound to a name can be read from it. -/
theorem EvalM.run_readVariable_define {state : State} (h : state.HasScope) (name : String)
    (value : Value) :
    (readVariable name).run (state.define name value) =
      (.ok value, state.define name value) := by
  rw [run_readVariable, h.lookup?_define name value]

theorem EvalM.run_getHeap (state : State) : getHeap.run state = (.ok state.heap, state) := rfl

theorem EvalM.run_callNative (native : Native) (receiver : Value) (args : List Value)
    (s : State) :
    (callNative native receiver args).run s =
      ((native.call receiver args s.heap).1.mapError fun message => .failed (.native message),
        { s with heap := (native.call receiver args s.heap).2 }) := by
  obtain ⟨call⟩ := native
  unfold callNative
  rw [EvalM.run_bind, EvalM.run_getHeap]
  dsimp only
  rcases call receiver args s.heap with ⟨_ | _, heap⟩
  · rfl
  · rfl

/-- The evaluations give the same answer in states that agree, and states that agree again.
Scopes are never given up. -/
def EvalM.Agrees (hidden : String → Prop) (x y : EvalM α) : Prop :=
  ∀ s t : State, s.Agrees hidden t →
    (y.run t).1 = (x.run s).1 ∧ (x.run s).2.Agrees hidden (y.run t).2 ∧
      s.scopes.size ≤ (x.run s).2.scopes.size

namespace EvalM

variable {hidden : String → Prop}

theorem agrees_pure (a : α) : Agrees hidden (pure a) (pure a) :=
  fun _ _ h => ⟨rfl, h, Nat.le_refl _⟩

theorem agrees_throw (halt : Halt) :
    Agrees hidden (throw halt : EvalM α) (throw halt) :=
  fun _ _ h => ⟨rfl, h, Nat.le_refl _⟩

theorem agrees_fail (error : EvalError) :
    Agrees hidden (fail error : EvalM α) (fail error) :=
  agrees_throw _

/-- What is known of the answers of the first step may be used for the second. -/
theorem Agrees.bind_of {x y : EvalM α} {f g : α → EvalM β}
    (hxy : Agrees hidden x y) (known : α → Prop)
    (hknown : ∀ s a, (x.run s).1 = .ok a → known a)
    (hfg : ∀ a, known a → Agrees hidden (f a) (g a)) :
    Agrees hidden (x >>= f) (y >>= g) := by
  intro s t h
  have hanswer := hknown s
  obtain ⟨hresult, hstates, hsize⟩ := hxy s t h
  rw [run_bind, run_bind]
  rcases hx : x.run s with ⟨result, s'⟩
  rcases hy : y.run t with ⟨result', t'⟩
  simp only [hx, hy] at hresult hstates hsize hanswer
  subst hresult
  cases result' with
  | error halt => exact ⟨rfl, hstates, hsize⟩
  | ok a =>
      obtain ⟨hresult', hstates', hsize'⟩ := hfg a (hanswer a rfl) s' t' hstates
      exact ⟨hresult', hstates', Nat.le_trans hsize hsize'⟩

theorem Agrees.bind {x y : EvalM α} {f g : α → EvalM β} (hxy : Agrees hidden x y)
    (hfg : ∀ a, Agrees hidden (f a) (g a)) : Agrees hidden (x >>= f) (y >>= g) :=
  hxy.bind_of (fun _ => True) (fun _ _ _ => trivial) fun a _ => hfg a

/-- A step that reads the heap knows that the closures there mention no hidden name. -/
theorem agrees_getHeap_bind {f g : Heap → EvalM β}
    (hfg : ∀ heap : Heap, heap.Avoids hidden → Agrees hidden (f heap) (g heap)) :
    Agrees hidden (getHeap >>= f) (getHeap >>= g) := by
  intro s t h
  have hstep := hfg s.heap h.closures s t h
  rw [run_bind, run_bind, run_getHeap, run_getHeap, h.heap]
  exact hstep

theorem agrees_modifyHeap {change : Heap → Heap}
    (hchange : ∀ heap : Heap, heap.Avoids hidden → (change heap).Avoids hidden) :
    Agrees hidden (modifyHeap change) (modifyHeap change) := by
  intro s t h
  refine ⟨rfl, ?_, Nat.le_refl _⟩
  have hheap := h.setHeap (hchange s.heap h.closures)
  change State.Agrees hidden { s with heap := change s.heap } { t with heap := change t.heap }
  rw [h.heap]
  exact hheap

theorem agrees_allocate {make : Heap → Heap × Value}
    (hmake : ∀ heap : Heap, heap.Avoids hidden → (make heap).1.Avoids hidden) :
    Agrees hidden (allocate make) (allocate make) := by
  intro s t h
  have hheap := h.setHeap (hmake s.heap h.closures)
  change Except.ok (make t.heap).2 = Except.ok (make s.heap).2 ∧
    State.Agrees hidden { s with heap := (make s.heap).1 } { t with heap := (make t.heap).1 } ∧
      s.scopes.size ≤ s.scopes.size
  rw [h.heap]
  exact ⟨rfl, hheap, Nat.le_refl _⟩

theorem agrees_logCall (name : String) :
    Agrees hidden (logCall name) (logCall name) := by
  intro s t h
  refine ⟨rfl, ?_, Nat.le_refl _⟩
  change State.Agrees hidden { s with log := s.log.push name }
    { t with log := t.log.push name }
  exact { h with log := by rw [h.log] }

theorem agrees_readVariable {name : String} (hname : ¬ hidden name) :
    Agrees hidden (readVariable name) (readVariable name) := by
  intro s t h
  rw [run_readVariable, run_readVariable, h.lookup?_eq hname]
  cases s.lookup? name with
  | none => exact ⟨rfl, h, Nat.le_refl _⟩
  | some value => exact ⟨rfl, h, Nat.le_refl _⟩

theorem agrees_define (name : String) (value : Value) :
    Agrees hidden (modify fun state => state.define name value)
      (modify fun state => state.define name value) := by
  intro s t h
  exact ⟨rfl, h.define name value, Nat.le_of_eq (s.size_define name value).symm⟩

theorem agrees_writeVariable {name : String} (value : Value) (hname : ¬ hidden name) :
    Agrees hidden (writeVariable name value) (writeVariable name value) := by
  intro s t h
  exact ⟨rfl, h.assign value hname, Nat.le_of_eq (s.size_assign name value).symm⟩

theorem agrees_this :
    Agrees hidden (do return (← get).this : EvalM Value) (do return (← get).this) := by
  intro s t h
  exact ⟨congrArg Except.ok h.this, h, Nat.le_refl _⟩

/-- A new scope is the same in both states. -/
theorem agrees_withScope (outer : Env) (vars : OrderedMap Value) {x y : EvalM α}
    (hxy : Agrees hidden x y) :
    Agrees hidden (withScope outer vars x) (withScope outer vars y) := by
  intro s t h
  have hpush : State.Agrees hidden
      { s with scopes := s.scopes.push vars, env := s.scopes.size :: outer }
      { t with scopes := t.scopes.push vars, env := t.scopes.size :: outer } := by
    refine { h with
      env := ?_, size := ?_, vars := ?_, scope := ⟨s.scopes.size, outer, rfl, ?_⟩ }
    · rw [h.size]
    · simp [h.size]
    · intro id name hname
      have hold := h.vars id name hname
      unfold Scopes.get? at hold ⊢
      simp only [Array.getElem?_push, h.size]
      split
      · rfl
      · exact hold
    · simp
  obtain ⟨hresult, hstates, hsize⟩ := hxy _ _ hpush
  obtain ⟨inner, rest, henv, hlt⟩ := h.scope
  rw [Array.size_push] at hsize
  have hgrows := Nat.le_of_succ_le hsize
  refine ⟨hresult, ?_, hgrows⟩
  exact { hstates with
    env := h.env
    scope := ⟨inner, rest, henv, Nat.lt_of_lt_of_le hlt hgrows⟩ }

theorem agrees_inChildScope (vars : OrderedMap Value) {x y : EvalM α}
    (hxy : Agrees hidden x y) :
    Agrees hidden (inChildScope vars x) (inChildScope vars y) := by
  intro s t h
  have hscope := agrees_withScope s.env vars hxy s t h
  change ((withScope t.env vars y).run t).1 = ((withScope s.env vars x).run s).1 ∧
    ((withScope s.env vars x).run s).2.Agrees hidden ((withScope t.env vars y).run t).2 ∧ _
  rw [h.env]
  exact hscope

end EvalM

end StaticDispatch
