import StaticDispatch.Proofs.Eval.Methods
import StaticDispatch.Proofs.OrderedMap
import StaticDispatch.Lowering.KeywordConstructor
import StaticDispatch.Eval.Run

/-!
# The initializer of a keyword constructor

A keyword constructor evaluates all its values before it makes the object; the
closure that it becomes makes the object first, and then evaluates each value
and stores it.  No value can see the object before it is returned, and in the
end its fields hold the same.
-/

namespace StaticDispatch

open EvalM

/-! ## Fields -/

namespace Heap

theorem modifyFields_id (heap : Heap) (a : Address) :
    heap.modifyFields a (fun fields => fields) = heap := by
  unfold modifyFields
  have hobjects : heap.objects.modify a (fun object => object) = heap.objects := by
    apply Array.ext_getElem?
    intro i
    rw [Array.getElem?_modify]
    split
    · cases heap.objects[i]? <;> rfl
    · rfl
  exact congrArg (fun objects => { heap with objects }) hobjects

theorem modifyFields_modifyFields (heap : Heap) (a : Address)
    (first second : OrderedMap Value → OrderedMap Value) :
    (heap.modifyFields a first).modifyFields a second =
      heap.modifyFields a fun fields => second (first fields) := by
  unfold modifyFields
  congr 1
  apply Array.ext_getElem?
  intro i
  simp only [Array.getElem?_modify]
  split
  · cases heap.objects[i]? <;> rfl
  · rfl

theorem objects_modifyFields {heap : Heap} {a : Address} {object : Instance}
    (h : heap.objects[a]? = some object) (change : OrderedMap Value → OrderedMap Value) :
    (heap.modifyFields a change).objects[a]? =
      some { object with fields := change object.fields } := by
  simp [modifyFields, Array.getElem?_modify, h]

theorem objects_modifyFields_ne {heap : Heap} {a other : Address} (h : a ≠ other)
    (change : OrderedMap Value → OrderedMap Value) :
    (heap.modifyFields a change).objects[other]? = heap.objects[other]? := by
  simp [modifyFields, Array.getElem?_modify, h]

end Heap

theorem run_writeProperty {types : TypeTable} {state : State} {a : Address} {object : Instance}
    (hobject : state.heap.objects[a]? = some object) {name : String}
    (hname : object.fields.contains name = true) (value : Value) :
    (writeProperty types (.object a) name value).run state =
      (.ok (), { state with heap := state.heap.modifyFields a (·.insert name value) }) := by
  unfold writeProperty
  rw [run_bind, run_getHeap]
  have hfields : (state.heap.fields a).contains name = true := by
    simpa [Heap.fields, hobject] using hname
  simp only [hfields, if_true]
  rfl

theorem contains_of_run_writeProperty {types : TypeTable} {state after : State} {a : Address}
    {object : Instance} (hobject : state.heap.objects[a]? = some object) {name : String}
    {value : Value} {u : Unit}
    (h : (writeProperty types (.object a) name value).run state = (.ok u, after)) :
    object.fields.contains name = true := by
  unfold writeProperty at h
  rw [run_bind, run_getHeap] at h
  by_contra hname
  have hfields : (state.heap.fields a).contains name = false := by
    simpa [Heap.fields, hobject] using hname
  simp only [hfields, Bool.false_eq_true, if_false] at h
  exact nomatch (congrArg Prod.fst h : (.error _ : Except Halt Unit) = .ok u)

/-- Setting the properties one after the other comes to binding them all. -/
theorem run_setProperties {types : TypeTable} {state after : State} {a : Address}
    {object : Instance} (hobject : state.heap.objects[a]? = some object)
    {entries : List (String × Value)} {u : Unit}
    (h : (setProperties types (.object a) entries).run state = (.ok u, after)) :
    after = { state with heap := state.heap.modifyFields a (·.insertAll entries) } ∧
      ∀ name ∈ entries.map Prod.fst, object.fields.contains name = true := by
  induction entries generalizing state object with
  | nil =>
      obtain ⟨-, rfl⟩ := Prod.mk.inj h
      refine ⟨?_, fun name hname => nomatch hname⟩
      exact congrArg (fun heap => { state with heap }) (state.heap.modifyFields_id a).symm
  | cons entry rest ih =>
      obtain ⟨name, value⟩ := entry
      obtain ⟨u', middle, hfirst, hrest⟩ := exists_of_run_bind h
      have hcontains := contains_of_run_writeProperty hobject hfirst
      rw [run_writeProperty hobject hcontains] at hfirst
      obtain ⟨-, rfl⟩ := Prod.mk.inj hfirst
      obtain ⟨rfl, hnames⟩ := ih (Heap.objects_modifyFields hobject _) hrest
      constructor
      · simp only [Heap.modifyFields_modifyFields, OrderedMap.insertAll_cons]
      · intro other hother
        rw [List.map_cons, List.mem_cons] at hother
        rcases hother with rfl | hother
        · exact hcontains
        · have hinserted := hnames other hother
          rw [OrderedMap.contains_insert] at hinserted
          rcases hinserted with rfl | hold
          · exact hcontains
          · exact hold

/-! ## New objects -/

theorem known_defaultValue (types : TypeTable) (type : TypeId) (heap : Heap) :
    (defaultValue types type).KnownIn heap := by
  unfold defaultValue
  split <;> trivial

theorem known_insertAll {heap : Heap} {fields : OrderedMap Value}
    {entries : List (String × Value)}
    (hfields : ∀ name value, fields.get? name = some value → value.KnownIn heap)
    (hentries : ∀ entry ∈ entries, entry.2.KnownIn heap) :
    ∀ name value, (fields.insertAll entries).get? name = some value → value.KnownIn heap := by
  induction entries generalizing fields with
  | nil => exact hfields
  | cons entry rest ih =>
      rw [OrderedMap.insertAll_cons]
      apply ih
      · intro name value hget
        rw [OrderedMap.get?_insert] at hget
        split at hget
        · obtain rfl := Option.some.inj hget
          exact hentries entry List.mem_cons_self
        · exact hfields name value hget
      · exact fun other hother => hentries other (List.mem_cons_of_mem _ hother)

/-- A new object holds plain values. -/
theorem known_defaultFields (types : TypeTable) (type : TypeId) (heap : Heap) (name : String)
    (value : Value) (h : (defaultFields types type).get? name = some value) :
    value.KnownIn heap := by
  have hfold : ∀ (infos : List ClassInfo) (fields : OrderedMap Value),
      (∀ name value, fields.get? name = some value → value.KnownIn heap) →
      ∀ name value, (infos.foldl (fun fields info =>
        fields.insertAll (info.fields.entries.map fun field =>
          (field.1, defaultValue types field.2))) fields).get? name = some value →
        value.KnownIn heap := by
    intro infos
    induction infos with
    | nil => exact fun fields hfields => hfields
    | cons info rest ih =>
        intro fields hfields
        apply ih
        apply known_insertAll hfields
        intro entry hentry
        obtain ⟨field, -, rfl⟩ := List.mem_map.mp hentry
        exact known_defaultValue types field.2 heap
  exact hfold _ {} (fun _ _ hget => nomatch hget) name value h

theorem construct_eq {lib : Library} {type : TypeId}
    (hnone : lib.natives.get? ("new " ++ lib.types.name type) = none) (args : List Value) :
    construct lib type args = (do
      let object ← instantiate lib.types type
      match args with
      | [] => return object
      | [.map a] =>
        setProperties lib.types object ((← getHeap).entries a).entries
        return object
      | _ => fail (.noConstructor (lib.types.name type) args.length)) := by
  unfold construct
  dsimp only
  generalize lib.natives.get? ("new " ++ lib.types.name type) = native at hnone ⊢
  subst hnone
  rfl

theorem run_blankInstance {lib : Library} {owner : TypeId}
    (hnone : lib.natives.get? ("new " ++ lib.types.name owner) = none) (loops : Nat)
    (runBody : Block → EvalM Flow) (span : Span) (state : State) :
    ((blankInstance span owner).eval lib loops runBody).run state =
      (.ok (.object state.heap.objects.size),
        { state with
          heap := (state.heap.newObject owner (defaultFields lib.types owner)).1 }) := by
  simp only [blankInstance, Expr.eval, evalExprs, pure_bind, construct_eq hnone]
  rfl

/-! ## The closure -/

/-- The state in which the body of a closure made and called here begins. -/
def State.enterClosure (state : State) (body : Block) : State :=
  { state with
    heap := (state.heap.newClosure { params := [], body, env := state.env }).1
    log := state.log.push "call"
    scopes := state.scopes.push (OrderedMap.empty.insert "it" .null)
    env := state.scopes.size :: state.env }

theorem run_initializerCall (lib : Library) (loops : Nat) (runBody : Block → EvalM Flow)
    (info : Info) (owner : TypeId) (body : Block) (scope : VariableScope) (state : State) :
    ((initializerCall info owner body scope).eval lib loops runBody).run state =
      (((runBody body).run (state.enterClosure body)).1.map Flow.value,
        { ((runBody body).run (state.enterClosure body)).2 with env := state.env }) := by
  let made : State :=
    { state with
      heap := (state.heap.newClosure { params := [], body, env := state.env }).1
      log := state.log.push "call" }
  have hcall : (callClosure runBody state.heap.closures.size []).run made =
      (((runBody body).run (state.enterClosure body)).1.map Flow.value,
        { ((runBody body).run (state.enterClosure body)).2 with env := state.env }) := by
    unfold callClosure
    rw [run_bind, run_getHeap]
    simp only [made, Heap.newClosure, Array.getElem?_push_size]
    change (withScope state.env (OrderedMap.empty.insert "it" .null) (runBody body) >>=
      fun flow => pure flow.value).run made = _
    have hscope : (withScope state.env (OrderedMap.empty.insert "it" .null) (runBody body)).run
        made = (((runBody body).run (state.enterClosure body)).1,
          { ((runBody body).run (state.enterClosure body)).2 with env := state.env }) := rfl
    rw [run_bind, hscope]
    rcases (runBody body).run (state.enterClosure body) with ⟨result, after⟩
    cases result with
    | error halt => rfl
    | ok flow => rfl
  exact hcall

/-! ## The statements -/

section Statements

variable {lib : Library} {loops : Nat} {runBody : Block → EvalM Flow}

theorem evalStmts_expr (last : Option Value) (e : Expr) (rest : Block) {state after : State}
    {value : Value} (h : (e.eval lib loops runBody).run state = (.ok value, after)) :
    (evalStmts lib loops runBody last (.expr e :: rest)).run state =
      (evalStmts lib loops runBody (some value) rest).run after := by
  simp only [evalStmts, Stmt.eval, bind_assoc, pure_bind]
  exact run_bind_of_ok h

theorem run_localReference {name : String} {state : State} {value : Value}
    (h : state.lookup? name = some value) (span : Span) (owner : TypeId) :
    ((localReference span owner name).eval lib loops runBody).run state = (.ok value, state) := by
  simp only [localReference, Expr.eval]
  rw [run_readVariable, h]

theorem run_return {name : String} {state : State} {value : Value}
    (h : state.lookup? name = some value) (last : Option Value) (span : Span) (owner : TypeId) :
    (evalStmts lib loops runBody last
      [.ret (some (localReference span owner name)) span]).run state =
      (.ok (.returned value), state) := by
  simp only [evalStmts, Stmt.eval, bind_assoc, pure_bind]
  exact run_bind_of_ok (run_localReference h span owner)

/-- The assignment of a value to a property of the object that a local holds. -/
theorem run_setProperty {name property : String} {state middle : State} {a : Address}
    {object : Instance} {value : Value} (hlocal : state.lookup? name = some (.object a))
    (span span' : Span) (owner : TypeId) (e : Expr)
    (he : (e.eval lib loops runBody).run state = (.ok value, middle))
    (hobject : middle.heap.objects[a]? = some object)
    (hproperty : object.fields.contains property = true) :
    ((Expr.binary span.info .assign span
      (.property span.info (localReference span' owner name) property) e).eval lib loops
        runBody).run state =
      (.ok value,
        { middle with heap := middle.heap.modifyFields a (·.insert property value) }) := by
  simp only [Expr.eval, Expr.evalPlace, bind_assoc, pure_bind]
  rw [run_bind_of_ok (run_localReference hlocal span' owner), run_bind_of_ok he]
  exact run_bind_of_ok (run_writeProperty hobject hproperty value)

end Statements

/-! ## An object under construction -/

/-- Inside the closure, the local with this number holds an object that nothing else does. -/
structure Building (config : Config) (start : State) (locals : Env) (entered : State)
    (scope : ScopeId) (number : Nat) (a : Address) (object : Instance) (s t : State) : Prop where
  follows : State.Follows config start (scope :: locals) s t
  spares : State.Spares config (number + 1) entered t
  unseen : entered.heap.objects.size ≤ a
  unknown : start.heap.objects.size ≤ a
  inRange : scope < t.scopes.size
  bound : Scopes.get? t.scopes scope (syntheticName config.localStem number) = some (.object a)
  holds : t.heap.objects[a]? = some object

section Building

variable {config : Config} {start entered s t : State} {locals : Env} {scope : ScopeId}
  {number : Nat} {a : Address} {object : Instance}

theorem Building.lookup? (h : Building config start locals entered scope number a object s t) :
    t.lookup? (syntheticName config.localStem number) = some (.object a) := by
  unfold State.lookup?
  rw [h.follows.env, List.cons_append]
  unfold Scopes.lookup?
  rw [h.bound]

/-- Evaluating a value leaves the object as it is. -/
theorem Building.eval (h : Building config start locals entered scope number a object s t)
    {x y : EvalM Value} {valid : Value → Prop} {value : Value} {s' : State}
    (hxy : EvalM.Follows config start number valid x y) (hx : x.run s = (.ok value, s')) :
    ∃ t', y.run t = (.ok value, t') ∧
      Building config start locals entered scope number a object s' t' ∧ valid value := by
  obtain ⟨t', hy, hfollows, hspares, hvalue⟩ := hxy _ s t value s' h.follows hx
  have hlt : a < t.heap.objects.size := (Array.getElem?_eq_some_iff.mp h.holds).1
  refine ⟨t', hy, ⟨hfollows, h.spares.trans (hspares.mono (Nat.le_succ _)), h.unseen, h.unknown,
    Nat.lt_of_lt_of_le h.inRange hspares.size, ?_, ?_⟩, hvalue⟩
  · exact (hspares.names scope h.inRange number (Nat.le_refl _)).trans h.bound
  · exact (hspares.objects a hlt).trans h.holds

theorem Building.store (h : Building config start locals entered scope number a object s t)
    (property : String) (value : Value) :
    Building config start locals entered scope number a
      { object with fields := object.fields.insert property value } s
      { t with heap := t.heap.modifyFields a (·.insert property value) } := by
  have hshares : start.heap.Shares s.heap (t.heap.modifyFields a (·.insert property value)) :=
    { h.follows.heap with keptRight := h.follows.heap.keptRight.modifyFields h.unknown _ }
  refine ⟨{ h.follows with heap := hshares }, { h.spares with objects := ?_ }, h.unseen,
    h.unknown, h.inRange, h.bound, Heap.objects_modifyFields h.holds _⟩
  intro other hother
  have hne : a ≠ other := fun heq => absurd (heq ▸ h.unseen) (Nat.not_le_of_lt hother)
  exact (Heap.objects_modifyFields_ne hne _).trans (h.spares.objects other hother)

/-- The closure has just made its object. -/
theorem State.Follows.building (h : State.Follows config start locals s t) (number : Nat)
    (body : Block) (type : TypeId) (fields : OrderedMap Value) :
    Building config start locals (t.enterClosure body) t.scopes.size number
      t.heap.objects.size ⟨type, fields⟩ s
      (State.define
        { t.enterClosure body with
          heap := ((t.enterClosure body).heap.newObject type fields).1 }
        (syntheticName config.localStem number) (.object t.heap.objects.size)) := by
  obtain ⟨first, outer, henv, hfirst⟩ := h.scope
  have hpush : ∀ id name, id ≠ t.scopes.size →
      Scopes.get? (t.enterClosure body).scopes id name = Scopes.get? t.scopes id name := by
    intro id name hid
    simp only [Scopes.get?, State.enterClosure, Array.getElem?_push, hid, if_false]
  have hsize : (t.enterClosure body).scopes.size = t.scopes.size + 1 := Array.size_push _
  have hlast : t.scopes.size < (t.enterClosure body).scopes.size := hsize ▸ Nat.lt_succ_self _
  rw [State.define_of_env rfl]
  refine ⟨?_, ?_, Nat.le_refl _, h.heap.keptRight.objects_size_le, ?_, ?_, ?_⟩
  · refine
      { heap := ?_, env := ?_, scope := ?_, visible := h.visible, size := ?_, vars := ?_,
        inner := ?_, known := h.known, arrays := h.arrays }
    · exact { h.heap with keptRight := (h.heap.keptRight.newClosure _).newObject type fields }
    · simp only [State.enterClosure, h.env, List.cons_append]
    · exact ⟨t.scopes.size, t.env, rfl, by simpa only [Scopes.size_set] using hlast⟩
    · rw [Scopes.size_set, hsize]
      exact Nat.le_succ_of_le h.size
    · intro id hid name hname
      have hid' := Nat.lt_of_lt_of_le hid h.size
      rw [Scopes.get?_set, if_neg fun hboth => Nat.ne_of_gt hid' hboth.1,
        hpush id name (Nat.ne_of_lt hid')]
      exact h.vars id hid name hname
    · intro id hid name hname
      have hlocal : name ≠ syntheticName config.localStem number :=
        fun heq => hname (.inr (.inl ⟨number, heq⟩))
      rw [Scopes.get?_set, if_neg fun hboth => hlocal hboth.2.2]
      by_cases heq : id = t.scopes.size
      · have hit : name ≠ "it" := fun heq => hname (.inl heq)
        subst heq
        simp only [Scopes.get?, State.enterClosure, Array.getElem?_push_size, Option.bind_some]
        rw [OrderedMap.get?_insert, if_neg hit]
        rfl
      · rw [hpush id name heq]
        rcases List.mem_cons.mp hid with hcons | hlocals
        · exact absurd hcons heq
        · exact h.inner id hlocals name hname
  · refine ⟨rfl, Nat.le_of_eq (Scopes.size_set _ _ _ _).symm, ?_, ?_⟩
    · intro id hid other hother
      have hne : syntheticName config.localStem other ≠ syntheticName config.localStem number :=
        fun heq => absurd (syntheticName_number_inj heq) (Nat.ne_of_gt hother)
      rw [Scopes.get?_set, if_neg fun hboth => hne hboth.2.2]
    · intro other hother
      exact Heap.getElem?_push_of_eq hother rfl _
  · simpa only [Scopes.size_set] using hlast
  · rw [Scopes.get?_set, if_pos ⟨rfl, hlast, rfl⟩]
  · exact Array.getElem?_push_size

/-- Back outside, the object is all that the closure leaves. -/
theorem Building.leave {body : Block}
    (h : Building config start locals (t.enterClosure body) scope number a object s entered)
    (hscope : t.HasScope) :
    State.Follows config start locals s { entered with env := t.env } ∧
      State.Spares config (number + 1) t { entered with env := t.env } := by
  have hsize : t.scopes.size + 1 ≤ entered.scopes.size := by
    have hle := h.spares.size
    simpa only [State.enterClosure, Array.size_push] using hle
  have henv : t.env = locals ++ s.env := by
    have hinside := h.spares.env.symm.trans h.follows.env
    simp only [State.enterClosure, List.cons_append, List.cons.injEq] at hinside
    exact hinside.2
  obtain ⟨first, outer, hfirst, hlt⟩ := hscope
  constructor
  · exact
      { h.follows with
        env := henv
        scope := ⟨first, outer, hfirst, Nat.lt_of_lt_of_le hlt (Nat.le_of_succ_le hsize)⟩
        inner := fun id hid => h.follows.inner id (List.mem_cons_of_mem _ hid) }
  · refine ⟨rfl, Nat.le_of_succ_le hsize, ?_, h.spares.objects⟩
    intro id hid other hother
    have hpushed : id < (t.enterClosure body).scopes.size := by
      simp only [State.enterClosure, Array.size_push]
      exact Nat.lt_succ_of_lt hid
    rw [h.spares.names id hpushed other hother]
    simp only [Scopes.get?, State.enterClosure, Array.getElem?_push, Nat.ne_of_lt hid, if_false]

end Building

/-! ## Entries -/

/-- The texts of the literal keys. -/
def literalKeys (entries : List Entry) : List String :=
  entries.filterMap fun entry => entry.key.stringLiteral?

theorem Expr.exists_of_stringLiteral? {e : Expr} {text : String}
    (h : e.stringLiteral? = some text) : ∃ info, e = .literal info (.string text) := by
  unfold stringLiteral? at h
  split at h
  · obtain rfl := Option.some.inj h
    exact ⟨_, rfl⟩
  · exact nomatch h

theorem textOf_text (text : String) : textOf (.text text) = pure text := by
  apply ext_run
  intro state
  have htext : state.heap.text? (.text text) = some text :=
    state.heap.text?_of_textWithin? (rfl : state.heap.textWithin? 0 (.text text) = some text)
  unfold textOf
  rw [run_bind, run_getHeap]
  simp only [htext]

section Entries

variable {lib : Library} {loops loops' : Nat} {runBody runBody' : Block → EvalM Flow}

theorem evalEntries_cons {entry : Entry} {key : String}
    (hkey : entry.key.stringLiteral? = some key) (done : OrderedMap Value) (rest : List Entry) :
    evalEntries lib loops runBody done (entry :: rest) = (do
      let value ← entry.value.eval lib loops runBody
      evalEntries lib loops runBody (done.insert key value) rest) := by
  obtain ⟨name, value, span⟩ := entry
  obtain ⟨info, rfl⟩ := Expr.exists_of_stringLiteral? hkey
  simp only [evalEntries, Expr.eval, Literal.eval, pure_bind, textOf_text, Entry.value]

/-- Every literal key is in the map that is made. -/
theorem contains_of_run_evalEntries {entries : List Entry}
    (hkeys : ∀ entry ∈ entries, ∃ key, entry.key.stringLiteral? = some key)
    {done made : OrderedMap Value} {state after : State}
    (h : (evalEntries lib loops runBody done entries).run state = (.ok made, after))
    (name : String) :
    made.contains name = true ↔ name ∈ literalKeys entries ∨ done.contains name = true := by
  induction entries generalizing done state with
  | nil =>
      obtain ⟨hmade, -⟩ := Prod.mk.inj h
      obtain rfl := Except.ok.inj hmade
      simp [literalKeys]
  | cons entry rest ih =>
      obtain ⟨key, hkey⟩ := hkeys entry List.mem_cons_self
      rw [evalEntries_cons hkey] at h
      obtain ⟨value, middle, -, hrest⟩ := exists_of_run_bind h
      rw [ih (fun other hother => hkeys other (List.mem_cons_of_mem _ hother)) hrest,
        OrderedMap.contains_insert]
      simp only [literalKeys, List.filterMap_cons, hkey, List.mem_cons]
      rw [or_left_comm, or_assoc]

/-- The entries have the same literal key, and the value of the second follows. -/
def EntryFollows (config : Config) (start : State) (number : Nat) (lib : Library)
    (loops loops' : Nat) (runBody runBody' : Block → EvalM Flow) (entry out : Entry) : Prop :=
  ∃ key, entry.key.stringLiteral? = some key ∧ out.key.stringLiteral? = some key ∧
    EvalM.Follows config start number (Value.KnownIn start.heap)
      (entry.value.eval lib loops runBody) (out.value.eval lib loops' runBody')

variable {config : Config} {start entered : State} {locals : Env} {scope : ScopeId}
  {number : Nat} {a : Address}

theorem exists_key_of_follows {entries outs : List Entry}
    (h : List.Forall₂ (EntryFollows config start number lib loops loops' runBody runBody')
      entries outs) :
    ∀ entry ∈ entries, ∃ key, entry.key.stringLiteral? = some key := by
  induction h with
  | nil => exact nofun
  | cons hentry _ ih =>
      obtain ⟨key, hkey, -⟩ := hentry
      intro other hother
      rcases List.mem_cons.mp hother with rfl | hrest
      · exact ⟨key, hkey⟩
      · exact ih other hrest

/-- Behind the entries, the assignments store the values that the map takes up. -/
theorem run_assignments {entries outs : List Entry}
    (hentries : List.Forall₂ (EntryFollows config start number lib loops loops' runBody runBody')
      entries outs)
    (span : Span) (owner : TypeId) {object : Instance} {done made : OrderedMap Value}
    {s t s' : State} (last : Option Value)
    (hbuilding : Building config start locals entered scope number a object s t)
    (hrun : (evalEntries lib loops runBody done entries).run s = (.ok made, s'))
    (hfields : ∀ key ∈ literalKeys entries, object.fields.contains key = true) :
    ∃ (values : List (String × Value)) (t' : State), made = done.insertAll values ∧
      (∀ entry ∈ values, entry.2.KnownIn start.heap) ∧
      (evalStmts lib loops' runBody' last
        (outs.filterMap (setProperty? owner (syntheticName config.localStem number)) ++
          [.ret (some (localReference span owner
            (syntheticName config.localStem number))) span])).run t =
        (.ok (.returned (.object a)), t') ∧
      Building config start locals entered scope number a
        { object with fields := object.fields.insertAll values } s' t' := by
  induction hentries generalizing object done s t last with
  | nil =>
      obtain ⟨hmade, rfl⟩ := Prod.mk.inj hrun
      obtain rfl := Except.ok.inj hmade
      exact ⟨[], t, rfl, nofun, run_return hbuilding.lookup? last span owner,
        hbuilding⟩
  | @cons entry out rest outs hentry _ ih =>
      obtain ⟨key, hkey, hout, hvalue⟩ := hentry
      obtain ⟨name, e, span'⟩ := out
      rw [evalEntries_cons hkey] at hrun
      obtain ⟨value, middle, hfirst, hrest⟩ := exists_of_run_bind hrun
      obtain ⟨t₁, he, hbuilding₁, hknown⟩ := hbuilding.eval hvalue hfirst
      have hkeys : literalKeys (entry :: rest) = key :: literalKeys rest := by
        simp only [literalKeys, List.filterMap_cons, hkey]
      have hcontains := hfields key (by rw [hkeys]; exact List.mem_cons_self)
      have hset := run_setProperty hbuilding.lookup? span' span' owner e he hbuilding₁.holds
        hcontains
      have hfields' : ∀ other ∈ literalKeys rest,
          (object.fields.insert key value).contains other = true := by
        intro other hother
        rw [OrderedMap.contains_insert]
        exact .inr (hfields other (by rw [hkeys]; exact List.mem_cons_of_mem _ hother))
      obtain ⟨values, t', rfl, hvalues, hstmts, hbuilding'⟩ :=
        ih (some value) (hbuilding₁.store key value) hrest hfields'
      have hstatement : setProperty? owner (syntheticName config.localStem number)
          (.mk name e span') = some (.expr (.binary span'.info .assign span'
            (.property span'.info (localReference span' owner
              (syntheticName config.localStem number)) key) e)) := by
        simp only [Entry.key] at hout
        simp only [setProperty?, hout, Option.map_some]
      refine ⟨(key, value) :: values, t', rfl, ?_, ?_, hbuilding'⟩
      · intro other hother
        rcases List.mem_cons.mp hother with rfl | hrest'
        · exact hknown
        · exact hvalues other hrest'
      · rw [List.filterMap_cons, hstatement, List.cons_append, evalStmts_expr last _ _ hset]
        exact hstmts

end Entries

/-! ## The whole call -/

theorem run_construct_map {lib : Library} {type : TypeId}
    (hnone : lib.natives.get? ("new " ++ lib.types.name type) = none) {a : Address}
    {object : Value} {state after : State}
    (h : (construct lib type [.map a]).run state = (.ok object, after)) :
    object = .object state.heap.objects.size ∧
      after = { state with
        heap := (state.heap.newObject type (defaultFields lib.types type)).1.modifyFields
          state.heap.objects.size (·.insertAll (state.heap.entries a).entries) } ∧
      after.heap.fields state.heap.objects.size =
        (defaultFields lib.types type).insertAll (state.heap.entries a).entries ∧
      ∀ name, (state.heap.entries a).contains name = true →
        (defaultFields lib.types type).contains name = true := by
  rw [construct_eq hnone] at h
  have hobject : (state.heap.newObject type (defaultFields lib.types type)).1.objects[
      state.heap.objects.size]? = some ⟨type, defaultFields lib.types type⟩ :=
    Array.getElem?_push_size
  obtain ⟨u, middle, hset, hreturn⟩ : ∃ u middle,
      (setProperties lib.types (.object state.heap.objects.size)
        (state.heap.entries a).entries).run { state with
          heap := (state.heap.newObject type (defaultFields lib.types type)).1 } =
        (.ok u, middle) ∧
      (pure (.object state.heap.objects.size) : EvalM Value).run middle = (.ok object, after) :=
    exists_of_run_bind h
  obtain ⟨hvalue, rfl⟩ := Prod.mk.inj hreturn
  obtain rfl := Except.ok.inj hvalue
  obtain ⟨rfl, hnames⟩ := run_setProperties hobject hset
  refine ⟨rfl, rfl, ?_, ?_⟩
  · unfold Heap.fields
    rw [Heap.objects_modifyFields hobject]
    rfl
  · intro name hname
    apply hnames
    by_contra hmem
    unfold OrderedMap.contains OrderedMap.get? at hname
    rw [OrderedMap.lookup_eq_none_of_not_mem hmem] at hname
    exact nomatch hname

theorem run_readProperty {state after : State} {a : Address} {name : String} {value : Value}
    (h : (readPlace (.property (.object a) name)).run state = (.ok value, after)) :
    after = state ∧ (state.heap.fields a).get? name = some value := by
  unfold readPlace at h
  rw [run_bind, run_getHeap] at h
  simp only [readProperty] at h
  cases hget : (state.heap.fields a).get? name with
  | none =>
      simp only [hget, liftFailure] at h
      exact absurd (Prod.mk.inj h).1 (by simp)
  | some held =>
      simp only [hget, liftFailure] at h
      obtain ⟨hvalue, rfl⟩ := Prod.mk.inj h
      exact ⟨rfl, congrArg some (Except.ok.inj hvalue)⟩

theorem run_readProperty_of_get? {state : State} {a : Address} {name : String} {value : Value}
    (h : (state.heap.fields a).get? name = some value) :
    (readPlace (.property (.object a) name)).run state = (.ok value, state) := by
  unfold readPlace
  rw [run_bind, run_getHeap]
  simp only [readProperty, h]
  rfl

section Whole

variable {config : Config} {start : State} {number : Nat} {lib : Library} {loops loops' : Nat}
  {runBody : Block → EvalM Flow}

/-- Where a property of the object that a keyword constructor makes can be read, the object
has all the names of the map, and its fields are the default ones written over by the map. -/
theorem run_keywordConstructor (hlib : lib.OnlyMaximum) {entries : List Entry}
    {pinfo info minfo : Info} {type : TypeId} {property : String} {value : Value}
    {state after : State}
    (hrun : ((Expr.property pinfo (.constructorCall info type [.map minfo entries])
      property).eval lib loops runBody).run state = (.ok value, after)) :
    ∃ made middle, (evalEntries lib loops runBody {} entries).run state = (.ok made, middle) ∧
      after = { middle with
        heap := ((middle.heap.newMap made).1.newObject type
          (defaultFields lib.types type)).1.modifyFields middle.heap.objects.size
            (·.insertAll made.entries) } ∧
      (∀ name, made.contains name = true →
        (defaultFields lib.types type).contains name = true) ∧
      ((defaultFields lib.types type).insertAll made.entries).get? property = some value := by
  simp only [Expr.eval, evalExprs, bind_assoc, pure_bind] at hrun
  obtain ⟨made, middle, hmade, hrest⟩ := exists_of_run_bind hrun
  obtain ⟨object, last, hconstruct, hread⟩ : ∃ object last,
      (construct lib type [.map middle.heap.maps.size]).run
        { middle with heap := (middle.heap.newMap made).1 } = (.ok object, last) ∧
      (readPlace (.property object property)).run last = (.ok value, after) :=
    exists_of_run_bind hrest
  obtain ⟨rfl, hlast, hwritten, hfields⟩ :=
    run_construct_map (hlib.get?_constructor type) hconstruct
  obtain ⟨rfl, hget⟩ := run_readProperty hread
  have hmap : (middle.heap.newMap made).1.entries middle.heap.maps.size = made := by
    simp [Heap.entries, Heap.newMap]
  rw [hwritten] at hget
  rw [hmap] at hfields hget hlast
  exact ⟨made, middle, hmade, hlast, hfields, hget⟩

/-- Reading a property of the object that a keyword constructor makes, before and after it
became the call of a closure. -/
theorem follows_keywordConstructor (hlib : lib.OnlyMaximum) {budget : Nat}
    {entries outs : List Entry}
    (hentries : List.Forall₂ (EntryFollows config start number lib loops budget runBody
      (StaticDispatch.runBody lib budget)) entries outs)
    (pinfo pinfo' info info' minfo : Info) (span : Span) (type : TypeId) (scope : VariableScope)
    (property : String) :
    EvalM.Follows config start (number + 1) (Value.KnownIn start.heap)
      ((Expr.property pinfo (.constructorCall info type [.map minfo entries]) property).eval
        lib loops runBody)
      ((Expr.property pinfo'
        (initializerCall info' type
          (initializerBody span type (syntheticName config.localStem number) outs) scope)
        property).eval lib loops' (StaticDispatch.runBody lib (budget + 1))) := by
  intro locals s t value s' h hx
  obtain ⟨made, s₁, hmade, rfl, hfields, hget⟩ := run_keywordConstructor hlib hx
  have hcontains := contains_of_run_evalEntries (exists_key_of_follows hentries) hmade
  let name := syntheticName config.localStem number
  let body := initializerBody span type name outs
  let defaults := defaultFields lib.types type
  have hstart := h.building number body type defaults
  have hdeclaration := run_blankInstance (hlib.get?_constructor type) budget
    (StaticDispatch.runBody lib budget) span (t.enterClosure body)
  obtain ⟨values, t', rfl, hvalues, hstmts, hend⟩ := run_assignments hentries span type
    (some (.object t.heap.objects.size)) hstart hmade
    fun key hkey => hfields key ((hcontains key).mpr (.inl hkey))
  have hbody : (StaticDispatch.runBody lib (budget + 1) body).run (t.enterClosure body) =
      (.ok (.returned (.object t.heap.objects.size)), t') := by
    rw [← hstmts]
    apply evalStmts_expr
    simp only [Expr.eval]
    exact run_bind_of_ok hdeclaration
  have hcall := run_initializerCall lib loops' (StaticDispatch.runBody lib (budget + 1)) info'
    type body scope t
  rw [hbody] at hcall
  obtain ⟨hfollows, hspares⟩ := hend.leave h.scope
  have hvalue : (defaults.insertAll values).get? property = some value := by
    rw [← hget, OrderedMap.get?_insertAll_insertAll]
  have hread : (t'.heap.fields t.heap.objects.size).get? property = some value := by
    simpa [Heap.fields, hend.holds] using hvalue
  refine ⟨{ t' with env := t.env }, ?_, ?_, hspares, ?_⟩
  · simp only [Expr.eval]
    rw [run_bind_of_ok hcall]
    exact run_readProperty_of_get? hread
  · have hkept := hfollows.heap.keptLeft
    have hleft := ((hkept.newMap (({} : OrderedMap Value).insertAll values)).newObject type
      defaults).modifyFields hkept.objects_size_le
        (·.insertAll (({} : OrderedMap Value).insertAll values).entries)
    exact { hfollows with heap := { hfollows.heap with keptLeft := hleft } }
  · exact known_insertAll (known_defaultFields lib.types type start.heap) hvalues property value
      hvalue

end Whole

end StaticDispatch
