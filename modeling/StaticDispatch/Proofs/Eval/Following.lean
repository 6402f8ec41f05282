import StaticDispatch.Proofs.Eval.Agreement
import StaticDispatch.Proofs.Eval.Text
import StaticDispatch.Proofs.Lowering.Names

/-!
# One evaluation behind another

A lowered tree makes scopes, closures and objects that its original does not,
so that the two states drift apart.  What stays common is kept here: the
sequences, everything that the heap held at the start, and the variables but
for temporaries.  An evaluation follows another when it gives the same value
wherever the other gives one, and comes to a state that follows again.
-/

namespace StaticDispatch

variable {α β : Type}

/-! ## Heaps with a common part -/

/-- The map, object or closure that the value refers to is in the heap. -/
def Value.KnownIn (heap : Heap) : Value → Prop
  | .map a => a < heap.maps.size
  | .object a => a < heap.objects.size
  | .closure a => a < heap.closures.size
  | _ => True

namespace Heap

/-- The newer heap has the maps, objects and closures of the older one as they were. -/
structure Keeps (older newer : Heap) : Prop where
  maps : ∀ a < older.maps.size, newer.maps[a]? = older.maps[a]?
  objects : ∀ a < older.objects.size, newer.objects[a]? = older.objects[a]?
  closures : ∀ a < older.closures.size, newer.closures[a]? = older.closures[a]?

theorem Keeps.refl (heap : Heap) : heap.Keeps heap :=
  ⟨fun _ _ => rfl, fun _ _ => rfl, fun _ _ => rfl⟩

theorem lt_size_of_getElem?_eq {γ : Type} {older newer : Array γ} {a : Nat}
    (hlt : a < older.size) (h : newer[a]? = older[a]?) : a < newer.size := by
  by_contra hge
  rw [Array.getElem?_eq_none (Nat.le_of_not_lt hge), Array.getElem?_eq_getElem hlt] at h
  exact nomatch h

theorem getElem?_push_of_eq {γ : Type} {older newer : Array γ} {a : Nat} (hlt : a < older.size)
    (h : newer[a]? = older[a]?) (item : γ) : (newer.push item)[a]? = older[a]? := by
  rw [Array.getElem?_push, if_neg (Nat.ne_of_lt (lt_size_of_getElem?_eq hlt h)), h]

theorem Keeps.objects_size_le {older newer : Heap} (h : older.Keeps newer) :
    older.objects.size ≤ newer.objects.size := by
  by_contra hlt
  have hsize := Nat.lt_of_not_le hlt
  exact absurd (lt_size_of_getElem?_eq hsize (h.objects _ hsize)) (Nat.lt_irrefl _)

theorem Keeps.newMap {older newer : Heap} (h : older.Keeps newer) (entries : OrderedMap Value) :
    older.Keeps (newer.newMap entries).1 :=
  { h with maps := fun a ha => getElem?_push_of_eq ha (h.maps a ha) entries }

theorem Keeps.newObject {older newer : Heap} (h : older.Keeps newer) (type : TypeId)
    (fields : OrderedMap Value) : older.Keeps (newer.newObject type fields).1 :=
  { h with objects := fun a ha => getElem?_push_of_eq ha (h.objects a ha) _ }

theorem Keeps.newClosure {older newer : Heap} (h : older.Keeps newer) (code : ClosureCode) :
    older.Keeps (newer.newClosure code).1 :=
  { h with closures := fun a ha => getElem?_push_of_eq ha (h.closures a ha) code }

/-- An object that the older heap does not hold may change. -/
theorem Keeps.modifyFields {older newer : Heap} (h : older.Keeps newer) {a : Address}
    (ha : older.objects.size ≤ a) (change : OrderedMap Value → OrderedMap Value) :
    older.Keeps (newer.modifyFields a change) := by
  refine { h with objects := ?_ }
  intro other hother
  have hne : a ≠ other := fun heq => absurd (heq ▸ ha) (Nat.not_le_of_lt hother)
  simp only [Heap.modifyFields, Array.getElem?_modify, hne, if_false]
  exact h.objects other hother

/-- The heaps have the same sequences, and have grown apart in the rest.  What sequences
and the old maps hold is in the common heap. -/
structure Shares (common left right : Heap) : Prop where
  sequences : right.sequences = left.sequences
  keptLeft : common.Keeps left
  keptRight : common.Keeps right
  items : ∀ a, ∀ value ∈ (left.items a).toList, value.KnownIn common
  entries : ∀ a < common.maps.size, ∀ value ∈ (common.entries a).values, value.KnownIn common

namespace Shares

variable {common left right : Heap}

theorem items_eq (h : common.Shares left right) (a : Address) : right.items a = left.items a := by
  unfold Heap.items
  rw [h.sequences]

theorem left_entries (h : common.Shares left right) {a : Address} (ha : a < common.maps.size) :
    left.entries a = common.entries a := by
  unfold Heap.entries
  rw [h.keptLeft.maps a ha]

theorem right_entries (h : common.Shares left right) {a : Address} (ha : a < common.maps.size) :
    right.entries a = common.entries a := by
  unfold Heap.entries
  rw [h.keptRight.maps a ha]

theorem inside_known (h : common.Shares left right) {value : Value}
    (hvalue : value.KnownIn common) : ∀ w ∈ left.inside value, w.KnownIn common := by
  cases value with
  | list a => exact h.items a
  | array a => exact h.items a
  | map a =>
      intro w hw
      simp only [inside, h.left_entries hvalue] at hw
      exact h.entries a hvalue w hw
  | _ => exact fun w hw => absurd hw List.not_mem_nil

theorem textOver?_eq (h : common.Shares left right) (inner? : Value → Option String)
    {value : Value} (hvalue : value.KnownIn common) :
    right.textOver? inner? value = left.textOver? inner? value := by
  cases value with
  | list a => simp only [textOver?, h.items_eq]
  | array a => simp only [textOver?, h.items_eq]
  | map a => simp only [textOver?, h.left_entries hvalue, h.right_entries hvalue]
  | object a =>
      simp only [textOver?, objectType, h.keptLeft.objects a hvalue, h.keptRight.objects a hvalue]
  | closure a =>
      simp only [textOver?, h.keptLeft.closures a hvalue, h.keptRight.closures a hvalue]
  | bool b => cases b <;> rfl
  | _ => rfl

theorem textWithin?_eq (h : common.Shares left right) (depth : Nat) {value : Value}
    (hvalue : value.KnownIn common) :
    right.textWithin? depth value = left.textWithin? depth value := by
  induction depth generalizing value with
  | zero => exact h.textOver?_eq _ hvalue
  | succ depth ih =>
      unfold textWithin?
      rw [h.textOver?_eq _ hvalue]
      apply left.textOver?_congr
      intro w hw
      exact ih (h.inside_known hvalue w hw)

/-- The text of a common value is the same in both heaps, although they are not of one
size and look for it to different depths. -/
theorem text?_eq (h : common.Shares left right) {value : Value} (hvalue : value.KnownIn common)
    {text : String} (htext : left.text? value = some text) : right.text? value = some text := by
  have hwithin := (h.textWithin?_eq _ hvalue).trans htext
  exact right.text?_of_textWithin? hwithin

end Shares

end Heap

/-! ## States -/

/-- The names that a lowering puts into a tree. -/
def Config.Introduces (config : Config) (name : String) : Prop :=
  name = "it" ∨ IsSynthetic config.localStem name ∨ IsSynthetic config.temporaryStem name

/-- The second state has some `locals` scopes before those that are visible in the first,
with introduced names only, and else the same variables but for temporaries.  Variables that
were there at the start still are, and those with an array still have it. -/
structure State.Follows (config : Config) (start : State) (locals : Env) (s t : State) :
    Prop where
  heap : start.heap.Shares s.heap t.heap
  env : t.env = locals ++ s.env
  scope : t.HasScope
  visible : ∀ id ∈ s.env, id < s.scopes.size
  size : s.scopes.size ≤ t.scopes.size
  vars : ∀ id < s.scopes.size, ∀ name, ¬ IsSynthetic config.temporaryStem name →
    Scopes.get? t.scopes id name = Scopes.get? s.scopes id name
  inner : ∀ id ∈ locals, ∀ name, ¬ config.Introduces name → Scopes.get? t.scopes id name = none
  known : ∀ name v, start.lookup? name = some v → v.KnownIn start.heap →
    ∃ w, s.lookup? name = some w ∧ w.KnownIn start.heap
  arrays : ∀ name a, start.lookup? name = some (.array a) → s.lookup? name = some (.array a)

namespace State.Follows

variable {config : Config} {start s t : State} {locals : Env}

theorem get?_eq (h : State.Follows config start locals s t) {id : ScopeId} (hid : id ∈ s.env)
    {name : String} (hname : ¬ config.Introduces name) :
    Scopes.get? t.scopes id name = Scopes.get? s.scopes id name :=
  h.vars id (h.visible id hid) name fun hsynthetic => hname (.inr (.inr hsynthetic))

theorem lookup?_eq (h : State.Follows config start locals s t) {name : String}
    (hname : ¬ config.Introduces name) : t.lookup? name = s.lookup? name := by
  unfold State.lookup?
  rw [h.env, Scopes.lookup?_append,
    Scopes.lookup?_eq_none fun id hid => h.inner id hid name hname, Option.none_or]
  exact Scopes.lookup?_congr fun id hid => h.get?_eq hid hname

theorem owner?_eq (h : State.Follows config start locals s t) {name : String}
    (hname : ¬ config.Introduces name) :
    Scopes.owner? t.scopes name t.env = Scopes.owner? s.scopes name s.env := by
  have hlocals : Scopes.owner? t.scopes name locals = none := by
    unfold Scopes.owner?
    rw [List.find?_eq_none]
    intro id hid
    simp [h.inner id hid name hname]
  unfold Scopes.owner? at hlocals
  unfold Scopes.owner?
  rw [h.env, List.find?_append, hlocals, Option.none_or]
  exact Scopes.owner?_congr fun id hid => h.get?_eq hid hname

/-- The same write to a variable that was there at the start and had no array. -/
theorem assign (h : State.Follows config start locals s t) {name : String}
    (hname : ¬ config.Introduces name) {old value : Value}
    (hold : start.lookup? name = some old) (hknown : old.KnownIn start.heap)
    (harray : ∀ a, old ≠ .array a) (hvalue : value.KnownIn start.heap) :
    State.Follows config start locals (s.assign name value) (t.assign name value) := by
  obtain ⟨current, hcurrent, -⟩ := h.known name old hold hknown
  obtain ⟨id, hid, howner, hsome⟩ := Scopes.exists_owner hcurrent
  have hlt := h.visible id hid
  have hlt' := Nat.lt_of_lt_of_le hlt h.size
  have howner' := (h.owner?_eq hname).trans howner
  have hlookup : ∀ asked, ({ s with scopes := Scopes.set s.scopes id name value } :
      State).lookup? asked = if asked = name then some value else s.lookup? asked :=
    fun asked => Scopes.lookup?_set_owner howner hlt value asked
  rw [State.assign_of_owner howner, State.assign_of_owner howner']
  obtain ⟨first, outer, henv, hfirst⟩ := h.scope
  refine { h with
    scope := ⟨first, outer, henv, ?_⟩, visible := ?_, size := ?_, vars := ?_, inner := ?_,
    known := ?_, arrays := ?_ }
  · simpa only [Scopes.size_set] using hfirst
  · simpa only [Scopes.size_set] using h.visible
  · simpa only [Scopes.size_set] using h.size
  · intro other hother asked hasked
    rw [Scopes.size_set] at hother
    simp only [Scopes.get?_set, hlt, hlt', h.vars other hother asked hasked]
  · intro other hother asked hasked
    rw [Scopes.get?_set, h.inner other hother asked hasked]
    by_cases hboth : id = other ∧ id < t.scopes.size ∧ asked = name
    · obtain ⟨rfl, -, rfl⟩ := hboth
      rw [← h.get?_eq hid hname, h.inner id hother asked hname] at hsome
      exact nomatch hsome
    · rw [if_neg hboth]
  · intro asked v hv hvknown
    rw [hlookup]
    by_cases hasked : asked = name
    · rw [if_pos hasked]
      exact ⟨value, rfl, hvalue⟩
    · rw [if_neg hasked]
      exact h.known asked v hv hvknown
  · intro asked a ha
    have hasked : asked ≠ name := by
      rintro rfl
      exact harray a (Option.some.inj (hold.symm.trans ha))
    rw [hlookup, if_neg hasked]
    exact h.arrays asked a ha

/-- A temporary bound in the second state. -/
theorem defineRight (h : State.Follows config start locals s t) (number : Nat) (value : Value) :
    State.Follows config start locals s
      (t.define (syntheticName config.temporaryStem number) value) := by
  obtain ⟨first, outer, henv, hfirst⟩ := h.scope
  rw [State.define_of_env henv]
  refine { h with
    scope := ⟨first, outer, henv, ?_⟩, size := ?_, vars := ?_, inner := ?_ }
  · simpa only [Scopes.size_set] using hfirst
  · simpa only [Scopes.size_set] using h.size
  · intro other hother asked hasked
    have hne : asked ≠ syntheticName config.temporaryStem number :=
      fun heq => hasked ⟨number, heq⟩
    rw [Scopes.get?_set, if_neg fun hboth => hne hboth.2.2]
    exact h.vars other hother asked hasked
  · intro other hother asked hasked
    have hne : asked ≠ syntheticName config.temporaryStem number :=
      fun heq => hasked (.inr (.inr ⟨number, heq⟩))
    rw [Scopes.get?_set, if_neg fun hboth => hne hboth.2.2]
    exact h.inner other hother asked hasked

end State.Follows

/-! ## What is left alone -/

/-- From the one state to the other, no object and no introduced local with a number from
`bound` on has changed. -/
structure State.Spares (config : Config) (bound : Nat) (before after : State) : Prop where
  env : after.env = before.env
  size : before.scopes.size ≤ after.scopes.size
  names : ∀ id < before.scopes.size, ∀ number, bound ≤ number →
    Scopes.get? after.scopes id (syntheticName config.localStem number) =
      Scopes.get? before.scopes id (syntheticName config.localStem number)
  objects : ∀ a < before.heap.objects.size,
    after.heap.objects[a]? = before.heap.objects[a]?

namespace State.Spares

variable {config : Config} {bound : Nat} {before middle after : State}

theorem refl (state : State) : State.Spares config bound state state :=
  ⟨rfl, Nat.le_refl _, fun _ _ _ _ => rfl, fun _ _ => rfl⟩

theorem trans (hfirst : State.Spares config bound before middle)
    (hsecond : State.Spares config bound middle after) :
    State.Spares config bound before after := by
  refine ⟨hsecond.env.trans hfirst.env, Nat.le_trans hfirst.size hsecond.size, ?_, ?_⟩
  · intro id hid number hnumber
    exact (hsecond.names id (Nat.lt_of_lt_of_le hid hfirst.size) number hnumber).trans
      (hfirst.names id hid number hnumber)
  · intro a ha
    have hmiddle := hfirst.objects a ha
    exact (hsecond.objects a (Heap.lt_size_of_getElem?_eq ha hmiddle)).trans hmiddle

theorem mono {larger : Nat} (h : State.Spares config bound before after)
    (hle : bound ≤ larger) : State.Spares config larger before after :=
  { h with names := fun id hid number hnumber => h.names id hid number (hle.trans hnumber) }

/-- A write to a name that is no introduced local of such a number. -/
theorem set {id : ScopeId} {name : String}
    (hname : ∀ number, bound ≤ number → syntheticName config.localStem number ≠ name)
    (value : Value) :
    State.Spares config bound before
      { before with scopes := Scopes.set before.scopes id name value } := by
  refine ⟨rfl, Nat.le_of_eq (Scopes.size_set _ _ _ _).symm, ?_, fun _ _ => rfl⟩
  intro other hother number hnumber
  rw [Scopes.get?_set, if_neg fun hboth => hname number hnumber hboth.2.2]

end State.Spares

/-! ## Evaluations -/

namespace EvalM

/-- Where the first evaluation gives a value, the second gives the same one.  Its state then
follows again, and has spared what it was to leave alone. -/
def Follows (config : Config) (start : State) (bound : Nat) (valid : α → Prop)
    (x y : EvalM α) : Prop :=
  ∀ locals s t a s', State.Follows config start locals s t → x.run s = (.ok a, s') →
    ∃ t', y.run t = (.ok a, t') ∧ State.Follows config start locals s' t' ∧
      State.Spares config bound t t' ∧ valid a

section Rules

variable {config : Config} {start : State} {bound : Nat} {valid : α → Prop}
  {goal : β → Prop}

theorem follows_pure {a : α} (ha : valid a) :
    Follows config start bound valid (pure a) (pure a) := by
  intro locals s t b s' h hx
  obtain ⟨hb, rfl⟩ := Prod.mk.inj hx
  obtain rfl := Except.ok.inj hb
  exact ⟨t, rfl, h, State.Spares.refl t, ha⟩

theorem follows_throw (halt : Halt) (y : EvalM α) :
    Follows config start bound valid (throw halt) y := by
  intro locals s t a s' h hx
  exact nomatch (congrArg Prod.fst hx : (.error halt : Except Halt α) = .ok a)

theorem follows_fail (error : EvalError) (y : EvalM α) :
    Follows config start bound valid (fail error) y :=
  follows_throw _ y

theorem Follows.bind {x y : EvalM α} {f g : α → EvalM β}
    (hxy : Follows config start bound valid x y)
    (hfg : ∀ a, valid a → Follows config start bound goal (f a) (g a)) :
    Follows config start bound goal (x >>= f) (y >>= g) := by
  intro locals s t b s' h hx
  obtain ⟨a, middle, hfirst, hsecond⟩ := exists_of_run_bind hx
  obtain ⟨t₁, hy, h₁, hspares₁, ha⟩ := hxy locals s t a middle h hfirst
  obtain ⟨t₂, hg, h₂, hspares₂, hb⟩ := hfg a ha locals middle t₁ b s' h₁ hsecond
  refine ⟨t₂, ?_, h₂, hspares₁.trans hspares₂, hb⟩
  rw [run_bind_of_ok hy, hg]

theorem Follows.mono {larger : Nat} {x y : EvalM α}
    (hxy : Follows config start bound valid x y) (hle : bound ≤ larger) :
    Follows config start larger valid x y := by
  intro locals s t a s' h hx
  obtain ⟨t', hy, h', hspares, ha⟩ := hxy locals s t a s' h hx
  exact ⟨t', hy, h', hspares.mono hle, ha⟩

/-! ## Logs -/

theorem Follows.logLeft {x y : EvalM α} (name : String)
    (hxy : Follows config start bound valid x y) :
    Follows config start bound valid (logCall name >>= fun _ => x) y := by
  intro locals s t a s' h hx
  have hlogged : State.Follows config start locals { s with log := s.log.push name } t :=
    { h with }
  exact hxy locals _ t a s' hlogged hx

theorem Follows.logRight {x y : EvalM α} (name : String)
    (hxy : Follows config start bound valid x y) :
    Follows config start bound valid x (logCall name >>= fun _ => y) := by
  intro locals s t a s' h hx
  have hlogged : State.Follows config start locals s { t with log := t.log.push name } :=
    { h with }
  obtain ⟨t', hy, h', hspares, ha⟩ := hxy locals s _ a s' hlogged hx
  exact ⟨t', hy, h', { hspares with }, ha⟩

theorem Follows.logBoth {x y : EvalM α} (name : String)
    (hxy : Follows config start bound valid x y) :
    Follows config start bound valid (logCall name >>= fun _ => x) (logCall name >>= fun _ => y) :=
  (hxy.logRight name).logLeft name

/-! ## Variables -/

theorem follows_readVariable {name : String} (hname : ¬ config.Introduces name) {old : Value}
    (hold : start.lookup? name = some old) (hknown : old.KnownIn start.heap) :
    Follows config start bound (Value.KnownIn start.heap) (readVariable name)
      (readVariable name) := by
  intro locals s t a s' h hx
  obtain ⟨current, hcurrent, hvalue⟩ := h.known name old hold hknown
  rw [run_readVariable, hcurrent] at hx
  obtain ⟨ha, rfl⟩ := Prod.mk.inj hx
  obtain rfl := Except.ok.inj ha
  refine ⟨t, ?_, h, State.Spares.refl t, hvalue⟩
  rw [run_readVariable, h.lookup?_eq hname, hcurrent]

theorem follows_readArray {name : String} (hname : ¬ config.Introduces name) {items : Address}
    (hold : start.lookup? name = some (.array items)) :
    Follows config start bound (fun value => value = .array items) (readVariable name)
      (readVariable name) := by
  intro locals s t a s' h hx
  have hcurrent := h.arrays name items hold
  rw [run_readVariable, hcurrent] at hx
  obtain ⟨ha, rfl⟩ := Prod.mk.inj hx
  obtain rfl := Except.ok.inj ha
  refine ⟨t, ?_, h, State.Spares.refl t, rfl⟩
  rw [run_readVariable, h.lookup?_eq hname, hcurrent]

theorem follows_writeVariable {name : String} (hname : ¬ config.Introduces name)
    {old value : Value} (hold : start.lookup? name = some old) (hknown : old.KnownIn start.heap)
    (harray : ∀ a, old ≠ .array a) (hvalue : value.KnownIn start.heap) :
    Follows config start bound (fun _ => True) (writeVariable name value)
      (writeVariable name value) := by
  intro locals s t a s' h hx
  obtain ⟨-, rfl⟩ := Prod.mk.inj hx
  refine ⟨t.assign name value, rfl, h.assign hname hold hknown harray hvalue, ?_, trivial⟩
  have howned : ∃ id, Scopes.owner? t.scopes name t.env = some id := by
    obtain ⟨current, hcurrent, -⟩ := h.known name old hold hknown
    obtain ⟨id, -, howner, -⟩ := Scopes.exists_owner hcurrent
    exact ⟨id, (h.owner?_eq hname).trans howner⟩
  obtain ⟨id, howner⟩ := howned
  rw [State.assign_of_owner howner]
  exact State.Spares.set (fun number _ heq => hname (.inr (.inl ⟨number, heq.symm⟩))) value

/-- A temporary with a number below the bound may be bound at any time. -/
theorem Follows.defineRight {x y : EvalM α} (hxy : Follows config start bound valid x y)
    {number : Nat} (hnumber : number < bound) (value : Value) :
    Follows config start bound valid x (do
      modify fun state => state.define (syntheticName config.temporaryStem number) value
      y) := by
  intro locals s t a s' h hx
  obtain ⟨t', hy, h', hspares, ha⟩ := hxy locals s _ a s' (h.defineRight number value) hx
  refine ⟨t', hy, h', State.Spares.trans ?_ hspares, ha⟩
  obtain ⟨first, outer, henv, -⟩ := h.scope
  rw [State.define_of_env henv]
  apply State.Spares.set
  intro other hother heq
  exact absurd (syntheticName_number_inj heq) (Nat.ne_of_gt (Nat.lt_of_lt_of_le hnumber hother))

/-- A temporary just bound may stand for its value. -/
theorem Follows.bindTemporary {x : EvalM β} {value : Value} {f : Value → EvalM β}
    (hxy : Follows config start bound goal x (f value)) {number : Nat} (hnumber : number < bound) :
    Follows config start bound goal x (do
      modify fun state => state.define (syntheticName config.temporaryStem number) value
      let read ← readVariable (syntheticName config.temporaryStem number)
      f read) := by
  intro locals s t b s' h hx
  obtain ⟨t', hy, h', hspares, hb⟩ := hxy.defineRight hnumber value locals s t b s' h hx
  refine ⟨t', ?_, h', hspares, hb⟩
  change (readVariable _ >>= f).run (t.define _ value) = _
  rw [run_bind_of_ok (run_readVariable_define h.scope _ value)]
  exact hy

/-! ## The heap -/

theorem follows_getHeap_bind {f g : Heap → EvalM β}
    (hfg : ∀ left right : Heap, start.heap.Shares left right →
      Follows config start bound goal (f left) (g right)) :
    Follows config start bound goal (getHeap >>= f) (getHeap >>= g) :=
  fun locals s t b s' h hx => hfg s.heap t.heap h.heap locals s t b s' h hx

theorem follows_textOf {value : Value} (hvalue : value.KnownIn start.heap) :
    Follows config start bound (fun _ => True) (textOf value) (textOf value) := by
  apply follows_getHeap_bind
  intro left right hshares
  cases hleft : left.text? value with
  | none => exact follows_throw _ _
  | some text =>
      rw [hshares.text?_eq hvalue hleft]
      exact follows_pure trivial

/-- The sequences change in the same way, and to common values. -/
theorem follows_modifyItems {a : Address} {change : Array Value → Array Value}
    (hchange : ∀ items : Array Value, (∀ value ∈ items.toList, value.KnownIn start.heap) →
      ∀ value ∈ (change items).toList, value.KnownIn start.heap) :
    Follows config start bound (fun _ => True) (modifyHeap fun heap => heap.modifyItems a change)
      (modifyHeap fun heap => heap.modifyItems a change) := by
  intro locals s t b s' h hx
  obtain ⟨-, rfl⟩ := Prod.mk.inj hx
  have hshares : start.heap.Shares (s.heap.modifyItems a change)
      (t.heap.modifyItems a change) := by
    refine
      { sequences := ?_
        keptLeft := { h.heap.keptLeft with }
        keptRight := { h.heap.keptRight with }
        items := ?_
        entries := h.heap.entries }
    · simp only [Heap.modifyItems, h.heap.sequences]
    · intro other value hvalue
      simp only [Heap.items, Heap.modifyItems, Array.getElem?_modify] at hvalue
      by_cases heq : a = other
      · subst heq
        cases hitems : s.heap.sequences[a]? with
        | none => simp [hitems] at hvalue
        | some items =>
            have hold := h.heap.items a
            simp only [Heap.items, hitems, Option.getD_some] at hold
            simp only [hitems, if_true, Option.map_some, Option.getD_some] at hvalue
            exact hchange items hold value hvalue
      · rw [if_neg heq] at hvalue
        exact h.heap.items other value hvalue
  refine ⟨{ t with heap := t.heap.modifyItems a change }, rfl, { h with heap := hshares }, ?_,
    trivial⟩
  exact { State.Spares.refl t with }

theorem follows_newList (items : Heap → List Value)
    (hitems : ∀ left right : Heap, start.heap.Shares left right →
      items right = items left ∧ ∀ value ∈ items left, value.KnownIn start.heap) :
    Follows config start bound (Value.KnownIn start.heap)
      (allocate fun heap => heap.newList (items heap))
      (allocate fun heap => heap.newList (items heap)) := by
  intro locals s t b s' h hx
  obtain ⟨hb, rfl⟩ := Prod.mk.inj hx
  obtain rfl := Except.ok.inj hb
  obtain ⟨hsame, hknown⟩ := hitems s.heap t.heap h.heap
  have hshares : start.heap.Shares (s.heap.newList (items s.heap)).1
      (t.heap.newList (items s.heap)).1 := by
    refine
      { sequences := ?_
        keptLeft := { h.heap.keptLeft with }
        keptRight := { h.heap.keptRight with }
        items := ?_
        entries := h.heap.entries }
    · simp only [Heap.newList, Heap.newSequence, h.heap.sequences]
    · intro other value hvalue
      simp only [Heap.newList, Heap.newSequence, Heap.items, Array.getElem?_push] at hvalue
      split at hvalue
      · exact hknown value (by simpa using hvalue)
      · exact h.heap.items other value hvalue
  refine ⟨{ t with heap := (t.heap.newList (items s.heap)).1 }, ?_, { h with heap := hshares },
    ?_, trivial⟩
  · change (Except.ok (Value.list t.heap.sequences.size),
      { t with heap := (t.heap.newList (items t.heap)).1 }) = _
    rw [h.heap.sequences, hsame]
  · exact { State.Spares.refl t with }

end Rules

end EvalM

end StaticDispatch
