import StaticDispatch.Proofs.Eval.MirroredTrees

/-!
# Entering a scope aside

A block, or the body of a closure that is called where it is made, begins in a
new scope.  An expression that is evaluated there, and not in the scope around,
finds the variables that it would find there, and binds none of its own.
-/

namespace StaticDispatch

open EvalM

/-- Every scope that is visible now or to a closure exists. -/
structure State.WellScoped (state : State) : Prop where
  visible : ∀ id ∈ state.env, id < state.scopes.size
  captured : ∀ (a : Address) (code : ClosureCode), state.heap.closures[a]? = some code →
    ∀ id ∈ code.env, id < state.scopes.size

/-- The second state has a scope besides, which was opened last. -/
def Detour.beside (ρ : Relocation) (start : State) (hidden : String → Prop)
    (object? : Address → Option Instance) (logged : Array String) : Detour where
  toRelocation := ρ
  scope := skip start.scopes.size
  aside := start.scopes.size
  hidden := hidden
  locals _ := none
  object? := object?
  logLeft := start.log
  logRight := logged
  scope_injective := skip_injective _
  scope_ne_aside := skip_ne _

/-- In the scope aside all names may be read but the hidden ones, and those may be assigned that
were bound when it was entered. -/
def View.beside (start : State) (hidden : String → Prop) : View where
  reads name := ¬ hidden name
  declares := False
  aside := True
  bound name := (start.lookup? name).isSome = true

namespace State.WellScoped

variable {ρ : Relocation} {start : State} {hidden : String → Prop}
  {object? : Address → Option Instance} {logged : Array String}

/-- Where the second state holds what the first one holds, and has its new scope besides. -/
theorem mirrors_beside (h : start.WellScoped) {heap : Heap} {vars : OrderedMap Value}
    (hmaps : ρ.Maps start.heap heap)
    (hclosures : ∀ a, heap.closures[ρ.closure a]? = start.heap.closures[a]?)
    (hnext : ∀ n, ρ.closure (start.heap.closures.size + n) = heap.closures.size + n)
    (hothers : ∀ a, (∀ b, ρ.object b ≠ a) → heap.objects[a]? = object? a)
    (hvalues : ∀ vars ∈ start.scopes, vars.map ρ.value = vars)
    (hthis : ρ.value start.this = start.this)
    (hvars : ∀ name, ¬ hidden name → vars.get? name = none) :
    start.Mirrors (.beside ρ start hidden object? logged)
      { start with
        heap
        scopes := start.scopes.push vars
        env := start.scopes.size :: start.env
        log := logged } := by
  refine ⟨hmaps, ?_, hnext, hothers, ?_, ?_, ?_, hthis.symm, ⟨#[], ?_, ?_⟩⟩
  · intro a
    change Option.Rel _ start.heap.closures[a]? heap.closures[ρ.closure a]?
    rw [hclosures]
    cases hcode : start.heap.closures[a]? with
    | none => exact .none
    | some code => exact .some ⟨rfl, rfl, .inl (map_skip (h.captured a code hcode)).symm⟩
  · intro id
    change (start.scopes.push vars)[skip start.scopes.size id]? =
      (start.scopes[id]?).map (·.map ρ.value)
    rw [getElem?_push_skip]
    cases hscope : start.scopes[id]? with
    | none => rfl
    | some scope => exact congrArg some (hvalues scope (Array.mem_of_getElem? hscope)).symm
  · intro n
    change skip start.scopes.size (start.scopes.size + n) = (start.scopes.push vars).size + n
    rw [skip_add, Array.size_push]
  · exact ⟨vars, Array.getElem?_push_size, hvars, fun _ _ hlocal => nomatch hlocal⟩
  · simp [Detour.beside]
  · simp [Detour.beside]

theorem holds_beside (h : start.WellScoped) (δ : Detour)
    (hscope : δ.scope = skip start.scopes.size) (haside : δ.aside = start.scopes.size)
    (hhidden : δ.hidden = hidden) {t : State} (henv : t.env = start.scopes.size :: start.env) :
    (View.beside start hidden).Holds δ start t := by
  refine ⟨.inr ⟨[], start.env, rfl, ?_, ?_⟩, False.elim, fun _ => ?_, fun _ => id⟩
  · rw [henv, hscope, haside, map_skip h.visible]
    rfl
  · exact fun name hname hit => absurd (hhidden ▸ hit) hname
  · rw [henv, haside]
    rfl

theorem scopes_eq {δ : Detour} (hscope : δ.scope = skip start.scopes.size) {s t : State}
    (hmirrors : s.Mirrors δ t) {id : ScopeId} (hid : id < start.scopes.size) :
    t.scopes[id]? = (s.scopes[id]?).map (·.map δ.value) := by
  have hat := hmirrors.scopes id
  rwa [hscope, skip_of_lt hid] at hat

/-- Outside of the scope aside again, the variables are found. -/
theorem lookup?_eq (h : start.WellScoped) {δ : Detour}
    (hscope : δ.scope = skip start.scopes.size) {s t : State} (hmirrors : s.Mirrors δ t)
    (name : String) :
    Scopes.lookup? t.scopes name start.env =
      (Scopes.lookup? s.scopes name start.env).map δ.value := by
  have hmap := hmirrors.lookup?_map name start.env
  rwa [hscope, map_skip h.visible] at hmap

end State.WellScoped

/-! ## Expressions in a scope aside -/

/-- The write leaves the scope around with the names that it has. -/
def ScopeWrite.KeepsNames (state : State) : ScopeWrite → Prop
  | .declares _ => False
  | .assigns name => (state.lookup? name).isSome = true

instance (state : State) : (write : ScopeWrite) → Decidable (write.KeepsNames state)
  | .declares _ => inferInstanceAs (Decidable False)
  | .assigns name => inferInstanceAs (Decidable ((state.lookup? name).isSome = true))

/-- The view allows what the expression reads and writes. -/
structure Expr.Fits (view : View) (e : Expr) : Prop where
  reads : ∀ name ∈ e.free, view.reads name
  writes : ∀ write ∈ e.writes, view.Permits write

theorem Expr.Fits.mirrors {δ : Detour} {view : View} {lib : Library} {budget : Nat} {e : Expr}
    (h : e.Fits view) (hlib : lib.Relocates δ.toRelocation) :
    Mirrors δ view δ.value (e.eval lib budget (runBody lib budget))
      (e.eval lib budget (runBody lib budget)) :=
  mirrors_evaluate hlib budget e h.reads h.writes

/-- An expression that reads no hidden name fits into the scope aside, if it declares no
variable and assigns only what is bound. -/
theorem Expr.fits_beside {start : State} {hidden : String → Prop} {e : Expr}
    (hreads : ∀ name ∈ e.free, ¬ hidden name)
    (hwrites : ∀ write ∈ e.writes, write.KeepsNames start) : e.Fits (.beside start hidden) := by
  refine ⟨hreads, ?_⟩
  intro write hwrite
  have hkeeps := hwrites write hwrite
  cases write with
  | declares name => exact hkeeps
  | assigns name => exact .inr hkeeps

end StaticDispatch
