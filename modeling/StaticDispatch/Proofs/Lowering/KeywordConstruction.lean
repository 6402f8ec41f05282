import StaticDispatch.Proofs.Eval.ScopeAside
import StaticDispatch.Proofs.Lowering.Initializer
import StaticDispatch.Proofs.Lowering.Sugar

/-!
# Keyword constructors keep their meaning

The closure that a keyword constructor becomes makes its object before the
values are evaluated and not after, in a scope with names of its own.  So the
objects and closures that the values make are found one address further on, and
an unknown property fails between two values and not behind the last.
-/

namespace StaticDispatch

open EvalM

/-! ## States -/

/-- Natives treat all objects and closures alike, but those that are in the heap. -/
def Library.KnowsOnly (lib : Library) (heap : Heap) : Prop :=
  ∀ ρ : Relocation, (∀ value : Value, value.KnownIn heap → ρ.value value = value) →
    lib.Relocates ρ

/-- An object and a closure were made before anything else. -/
def Relocation.behind (heap : Heap) : Relocation where
  object := skip heap.objects.size
  closure := skip heap.closures.size
  object_injective := skip_injective _
  closure_injective := skip_injective _

theorem Relocation.behind_value {heap : Heap} {value : Value} (h : value.KnownIn heap) :
    (behind heap).value value = value := by
  cases value with
  | object a => exact congrArg Value.object (skip_of_lt h)
  | closure a => exact congrArg Value.closure (skip_of_lt h)
  | _ => rfl

/-- The names that the closure binds. -/
def Config.BindsInside (config : Config) (name : String) : Prop :=
  name = "it" ∨ IsSynthetic config.localStem name

/-- The second evaluation is in the closure, which holds an object that the first does not
have. -/
def Detour.initializer (config : Config) (start : State) (object : Instance) : Detour :=
  .beside (.behind start.heap) start config.BindsInside (fun _ => some object)
    (start.log.push "call")

theorem eq_of_forall_skip_ne {gap n : Nat} (h : ∀ k, skip gap k ≠ n) : n = gap := by
  by_contra hne
  rcases Nat.lt_or_gt_of_ne hne with hlt | hgt
  · exact h n (skip_of_lt hlt)
  · obtain ⟨k, rfl⟩ := Nat.exists_eq_add_of_lt hgt
    apply h (gap + k)
    rw [skip_add]
    omega

/-- Inside the closure: `t` came of the same as `s`, and a local holds an object that nothing else
refers to. -/
structure Initializing (config : Config) (start : State) (name : String) (object : Instance)
    (s t : State) : Prop where
  mirrors : s.Mirrors ((Detour.initializer config start object).bind name
    (.object start.heap.objects.size)) t
  view : (View.beside start config.BindsInside).Holds
    ((Detour.initializer config start object).bind name (.object start.heap.objects.size)) s t
  env : s.env = start.env

namespace Initializing

variable {config : Config} {start s t : State} {name : String} {object : Instance}
  {lib : Library}

theorem lookup? (h : Initializing config start name object s t) :
    t.lookup? name = some (.object start.heap.objects.size) := by
  obtain ⟨rest, henv⟩ := List.head?_eq_some_iff.mp (h.view.aside trivial)
  have hlocal := h.mirrors.get?_local (Detour.locals_bind_self _ name _)
  rw [State.lookup?, henv, Scopes.lookup?, hlocal]

theorem holds (h : Initializing config start name object s t) :
    t.heap.objects[start.heap.objects.size]? = some object :=
  h.mirrors.others _ (skip_ne _)

theorem eval (h : Initializing config start name object s t) (hlib : lib.KnowsOnly start.heap)
    (budget : Nat) {e : Expr} (he : e.Fits (.beside start config.BindsInside)) :
    ((evaluate lib budget e).run t).1 =
        ((evaluate lib budget e).run s).1.map (Relocation.behind start.heap).value ∧
      Initializing config start name object ((evaluate lib budget e).run s).2
        ((evaluate lib budget e).run t).2 := by
  have hrelocates := hlib (.behind start.heap) fun _ => Relocation.behind_value
  have hanswers : Answers ((Detour.initializer config start object).bind name
      (.object start.heap.objects.size)) (Relocation.behind start.heap).value s t
      ((evaluate lib budget e).run s) ((evaluate lib budget e).run t) :=
    he.mirrors (δ := (Detour.initializer config start object).bind name _) hrelocates s t
      h.mirrors h.view
  exact ⟨hanswers.result, hanswers.mirrors, hanswers.holds h.view, hanswers.env.trans h.env⟩

theorem store (h : Initializing config start name object s t) (key : String) (value : Value) :
    Initializing config start name { object with fields := object.fields.insert key value } s
      { t with
        heap := t.heap.modifyFields start.heap.objects.size (·.insert key value) } := by
  have hmirrors := h.mirrors
  have hheap : (Relocation.behind start.heap).Maps s.heap
      (t.heap.modifyFields start.heap.objects.size (·.insert key value)) := by
    refine { hmirrors.heap with objects := ?_, nextObject := ?_ }
    · intro a
      have hne : start.heap.objects.size ≠ (Relocation.behind start.heap).object a :=
        (skip_ne _ a).symm
      rw [Heap.objects_modifyFields_ne hne]
      exact hmirrors.heap.objects a
    · intro n
      simp only [Heap.modifyFields, Array.size_modify]
      exact hmirrors.heap.nextObject n
  refine ⟨{ hmirrors with heap := hheap, others := ?_ }, ?_, h.env⟩
  · intro a ha
    rw [eq_of_forall_skip_ne ha]
    exact Heap.objects_modifyFields h.holds _
  · exact ⟨h.view.sees, h.view.innermost, h.view.aside, h.view.bound⟩

end Initializing

/-! ## The assignments -/

section Assignments

variable {config : Config} {start s t : State} {name : String} {object : Instance}
  {lib : Library}

end Assignments

/-! ## The whole call -/

section Whole

variable {config : Config} {start : State} {lib : Library} {type : TypeId}

end Whole

/-! ### A class with one field -/

/-- `[content: first, content: second, ..]` -/
def contents (values : List Expr) : List Entry :=
  values.map fun value => .mk (.literal {} (.string "content")) value {}

end StaticDispatch
