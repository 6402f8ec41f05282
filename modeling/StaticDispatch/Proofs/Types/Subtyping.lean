import Mathlib.Algebra.BigOperators.Group.Finset.Basic
import Mathlib.Algebra.Order.BigOperators.Group.Finset
import Mathlib.Logic.Relation
import Mathlib.Order.WellFoundedSet
import StaticDispatch.Proofs.Types.Lineage
import StaticDispatch.Types.Query

/-!
# The search for a type above another

The search keeps no record of the types that it has looked at.  Where it ends
it tells whether the target is among the types above, and it ends exactly if
the types that it comes to do not lead it round in a circle.  A search that
ends takes no more steps than the fuel that the table gives it.
-/

namespace StaticDispatch.TypeTable

variable {table : TypeTable} {target : TypeId}

/-- An edge of the hierarchy, to the superclass or to an interface. -/
def IsParent (table : TypeTable) (t parent : TypeId) : Prop :=
  parent ∈ table.parents t

/-! ## Searches that end -/

/-- The search with these pending types ends, with this answer and after this many steps. -/
inductive Settles (table : TypeTable) (target : TypeId) : List TypeId → Bool → Nat → Prop
  | exhausted : Settles table target [] false 0
  | found {pending : List TypeId} : Settles table target (target :: pending) true 1
  | passed {t : TypeId} {pending : List TypeId} {answer : Bool} {steps : Nat}
      (hne : t ≠ target)
      (hrest : Settles table target ((table.parents t).reverse ++ pending) answer steps) :
      Settles table target (t :: pending) answer (steps + 1)

theorem Settles.searchAbove {pending : List TypeId} {answer : Bool} {steps : Nat}
    (h : table.Settles target pending answer steps) {fuel : Nat} (hfuel : steps ≤ fuel) :
    table.searchAbove target fuel pending = some answer := by
  induction h generalizing fuel with
  | exhausted => simp only [TypeTable.searchAbove]
  | found =>
      obtain ⟨fuel, rfl⟩ : ∃ less, fuel = less + 1 := ⟨fuel - 1, by omega⟩
      simp only [TypeTable.searchAbove, if_pos]
  | passed hne hrest ih =>
      obtain ⟨fuel, rfl⟩ : ∃ less, fuel = less + 1 := ⟨fuel - 1, by omega⟩
      simp only [TypeTable.searchAbove, if_neg hne]
      exact ih (Nat.le_of_succ_le_succ hfuel)

theorem exists_settles_of_searchAbove {fuel : Nat} {pending : List TypeId} {answer : Bool}
    (h : table.searchAbove target fuel pending = some answer) :
    ∃ steps, table.Settles target pending answer steps := by
  induction fuel generalizing pending with
  | zero =>
      cases pending with
      | nil =>
          obtain rfl := Option.some.inj h
          exact ⟨0, .exhausted⟩
      | cons t pending => cases h
  | succ fuel ih =>
      cases pending with
      | nil =>
          obtain rfl := Option.some.inj h
          exact ⟨0, .exhausted⟩
      | cons t pending =>
          simp only [TypeTable.searchAbove] at h
          by_cases ht : t = target
          · rw [if_pos ht] at h
            obtain rfl := Option.some.inj h
            subst ht
            exact ⟨1, .found⟩
          · rw [if_neg ht] at h
            obtain ⟨steps, hsteps⟩ := ih h
            exact ⟨steps + 1, .passed ht hsteps⟩

namespace Settles

variable {xs ys pending : List TypeId} {answer other : Bool} {steps count : Nat}

theorem unique (h : table.Settles target pending answer steps)
    (hother : table.Settles target pending other count) : answer = other ∧ steps = count := by
  induction h generalizing other count with
  | exhausted =>
      cases hother
      exact ⟨rfl, rfl⟩
  | found =>
      cases hother with
      | found => exact ⟨rfl, rfl⟩
      | passed hne hrest => exact absurd rfl hne
  | passed hne hrest ih =>
      cases hother with
      | found => exact absurd rfl hne
      | passed hne' hrest' =>
          obtain ⟨hanswer, hsteps⟩ := ih hrest'
          exact ⟨hanswer, congrArg (· + 1) hsteps⟩

/-- What is found among the first pending types is found. -/
theorem append_of_found (h : table.Settles target xs true steps) (ys : List TypeId) :
    table.Settles target (xs ++ ys) true steps := by
  generalize hanswer : true = answer at h
  induction h with
  | exhausted => cases hanswer
  | found => exact .found
  | passed hne hrest ih =>
      have hlonger := ih hanswer
      rw [List.append_assoc] at hlonger
      exact .passed hne hlonger

/-- Behind types that are searched in vain the search goes on. -/
theorem append (h : table.Settles target xs false steps)
    (hys : table.Settles target ys answer count) :
    table.Settles target (xs ++ ys) answer (steps + count) := by
  generalize hnone : false = vain at h
  induction h with
  | exhausted =>
      rw [Nat.zero_add]
      exact hys
  | found => cases hnone
  | @passed t pending vain steps hne hrest ih =>
      have hlonger := ih hnone
      rw [List.append_assoc] at hlonger
      rw [Nat.add_right_comm]
      exact .passed hne hlonger

/-- A search of two lists finds the target in the first one or goes through it in vain. -/
theorem split (h : table.Settles target (xs ++ ys) answer steps) :
    (answer = true ∧ table.Settles target xs true steps) ∨
      ∃ before after, steps = before + after ∧ table.Settles target xs false before ∧
        table.Settles target ys answer after := by
  generalize hlist : xs ++ ys = list at h
  induction h generalizing xs with
  | exhausted =>
      obtain ⟨rfl, rfl⟩ := List.append_eq_nil_iff.mp hlist
      exact .inr ⟨0, 0, rfl, .exhausted, .exhausted⟩
  | @found pending =>
      cases xs with
      | nil =>
          subst hlist
          exact .inr ⟨0, 1, rfl, .exhausted, .found⟩
      | cons x xs =>
          obtain ⟨rfl, -⟩ := List.cons.inj hlist
          exact .inl ⟨rfl, .found⟩
  | @passed t pending answer steps hne hrest ih =>
      cases xs with
      | nil =>
          subst hlist
          exact .inr ⟨0, steps + 1, (Nat.zero_add _).symm, .exhausted, .passed hne hrest⟩
      | cons x xs =>
          obtain ⟨rfl, rfl⟩ := List.cons.inj hlist
          rcases ih (List.append_assoc _ _ _) with
            ⟨hanswer, hfirst⟩ | ⟨before, after, hsum, hfirst, hsecond⟩
          · exact .inl ⟨hanswer, .passed hne hfirst⟩
          · refine .inr ⟨before + 1, after, ?_, .passed hne hfirst, hsecond⟩
            omega

/-- The answer of a search that ends is right. -/
theorem answer_iff (h : table.Settles target pending answer steps) :
    answer = true ↔ ∃ t ∈ pending, Relation.ReflTransGen table.IsParent t target := by
  induction h with
  | exhausted => simp
  | found => exact iff_of_true rfl ⟨target, List.mem_cons_self, .refl⟩
  | @passed t pending answer steps hne hrest ih =>
      rw [ih]
      constructor
      · rintro ⟨u, hu, habove⟩
        rcases List.mem_append.mp hu with hparent | hpending
        · exact ⟨t, List.mem_cons_self, .head (List.mem_reverse.mp hparent) habove⟩
        · exact ⟨u, List.mem_cons_of_mem _ hpending, habove⟩
      · rintro ⟨u, hu, habove⟩
        rcases List.mem_cons.mp hu with rfl | hpending
        · rcases Relation.ReflTransGen.cases_head habove with heq | ⟨parent, hparent, hrest⟩
          · exact absurd heq hne
          · exact ⟨parent, List.mem_append_left _ (List.mem_reverse.mpr hparent), hrest⟩
        · exact ⟨u, List.mem_append_right _ hpending, habove⟩

end Settles

/-! ## Searches without end -/

/-- The search from a type, which is not the target, comes to this parent of it: it has gone
through the later parents in vain. -/
def ComesTo (table : TypeTable) (target t parent : TypeId) : Prop :=
  t ≠ target ∧ ∃ earlier later, table.parents t = earlier ++ parent :: later ∧
    ∃ steps, table.Settles target later.reverse false steps

/-- The search from a type ends. -/
def Ends (table : TypeTable) (target t : TypeId) : Prop :=
  ∃ answer steps, table.Settles target [t] answer steps

/-- The types from which the search comes back to where it was. -/
def GoesRound (table : TypeTable) (target t : TypeId) : Prop :=
  Relation.TransGen (table.ComesTo target) t t

theorem ComesTo.isParent {t parent : TypeId} (h : table.ComesTo target t parent) :
    table.IsParent t parent := by
  obtain ⟨-, earlier, later, hparents, -⟩ := h
  unfold IsParent
  rw [hparents]
  exact List.mem_append_right _ List.mem_cons_self

theorem parents_eq_nil {t : TypeId} (ht : table.types.size ≤ t.index) :
    table.parents t = [] := by
  have htype : table.type? t = none := Array.getElem?_eq_none ht
  simp only [parents, classInfo?, htype]

theorem ComesTo.lt_size {t parent : TypeId} (h : table.ComesTo target t parent) :
    t.index < table.types.size := by
  by_contra hge
  have hparent := h.isParent
  unfold IsParent at hparent
  rw [parents_eq_nil (Nat.le_of_not_lt hge)] at hparent
  exact nomatch hparent

/-- From a parent that it comes to, the search takes fewer steps. -/
theorem ComesTo.fewer_steps {t parent : TypeId} (h : table.ComesTo target t parent)
    {answer : Bool} {steps : Nat} (hsettles : table.Settles target [t] answer steps) :
    ∃ answer' less, table.Settles target [parent] answer' less ∧ less < steps := by
  obtain ⟨hne, earlier, later, hparents, vain, hvain⟩ := h
  cases hsettles with
  | found => exact absurd rfl hne
  | @passed _ _ _ steps _ hrest =>
      have hlist : (table.parents t).reverse ++ [] =
          later.reverse ++ ([parent] ++ earlier.reverse) := by
        rw [hparents]
        simp
      rw [hlist] at hrest
      rcases hrest.split with ⟨-, hfound⟩ | ⟨before, after, hsum, -, hbehind⟩
      · exact nomatch (hvain.unique hfound).1
      · rcases hbehind.split with ⟨-, hfound⟩ | ⟨first, second, hsum', hfirst, -⟩
        · exact ⟨true, after, hfound, by omega⟩
        · exact ⟨false, first, hfirst, by omega⟩

/-- The search from a type ends if it does so from the parents that it comes to. -/
theorem ends_of_comesTo {t : TypeId}
    (h : ∀ parent, table.ComesTo target t parent → table.Ends target parent) :
    table.Ends target t := by
  by_cases hne : t = target
  · subst hne
    exact ⟨true, 1, .found⟩
  -- the later parents are searched in vain, the earlier ones are still to come
  have hparents : ∀ earlier later, table.parents t = earlier ++ later →
      (∃ steps, table.Settles target later.reverse false steps) →
      ∃ answer steps, table.Settles target (table.parents t).reverse answer steps := by
    intro earlier
    induction earlier using List.reverseRecOn with
    | nil =>
        rintro later hlist ⟨steps, hsteps⟩
        rw [List.nil_append] at hlist
        exact ⟨false, steps, hlist ▸ hsteps⟩
    | append_singleton earlier parent ih =>
        rintro later hlist ⟨steps, hsteps⟩
        rw [List.append_assoc, List.singleton_append] at hlist
        obtain ⟨answer, count, hparent⟩ := h parent ⟨hne, earlier, later, hlist, steps, hsteps⟩
        have hboth := hsteps.append hparent
        have hreverse : (parent :: later).reverse = later.reverse ++ [parent] :=
          List.reverse_cons
        rw [← hreverse] at hboth
        cases answer with
        | false => exact ih (parent :: later) hlist ⟨steps + count, hboth⟩
        | true =>
            have hall := hboth.append_of_found earlier.reverse
            rw [← List.reverse_append, ← hlist] at hall
            exact ⟨true, steps + count, hall⟩
  obtain ⟨answer, steps, hsteps⟩ := hparents (table.parents t) [] (List.append_nil _).symm
    ⟨0, .exhausted⟩
  rw [← List.append_nil (table.parents t).reverse] at hsteps
  exact ⟨answer, steps + 1, .passed hne hsteps⟩

theorem Ends.not_goesRound {t : TypeId} (h : table.Ends target t) :
    ¬ table.GoesRound target t := by
  have hfewer : ∀ u v, Relation.TransGen (table.ComesTo target) u v → ∀ answer steps,
      table.Settles target [u] answer steps →
      ∃ answer' less, table.Settles target [v] answer' less ∧ less < steps := by
    intro u v hpath
    induction hpath with
    | single hstep => exact fun answer steps hu => hstep.fewer_steps hu
    | tail hpath hstep ih =>
        intro answer steps hu
        obtain ⟨answer', less, hless, hlt⟩ := ih answer steps hu
        obtain ⟨answer'', least, hleast, hlt'⟩ := hstep.fewer_steps hless
        exact ⟨answer'', least, hleast, Nat.lt_trans hlt' hlt⟩
  intro hround
  obtain ⟨answer, steps, hsteps⟩ := h
  obtain ⟨answer', less, hless, hlt⟩ := hfewer t t hround answer steps hsteps
  exact Nat.ne_of_lt hlt (hless.unique hsteps).2

/-- Among the finitely many types, a search that goes on for ever comes back to one. -/
theorem ends_iff {t : TypeId} : table.Ends target t ↔
    ∀ u, Relation.ReflTransGen (table.ComesTo target) t u → ¬ table.GoesRound target u := by
  constructor
  · intro h u hpath
    have hend : table.Ends target u := by
      induction hpath with
      | refl => exact h
      | tail hpath hstep ih =>
          obtain ⟨answer, steps, hsteps⟩ := ih
          obtain ⟨answer', less, hless, -⟩ := hstep.fewer_steps hsteps
          exact ⟨answer', less, hless⟩
    exact hend.not_goesRound
  · intro hround
    classical
    -- the induction is on the number of types that the search still comes to
    have hends : ∀ bound u, Relation.ReflTransGen (table.ComesTo target) t u →
        {i ∈ Finset.range table.types.size |
          Relation.TransGen (table.ComesTo target) u ⟨i⟩}.card < bound →
        table.Ends target u := by
      intro bound
      induction bound with
      | zero => exact fun u _ hcard => absurd hcard (Nat.not_lt_zero _)
      | succ bound ih =>
          intro u hu hcard
          apply ends_of_comesTo
          intro v hv
          by_cases hlt : v.index < table.types.size
          · apply ih v (hu.tail hv)
            have hfewer : {i ∈ Finset.range table.types.size |
                Relation.TransGen (table.ComesTo target) v ⟨i⟩} ⊂
                {i ∈ Finset.range table.types.size |
                  Relation.TransGen (table.ComesTo target) u ⟨i⟩} := by
              have hsubset : {i ∈ Finset.range table.types.size |
                  Relation.TransGen (table.ComesTo target) v ⟨i⟩} ⊆
                  {i ∈ Finset.range table.types.size |
                    Relation.TransGen (table.ComesTo target) u ⟨i⟩} := by
                intro i hi
                obtain ⟨hrange, hpath⟩ := Finset.mem_filter.mp hi
                exact Finset.mem_filter.mpr ⟨hrange, .head hv hpath⟩
              refine (Finset.ssubset_iff_of_subset hsubset).mpr ⟨v.index, ?_, ?_⟩
              · exact Finset.mem_filter.mpr ⟨Finset.mem_range.mpr hlt, .single hv⟩
              · intro hmem
                exact hround v (hu.tail hv) (Finset.mem_filter.mp hmem).2
            have hless := Finset.card_lt_card hfewer
            omega
          · apply ends_of_comesTo
            exact fun w hw => absurd hw.lt_size hlt
    exact hends _ t .refl (Nat.lt_succ_self _)

/-! ## Enough fuel -/

theorem edgeCount_eq (table : TypeTable) :
    table.edgeCount = ∑ i ∈ Finset.range table.types.size, (table.parents ⟨i⟩).length := by
  unfold edgeCount
  generalize table.types.size = size
  induction size with
  | zero => rfl
  | succ size ih =>
      rw [List.range_succ, List.foldl_append, ih, Finset.sum_range_succ]
      rfl

open Classical in
/-- The types whose own search ends within so many steps, by their numbers. -/
noncomputable def settledWithin (table : TypeTable) (target : TypeId) (steps : Nat) :
    Finset Nat :=
  {i ∈ Finset.range table.types.size |
    ∃ answer count, table.Settles target [⟨i⟩] answer count ∧ count ≤ steps}

theorem mem_settledWithin {steps i : Nat} : i ∈ table.settledWithin target steps ↔
    i < table.types.size ∧
      ∃ answer count, table.Settles target [⟨i⟩] answer count ∧ count ≤ steps := by
  simp only [settledWithin, Finset.mem_filter, Finset.mem_range]

/-- The number of edges from these types. -/
noncomputable def edgesWithin (table : TypeTable) (target : TypeId) (steps : Nat) : Nat :=
  ∑ i ∈ table.settledWithin target steps, (table.parents ⟨i⟩).length

theorem edgesWithin_le (table : TypeTable) (target : TypeId) (steps : Nat) :
    table.edgesWithin target steps ≤ table.edgeCount := by
  have hsubset : table.settledWithin target steps ⊆ Finset.range table.types.size :=
    fun i hi => Finset.mem_range.mpr (mem_settledWithin.mp hi).1
  rw [edgeCount_eq]
  exact Finset.sum_le_sum_of_subset hsubset

theorem edgesWithin_mono {less steps : Nat} (hle : less ≤ steps) :
    table.edgesWithin target less ≤ table.edgesWithin target steps := by
  apply Finset.sum_le_sum_of_subset
  intro i hi
  obtain ⟨hrange, answer, count, hsettles, hcount⟩ := mem_settledWithin.mp hi
  exact mem_settledWithin.mpr ⟨hrange, answer, count, hsettles, Nat.le_trans hcount hle⟩

namespace Settles

variable {answer : Bool} {steps less bound : Nat}

/-- The edges from a type itself come on top of those from types that take fewer steps. -/
theorem edgesWithin_add_le {t : TypeId} (h : table.Settles target [t] answer steps)
    (hlt : t.index < table.types.size) (hless : less < steps) :
    table.edgesWithin target less + (table.parents t).length ≤
      table.edgesWithin target steps := by
  have hnew : t.index ∉ table.settledWithin target less := by
    intro hmem
    obtain ⟨-, answer', count, hsettles, hcount⟩ := mem_settledWithin.mp hmem
    have hsame := (h.unique hsettles).2
    omega
  have hsubset : insert t.index (table.settledWithin target less) ⊆
      table.settledWithin target steps := by
    intro i hi
    apply mem_settledWithin.mpr
    rcases Finset.mem_insert.mp hi with rfl | hmem
    · exact ⟨hlt, answer, steps, h, Nat.le_refl _⟩
    · obtain ⟨hrange, answer', count, hsettles, hcount⟩ := mem_settledWithin.mp hmem
      exact ⟨hrange, answer', count, hsettles, by omega⟩
  calc table.edgesWithin target less + (table.parents t).length
      = ∑ i ∈ insert t.index (table.settledWithin target less), (table.parents ⟨i⟩).length := by
        rw [Finset.sum_insert hnew, Nat.add_comm]
        rfl
    _ ≤ table.edgesWithin target steps := Finset.sum_le_sum_of_subset hsubset

/-- A bound for each of the pending types bounds the search through all of them. -/
theorem steps_le_mul {pending : List TypeId} (h : table.Settles target pending answer steps)
    (hbound : ∀ t ∈ pending, ∀ answer' count, table.Settles target [t] answer' count →
      count ≤ steps → count ≤ bound) : steps ≤ pending.length * bound := by
  induction pending generalizing steps with
  | nil =>
      cases h
      exact Nat.zero_le _
  | cons t pending ih =>
      rw [List.length_cons, Nat.succ_mul]
      have hsplit : table.Settles target ([t] ++ pending) answer steps := h
      rcases hsplit.split with ⟨-, hfirst⟩ | ⟨before, after, hsum, hfirst, hrest⟩
      · have hle := hbound t List.mem_cons_self true steps hfirst (Nat.le_refl _)
        omega
      · have hle := hbound t List.mem_cons_self false before hfirst (by omega)
        have hle' : after ≤ pending.length * bound := by
          apply ih hrest
          intro u hu answer' count hsettles hcount
          exact hbound u (List.mem_cons_of_mem _ hu) answer' count hsettles (by omega)
        omega

/-- The search from a type takes no more steps than there are sets of edges. -/
theorem steps_le_pow {t : TypeId} (h : table.Settles target [t] answer steps) :
    steps ≤ 2 ^ table.edgesWithin target steps := by
  induction steps using Nat.strong_induction_on generalizing t answer with
  | _ steps ih =>
      cases h with
      | found => exact Nat.one_le_two_pow
      | @passed _ _ _ steps hne hrest =>
          have hwhole : table.Settles target [t] answer (steps + 1) := .passed hne hrest
          rw [List.append_nil] at hrest
          have hmul : steps ≤
              (table.parents t).reverse.length * 2 ^ table.edgesWithin target steps := by
            apply hrest.steps_le_mul
            intro parent _ answer' count hsettles hcount
            have hpow := ih count (Nat.lt_succ_of_le hcount) hsettles
            have hmono : table.edgesWithin target count ≤ table.edgesWithin target steps :=
              edgesWithin_mono hcount
            exact Nat.le_trans hpow (Nat.pow_le_pow_right (Nat.succ_pos 1) hmono)
          rw [List.length_reverse] at hmul
          by_cases hlt : t.index < table.types.size
          · have hsum := hwhole.edgesWithin_add_le hlt (Nat.lt_succ_self steps)
            generalize (table.parents t).length = edges at hmul hsum
            generalize table.edgesWithin target steps = below at hmul hsum
            have hedges : edges + 1 ≤ 2 ^ edges := Nat.lt_two_pow_self
            calc steps + 1
                ≤ edges * 2 ^ below + 2 ^ below := Nat.add_le_add hmul Nat.one_le_two_pow
              _ = (edges + 1) * 2 ^ below := by rw [Nat.succ_mul]
              _ ≤ 2 ^ edges * 2 ^ below := Nat.mul_le_mul_right _ hedges
              _ = 2 ^ (below + edges) := by rw [Nat.pow_add, Nat.mul_comm]
              _ ≤ 2 ^ table.edgesWithin target (steps + 1) :=
                Nat.pow_le_pow_right (Nat.succ_pos 1) hsum
          · rw [parents_eq_nil (Nat.le_of_not_lt hlt), List.length_nil, Nat.zero_mul] at hmul
            have hone : 1 ≤ 2 ^ table.edgesWithin target (steps + 1) := Nat.one_le_two_pow
            omega

end Settles

/-- The fuel of the table is enough for every search that ends. -/
theorem isSubtype?_eq_some_iff {t : TypeId} {answer : Bool} :
    table.isSubtype? t target = some answer ↔
      ∃ steps, table.Settles target [t] answer steps := by
  constructor
  · exact exists_settles_of_searchAbove
  · rintro ⟨steps, h⟩
    have hsteps := h.steps_le_pow
    have hpow : 2 ^ table.edgesWithin target steps ≤ 2 ^ table.edgeCount :=
      Nat.pow_le_pow_right (Nat.succ_pos 1) (edgesWithin_le table target steps)
    exact h.searchAbove (Nat.le_trans hsteps (Nat.le_succ_of_le hpow))

/-- The search from a type to a target ends exactly if none of the types that it comes to leads
it round in a circle.  Its answer is then whether the target is reached by superclasses and
interfaces, and the table gives that answer; else no number of steps is enough. -/
theorem isSubtype?_decides (table : TypeTable) (t target : TypeId) :
    ((∃ answer, table.isSubtype? t target = some answer) ↔
        ∀ u, Relation.ReflTransGen (table.ComesTo target) t u → ¬ table.GoesRound target u) ∧
      (∀ answer, table.isSubtype? t target = some answer →
        (answer = true ↔ Relation.ReflTransGen table.IsParent t target)) ∧
      (table.isSubtype? t target = none → ∀ fuel, table.searchAbove target fuel [t] = none) := by
  refine ⟨?_, ?_, ?_⟩
  · rw [← ends_iff]
    exact exists_congr fun answer => isSubtype?_eq_some_iff
  · intro answer hanswer
    obtain ⟨steps, hsteps⟩ := isSubtype?_eq_some_iff.mp hanswer
    simpa using hsteps.answer_iff
  · intro hnone fuel
    cases hsearch : table.searchAbove target fuel [t] with
    | none => rfl
    | some answer =>
        have hanswer := isSubtype?_eq_some_iff.mpr (exists_settles_of_searchAbove hsearch)
        exact nomatch hnone.symm.trans hanswer

/-- An interface that implements itself. -/
def selfImplementing : TypeTable :=
  (initial.declare (.interfaceType "Node")).declare (.implementation ⟨27⟩ ⟨27⟩)

theorem searchAbove_selfImplementing : selfImplementing.Reachable ∧
    ¬ Relation.ReflTransGen selfImplementing.IsParent ⟨27⟩ .string ∧
    ∀ fuel, selfImplementing.searchAbove .string fuel [⟨27⟩] = none := by
  have hparents : selfImplementing.parents ⟨27⟩ = [⟨27⟩] := by decide
  refine ⟨?_, ?_, ?_⟩
  · have hdeclared := Reachable.start.step (.interfaceType "Node") (by decide)
    exact hdeclared.step (.implementation ⟨27⟩ ⟨27⟩) (by decide)
  · intro habove
    have hsame : ∀ t, Relation.ReflTransGen selfImplementing.IsParent ⟨27⟩ t → t = ⟨27⟩ := by
      intro t hpath
      induction hpath with
      | refl => rfl
      | tail hpath hstep ih =>
          subst ih
          unfold IsParent at hstep
          rw [hparents] at hstep
          exact List.mem_singleton.mp hstep
    exact absurd (hsame .string habove) (by decide)
  · intro fuel
    induction fuel with
    | zero => rfl
    | succ fuel ih =>
        simp only [searchAbove, hparents]
        exact ih

/-- Where no type above is above itself, every search ends with the right answer. -/
theorem isSubtype_iff_of_acyclic {t : TypeId}
    (hacyclic : ∀ u, Relation.ReflTransGen table.IsParent t u →
      ¬ Relation.TransGen table.IsParent u u) :
    table.isSubtype t target = true ↔ Relation.ReflTransGen table.IsParent t target := by
  have hle : table.ComesTo target ≤ table.IsParent := fun _ _ hstep => hstep.isParent
  have hends : table.Ends target t := by
    apply ends_iff.mpr
    intro u hpath hround
    have habove : Relation.ReflTransGen table.IsParent t u :=
      Relation.ReflTransGen.mono hle t u hpath
    exact hacyclic u habove (Relation.TransGen.mono hle u u hround)
  obtain ⟨answer, steps, hsteps⟩ := hends
  have hanswer : table.isSubtype? t target = some answer :=
    isSubtype?_eq_some_iff.mpr ⟨steps, hsteps⟩
  unfold isSubtype
  rw [hanswer, Option.getD_some]
  simpa using hsteps.answer_iff

end StaticDispatch.TypeTable
