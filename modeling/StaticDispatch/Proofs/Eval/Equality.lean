import Mathlib.Data.Fintype.Prod
import StaticDispatch.Proofs.Eval.Relocation

/-!
# Equality of values

Two values are compared as deep as the heap has pairs of containers.  Looking
deeper finds no answer that is not found there: a comparison with an answer
goes through pairs that are all different, and the heap holds no more.  Two
values are therefore equal in any heap that holds the same elsewhere.
-/

namespace StaticDispatch.Heap

/-! ## Comparing contents -/

/-- Two containers of one kind, by address, whose contents decide whether they are equal. -/
inductive Pairing where
  | sequences (a b : Nat)
  | maps (a b : Nat)
  | objects (a b : Nat)

/-- The containers whose contents decide whether two values are equal. -/
def pairing? (heap : Heap) : Value → Value → Option Pairing
  | .list a, .list b => if a = b then none else some (.sequences a b)
  | .array a, .array b => if a = b then none else some (.sequences a b)
  | .map a, .map b => if a = b then none else some (.maps a b)
  | .object a, .object b =>
    if a = b then none
    else if heap.objectType a = heap.objectType b then some (.objects a b) else none
  | _, _ => none

def Pairing.compare? (heap : Heap) (inner? : Value → Value → Option Bool) :
    Pairing → Option Bool
  | .sequences a b => equalSequences? inner? (heap.items a) (heap.items b)
  | .maps a b => equalMaps? inner? (heap.entries a) (heap.entries b)
  | .objects a b => equalMaps? inner? (heap.fields a) (heap.fields b)

theorem equalOver?_of_pairing {heap : Heap} {a b : Value} {pairing : Pairing}
    (h : heap.pairing? a b = some pairing) (inner? : Value → Value → Option Bool) :
    heap.equalOver? inner? a b = pairing.compare? heap inner? := by
  unfold pairing? at h
  split at h
  · obtain ⟨hne, hsome⟩ := Option.ite_none_left_eq_some.mp h
    obtain rfl := Option.some.inj hsome
    exact if_neg hne
  · obtain ⟨hne, hsome⟩ := Option.ite_none_left_eq_some.mp h
    obtain rfl := Option.some.inj hsome
    exact if_neg hne
  · obtain ⟨hne, hsome⟩ := Option.ite_none_left_eq_some.mp h
    obtain rfl := Option.some.inj hsome
    exact if_neg hne
  · obtain ⟨hne, hsome⟩ := Option.ite_none_left_eq_some.mp h
    obtain ⟨htype, hsome⟩ := Option.ite_none_right_eq_some.mp hsome
    obtain rfl := Option.some.inj hsome
    simp only [equalOver?, if_neg hne, if_pos htype, Pairing.compare?]
  · exact nomatch h

theorem exists_equalOver?_of_no_pairing {heap : Heap} {a b : Value}
    (h : heap.pairing? a b = none) :
    ∃ answer, ∀ inner?, heap.equalOver? inner? a b = some answer := by
  have hsame : ∀ {x y : Address} {pairing : Pairing},
      (if x = y then none else some pairing) = none → x = y := by
    intro x y pairing hif
    by_contra hne
    rw [if_neg hne] at hif
    exact nomatch hif
  cases a with
  | list a =>
      cases b with
      | list b => exact ⟨true, fun _ => if_pos (hsame h)⟩
      | _ => exact ⟨false, fun _ => rfl⟩
  | array a =>
      cases b with
      | array b => exact ⟨true, fun _ => if_pos (hsame h)⟩
      | _ => exact ⟨false, fun _ => rfl⟩
  | map a =>
      cases b with
      | map b => exact ⟨true, fun _ => if_pos (hsame h)⟩
      | _ => exact ⟨false, fun _ => rfl⟩
  | object a =>
      cases b with
      | object b =>
          simp only [pairing?] at h
          by_cases heq : a = b
          · exact ⟨true, fun _ => if_pos heq⟩
          · rw [if_neg heq] at h
            by_cases htype : heap.objectType a = heap.objectType b
            · rw [if_pos htype] at h
              exact nomatch h
            · exact ⟨false, fun _ => by simp only [equalOver?, if_neg heq, if_neg htype]⟩
      | _ => exact ⟨false, fun _ => rfl⟩
  | _ => cases b <;> exact ⟨_, fun _ => rfl⟩

section Lists

variable {inner? outer? : Value → Value → Option Bool}

/-- Every answer of the first is one of the second. -/
def Extends (inner? outer? : Value → Value → Option Bool) : Prop :=
  ∀ v w answer, inner? v w = some answer → outer? v w = some answer

theorem equalItems?_extends (h : Extends inner? outer?) {items others : List Value}
    {answer : Bool} (hitems : equalItems? inner? items others = some answer) :
    equalItems? outer? items others = some answer := by
  induction items generalizing others with
  | nil => cases others <;> exact hitems
  | cons a rest ih =>
      cases others with
      | nil => exact hitems
      | cons b others =>
          unfold equalItems? at hitems ⊢
          cases hinner : inner? a b with
          | none =>
              rw [hinner] at hitems
              exact nomatch hitems
          | some equal =>
              rw [h a b equal hinner]
              rw [hinner] at hitems
              cases equal with
              | true => exact ih hitems
              | false => exact hitems

theorem entriesFound?_extends (h : Extends inner? outer?) {other : OrderedMap Value}
    {entries : List (String × Value)} {answer : Bool}
    (hentries : entriesFound? inner? other entries = some answer) :
    entriesFound? outer? other entries = some answer := by
  induction entries with
  | nil => exact hentries
  | cons entry rest ih =>
      obtain ⟨key, a⟩ := entry
      unfold entriesFound? at hentries ⊢
      cases hget : other.get? key with
      | none =>
          rw [hget] at hentries
          exact hentries
      | some b =>
          rw [hget] at hentries
          simp only at hentries ⊢
          cases hinner : inner? a b with
          | none =>
              rw [hinner] at hentries
              exact nomatch hentries
          | some equal =>
              rw [h a b equal hinner]
              rw [hinner] at hentries
              cases equal with
              | true => exact ih hentries
              | false => exact hentries

theorem equalSequences?_extends (h : Extends inner? outer?) {a b : Array Value} {answer : Bool}
    (hab : equalSequences? inner? a b = some answer) :
    equalSequences? outer? a b = some answer := by
  unfold equalSequences? at hab ⊢
  by_cases hsize : a.size = b.size
  · rw [if_pos hsize] at hab ⊢
    exact equalItems?_extends h hab
  · rwa [if_neg hsize] at hab ⊢

theorem equalMaps?_extends (h : Extends inner? outer?) {a b : OrderedMap Value} {answer : Bool}
    (hab : equalMaps? inner? a b = some answer) : equalMaps? outer? a b = some answer := by
  unfold equalMaps? at hab ⊢
  by_cases hsize : a.size = b.size
  · rw [if_pos hsize] at hab ⊢
    exact entriesFound?_extends h hab
  · rwa [if_neg hsize] at hab ⊢

theorem Pairing.compare?_extends (heap : Heap) (h : Extends inner? outer?) {pairing : Pairing}
    {answer : Bool} (hpairing : pairing.compare? heap inner? = some answer) :
    pairing.compare? heap outer? = some answer := by
  cases pairing with
  | sequences a b => exact equalSequences?_extends h hpairing
  | maps a b => exact equalMaps?_extends h hpairing
  | objects a b => exact equalMaps?_extends h hpairing

/-- Where only the second answers, it also answers for two values that the first had no
answer for. -/
theorem exists_of_equalItems? (h : Extends inner? outer?) {items others : List Value}
    (hinner : equalItems? inner? items others = none)
    (houter : (equalItems? outer? items others).isSome = true) :
    ∃ v w, inner? v w = none ∧ (outer? v w).isSome = true := by
  induction items generalizing others with
  | nil => cases others <;> exact nomatch hinner
  | cons a rest ih =>
      cases others with
      | nil => exact nomatch hinner
      | cons b others =>
          unfold equalItems? at hinner houter
          cases hab : inner? a b with
          | none =>
              refine ⟨a, b, hab, ?_⟩
              cases hout : outer? a b with
              | none => simp [hout] at houter
              | some equal => rfl
          | some equal =>
              rw [hab] at hinner
              rw [h a b equal hab] at houter
              cases equal with
              | true => exact ih hinner houter
              | false => exact nomatch hinner

theorem exists_of_entriesFound? (h : Extends inner? outer?) {other : OrderedMap Value}
    {entries : List (String × Value)}
    (hinner : entriesFound? inner? other entries = none)
    (houter : (entriesFound? outer? other entries).isSome = true) :
    ∃ v w, inner? v w = none ∧ (outer? v w).isSome = true := by
  induction entries with
  | nil => exact nomatch hinner
  | cons entry rest ih =>
      obtain ⟨key, a⟩ := entry
      unfold entriesFound? at hinner houter
      cases hget : other.get? key with
      | none => simp [hget] at hinner
      | some b =>
          rw [hget] at hinner houter
          simp only at hinner houter
          cases hab : inner? a b with
          | none =>
              refine ⟨a, b, hab, ?_⟩
              cases hout : outer? a b with
              | none => simp [hout] at houter
              | some equal => rfl
          | some equal =>
              rw [hab] at hinner
              rw [h a b equal hab] at houter
              cases equal with
              | true => exact ih hinner houter
              | false => exact nomatch hinner

theorem exists_of_equalSequences? (h : Extends inner? outer?) {a b : Array Value}
    (hinner : equalSequences? inner? a b = none)
    (houter : (equalSequences? outer? a b).isSome = true) :
    ∃ v w, inner? v w = none ∧ (outer? v w).isSome = true := by
  unfold equalSequences? at hinner houter
  by_cases hsize : a.size = b.size
  · rw [if_pos hsize] at hinner houter
    exact exists_of_equalItems? h hinner houter
  · rw [if_neg hsize] at hinner
    exact nomatch hinner

theorem exists_of_equalMaps? (h : Extends inner? outer?) {a b : OrderedMap Value}
    (hinner : equalMaps? inner? a b = none) (houter : (equalMaps? outer? a b).isSome = true) :
    ∃ v w, inner? v w = none ∧ (outer? v w).isSome = true := by
  unfold equalMaps? at hinner houter
  by_cases hsize : a.size = b.size
  · rw [if_pos hsize] at hinner houter
    exact exists_of_entriesFound? h hinner houter
  · rw [if_neg hsize] at hinner
    exact nomatch hinner

theorem Pairing.exists_of_compare? {heap : Heap} (h : Extends inner? outer?)
    {pairing : Pairing} (hinner : pairing.compare? heap inner? = none)
    (houter : (pairing.compare? heap outer?).isSome = true) :
    ∃ v w, inner? v w = none ∧ (outer? v w).isSome = true := by
  cases pairing with
  | sequences a b => exact exists_of_equalSequences? h hinner houter
  | maps a b => exact exists_of_equalMaps? h hinner houter
  | objects a b => exact exists_of_equalMaps? h hinner houter

end Lists

/-! ## Depth -/

/-- What comparing the contents of two containers needs of the values inside, to a depth. -/
def innerWithin? (heap : Heap) : Nat → Value → Value → Option Bool
  | 0 => fun _ _ => none
  | depth + 1 => heap.equalWithin? depth

theorem equalWithin?_eq (heap : Heap) (depth : Nat) :
    heap.equalWithin? depth = heap.equalOver? (heap.innerWithin? depth) := by
  cases depth <;> rfl

theorem extends_innerWithin? (heap : Heap) (depth : Nat) :
    Extends (heap.innerWithin? depth) (heap.innerWithin? (depth + 1)) := by
  induction depth with
  | zero => exact fun v w answer h => nomatch h
  | succ depth ih =>
      intro v w answer h
      change heap.equalWithin? depth v w = some answer at h
      change heap.equalWithin? (depth + 1) v w = some answer
      rw [equalWithin?_eq] at h ⊢
      cases hpairing : heap.pairing? v w with
      | none =>
          obtain ⟨found, hfound⟩ := exists_equalOver?_of_no_pairing hpairing
          rw [hfound] at h ⊢
          exact h
      | some pairing =>
          rw [equalOver?_of_pairing hpairing] at h ⊢
          exact pairing.compare?_extends heap ih h

namespace Pairing

variable {heap : Heap}

/-- Comparing the contents takes all of the depth. -/
def NeedsDepth (heap : Heap) (depth : Nat) (pairing : Pairing) : Prop :=
  pairing.compare? heap (heap.innerWithin? depth) = none ∧
    (pairing.compare? heap (heap.innerWithin? (depth + 1))).isSome = true

theorem exists_needsDepth {depth : Nat} {v w : Value} (hnone : heap.equalWithin? depth v w = none)
    (hsome : (heap.equalWithin? (depth + 1) v w).isSome = true) :
    ∃ pairing, NeedsDepth heap depth pairing := by
  rw [equalWithin?_eq] at hnone hsome
  cases hpairing : heap.pairing? v w with
  | none =>
      obtain ⟨found, hfound⟩ := exists_equalOver?_of_no_pairing hpairing
      rw [hfound] at hnone
      exact nomatch hnone
  | some pairing =>
      rw [equalOver?_of_pairing hpairing] at hnone hsome
      exact ⟨pairing, hnone, hsome⟩

theorem NeedsDepth.exists_inside {depth : Nat} {pairing : Pairing}
    (h : NeedsDepth heap (depth + 1) pairing) : ∃ inside, NeedsDepth heap depth inside := by
  obtain ⟨v, w, hnone, hsome⟩ :=
    pairing.exists_of_compare? (heap.extends_innerWithin? (depth + 1)) h.1 h.2
  exact exists_needsDepth hnone hsome

theorem NeedsDepth.exists_at {depth : Nat} {pairing : Pairing}
    (h : NeedsDepth heap depth pairing) {shallower : Nat} (hle : shallower ≤ depth) :
    ∃ inside, NeedsDepth heap shallower inside := by
  induction depth generalizing pairing with
  | zero =>
      obtain rfl := Nat.le_zero.mp hle
      exact ⟨pairing, h⟩
  | succ depth ih =>
      rcases Nat.lt_or_eq_of_le hle with hlt | rfl
      · obtain ⟨inside, hinside⟩ := h.exists_inside
        exact ih hinside (Nat.le_of_lt_succ hlt)
      · exact ⟨pairing, h⟩

theorem compare?_of_le {depth deeper : Nat} {pairing : Pairing} {answer : Bool}
    (h : pairing.compare? heap (heap.innerWithin? depth) = some answer) (hle : depth ≤ deeper) :
    pairing.compare? heap (heap.innerWithin? deeper) = some answer := by
  induction hle with
  | refl => exact h
  | step _ ih => exact pairing.compare?_extends heap (heap.extends_innerWithin? _) ih

theorem NeedsDepth.le {depth other : Nat} {pairing : Pairing}
    (h : NeedsDepth heap depth pairing) (hother : NeedsDepth heap other pairing) :
    depth ≤ other := by
  by_contra hlt
  obtain ⟨answer, hanswer⟩ := Option.isSome_iff_exists.mp hother.2
  have hfound := compare?_of_le hanswer (Nat.lt_of_not_le hlt)
  rw [h.1] at hfound
  exact nomatch hfound

/-! ## Pairs of containers -/

/-- The two containers are in the heap. -/
def InHeap (heap : Heap) : Pairing → Prop
  | .sequences a b => a < heap.sequences.size ∧ b < heap.sequences.size
  | .maps a b => a < heap.maps.size ∧ b < heap.maps.size
  | .objects a b => a < heap.objects.size ∧ b < heap.objects.size

/-- The numbers of two containers, the sequences before the maps before the objects. -/
def numbers (heap : Heap) : Pairing → Nat × Nat
  | .sequences a b => (a, b)
  | .maps a b => (heap.sequences.size + a, heap.sequences.size + b)
  | .objects a b =>
    (heap.sequences.size + heap.maps.size + a, heap.sequences.size + heap.maps.size + b)

end Pairing

def containers (heap : Heap) : Nat :=
  heap.sequences.size + heap.maps.size + heap.objects.size

theorem ne_nil_of_equalMaps?_eq_none {inner? : Value → Value → Option Bool}
    {a b : OrderedMap Value} (h : equalMaps? inner? a b = none) :
    a.entries ≠ [] ∧ b.entries ≠ [] := by
  unfold equalMaps? at h
  split at h
  · rename_i hsize
    have ha : a.entries ≠ [] := by
      intro hnil
      rw [hnil] at h
      exact nomatch h
    refine ⟨ha, fun hnil => ha ?_⟩
    apply List.eq_nil_of_length_eq_zero
    simpa [OrderedMap.size, hnil] using hsize
  · exact nomatch h

theorem lt_size_of_fields_ne {heap : Heap} {a : Address} (h : (heap.fields a).entries ≠ []) :
    a < heap.objects.size := by
  by_contra hlt
  exact h (by simp [fields, Array.getElem?_eq_none (Nat.le_of_not_lt hlt)])

namespace Pairing

variable {heap : Heap}

theorem InHeap.numbers_lt {pairing : Pairing} (h : pairing.InHeap heap) :
    (pairing.numbers heap).1 < heap.containers ∧ (pairing.numbers heap).2 < heap.containers := by
  unfold containers
  cases pairing with
  | sequences a b =>
      obtain ⟨ha, hb⟩ := h
      simp only [numbers]
      omega
  | maps a b =>
      obtain ⟨ha, hb⟩ := h
      simp only [numbers]
      omega
  | objects a b =>
      obtain ⟨ha, hb⟩ := h
      simp only [numbers]
      omega

theorem InHeap.numbers_inj {pairing other : Pairing} (h : pairing.InHeap heap)
    (hother : other.InHeap heap) (hnumbers : pairing.numbers heap = other.numbers heap) :
    pairing = other := by
  cases pairing <;> cases other <;>
    simp only [numbers, Prod.mk.injEq, InHeap, sequences.injEq, maps.injEq, objects.injEq,
      reduceCtorEq] at * <;> omega

/-- Contents that have no answer at once are not empty, so that they are in the heap. -/
theorem NeedsDepth.inHeap {depth : Nat} {pairing : Pairing}
    (h : NeedsDepth heap depth pairing) : pairing.InHeap heap := by
  obtain ⟨hnone, -⟩ := h
  cases pairing with
  | sequences a b =>
      simp only [compare?, equalSequences?] at hnone
      split at hnone
      · rename_i hsize
        have hne : (heap.items a).size ≠ 0 := by
          intro hzero
          rw [Array.eq_empty_of_size_eq_zero hzero,
            Array.eq_empty_of_size_eq_zero (hsize.symm.trans hzero)] at hnone
          exact nomatch hnone
        constructor
        · exact lt_size_of_items_ne fun heq => hne (by simp [heq])
        · exact lt_size_of_items_ne fun heq => hne (by simp [hsize, heq])
      · exact nomatch hnone
  | maps a b =>
      obtain ⟨ha, hb⟩ := ne_nil_of_equalMaps?_eq_none hnone
      exact ⟨lt_size_of_entries_ne (by simpa [OrderedMap.values] using ha),
        lt_size_of_entries_ne (by simpa [OrderedMap.values] using hb)⟩
  | objects a b =>
      obtain ⟨ha, hb⟩ := ne_nil_of_equalMaps?_eq_none hnone
      exact ⟨lt_size_of_fields_ne ha, lt_size_of_fields_ne hb⟩

/-- No comparison takes as much depth as there are pairs of containers. -/
theorem NeedsDepth.lt_pairs {depth : Nat} {pairing : Pairing}
    (h : NeedsDepth heap depth pairing) : depth < heap.containers * heap.containers := by
  -- Some comparison inside needs each smaller depth, and none needs two of them, so that there
  -- are as many pairs of containers as depths.
  have hat : ∀ i : Fin (depth + 1), ∃ inside, NeedsDepth heap i inside :=
    fun i => h.exists_at (Nat.le_of_lt_succ i.isLt)
  choose inside hinside using hat
  let number (i : Fin (depth + 1)) : Fin heap.containers × Fin heap.containers :=
    (⟨_, (hinside i).inHeap.numbers_lt.1⟩, ⟨_, (hinside i).inHeap.numbers_lt.2⟩)
  have hinjective : Function.Injective number := by
    intro i j hij
    have hnumbers : (inside i).numbers heap = (inside j).numbers heap :=
      Prod.ext (congrArg (fun pair => pair.1.val) hij) (congrArg (fun pair => pair.2.val) hij)
    have hsame := (hinside i).inHeap.numbers_inj (hinside j).inHeap hnumbers
    have hj := hinside j
    rw [← hsame] at hj
    exact Fin.ext (Nat.le_antisymm ((hinside i).le hj) (hj.le (hinside i)))
  have hcard := Fintype.card_le_of_injective number hinjective
  rw [Fintype.card_fin, Fintype.card_prod, Fintype.card_fin] at hcard
  exact hcard

end Pairing

/-! ## The depth that is looked -/

/-- An answer that is found at any depth is found as deep as there are pairs of containers. -/
theorem equalWithin?_of_pairs_le (heap : Heap) {depth : Nat} (v w : Value)
    (hle : heap.containers * heap.containers ≤ depth) :
    heap.equalWithin? depth v w =
      heap.equalWithin? (heap.containers * heap.containers) v w := by
  induction hle with
  | refl => rfl
  | step hle ih =>
      rename_i reached
      rw [← ih]
      cases hreached : heap.equalWithin? reached v w with
      | some answer => exact heap.extends_innerWithin? (reached + 1) v w answer hreached
      | none =>
          by_contra hne
          obtain ⟨pairing, hpairing⟩ := Pairing.exists_needsDepth hreached
            (Option.isSome_iff_ne_none.mpr hne)
          exact absurd hpairing.lt_pairs (Nat.not_lt.mpr hle)

theorem equal?_eq (heap : Heap) (v w : Value) {depth : Nat}
    (hle : heap.containers * heap.containers ≤ depth) :
    heap.equal? v w = heap.equalWithin? depth v w := by
  rw [heap.equalWithin?_of_pairs_le v w hle]
  exact heap.equalWithin?_of_pairs_le v w (Nat.le_succ _)

end StaticDispatch.Heap

/-! ## Another heap -/

namespace StaticDispatch.Relocation

variable {ρ : Relocation} {s t : Heap}

theorem equalItems?_value {inner? inner'? : Value → Value → Option Bool}
    (hinner : ∀ v w, inner'? (ρ.value v) (ρ.value w) = inner? v w) (items others : List Value) :
    Heap.equalItems? inner'? (items.map ρ.value) (others.map ρ.value) =
      Heap.equalItems? inner? items others := by
  induction items generalizing others with
  | nil => cases others <;> rfl
  | cons a rest ih =>
      cases others with
      | nil => rfl
      | cons b others => simp only [List.map_cons, Heap.equalItems?, hinner, ih]

theorem entriesFound?_value {inner? inner'? : Value → Value → Option Bool}
    (hinner : ∀ v w, inner'? (ρ.value v) (ρ.value w) = inner? v w) (other : OrderedMap Value)
    (entries : List (String × Value)) :
    Heap.entriesFound? inner'? (other.map ρ.value)
        (entries.map fun entry => (entry.1, ρ.value entry.2)) =
      Heap.entriesFound? inner? other entries := by
  induction entries with
  | nil => rfl
  | cons entry rest ih =>
      obtain ⟨key, a⟩ := entry
      simp only [List.map_cons, Heap.entriesFound?, OrderedMap.get?_map, ih]
      cases other.get? key with
      | none => rfl
      | some b => simp only [Option.map_some, hinner]

theorem equalSequences?_value {inner? inner'? : Value → Value → Option Bool}
    (hinner : ∀ v w, inner'? (ρ.value v) (ρ.value w) = inner? v w) (a b : Array Value) :
    Heap.equalSequences? inner'? (a.map ρ.value) (b.map ρ.value) =
      Heap.equalSequences? inner? a b := by
  simp only [Heap.equalSequences?, Array.size_map, Array.toList_map, equalItems?_value hinner]

theorem equalMaps?_value {inner? inner'? : Value → Value → Option Bool}
    (hinner : ∀ v w, inner'? (ρ.value v) (ρ.value w) = inner? v w) (a b : OrderedMap Value) :
    Heap.equalMaps? inner'? (a.map ρ.value) (b.map ρ.value) = Heap.equalMaps? inner? a b := by
  unfold Heap.equalMaps?
  rw [OrderedMap.size_map, OrderedMap.size_map]
  split
  · exact entriesFound?_value hinner b a.entries
  · rfl

theorem equalOver?_value (h : ρ.Maps s t) {inner? inner'? : Value → Value → Option Bool}
    (hinner : ∀ v w, inner'? (ρ.value v) (ρ.value w) = inner? v w) (v w : Value) :
    t.equalOver? inner'? (ρ.value v) (ρ.value w) = s.equalOver? inner? v w := by
  cases v with
  | list a =>
      cases w with
      | list b => simp only [value, Heap.equalOver?, h.items_eq, equalSequences?_value hinner]
      | _ => rfl
  | array a =>
      cases w with
      | array b => simp only [value, Heap.equalOver?, h.items_eq, equalSequences?_value hinner]
      | _ => rfl
  | map a =>
      cases w with
      | map b => simp only [value, Heap.equalOver?, h.entries_eq, equalMaps?_value hinner]
      | _ => rfl
  | object a =>
      cases w with
      | object b =>
          simp only [value, Heap.equalOver?, h.fields_eq, h.objectType_eq,
            equalMaps?_value hinner, ρ.object_injective.eq_iff]
      | _ => rfl
  | closure a =>
      cases w with
      | closure b =>
          simp only [value, Heap.equalOver?, Option.some.injEq]
          exact Bool.eq_iff_iff.mpr (by simp [ρ.closure_injective.eq_iff])
      | _ => rfl
  | _ => cases w <;> rfl

theorem equalWithin?_value (h : ρ.Maps s t) (depth : Nat) (v w : Value) :
    t.equalWithin? depth (ρ.value v) (ρ.value w) = s.equalWithin? depth v w := by
  induction depth generalizing v w with
  | zero => exact equalOver?_value h (fun _ _ => rfl) v w
  | succ depth ih => exact equalOver?_value h ih v w

/-- Equality is the same in both heaps, although they are not of one size and compare to
different depths. -/
theorem equal?_value (h : ρ.Maps s t) (v w : Value) :
    t.equal? (ρ.value v) (ρ.value w) = s.equal? v w := by
  have hs := s.equal?_eq v w (Nat.le_max_left _ (t.containers * t.containers))
  have ht := t.equal?_eq (ρ.value v) (ρ.value w)
    (Nat.le_max_right (s.containers * s.containers) _)
  rw [hs, ht]
  exact equalWithin?_value h _ v w

end StaticDispatch.Relocation
