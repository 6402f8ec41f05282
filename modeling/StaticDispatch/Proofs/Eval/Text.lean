import Mathlib.Data.Fintype.Card
import StaticDispatch.Eval.Heap

/-!
# Texts of values

The text of a value is looked for as deep as the heap has sequences and maps.
Looking deeper finds no text that is not found there: a value with a text has
containers nested in it that are all different, and the heap holds no more.
A value therefore keeps its text in any heap that shows the same below it.
-/

namespace StaticDispatch.Heap

/-! ## What a text is made from -/

/-- The values right inside a container. -/
def inside (heap : Heap) : Value → List Value
  | .list a => (heap.items a).toList
  | .array a => (heap.items a).toList
  | .map a => (heap.entries a).values
  | _ => []

theorem isSome_mapM {α β : Type} (f : α → Option β) (items : List α) :
    (items.mapM f).isSome = true ↔ ∀ item ∈ items, (f item).isSome = true := by
  induction items with
  | nil => simp
  | cons item rest ih =>
      rw [List.mapM_cons]
      cases hitem : f item with
      | none => simp [hitem]
      | some value =>
          cases hrest : rest.mapM f with
          | none =>
              rw [hrest] at ih
              simpa [hitem] using ih
          | some values =>
              rw [hrest] at ih
              simpa [hitem] using ih

theorem mapM_congr {α β : Type} {f g : α → Option β} {items : List α}
    (h : ∀ item ∈ items, f item = g item) : items.mapM f = items.mapM g := by
  induction items with
  | nil => rfl
  | cons item rest ih =>
      rw [List.mapM_cons, List.mapM_cons, h item List.mem_cons_self,
        ih fun other hother => h other (List.mem_cons_of_mem _ hother)]

theorem isSome_textOver? (heap : Heap) (inner? : Value → Option String) (value : Value) :
    (heap.textOver? inner? value).isSome = true ↔
      ∀ w ∈ heap.inside value, (inner? w).isSome = true := by
  cases value with
  | list a => simpa [textOver?, inside] using isSome_mapM inner? (heap.items a).toList
  | array a => simpa [textOver?, inside] using isSome_mapM inner? (heap.items a).toList
  | map a =>
      have hentries := isSome_mapM
        (fun entry : String × Value => (inner? entry.2).map (entry.1 ++ ":" ++ ·))
        (heap.entries a).entries
      simp only [textOver?, inside, OrderedMap.values, Option.isSome_map, hentries,
        List.forall_mem_map]
  | bool b => cases b <;> simp [textOver?, inside]
  | _ => simp [textOver?, inside]

theorem textOver?_congr (heap : Heap) {f g : Value → Option String} {value : Value}
    (h : ∀ w ∈ heap.inside value, f w = g w) :
    heap.textOver? f value = heap.textOver? g value := by
  cases value with
  | list a => exact congrArg (Option.map bracketed) (mapM_congr h)
  | array a => exact congrArg (Option.map bracketed) (mapM_congr h)
  | map a =>
      have hentries : ∀ entry ∈ (heap.entries a).entries,
          (f entry.2).map (entry.1 ++ ":" ++ ·) = (g entry.2).map (entry.1 ++ ":" ++ ·) := by
        intro entry hentry
        rw [h entry.2 (List.mem_map_of_mem hentry)]
      simp only [textOver?, mapM_congr hentries]
  | bool b => cases b <;> rfl
  | _ => rfl

/-! ## Depth -/

theorem isSome_textWithin?_succ (heap : Heap) (depth : Nat) (value : Value) :
    (heap.textWithin? (depth + 1) value).isSome = true ↔
      ∀ w ∈ heap.inside value, (heap.textWithin? depth w).isSome = true :=
  heap.isSome_textOver? _ value

/-- A text that is found is found again by looking deeper. -/
theorem textWithin?_succ (heap : Heap) {depth : Nat} {value : Value}
    (h : (heap.textWithin? depth value).isSome = true) :
    heap.textWithin? (depth + 1) value = heap.textWithin? depth value := by
  induction depth generalizing value with
  | zero =>
      have hinside := (heap.isSome_textOver? _ value).mp h
      apply heap.textOver?_congr
      intro w hw
      exact absurd (hinside w hw) (by simp)
  | succ depth ih =>
      have hinside := (heap.isSome_textWithin?_succ depth value).mp h
      apply heap.textOver?_congr
      intro w hw
      exact ih (hinside w hw)

theorem textWithin?_of_le (heap : Heap) {depth deeper : Nat} {value : Value}
    (h : (heap.textWithin? depth value).isSome = true) (hle : depth ≤ deeper) :
    heap.textWithin? deeper value = heap.textWithin? depth value := by
  induction hle with
  | refl => rfl
  | step _ ih =>
      rw [← ih] at h
      rw [heap.textWithin?_succ h, ih]

/-- The text takes all of the depth to find. -/
def NeedsDepth (heap : Heap) (depth : Nat) (value : Value) : Prop :=
  heap.textWithin? depth value = none ∧ (heap.textWithin? (depth + 1) value).isSome = true

theorem NeedsDepth.exists_inside {heap : Heap} {depth : Nat} {value : Value}
    (h : heap.NeedsDepth (depth + 1) value) :
    ∃ w ∈ heap.inside value, heap.NeedsDepth depth w := by
  have hnone : ¬ (heap.textWithin? (depth + 1) value).isSome = true := by simp [h.1]
  rw [isSome_textWithin?_succ] at hnone
  push Not at hnone
  obtain ⟨w, hw, hshallow⟩ := hnone
  refine ⟨w, hw, by simpa using hshallow, ?_⟩
  exact (heap.isSome_textWithin?_succ (depth + 1) value).mp h.2 w hw

theorem NeedsDepth.exists_at {heap : Heap} {depth : Nat} {value : Value}
    (h : heap.NeedsDepth depth value) {shallower : Nat} (hle : shallower ≤ depth) :
    ∃ w, heap.NeedsDepth shallower w := by
  induction depth generalizing value with
  | zero =>
      obtain rfl := Nat.le_zero.mp hle
      exact ⟨value, h⟩
  | succ depth ih =>
      rcases Nat.lt_or_eq_of_le hle with hlt | rfl
      · obtain ⟨w, -, hw⟩ := h.exists_inside
        exact ih hw (Nat.le_of_lt_succ hlt)
      · exact ⟨value, h⟩

theorem NeedsDepth.unique {heap : Heap} {depth other : Nat} {value : Value}
    (h : heap.NeedsDepth depth value) (hother : heap.NeedsDepth other value) :
    depth = other := by
  by_contra hne
  rcases Nat.lt_or_gt_of_ne hne with hlt | hlt
  · have hsome := heap.textWithin?_of_le h.2 hlt
    rw [hother.1] at hsome
    exact absurd h.2 (by simp [← hsome])
  · have hsome := heap.textWithin?_of_le hother.2 hlt
    rw [h.1] at hsome
    exact absurd hother.2 (by simp [← hsome])

/-! ## Containers of the heap -/

/-- The number of a container, the sequences before the maps. -/
def position (heap : Heap) : Value → Nat
  | .list a => a
  | .array a => a
  | .map a => heap.sequences.size + a
  | _ => 0

theorem lt_size_of_items_ne {heap : Heap} {a : Address} (h : heap.items a ≠ #[]) :
    a < heap.sequences.size := by
  by_contra hlt
  exact h (by simp [items, Array.getElem?_eq_none (Nat.le_of_not_lt hlt)])

theorem lt_size_of_entries_ne {heap : Heap} {a : Address} (h : (heap.entries a).values ≠ []) :
    a < heap.maps.size := by
  by_contra hlt
  exact h (by simp [entries, Array.getElem?_eq_none (Nat.le_of_not_lt hlt), OrderedMap.values])

theorem NeedsDepth.inside_ne_nil {heap : Heap} {depth : Nat} {value : Value}
    (h : heap.NeedsDepth depth value) : heap.inside value ≠ [] := by
  intro hnil
  have hsome : (heap.textWithin? depth value).isSome = true := by
    cases depth with
    | zero => exact (heap.isSome_textOver? _ value).mpr (by simp [hnil])
    | succ depth => exact (heap.isSome_textWithin?_succ depth value).mpr (by simp [hnil])
  rw [h.1] at hsome
  exact absurd hsome (by simp)

theorem position_lt {heap : Heap} {value : Value} (h : heap.inside value ≠ []) :
    heap.position value < heap.sequences.size + heap.maps.size := by
  cases value with
  | list a =>
      have hlt : a < heap.sequences.size := lt_size_of_items_ne (by simpa [inside] using h)
      exact Nat.lt_add_right _ hlt
  | array a =>
      have hlt : a < heap.sequences.size := lt_size_of_items_ne (by simpa [inside] using h)
      exact Nat.lt_add_right _ hlt
  | map a =>
      have hlt : a < heap.maps.size := lt_size_of_entries_ne h
      exact Nat.add_lt_add_left hlt _
  | _ => exact absurd rfl h

/-- A container is known by its number, up to being a list or an array. -/
theorem inside_eq_of_position_eq {heap : Heap} {v w : Value} (hv : heap.inside v ≠ [])
    (hw : heap.inside w ≠ []) (h : heap.position v = heap.position w) :
    heap.inside v = heap.inside w := by
  have hsequence : ∀ a, (heap.items a).toList ≠ [] → a < heap.sequences.size :=
    fun a ha => lt_size_of_items_ne (by simpa using ha)
  cases v with
  | list a =>
      have ha := hsequence a hv
      cases w with
      | list b =>
          obtain rfl : a = b := h
          rfl
      | array b =>
          obtain rfl : a = b := h
          rfl
      | map b => exact absurd h (Nat.ne_of_lt (Nat.lt_add_right b ha))
      | _ => exact absurd rfl hw
  | array a =>
      have ha := hsequence a hv
      cases w with
      | list b =>
          obtain rfl : a = b := h
          rfl
      | array b =>
          obtain rfl : a = b := h
          rfl
      | map b => exact absurd h (Nat.ne_of_lt (Nat.lt_add_right b ha))
      | _ => exact absurd rfl hw
  | map a =>
      cases w with
      | list b =>
          exact absurd h.symm (Nat.ne_of_lt (Nat.lt_add_right a (hsequence b hw)))
      | array b =>
          exact absurd h.symm (Nat.ne_of_lt (Nat.lt_add_right a (hsequence b hw)))
      | map b =>
          obtain rfl : a = b := Nat.add_left_cancel h
          rfl
      | _ => exact absurd rfl hw
  | _ => exact absurd rfl hv

theorem NeedsDepth.of_inside_eq {heap : Heap} {depth : Nat} {v w : Value}
    (h : heap.NeedsDepth depth v) (hinside : heap.inside v = heap.inside w) :
    heap.NeedsDepth depth w := by
  have hsame : ∀ n, (heap.textWithin? n v).isSome = true ↔
      (heap.textWithin? n w).isSome = true := by
    intro n
    cases n with
    | zero =>
        simp only [textWithin?]
        rw [isSome_textOver?, isSome_textOver?, hinside]
    | succ n => rw [isSome_textWithin?_succ, isSome_textWithin?_succ, hinside]
  refine ⟨?_, (hsame _).mp h.2⟩
  rw [← Option.not_isSome_iff_eq_none, ← hsame, h.1]
  simp

/-- No text takes more depth than there are containers. -/
theorem NeedsDepth.lt_containers {heap : Heap} {depth : Nat} {value : Value}
    (h : heap.NeedsDepth depth value) : depth < heap.sequences.size + heap.maps.size := by
  have hat : ∀ i : Fin (depth + 1), ∃ w, heap.NeedsDepth i w :=
    fun i => h.exists_at (Nat.le_of_lt_succ i.isLt)
  choose container hcontainer using hat
  let number (i : Fin (depth + 1)) : Fin (heap.sequences.size + heap.maps.size) :=
    ⟨heap.position (container i), position_lt (hcontainer i).inside_ne_nil⟩
  have hinjective : Function.Injective number := by
    intro i j hij
    have hinside := inside_eq_of_position_eq (hcontainer i).inside_ne_nil
      (hcontainer j).inside_ne_nil (congrArg Fin.val hij)
    exact Fin.ext (((hcontainer i).of_inside_eq hinside).unique (hcontainer j))
  have hcard := Fintype.card_le_of_injective number hinjective
  rw [Fintype.card_fin, Fintype.card_fin] at hcard
  exact hcard

/-! ## The depth that is looked -/

/-- A text that is found at any depth is the text of the value. -/
theorem text?_of_textWithin? (heap : Heap) {depth : Nat} {value : Value} {text : String}
    (h : heap.textWithin? depth value = some text) : heap.text? value = some text := by
  have hsome : (heap.textWithin? depth value).isSome = true := by simp [h]
  have hdepth : ∀ n, (heap.textWithin? (heap.sequences.size + heap.maps.size + n)
      value).isSome = true →
      (heap.text? value).isSome = true := by
    intro n
    induction n with
    | zero => exact id
    | succ n ih =>
        intro hn
        apply ih
        by_contra hnone
        have hneeds : heap.NeedsDepth (heap.sequences.size + heap.maps.size + n) value :=
          ⟨by simpa using hnone, hn⟩
        exact absurd hneeds.lt_containers (by omega)
  rcases Nat.le_total depth (heap.sequences.size + heap.maps.size) with hle | hle
  · rw [← h]
    exact heap.textWithin?_of_le hsome hle
  · obtain ⟨n, rfl⟩ := Nat.exists_eq_add_of_le hle
    rw [← h]
    exact (heap.textWithin?_of_le (hdepth n hsome) hle).symm

end StaticDispatch.Heap
