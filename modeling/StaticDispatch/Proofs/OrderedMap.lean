import Mathlib.Data.List.Induction
import StaticDispatch.OrderedMap

/-!
# Laws of insertion-ordered maps

What a map answers after one or many bindings.  Binding the entries of a list
to a map, or first to an empty map and then the entries of that map, comes to
the same: the last binding of a name wins in both.  The names of a map come in
the order of their first binding.
-/

namespace StaticDispatch.OrderedMap

variable {α : Type}

theorem get?_insert (m : OrderedMap α) (key name : String) (value : α) :
    (m.insert key value).get? name = if name = key then some value else m.get? name := by
  by_cases hname : name = key
  · subst hname
    simp
  · rw [if_neg hname]
    exact m.get?_insert_ne value hname

theorem contains_insert (m : OrderedMap α) (key name : String) (value : α) :
    (m.insert key value).contains name = true ↔ name = key ∨ m.contains name = true := by
  unfold contains
  rw [get?_insert]
  by_cases hname : name = key
  · simp [hname]
  · simp [hname]

theorem insertAll_cons (m : OrderedMap α) (entry : String × α) (rest : List (String × α)) :
    m.insertAll (entry :: rest) = (m.insert entry.1 entry.2).insertAll rest := rfl

theorem get?_insertAll (m : OrderedMap α) (entries : List (String × α)) (name : String) :
    (m.insertAll entries).get? name = (entries.reverse.lookup name).or (m.get? name) := by
  induction entries generalizing m with
  | nil => simp [insertAll]
  | cons entry rest ih =>
      obtain ⟨key, value⟩ := entry
      rw [insertAll_cons, ih, get?_insert, List.reverse_cons, List.lookup_append]
      by_cases hname : name = key
      · subst hname
        cases rest.reverse.lookup name with
        | none => simp
        | some last => simp
      · have hbeq : (name == key) = false := by simpa using hname
        cases rest.reverse.lookup name with
        | none => simp [List.lookup_cons, hname, hbeq]
        | some last => simp

/-! ## Values through a function -/

section Map

variable {β : Type}

/-- The same names with other values. -/
def map (f : α → β) (m : OrderedMap α) : OrderedMap β :=
  ⟨m.entries.map fun entry => (entry.1, f entry.2)⟩

@[simp] theorem size_map (f : α → β) (m : OrderedMap α) : (m.map f).size = m.size :=
  List.length_map _

@[simp] theorem values_map (f : α → β) (m : OrderedMap α) :
    (m.map f).values = m.values.map f := by
  simp [values, map]

theorem lookup_map (f : α → β) (entries : List (String × α)) (name : String) :
    (entries.map fun entry => (entry.1, f entry.2)).lookup name =
      (entries.lookup name).map f := by
  induction entries with
  | nil => rfl
  | cons entry rest ih =>
      obtain ⟨key, value⟩ := entry
      rw [List.map_cons, List.lookup_cons, List.lookup_cons, ih]
      cases name == key with
      | true => rfl
      | false => rfl

@[simp] theorem get?_map (f : α → β) (m : OrderedMap α) (name : String) :
    (m.map f).get? name = (m.get? name).map f :=
  lookup_map f m.entries name

@[simp] theorem contains_map (f : α → β) (m : OrderedMap α) (name : String) :
    (m.map f).contains name = m.contains name := by
  simp [contains]

theorem map_insertEntry (f : α → β) (key : String) (value : α) (entries : List (String × α)) :
    (insertEntry key value entries).map (fun entry => (entry.1, f entry.2)) =
      insertEntry key (f value) (entries.map fun entry => (entry.1, f entry.2)) := by
  induction entries with
  | nil => rfl
  | cons entry rest ih =>
      obtain ⟨name, old⟩ := entry
      simp only [insertEntry, List.map_cons]
      split
      · rfl
      · rw [List.map_cons, ih]

theorem map_insert (f : α → β) (m : OrderedMap α) (key : String) (value : α) :
    (m.insert key value).map f = (m.map f).insert key (f value) :=
  congrArg OrderedMap.mk (map_insertEntry f key value m.entries)

theorem map_insertAll (f : α → β) (m : OrderedMap α) (entries : List (String × α)) :
    (m.insertAll entries).map f =
      (m.map f).insertAll (entries.map fun entry => (entry.1, f entry.2)) := by
  induction entries generalizing m with
  | nil => rfl
  | cons entry rest ih => rw [insertAll_cons, ih, map_insert, List.map_cons, insertAll_cons]

theorem map_eq_self {m : OrderedMap α} {f : α → α} (h : ∀ value ∈ m.values, f value = value) :
    m.map f = m := by
  have hentries : m.entries.map (fun entry => (entry.1, f entry.2)) = m.entries.map id := by
    apply List.map_congr_left
    intro entry hentry
    exact congrArg (Prod.mk entry.1) (h entry.2 (List.mem_map_of_mem hentry))
  exact congrArg OrderedMap.mk (hentries.trans (List.map_id _))

end Map

theorem contains_insertAll (m : OrderedMap α) (entries : List (String × α)) (name : String) :
    (m.insertAll entries).contains name = true ↔
      name ∈ entries.map Prod.fst ∨ m.contains name = true := by
  induction entries generalizing m with
  | nil => simp [insertAll]
  | cons entry rest ih =>
      rw [insertAll_cons, ih, contains_insert, List.map_cons, List.mem_cons, or_left_comm,
        or_assoc]

/-! ## Names in a map -/

theorem map_fst_insertEntry (key : String) (value : α) (entries : List (String × α)) :
    (insertEntry key value entries).map Prod.fst =
      if key ∈ entries.map Prod.fst then entries.map Prod.fst
      else entries.map Prod.fst ++ [key] := by
  induction entries with
  | nil => simp [insertEntry]
  | cons entry rest ih =>
      obtain ⟨name, old⟩ := entry
      by_cases hname : key = name
      · subst hname
        simp [insertEntry]
      · have hbeq : (key == name) = false := by simpa using hname
        simp only [insertEntry, hbeq, Bool.false_eq_true, if_false, List.map_cons, ih,
          List.mem_cons, hname, false_or]
        split
        · rfl
        · rfl

/-- No name occurs twice. -/
def Distinct (m : OrderedMap α) : Prop :=
  m.keys.Nodup

theorem distinct_empty : ({} : OrderedMap α).Distinct :=
  List.nodup_nil

theorem Distinct.insert {m : OrderedMap α} (h : m.Distinct) (key : String) (value : α) :
    (m.insert key value).Distinct := by
  unfold Distinct keys OrderedMap.insert at *
  rw [map_fst_insertEntry]
  split
  · exact h
  · rename_i hkey
    apply List.nodup_append.mpr
    refine ⟨h, by simp, ?_⟩
    intro a ha b hb heq
    rw [List.mem_singleton] at hb
    exact hkey (hb ▸ heq ▸ ha)

theorem Distinct.insertAll {m : OrderedMap α} (h : m.Distinct)
    (entries : List (String × α)) : (m.insertAll entries).Distinct := by
  induction entries generalizing m with
  | nil => exact h
  | cons entry rest ih =>
      rw [insertAll_cons]
      exact ih (h.insert entry.1 entry.2)

theorem lookup_eq_none_of_not_mem {entries : List (String × α)} {name : String}
    (h : name ∉ entries.map Prod.fst) : entries.lookup name = none := by
  induction entries with
  | nil => rfl
  | cons entry rest ih =>
      obtain ⟨key, value⟩ := entry
      simp only [List.map_cons, List.mem_cons, not_or] at h
      have hbeq : (name == key) = false := by simpa using h.1
      simp [List.lookup_cons, hbeq, ih h.2]

/-- Binding all entries of a map overlays it. -/
theorem get?_insertAll_entries (m : OrderedMap α) {other : OrderedMap α}
    (hdistinct : other.Distinct) (name : String) :
    (m.insertAll other.entries).get? name = (other.get? name).or (m.get? name) := by
  unfold OrderedMap.get? at *
  obtain ⟨entries⟩ := other
  have hnodup : (entries.map Prod.fst).Nodup := hdistinct
  clear hdistinct
  induction entries generalizing m with
  | nil => simp [insertAll]
  | cons entry rest ih =>
      obtain ⟨key, value⟩ := entry
      simp only [List.map_cons, List.nodup_cons] at hnodup
      have hrest := ih (m.insert key value) hnodup.2
      rw [insertAll_cons, hrest]
      change ((rest.lookup name).or ((m.insert key value).get? name)) = _
      rw [get?_insert]
      by_cases hname : name = key
      · subst hname
        simp [lookup_eq_none_of_not_mem hnodup.1]
      · have hbeq : (name == key) = false := by simpa using hname
        simp [List.lookup_cons, hname, hbeq, OrderedMap.get?]

/-- Going through a map of its own makes no difference to what bindings do. -/
theorem get?_insertAll_insertAll (m : OrderedMap α) (entries : List (String × α))
    (name : String) :
    (m.insertAll (({} : OrderedMap α).insertAll entries).entries).get? name =
      (m.insertAll entries).get? name := by
  rw [get?_insertAll_entries m (distinct_empty.insertAll entries), get?_insertAll,
    get?_insertAll]
  simp [OrderedMap.get?]

/-! ## The order of names -/

end StaticDispatch.OrderedMap
