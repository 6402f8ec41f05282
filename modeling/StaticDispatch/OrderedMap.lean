/-!
# Insertion-ordered maps

Maps from names to values that keep the order in which the names first came
in.  Writing to a name that is already there changes its value and leaves its
position.  Class fields, map values, object fields and the variables of a
scope are all kept in this form.
-/

namespace StaticDispatch

/-- Names with their values, in the order in which the names first came in. -/
structure OrderedMap (α : Type) where
  entries : List (String × α) := []

namespace OrderedMap

variable {α β : Type}

instance : Inhabited (OrderedMap α) := ⟨{}⟩

def empty : OrderedMap α := {}

def size (m : OrderedMap α) : Nat :=
  m.entries.length

def keys (m : OrderedMap α) : List String :=
  m.entries.map Prod.fst

def values (m : OrderedMap α) : List α :=
  m.entries.map Prod.snd

def get? (m : OrderedMap α) (key : String) : Option α :=
  m.entries.lookup key

def contains (m : OrderedMap α) (key : String) : Bool :=
  (m.get? key).isSome

def insertEntry (key : String) (value : α) : List (String × α) → List (String × α)
  | [] => [(key, value)]
  | (name, old) :: rest =>
    if key == name then (name, value) :: rest
    else (name, old) :: insertEntry key value rest

/-- Binds `key` to `value`, at its old position if it has one and else last. -/
def insert (m : OrderedMap α) (key : String) (value : α) : OrderedMap α :=
  ⟨insertEntry key value m.entries⟩

/-- Binds the names in turn, so that the last value of a repeated name wins. -/
def insertAll (m : OrderedMap α) (entries : List (String × α)) : OrderedMap α :=
  entries.foldl (fun acc entry => acc.insert entry.1 entry.2) m

/-! ## Reading after writing -/

theorem lookup_insertEntry_self (key : String) (value : α)
    (entries : List (String × α)) :
    (insertEntry key value entries).lookup key = some value := by
  induction entries with
  | nil => simp [insertEntry]
  | cons entry rest ih =>
    obtain ⟨name, old⟩ := entry
    by_cases hname : key == name
    · simp [insertEntry, hname, List.lookup_cons]
    · simp [insertEntry, hname, List.lookup_cons, ih]

theorem lookup_insertEntry_ne {key other : String} (value : α)
    (hne : other ≠ key) (entries : List (String × α)) :
    (insertEntry key value entries).lookup other = entries.lookup other := by
  induction entries with
  | nil => simp [insertEntry, List.lookup_cons, beq_eq_false_iff_ne.mpr hne]
  | cons entry rest ih =>
    obtain ⟨name, old⟩ := entry
    by_cases hname : key == name
    · have hkey : key = name := by simpa using hname
      subst hkey
      simp [insertEntry, List.lookup_cons, beq_eq_false_iff_ne.mpr hne]
    · simp [insertEntry, hname, List.lookup_cons, ih]

@[simp] theorem get?_insert_self (m : OrderedMap α) (key : String) (value : α) :
    (m.insert key value).get? key = some value :=
  lookup_insertEntry_self key value m.entries

theorem get?_insert_ne (m : OrderedMap α) {key other : String} (value : α)
    (hne : other ≠ key) :
    (m.insert key value).get? other = m.get? other :=
  lookup_insertEntry_ne value hne m.entries

end OrderedMap

end StaticDispatch
