/-!
# Counts of applied rules

How often each rule was applied.
-/

namespace StaticDispatch

structure Stats where
  safeNavigation : Nat := 0
  operatorCalls : Nat := 0
  comparisons : Nat := 0
  compoundAssignments : Nat := 0
  arrayAccesses : Nat := 0
  staticCalls : Nat := 0
  namedConstructors : Nat := 0
deriving DecidableEq, Repr, Inhabited

namespace Stats

def total (s : Stats) : Nat :=
  s.safeNavigation + s.operatorCalls + s.comparisons + s.compoundAssignments
    + s.arrayAccesses + s.staticCalls + s.namedConstructors

def combine (op : Nat → Nat → Nat) (a b : Stats) : Stats :=
  { safeNavigation := op a.safeNavigation b.safeNavigation
    operatorCalls := op a.operatorCalls b.operatorCalls
    comparisons := op a.comparisons b.comparisons
    compoundAssignments := op a.compoundAssignments b.compoundAssignments
    arrayAccesses := op a.arrayAccesses b.arrayAccesses
    staticCalls := op a.staticCalls b.staticCalls
    namedConstructors := op a.namedConstructors b.namedConstructors }

instance : Add Stats := ⟨combine (· + ·)⟩

/-- What was added since an earlier count. -/
instance : Sub Stats := ⟨combine (· - ·)⟩

def sum (all : List Stats) : Stats :=
  all.foldl (· + ·) {}

/-! ## Counts in words -/

/-- The greatest count that a word of 64 bits holds. -/
def greatestCount : Nat := 0xFFFFFFFFFFFFFFFF

/-- Whether every count and the total have a place in a word. -/
def fits (s : Stats) : Bool :=
  s.total ≤ greatestCount

/-- The sum, if it has a place in words. -/
def add? (a b : Stats) : Option Stats :=
  if (a + b).fits then some (a + b) else none

/-- What was added since an earlier count, if every count has grown from it and the
difference has a place in words. -/
def since? (later earlier : Stats) : Option Stats :=
  if earlier + (later - earlier) = later ∧ (later - earlier).fits then some (later - earlier)
  else none

end Stats

end StaticDispatch
