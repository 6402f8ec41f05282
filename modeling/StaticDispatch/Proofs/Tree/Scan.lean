import StaticDispatch.Tree.Capture

/-!
# Walking over names twice

A walk over a tree only adds names to a scope, and once they are there a second
walk over the same tree adds nothing, whatever has been added in between.  So a
tree may stand twice in a body without a change to the scope of the closure.
-/

namespace StaticDispatch

namespace VariableScope

/-- Every name of the first scope is in the second one in the same role. -/
structure Within (scope larger : VariableScope) : Prop where
  declared : ∀ name ∈ scope.declared, name ∈ larger.declared
  captured : ∀ name ∈ scope.captured, name ∈ larger.captured

theorem Within.refl (scope : VariableScope) : scope.Within scope :=
  ⟨fun _ h => h, fun _ h => h⟩

theorem Within.trans {a b c : VariableScope} (hab : a.Within b) (hbc : b.Within c) :
    a.Within c :=
  ⟨fun name h => hbc.declared name (hab.declared name h),
    fun name h => hbc.captured name (hab.captured name h)⟩

theorem mem_addName {names : List String} {name other : String} :
    other ∈ addName names name ↔ other ∈ names ∨ other = name := by
  unfold addName
  split
  · rename_i hmem
    have hmem : name ∈ names := by simpa using hmem
    constructor
    · exact .inl
    · rintro (h | rfl)
      · exact h
      · exact hmem
  · simp

theorem addName_of_mem {names : List String} {name : String} (h : name ∈ names) :
    addName names name = names := by
  simp [addName, h]

/-- A walk that only adds names, and adds none where it has been before. -/
structure Settles (walk : VariableScope → VariableScope) : Prop where
  grows : ∀ scope : VariableScope, scope.Within (walk scope)
  again : ∀ scope later, (walk scope).Within later → walk later = later

theorem settles_id : Settles fun scope => scope :=
  ⟨Within.refl, fun _ _ _ => rfl⟩

theorem Settles.comp {first second : VariableScope → VariableScope} (hfirst : Settles first)
    (hsecond : Settles second) : Settles fun scope => second (first scope) where
  grows scope := (hfirst.grows scope).trans (hsecond.grows _)
  again scope later h := by
    have hbefore : first later = later :=
      hfirst.again scope later ((hsecond.grows (first scope)).trans h)
    rw [hbefore]
    exact hsecond.again (first scope) later h

theorem settles_declare (name : String) : Settles (declare · name) where
  grows scope := ⟨fun _ h => mem_addName.mpr (.inl h), fun _ h => h⟩
  again scope later h := by
    have hname : name ∈ later.declared := h.declared name (mem_addName.mpr (.inr rfl))
    unfold declare
    rw [addName_of_mem hname]

theorem settles_reference (name : String) : Settles (reference · name) where
  grows scope := by
    unfold reference
    split
    · exact Within.refl scope
    · exact ⟨fun _ h => h, fun _ h => mem_addName.mpr (.inl h)⟩
  again scope later h := by
    unfold reference at h ⊢
    split at h
    · rename_i hdeclared
      have hname := h.declared name (by simpa using hdeclared)
      simp [hname]
    · have hname := h.captured name (mem_addName.mpr (.inr rfl))
      rw [addName_of_mem hname]
      exact ite_self later

theorem settles_referenceAll (names : List String) : Settles (referenceAll · names) := by
  induction names with
  | nil => exact settles_id
  | cons name rest ih => exact (settles_reference name).comp ih

end VariableScope

open VariableScope

mutual

theorem Expr.settles_scan : (e : Expr) → Settles e.scan
  | .literal _ _ => settles_id
  | .var _ name _ => settles_reference name
  | .this _ => settles_id
  | .classRef _ _ => settles_id
  | .property _ receiver _ => receiver.settles_scan
  | .methodCall _ receiver _ args _ _ => receiver.settles_scan.comp (settles_scanExprs args)
  | .staticCall _ _ _ args => settles_scanExprs args
  | .constructorCall _ _ args => settles_scanExprs args
  | .binary _ _ _ left right => left.settles_scan.comp right.settles_scan
  | .ternary _ condition yes no =>
      (condition.settles_scan.comp yes.settles_scan).comp no.settles_scan
  | .closure _ params body _ => settles_referenceAll (scanStmts body (.ofParams params)).captured
  | .block _ body => settles_scanStmts body
  | .map _ entries => settles_scanEntries entries
  | .list _ items => settles_scanExprs items
  | .declaration _ name _ initializer => initializer.settles_scan.comp (settles_declare name)
  | .cast _ _ operand => operand.settles_scan
  | .unary _ _ operand => operand.settles_scan

theorem settles_scanExprs : (es : List Expr) → Settles (scanExprs es)
  | [] => settles_id
  | e :: rest => e.settles_scan.comp (settles_scanExprs rest)

theorem settles_scanEntries : (entries : List Entry) → Settles (scanEntries entries)
  | [] => settles_id
  | .mk key value _ :: rest =>
      (key.settles_scan.comp value.settles_scan).comp (settles_scanEntries rest)

theorem Stmt.settles_scan : (s : Stmt) → Settles s.scan
  | .expr value => value.settles_scan
  | .block body => settles_scanStmts body
  | .ret none _ => settles_id
  | .ret (some value) _ => value.settles_scan
  | .ifElse condition yes none => condition.settles_scan.comp (settles_scanStmts yes)
  | .ifElse condition yes (some no) =>
      (condition.settles_scan.comp (settles_scanStmts yes)).comp (settles_scanStmts no)
  | .whileLoop condition body => condition.settles_scan.comp (settles_scanStmts body)
  | .forIn loopVar iterable body =>
      (iterable.settles_scan.comp (settles_declare loopVar.name)).comp (settles_scanStmts body)
  | .throw value => value.settles_scan

theorem settles_scanStmts : (body : List Stmt) → Settles (scanStmts body)
  | [] => settles_id
  | s :: rest => s.settles_scan.comp (settles_scanStmts rest)

end

/-- A second walk over the expression adds no name. -/
theorem Expr.scan_scan (e : Expr) (scope : VariableScope) :
    e.scan (e.scan scope) = e.scan scope :=
  e.settles_scan.again scope _ (Within.refl _)

end StaticDispatch
