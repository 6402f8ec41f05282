import StaticDispatch.Proofs.Lowering.StaticType
import StaticDispatch.Proofs.Tree.Forest

/-!
# What rules put around operands

Besides the operands of a node a lowered tree has glue: comparisons with null,
references to temporaries, assignments and blocks.  The target of a resolved
assignment stands in the tree twice.  The targets of the language are variables,
properties and plain subscripts, and what is written twice for them is glue
only, as everything else in them is bound before.
-/

namespace StaticDispatch

open LowerM

/-! ## Plain targets -/

/-- A variable, a property or a subscript that was not resolved to a method. -/
def Expr.isPlainTarget : Expr → Bool
  | .var _ _ _ => true
  | .property _ _ _ => true
  | .binary info .index _ _ _ => info.facts.operatorTarget.isNone
  | _ => false

/-- If the node is an assignment that was resolved to a method, its target is plain. -/
def Expr.hasPlainTarget : Expr → Bool
  | .binary info op _ left _ =>
      !(info.facts.operatorTarget.isSome && op.isAssignment) || left.isPlainTarget
  | _ => true

theorem Expr.nodes_of_isSideEffectFree {e : Expr} (h : e.isSideEffectFree = true) :
    e.nodes = [e] := by
  cases e <;> simp_all [Expr.isSideEffectFree, Expr.nodes]

theorem Expr.closures_of_isSideEffectFree {e : Expr} (h : e.isSideEffectFree = true) :
    e.closures = [] := by
  cases e <;> simp_all [Expr.isSideEffectFree, Expr.closures]

section Rules

variable (settings : Settings) (cls : TypeId)

theorem yields_lower_isPlainTarget {e : Expr} (h : e.isPlainTarget = true) :
    Yields (e.lower settings cls) fun out => out.isPlainTarget = true := by
  cases e with
  | var info name type => exact yields_pure rfl
  | property info receiver name => exact fun _ => rfl
  | binary info op opSpan left right =>
      cases op with
      | index =>
          have htarget : info.facts.operatorTarget = none := by
            simpa [Expr.isPlainTarget] using h
          intro session
          simp only [Expr.lower, lowerBinary, htarget]
          exact h
      | _ => exact absurd h (by simp [Expr.isPlainTarget])
  | _ => exact absurd h (by simp [Expr.isPlainTarget])

/-- The target of a resolved assignment is plain when its assignment is lowered. -/
theorem isPlainTarget_lower {info : Info} {op : BinaryOp} {opSpan : Span} {left right : Expr}
    (h : (Expr.binary info op opSpan left right).hasPlainTarget = true) (session : Session)
    (hresolved : info.facts.operatorTarget.isSome = true) (hassignment : op.isAssignment = true) :
    ((left.lower settings cls).run session).1.isPlainTarget = true := by
  have hplain : left.isPlainTarget = true := by
    simpa [Expr.hasPlainTarget, hresolved, hassignment] using h
  exact yields_lower_isPlainTarget settings cls hplain session

theorem yields_stableOperand_isSideEffectFree (operand : Expr) :
    Yields (stableOperand settings cls operand) fun pair => pair.2.isSideEffectFree = true := by
  unfold stableOperand
  split
  · rename_i hpure
    exact yields_pure hpure
  · exact fun _ => rfl

/-- What stands in place of a plain target is a plain target without anything to bind. -/
theorem yields_stableTarget_place {target : Expr} (h : target.isPlainTarget = true) :
    Yields (stableTarget settings cls target) fun pair =>
      pair.2.isPlainTarget = true ∧ pair.2.isStableTarget = true := by
  cases target with
  | var info name type => exact yields_pure ⟨rfl, rfl⟩
  | property info receiver name =>
      refine (yields_stableOperand_isSideEffectFree settings cls receiver).bind ?_
      rintro ⟨before, receiver'⟩ hreceiver
      exact yields_pure ⟨rfl, hreceiver⟩
  | binary info op opSpan left right =>
      cases op with
      | index =>
          refine (yields_stableOperand_isSideEffectFree settings cls left).bind ?_
          rintro ⟨before, left'⟩ hleft
          refine (yields_stableOperand_isSideEffectFree settings cls right).bind ?_
          rintro ⟨between, right'⟩ hright
          apply yields_pure
          simp only at hleft hright
          exact ⟨h, by simp [Expr.isStableTarget, hleft, hright]⟩
      | _ => exact absurd h (by simp [Expr.isPlainTarget])
  | _ => exact absurd h (by simp [Expr.isPlainTarget])

end Rules

/-- Besides the place itself there are only references in it. -/
theorem Expr.nodes_of_isStableTarget {place : Expr} (hplain : place.isPlainTarget = true)
    (hstable : place.isStableTarget = true) :
    ∃ references, place.nodes = place :: references ∧
      ∀ e ∈ references, e.isSideEffectFree = true := by
  cases place with
  | var info name type => exact ⟨[], rfl, by simp⟩
  | property info receiver name =>
      refine ⟨[receiver], ?_, by simpa [Expr.isStableTarget] using hstable⟩
      rw [Expr.nodes, Expr.nodes_of_isSideEffectFree hstable]
  | binary info op opSpan left right =>
      cases op with
      | index =>
          simp only [Expr.isStableTarget, Bool.and_eq_true] at hstable
          refine ⟨[left, right], ?_, by simpa using hstable⟩
          rw [Expr.nodes, Expr.nodes_of_isSideEffectFree hstable.1,
            Expr.nodes_of_isSideEffectFree hstable.2]
          rfl
      | _ => exact absurd hplain (by simp [Expr.isPlainTarget])
  | _ => exact absurd hplain (by simp [Expr.isPlainTarget])

theorem Expr.closures_of_isStableTarget {place : Expr} (hplain : place.isPlainTarget = true)
    (hstable : place.isStableTarget = true) : place.closures = [] := by
  cases place with
  | var info name type => rfl
  | property info receiver name =>
      simp only [Expr.isStableTarget] at hstable
      rw [Expr.closures, Expr.closures_of_isSideEffectFree hstable]
  | binary info op opSpan left right =>
      cases op with
      | index =>
          simp only [Expr.isStableTarget, Bool.and_eq_true] at hstable
          rw [Expr.closures, Expr.closures_of_isSideEffectFree hstable.1,
            Expr.closures_of_isSideEffectFree hstable.2]
          rfl
      | _ => exact absurd hplain (by simp [Expr.isPlainTarget])
  | _ => exact absurd hplain (by simp [Expr.isPlainTarget])

theorem Config.isSideEffectFree_of_not_bindsReceiver {config : Config} {receiver : Expr}
    (h : ¬ config.bindsReceiver receiver = true) : receiver.isSideEffectFree = true := by
  unfold Config.bindsReceiver at h
  split at h
  · exact absurd rfl h
  · simpa using h

theorem closures_assignmentAfter (span : Span) (type : Option TypeId) (before : List Stmt)
    (assignment : Expr) :
    (assignmentAfter span type before assignment).closures =
      closuresOfExprs (exprsOfStmts before) ++ assignment.closures := by
  unfold assignmentAfter
  cases before with
  | nil => simp [exprsOfStmts]
  | cons s rest =>
      simp [Expr.closures, closuresOfStmts_eq, exprsOfStmts_append, exprsOfStmts, Stmt.exprs]

theorem Expr.isSideEffectFree_of_stringLiteral {e : Expr} (h : e.stringLiteral?.isSome = true) :
    e.isSideEffectFree = true := by
  cases e <;> simp_all [Expr.stringLiteral?, Expr.isSideEffectFree]

theorem closures_setProperties (owner : TypeId) (name : String) (entries : List Entry)
    (hkeys : ∀ entry ∈ entries, entry.key.stringLiteral?.isSome = true) :
    closuresOfExprs (exprsOfStmts (entries.filterMap (setProperty? owner name))) =
      closuresOfExprs (exprsOfEntries entries) := by
  induction entries with
  | nil => rfl
  | cons entry rest ih =>
      obtain ⟨key, value, span⟩ := entry
      have hrest := ih fun entry hentry => hkeys entry (List.mem_cons_of_mem _ hentry)
      have hkey : key.stringLiteral?.isSome = true := hkeys _ List.mem_cons_self
      have hfree := Expr.isSideEffectFree_of_stringLiteral hkey
      obtain ⟨text, htext⟩ := Option.isSome_iff_exists.mp hkey
      simp [setProperty?, htext, exprsOfStmts, Stmt.exprs, exprsOfEntries, hrest, Expr.closures,
        localReference, Expr.closures_of_isSideEffectFree hfree]

/-! ## Glue -/

/-- A node that neither calls nor declares anything and is no closure. -/
def Expr.isGlue : Expr → Bool
  | .methodCall _ _ _ _ _ _ => false
  | .staticCall _ _ _ _ => false
  | .constructorCall _ _ _ => false
  | .closure _ _ _ _ => false
  | .declaration _ _ _ _ => false
  | _ => true

section Glue

variable {kind : Expr → Bool} (hkind : ∀ e : Expr, e.isGlue = true → kind e = false)

include hkind

theorem Expr.countOf_of_isGlue {e : Expr} (h : e.isGlue = true) :
    e.countOf kind = countOfExprs kind e.children := by
  rw [e.countOf_eq, hkind e h]
  rfl

theorem Expr.countOf_of_isSideEffectFree {e : Expr} (h : e.isSideEffectFree = true) :
    e.countOf kind = 0 := by
  rw [Expr.countOf, Expr.nodes_of_isSideEffectFree h]
  have hglue : e.isGlue = true := by
    cases e <;> simp_all [Expr.isSideEffectFree, Expr.isGlue]
  simp [hkind e hglue]

theorem Expr.countOf_of_isStableTarget {place : Expr} (hplain : place.isPlainTarget = true)
    (hstable : place.isStableTarget = true) : place.countOf kind = 0 := by
  obtain ⟨references, hnodes, hreferences⟩ := Expr.nodes_of_isStableTarget hplain hstable
  have hplace : kind place = false := by
    apply hkind
    cases place <;> simp_all [Expr.isPlainTarget, Expr.isGlue]
  have hrest : references.countP kind = 0 := by
    rw [List.countP_eq_zero]
    intro e he
    have hglue : e.isGlue = true := by
      have hfree := hreferences e he
      cases e <;> simp_all [Expr.isSideEffectFree, Expr.isGlue]
    simp [hkind e hglue]
  rw [Expr.countOf, hnodes, List.countP_cons, hrest, hplace]
  rfl

theorem countOf_assignmentAfter (span : Span) (type : Option TypeId) (before : List Stmt)
    (assignment : Expr) :
    (assignmentAfter span type before assignment).countOf kind =
      countOfExprs kind (exprsOfStmts before) + assignment.countOf kind := by
  unfold assignmentAfter
  cases before with
  | nil => simp [exprsOfStmts]
  | cons s rest =>
      rw [if_neg (by simp), Expr.countOf_of_isGlue hkind rfl]
      simp [Expr.children, exprsOfStmts, exprsOfStmts_append, Stmt.exprs, Nat.add_assoc]

theorem countOfExprs_setProperties (owner : TypeId) (name : String) (entries : List Entry)
    (hkeys : ∀ entry ∈ entries, entry.key.stringLiteral?.isSome = true) :
    countOfExprs kind (exprsOfStmts (entries.filterMap (setProperty? owner name))) =
      countOfExprs kind (exprsOfEntries entries) := by
  induction entries with
  | nil => rfl
  | cons entry rest ih =>
      obtain ⟨key, value, span⟩ := entry
      have hrest := ih fun entry hentry => hkeys entry (List.mem_cons_of_mem _ hentry)
      have hkey : key.stringLiteral?.isSome = true := hkeys _ List.mem_cons_self
      have hfree := Expr.isSideEffectFree_of_stringLiteral hkey
      obtain ⟨text, htext⟩ := Option.isSome_iff_exists.mp hkey
      have htarget : Expr.countOf kind (.property span.info (localReference span owner name) text) =
          0 := Expr.countOf_of_isStableTarget hkind rfl rfl
      have hassignment : Expr.countOf kind (.binary span.info .assign span
          (.property span.info (localReference span owner name) text) value) =
            value.countOf kind := by
        rw [Expr.countOf_of_isGlue hkind rfl]
        simp [Expr.children, htarget]
      -- the key is left out, and the value stands in an assignment of its own
      simp [setProperty?, htext, exprsOfStmts, Stmt.exprs, exprsOfEntries, hrest, hassignment,
        Expr.countOf_of_isSideEffectFree hkind hfree]

end Glue

end StaticDispatch
