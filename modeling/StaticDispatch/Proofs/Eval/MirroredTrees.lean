import StaticDispatch.Proofs.Eval.MirroredCalls

/-!
# Trees that take the detour

A tree whose free names may be read, and which writes to the scope around it
only where the view permits, gives the same answer elsewhere.  Inside the
scopes that it opens everything is permitted.  By induction over the budget
this holds of the bodies of closures, and so of every tree.
-/

namespace StaticDispatch

open EvalM

/-- The view allows the write to the innermost scope. -/
def View.Permits (view : View) : ScopeWrite → Prop
  | .declares _ => view.declares
  | .assigns name => view.declares ∨ view.bound name

theorem View.permits_of_declares {view : View} (h : view.declares) (write : ScopeWrite) :
    view.Permits write := by
  cases write with
  | declares name => exact h
  | assigns name => exact .inl h

section Trees

variable {δ : Detour} {lib : Library} {runBody : Block → EvalM Flow} (loops : Nat)

/-- An assignment is permitted to write to its target. -/
theorem allows_evalPlace {view : View} {op : BinaryOp} {target : Expr}
    (hop : op = .assign ∨ ∃ arithmetic, op = .compound arithmetic)
    (hreads : ∀ name ∈ target.free, view.reads name)
    (hwrites : ∀ write ∈ ScopeWrite.ofTarget op target, view.Permits write) (state : State)
    (place : Place) (hplace : ((target.evalPlace lib loops runBody).run state).1 = .ok place) :
    view.Allows place := by
  cases place with
  | named name =>
      obtain ⟨info, type, rfl⟩ := Expr.exists_of_evalPlace_named hplace
      refine ⟨hreads name (by simp [Expr.free]), ?_⟩
      apply hwrites (.assigns name)
      rcases hop with rfl | ⟨arithmetic, rfl⟩
      · simp [ScopeWrite.ofTarget, Expr.variableName?]
      · simp [ScopeWrite.ofTarget, Expr.variableName?]
  | property receiver name => trivial
  | element receiver index => trivial

/-- What a compound assignment does once its target is known. -/
def completeCompound (lib : Library) (loops : Nat) (runBody : Block → EvalM Flow)
    (target : Option OperatorTarget) (op : Arithmetic) (right : Expr) (place : Place) :
    EvalM Value := do
  let current ← readPlace place
  let operand ← right.eval lib loops runBody
  let value ← arithmetic lib runBody target op current operand
  writePlace lib.types place value
  return value

theorem eval_compound (info : Info) (op : Arithmetic) (opSpan : Span) (left right : Expr) :
    (Expr.binary info (.compound op) opSpan left right).eval lib loops runBody =
      left.evalPlace lib loops runBody >>=
        completeCompound lib loops runBody info.facts.operatorTarget op right := by
  simp only [Expr.eval]
  rfl

/-- The code from elsewhere takes the detour. -/
structure Detour.Suits (δ : Detour) (lib : Library) (runBody : Block → EvalM Flow) : Prop where
  natives : lib.Relocates δ.toRelocation
  bodies : MirrorsBodies δ runBody

theorem mirrors_completeCompound (h : δ.Suits lib runBody) {view : View} {right : Expr}
    (hright : Mirrors δ view δ.value (right.eval lib loops runBody)
      (right.eval lib loops runBody))
    (target : Option OperatorTarget) (op : Arithmetic) {place : Place}
    (hplace : view.Allows place) :
    Mirrors δ view δ.value (completeCompound lib loops runBody target op right place)
      (completeCompound lib loops runBody target op right (δ.place place)) := by
  unfold completeCompound
  refine (mirrors_readPlace hplace).bind fun current => ?_
  refine hright.bind fun operand => ?_
  refine (mirrors_arithmetic h.natives h.bodies target op current operand).bind fun value => ?_
  exact (mirrors_writePlace lib.types hplace value).bind_same fun _ => mirrors_pure rfl

/-- A body may bind names in a scope of its own. -/
theorem EvalM.Mirrors.nested {view : View} {body : Block} {x y : EvalM Flow}
    (hbody : ∀ {inner : View}, inner.declares → (∀ name ∈ freeOfStmts body, inner.reads name) →
      Mirrors δ inner δ.flow x y)
    (hreads : ∀ name ∈ freeOfStmts body, view.reads name) :
    Mirrors δ view δ.flow (inChildScope {} x) (inChildScope {} y) :=
  mirrors_inChildScope (hbody trivial fun name hname => .inl (hreads name hname))

mutual

theorem mirrors_eval (h : δ.Suits lib runBody) {view : View} :
    (e : Expr) → (∀ name ∈ e.free, view.reads name) → (∀ write ∈ e.writes, view.Permits write) →
      Mirrors δ view δ.value (e.eval lib loops runBody) (e.eval lib loops runBody)
  | .literal info value, _, _ => by
      apply mirrors_pure
      cases value <;> rfl
  | .var info name declaredType, hreads, _ => by
      simp only [Expr.free, List.forall_mem_singleton] at hreads
      exact mirrors_readVariable hreads
  | .this info, _, _ => mirrors_this
  | .classRef info type, _, _ => mirrors_pure rfl
  | .property info receiver name, hreads, hwrites => by
      simp only [Expr.free] at hreads
      simp only [Expr.writes] at hwrites
      simp only [Expr.eval]
      refine (mirrors_eval h receiver hreads hwrites).bind fun receiver => ?_
      apply mirrors_getHeap_bind
      intro left right hmaps _
      exact mirrors_liftFailure (Relocation.readProperty_value hmaps receiver name)
  | .methodCall info receiver name args safe spread, hreads, hwrites => by
      simp only [Expr.free, List.forall_mem_append] at hreads
      simp only [Expr.writes, List.forall_mem_append] at hwrites
      simp only [Expr.eval]
      refine (mirrors_eval h receiver hreads.1 hwrites.1).bind fun receiver => ?_
      rw [Relocation.isNull_value]
      split
      · exact mirrors_pure rfl
      · refine (mirrors_evalExprs h args hreads.2 hwrites.2).bind fun args => ?_
        exact mirrors_invokeCall h.natives h.bodies receiver name args spread
  | .staticCall info owner name args, hreads, hwrites => by
      simp only [Expr.free] at hreads
      simp only [Expr.writes] at hwrites
      simp only [Expr.eval]
      refine (mirrors_evalExprs h args hreads hwrites).bind fun args => ?_
      exact mirrors_invoke h.natives h.bodies (.classRef owner) name args
  | .constructorCall info type args, hreads, hwrites => by
      simp only [Expr.free] at hreads
      simp only [Expr.writes] at hwrites
      simp only [Expr.eval]
      refine (mirrors_evalExprs h args hreads hwrites).bind fun args => ?_
      exact mirrors_construct h.natives type args
  | .binary info op opSpan left right, hreads, hwrites => by
      simp only [Expr.free, List.forall_mem_append] at hreads
      simp only [Expr.writes, List.forall_mem_append] at hwrites
      have hplace := mirrors_evalPlace h left hreads.1 hwrites.2.1
      have hleft := mirrors_eval h left hreads.1 hwrites.2.1
      have hright := mirrors_eval h right hreads.2 hwrites.2.2
      cases op with
      | assign =>
          simp only [Expr.eval]
          refine hplace.bind_of view.Allows
            (allows_evalPlace loops (.inl rfl) hreads.1 hwrites.1) fun place hallows => ?_
          refine hright.bind fun value => ?_
          exact (mirrors_writePlace lib.types hallows value).bind_same fun _ => mirrors_pure rfl
      | compound op =>
          rw [eval_compound]
          exact hplace.bind_of view.Allows
            (allows_evalPlace loops (.inr ⟨op, rfl⟩) hreads.1 hwrites.1) fun place hallows =>
              mirrors_completeCompound loops h hright info.facts.operatorTarget op hallows
      | and =>
          simp only [Expr.eval]
          refine hleft.bind fun value => ?_
          refine (mirrors_isTruthy value).bind_same fun truthy => ?_
          split
          · refine hright.bind fun value => ?_
            exact (mirrors_isTruthy value).bind_same fun _ => mirrors_pure rfl
          · exact mirrors_pure rfl
      | or =>
          simp only [Expr.eval]
          refine hleft.bind fun value => ?_
          refine (mirrors_isTruthy value).bind_same fun truthy => ?_
          split
          · exact mirrors_pure rfl
          · refine hright.bind fun value => ?_
            exact (mirrors_isTruthy value).bind_same fun _ => mirrors_pure rfl
      | index =>
          simp only [Expr.eval]
          refine hleft.bind fun receiver => ?_
          refine hright.bind fun index => ?_
          exact mirrors_readElement receiver index
      | comparison op =>
          simp only [Expr.eval]
          refine hleft.bind fun left => ?_
          refine hright.bind fun right => ?_
          exact mirrors_evalComparison h.natives h.bodies _ op left right
      | arithmetic op =>
          simp only [Expr.eval]
          refine hleft.bind fun left => ?_
          refine hright.bind fun right => ?_
          exact mirrors_arithmetic h.natives h.bodies _ op left right
  | .ternary info condition yes no, hreads, hwrites => by
      simp only [Expr.free, List.forall_mem_append] at hreads
      simp only [Expr.writes, List.forall_mem_append] at hwrites
      simp only [Expr.eval]
      refine (mirrors_eval h condition hreads.1 hwrites.1).bind fun value => ?_
      refine (mirrors_isTruthy value).bind_same fun truthy => ?_
      split
      · exact mirrors_eval h yes hreads.2.1 hwrites.2.1
      · exact mirrors_eval h no hreads.2.2 hwrites.2.2
  | .closure info params body scope, hreads, _ => by
      simp only [Expr.free] at hreads
      exact mirrors_makeClosure params body hreads
  | .block info body, hreads, _ => by
      simp only [Expr.free] at hreads
      simp only [Expr.eval]
      refine Mirrors.bind (.nested (mirrors_evalStmts h none body) hreads) fun flow => ?_
      exact mirrors_blockValue flow
  | .map info entries, hreads, hwrites => by
      simp only [Expr.free] at hreads
      simp only [Expr.writes] at hwrites
      simp only [Expr.eval]
      refine (mirrors_evalEntries h {} entries hreads hwrites).bind fun entries => ?_
      apply mirrors_allocate
      intro left right hmaps
      exact ⟨.newMap hmaps entries, congrArg Value.map hmaps.size_maps⟩
  | .list info items, hreads, hwrites => by
      simp only [Expr.free] at hreads
      simp only [Expr.writes] at hwrites
      simp only [Expr.eval]
      refine (mirrors_evalExprs h items hreads hwrites).bind fun items => ?_
      exact mirrors_newList fun _ _ _ => rfl
  | .declaration info name declaredType initializer, hreads, hwrites => by
      simp only [Expr.free] at hreads
      simp only [Expr.writes, List.forall_mem_cons] at hwrites
      simp only [Expr.eval]
      refine (mirrors_eval h initializer hreads hwrites.2).bind fun value => ?_
      exact (mirrors_define hwrites.1 name value).bind_same fun _ => mirrors_pure rfl
  | .cast info type operand, hreads, hwrites => mirrors_eval h operand hreads hwrites
  | .unary info op operand, hreads, hwrites => by
      simp only [Expr.free] at hreads
      simp only [Expr.writes] at hwrites
      simp only [Expr.eval]
      refine (mirrors_eval h operand hreads hwrites).bind fun value => ?_
      cases op with
      | not => exact (mirrors_isTruthy value).bind_same fun _ => mirrors_pure rfl
      | negate => exact mirrors_negate h.natives h.bodies value

theorem mirrors_evalPlace (h : δ.Suits lib runBody) {view : View} :
    (e : Expr) → (∀ name ∈ e.free, view.reads name) → (∀ write ∈ e.writes, view.Permits write) →
      Mirrors δ view δ.place (e.evalPlace lib loops runBody) (e.evalPlace lib loops runBody)
  | .var info name declaredType, _, _ => mirrors_pure rfl
  | .property info receiver name, hreads, hwrites => by
      simp only [Expr.free] at hreads
      simp only [Expr.writes] at hwrites
      simp only [Expr.evalPlace]
      exact (mirrors_eval h receiver hreads hwrites).bind fun receiver => mirrors_pure rfl
  | .binary info op opSpan left right, hreads, hwrites => by
      simp only [Expr.free, List.forall_mem_append] at hreads
      simp only [Expr.writes, List.forall_mem_append] at hwrites
      cases op with
      | index =>
          simp only [Expr.evalPlace]
          refine (mirrors_eval h left hreads.1 hwrites.2.1).bind fun receiver => ?_
          exact (mirrors_eval h right hreads.2 hwrites.2.2).bind fun index => mirrors_pure rfl
      | _ => exact mirrors_fail _
  | .literal _ _, _, _ => mirrors_fail _
  | .this _, _, _ => mirrors_fail _
  | .classRef _ _, _, _ => mirrors_fail _
  | .methodCall _ _ _ _ _ _, _, _ => mirrors_fail _
  | .staticCall _ _ _ _, _, _ => mirrors_fail _
  | .constructorCall _ _ _, _, _ => mirrors_fail _
  | .ternary _ _ _ _, _, _ => mirrors_fail _
  | .closure _ _ _ _, _, _ => mirrors_fail _
  | .block _ _, _, _ => mirrors_fail _
  | .map _ _, _, _ => mirrors_fail _
  | .list _ _, _, _ => mirrors_fail _
  | .declaration _ _ _ _, _, _ => mirrors_fail _
  | .cast _ _ _, _, _ => mirrors_fail _
  | .unary _ _ _, _, _ => mirrors_fail _

theorem mirrors_evalExprs (h : δ.Suits lib runBody) {view : View} :
    (es : List Expr) → (∀ name ∈ freeOfExprs es, view.reads name) →
      (∀ write ∈ writesOfExprs es, view.Permits write) →
      Mirrors δ view (List.map δ.value) (evalExprs lib loops runBody es)
        (evalExprs lib loops runBody es)
  | [], _, _ => mirrors_pure rfl
  | e :: rest, hreads, hwrites => by
      simp only [freeOfExprs, List.forall_mem_append] at hreads
      simp only [writesOfExprs, List.forall_mem_append] at hwrites
      simp only [evalExprs]
      refine (mirrors_eval h e hreads.1 hwrites.1).bind fun value => ?_
      exact (mirrors_evalExprs h rest hreads.2 hwrites.2).bind fun values => mirrors_pure rfl

theorem mirrors_evalEntries (h : δ.Suits lib runBody) {view : View} (done : OrderedMap Value) :
    (entries : List Entry) → (∀ name ∈ freeOfEntries entries, view.reads name) →
      (∀ write ∈ writesOfEntries entries, view.Permits write) →
      Mirrors δ view (·.map δ.value) (evalEntries lib loops runBody done entries)
        (evalEntries lib loops runBody (done.map δ.value) entries)
  | [], _, _ => mirrors_pure rfl
  | .mk key value span :: rest, hreads, hwrites => by
      simp only [freeOfEntries, List.forall_mem_append] at hreads
      simp only [writesOfEntries, List.forall_mem_append] at hwrites
      simp only [evalEntries]
      refine (mirrors_eval h key hreads.1 hwrites.1).bind fun key => ?_
      refine (mirrors_textOf key).bind_same fun text => ?_
      refine (mirrors_eval h value hreads.2.1 hwrites.2.1).bind fun value => ?_
      rw [← OrderedMap.map_insert]
      exact mirrors_evalEntries h (done.insert text value) rest hreads.2.2 hwrites.2.2

theorem mirrors_evalStmt (h : δ.Suits lib runBody) {view : View} :
    (s : Stmt) → view.declares → (∀ name ∈ s.free, view.reads name) →
      Mirrors δ view δ.flow (s.eval lib loops runBody) (s.eval lib loops runBody)
  | .expr value, hdeclares, hreads => by
      simp only [Stmt.free] at hreads
      simp only [Stmt.eval]
      have hvalue := mirrors_eval h value hreads fun write _ =>
        View.permits_of_declares hdeclares write
      exact hvalue.bind fun value => mirrors_pure rfl
  | .block body, _, hreads => by
      simp only [Stmt.free] at hreads
      simp only [Stmt.eval]
      exact .nested (mirrors_evalStmts h none body) hreads
  | .ret none span, _, _ => mirrors_pure rfl
  | .ret (some value) span, hdeclares, hreads => by
      simp only [Stmt.free] at hreads
      simp only [Stmt.eval]
      have hvalue := mirrors_eval h value hreads fun write _ =>
        View.permits_of_declares hdeclares write
      exact hvalue.bind fun value => mirrors_pure rfl
  | .ifElse condition yes none, hdeclares, hreads => by
      simp only [Stmt.free, List.forall_mem_append] at hreads
      simp only [Stmt.eval]
      refine (mirrors_eval h condition hreads.1
        fun write _ => View.permits_of_declares hdeclares write).bind fun value => ?_
      refine (mirrors_isTruthy value).bind_same fun truthy => ?_
      split
      · exact .nested (mirrors_evalStmts h none yes) hreads.2
      · exact mirrors_pure rfl
  | .ifElse condition yes (some no), hdeclares, hreads => by
      simp only [Stmt.free, List.forall_mem_append] at hreads
      simp only [Stmt.eval]
      refine (mirrors_eval h condition hreads.1
        fun write _ => View.permits_of_declares hdeclares write).bind fun value => ?_
      refine (mirrors_isTruthy value).bind_same fun truthy => ?_
      split
      · exact .nested (mirrors_evalStmts h none yes) hreads.2.1
      · exact .nested (mirrors_evalStmts h none no) hreads.2.2
  | .whileLoop condition body, hdeclares, hreads => by
      simp only [Stmt.free, List.forall_mem_append] at hreads
      simp only [Stmt.eval]
      have hcondition := mirrors_eval h condition hreads.1
        fun write _ => View.permits_of_declares hdeclares write
      have hbody : Mirrors δ (view.inside {}) δ.flow (evalStmts lib loops runBody none body)
          (evalStmts lib loops runBody none body) :=
        mirrors_evalStmts h none body trivial fun name hname => .inl (hreads.2 name hname)
      exact (hcondition.loopStep hbody).repeatLoop loops
  | .forIn loopVar iterable body, hdeclares, hreads => by
      simp only [Stmt.free, List.forall_mem_append] at hreads
      simp only [Stmt.eval]
      refine (mirrors_eval h iterable hreads.1
        fun write _ => View.permits_of_declares hdeclares write).bind fun value => ?_
      refine (mirrors_iterationValues value).bind fun items => ?_
      apply Mirrors.forEach
      intro item
      change Mirrors δ view δ.flow _ (inChildScope
        ((OrderedMap.empty.insert loopVar.name item).map δ.value) _)
      apply mirrors_inChildScope
      apply mirrors_evalStmts h none body trivial
      intro name hname
      by_cases hloop : name = loopVar.name
      · exact .inr ((OrderedMap.contains_insert _ _ _ _).mpr (.inl hloop))
      · exact .inl (hreads.2 name (List.mem_filter.mpr ⟨hname, by simpa using hloop⟩))
  | .throw value, hdeclares, hreads => by
      simp only [Stmt.free] at hreads
      simp only [Stmt.eval]
      refine (mirrors_eval h value hreads
        fun write _ => View.permits_of_declares hdeclares write).bind fun value => ?_
      exact (mirrors_textOf value).bind_same fun text => mirrors_fail _

theorem mirrors_evalStmts (h : δ.Suits lib runBody) {view : View} (last : Option Value) :
    (body : List Stmt) → view.declares → (∀ name ∈ freeOfStmts body, view.reads name) →
      Mirrors δ view δ.flow (evalStmts lib loops runBody last body)
        (evalStmts lib loops runBody (last.map δ.value) body)
  | [], _, _ => mirrors_pure rfl
  | s :: rest, hdeclares, hreads => by
      simp only [freeOfStmts, List.forall_mem_append] at hreads
      simp only [evalStmts]
      refine (mirrors_evalStmt h s hdeclares hreads.1).bind fun flow => ?_
      cases flow with
      | returned value => exact mirrors_pure rfl
      | normal value => exact mirrors_evalStmts h value rest hdeclares hreads.2

end

end Trees

/-- The bodies of closures take any detour. -/
theorem mirrorsBodies_runBody {δ : Detour} {lib : Library}
    (hlib : lib.Relocates δ.toRelocation) (budget : Nat) :
    MirrorsBodies δ (runBody lib budget) := by
  -- A call takes one level of the budget, so that the closures called in a body have less.
  induction budget with
  | zero => exact fun _ _ _ _ => mirrors_throw _
  | succ budget ih =>
      intro view body hdeclares hreads
      exact mirrors_evalStmts budget ⟨hlib, ih⟩ none body hdeclares hreads

theorem Library.Relocates.suits {δ : Detour} {lib : Library}
    (hlib : lib.Relocates δ.toRelocation) (budget : Nat) : δ.Suits lib (runBody lib budget) :=
  ⟨hlib, mirrorsBodies_runBody hlib budget⟩

/-- A tree that reads and writes only what its view allows gives the same answer elsewhere. -/
theorem mirrors_evaluate {δ : Detour} {lib : Library} (hlib : lib.Relocates δ.toRelocation)
    (budget : Nat) {view : View} (e : Expr) (hreads : ∀ name ∈ e.free, view.reads name)
    (hwrites : ∀ write ∈ e.writes, view.Permits write) :
    Mirrors δ view δ.value (evaluate lib budget e) (evaluate lib budget e) :=
  mirrors_eval budget (hlib.suits budget) e hreads hwrites

end StaticDispatch
