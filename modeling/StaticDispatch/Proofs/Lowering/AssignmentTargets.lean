import StaticDispatch.Proofs.Eval.Agreement
import StaticDispatch.Proofs.Lowering.Calls

/-!
# Targets of assignments

What stands for an assignment in a lowered tree is an assignment again.  The
operands are lowered without regard to where they stand: a variable or a
property stays a target, and so does a subscript, unless it was resolved to a
method and becomes a call of it.  Only then is there nothing to assign to.
-/

namespace StaticDispatch

open LowerM EvalM

/-! ## What can be assigned to -/

/-- A variable, a property or a subscript. -/
def Expr.isAssignable : Expr → Bool
  | .var _ _ _ => true
  | .property _ _ _ => true
  | .binary _ .index _ _ _ => true
  | _ => false

/-- An assignment, plain or with an operator. -/
def Expr.isAssignment : Expr → Bool
  | .binary _ op _ _ _ => op.isAssignment
  | _ => false

section Places

variable (lib : Library) (loops : Nat) (runBody : Block → EvalM Flow)

end Places

/-! ## What stands for an assignment -/

/-- An assignment of the value to the place, in a block of its own if something is bound
before it. -/
def Expr.AssignsTo (out place value : Expr) : Prop :=
  ∃ span type before info op opSpan,
    out = assignmentAfter span type before (.binary info op opSpan place value) ∧
      op.isAssignment = true

section Rules

variable (settings : Settings) (cls : TypeId)

/-- An assignment stays as it is, or it was resolved and becomes one of the method's value. -/
theorem lowerBinary_assignment_cases (info : Info) {op : BinaryOp}
    (hassignment : op.isAssignment = true) (opSpan : Span) (left right : Expr) :
    (settings.config.isEnabled .binaryOperators && info.facts.operatorTarget.isSome) = false ∧
        lowerBinary settings cls info op opSpan left right =
          pure (.binary info op opSpan left right) ∨
      ∃ target,
        (settings.config.isEnabled .binaryOperators && info.facts.operatorTarget.isSome) = true ∧
          lowerBinary settings cls info op opSpan left right =
            lowerOperatorAssignment settings cls info.span opSpan info.facts.inferredType target
              left right := by
  unfold lowerBinary
  cases info.facts.operatorTarget with
  | none => exact .inl ⟨by simp, rfl⟩
  | some target =>
      cases settings.config.isEnabled .binaryOperators with
      | false => exact .inl ⟨rfl, rfl⟩
      | true =>
          refine .inr ⟨target, rfl, ?_⟩
          cases op with
          | assign => rfl
          | compound op => rfl
          | _ => cases hassignment

theorem yields_stableTarget_isAssignable (target : Expr) :
    Yields (stableTarget settings cls target) fun pair =>
      pair.2.isAssignable = target.isAssignable := by
  cases target with
  | property info receiver name => exact fun _ => rfl
  | binary info op opSpan left right =>
      cases op with
      | index => exact fun _ => rfl
      | _ => exact yields_pure rfl
  | _ => exact yields_pure rfl

/-- A resolved assignment assigns the method's value to its target, once that is stable.  Every
call in a plain target is made in the statements before it, and the target itself has none. -/
theorem yields_lowerOperatorAssignment_assignsTo (span opSpan : Span) (type : Option TypeId)
    (target : OperatorTarget) (left right : Expr) :
    Yields (lowerOperatorAssignment settings cls span opSpan type target left right) fun out =>
      ∃ place, out.AssignsTo place (operatorCall span type target place right) ∧
        place.isAssignable = left.isAssignable ∧
        ∀ kind : Expr → Bool, (∀ e : Expr, e.isCall = false → kind e = false) →
          left.isPlainTarget = true →
          out.countOf kind = left.countOf kind + right.countOf kind +
            (kind (operatorCall span type target place right)).toNat := by
  intro session
  let bound := ((stableTarget settings cls left).run session).1
  let value := operatorCall span type target bound.2 right
  have hassignable : bound.2.isAssignable = left.isAssignable :=
    yields_stableTarget_isAssignable settings cls left session
  refine ⟨bound.2, ⟨span, type, bound.1, _, .assign, opSpan, rfl, rfl⟩, hassignable, ?_⟩
  intro kind hkind hleft
  have hglue := kind_of_isGlue hkind
  have hbefore : countOfExprs kind (exprsOfStmts bound.1) = left.countOf kind :=
    yields_stableTarget_countOf settings cls hkind hleft session
  have hplace : bound.2.countOf kind = 0 := by
    obtain ⟨hplain, hstable⟩ := yields_stableTarget_place settings cls hleft session
    exact Expr.countOf_of_isStableTarget hglue hplain hstable
  have hvalue : value.countOf kind = right.countOf kind + (kind value).toNat := by
    have hchildren : value.children = [bound.2, right] := rfl
    rw [value.countOf_eq, hchildren, countOfExprs_cons, hplace]
    simp [Nat.add_comm]
  have hassigned : (Expr.binary (.typed bound.2.span type) .assign opSpan bound.2 value).countOf
      kind = right.countOf kind + (kind value).toNat := by
    rw [Expr.countOf_of_isGlue hglue rfl]
    simp only [Expr.children, countOfExprs_cons, countOfExprs_nil, hplace, hvalue]
    omega
  calc Expr.countOf kind (assignmentAfter span type bound.1
          (.binary (.typed bound.2.span type) .assign opSpan bound.2 value))
      _ = countOfExprs kind (exprsOfStmts bound.1) +
            (Expr.binary (.typed bound.2.span type) .assign opSpan bound.2 value).countOf kind :=
          countOf_assignmentAfter hglue span type bound.1 _
      _ = left.countOf kind + right.countOf kind + (kind value).toNat := by
          rw [hbefore, hassigned, Nat.add_assoc]

/-- What stands for an assignment can be assigned to just if the lowered target can.  Every call
of the operands stands there once, beside the call of the method if there is one, where the target
of a resolved assignment is plain. -/
theorem yields_lowerBinary_assignsTo (info : Info) {op : BinaryOp}
    (hassignment : op.isAssignment = true) (opSpan : Span) (left right : Expr) :
    Yields (lowerBinary settings cls info op opSpan left right) fun out =>
      ∃ place value, out.AssignsTo place value ∧ place.isAssignable = left.isAssignable ∧
        ∀ kind : Expr → Bool, (∀ e : Expr, e.isCall = false → kind e = false) →
          (settings.config.isEnabled .binaryOperators = true → left.isPlainTarget = true) →
          out.countOf kind = left.countOf kind + right.countOf kind +
            (settings.config.isEnabled .binaryOperators && info.facts.operatorTarget.isSome &&
              kind value).toNat := by
  obtain ⟨happlied, h⟩ | ⟨target, happlied, h⟩ :=
    lowerBinary_assignment_cases settings cls info hassignment opSpan left right
  · rw [h]
    apply yields_pure
    refine ⟨left, right, ⟨{}, none, [], info, op, opSpan, rfl, hassignment⟩, rfl, ?_⟩
    intro kind hkind _
    rw [happlied, Expr.countOf_of_isGlue (kind_of_isGlue hkind) rfl]
    simp [Expr.children]
  · rw [h]
    refine (yields_lowerOperatorAssignment_assignsTo settings cls info.span opSpan
      info.facts.inferredType target left right).mono ?_
    rintro out ⟨place, hassigns, hassignable, hcalls⟩
    refine ⟨place, _, hassigns, hassignable, ?_⟩
    intro kind hkind hplain
    have henabled : settings.config.isEnabled .binaryOperators = true :=
      (Bool.and_eq_true_iff.mp happlied).1
    rw [happlied, Bool.true_and]
    exact hcalls kind hkind (hplain henabled)

end Rules

/-! ## Assignments are carried along -/

/-- An assignment, or a block, which stands for one if something is bound before it. -/
def Expr.standsForAssignment : Expr → Bool
  | .block _ _ => true
  | e => e.isAssignment

theorem Expr.AssignsTo.standsForAssignment {out place value : Expr}
    (h : out.AssignsTo place value) : out.standsForAssignment = true := by
  obtain ⟨span, type, before, info, op, opSpan, rfl, hop⟩ := h
  unfold assignmentAfter
  split
  · exact hop
  · rfl

/-- All assignments and blocks among the nodes of the first trees are nodes of the second. -/
def Carries (es es' : List Expr) : Prop :=
  ∀ e ∈ nodesOfExprs es, e.standsForAssignment = true → e ∈ nodesOfExprs es'

namespace Carries

variable {es es' fs fs' : List Expr} {e : Expr}

theorem refl (es : List Expr) : Carries es es :=
  fun _ he _ => he

theorem trans (h : Carries es es') (h' : Carries es' fs) : Carries es fs :=
  fun e he hstands => h' e (h e he hstands) hstands

theorem append (h : Carries es es') (h' : Carries fs fs') :
    Carries (es ++ fs) (es' ++ fs') := by
  intro e he hstands
  rw [nodesOfExprs_append, List.mem_append] at he ⊢
  exact he.imp (h e · hstands) (h' e · hstands)

theorem both (h : Carries es es') (h' : Carries fs es') : Carries (es ++ fs) es' := by
  intro e he hstands
  rw [nodesOfExprs_append, List.mem_append] at he
  exact he.elim (h e · hstands) (h' e · hstands)

theorem append_left (h : Carries es es') (before : List Expr) : Carries es (before ++ es') := by
  intro e he hstands
  rw [nodesOfExprs_append]
  exact List.mem_append_right _ (h e he hstands)

theorem append_right (h : Carries es es') (after : List Expr) : Carries es (es' ++ after) := by
  intro e he hstands
  rw [nodesOfExprs_append]
  exact List.mem_append_left _ (h e he hstands)

theorem children (e : Expr) : Carries e.children [e] := by
  intro node hnode _
  simp [nodesOfExprs, e.nodes_eq, hnode]

/-- A node that stands for no assignment is no loss. -/
theorem of_children (h : Carries e.children es) (hstands : e.standsForAssignment = false) :
    Carries [e] es := by
  intro node hnode hstands'
  rw [nodesOfExprs_cons, e.nodes_eq, List.cons_append, List.mem_cons] at hnode
  rcases hnode with rfl | hchild
  · exact absurd hstands' (by simp [hstands])
  · exact h node (by simpa [nodesOfExprs] using hchild) hstands'

end Carries

section Carried

variable (settings : Settings) (cls : TypeId)

end Carried

/-! ## Runs -/

/-- What some lowering of every assignment answers is a node of what became of the trees. -/
def KeepsAssignments (settings : Settings) (es es' : List Expr) : Prop :=
  ∀ node ∈ nodesOfExprs es, node.isAssignment = true →
    ∃ cls session, ((node.lower settings cls).run session).1 ∈ nodesOfExprs es'

section Runs

variable {settings : Settings}

theorem standsForAssignment_lower {e : Expr} (h : e.isAssignment = true) (cls : TypeId)
    (session : Session) : ((e.lower settings cls).run session).1.standsForAssignment = true := by
  cases e with
  | binary info op opSpan left right =>
      obtain ⟨place, value, hassigns, -⟩ :=
        yields_lowerBinary_assignsTo settings cls info h opSpan _ _ _
      exact hassigns.standsForAssignment
  | _ => cases h

theorem KeepsAssignments.rule (e : Expr) {out : Expr} {children : List Expr}
    (h : KeepsAssignments settings e.children children) (hcarries : Carries children [out])
    (hself : e.isAssignment = true →
      ∃ cls session, ((e.lower settings cls).run session).1 = out) :
    KeepsAssignments settings [e] [out] := by
  intro node hnode hassignment
  simp only [nodesOfExprs, List.append_nil, e.nodes_eq, List.mem_cons] at hnode
  rcases hnode with rfl | hchild
  · obtain ⟨cls, session, rfl⟩ := hself hassignment
    exact ⟨cls, session, by simp [nodesOfExprs, Expr.mem_nodes_self]⟩
  · obtain ⟨cls, session, hkept⟩ := h node hchild hassignment
    exact ⟨cls, session, hcarries _ hkept (standsForAssignment_lower hassignment cls session)⟩

end Runs

/-- `numbers[0] = 5` with the subscript resolved to `getAt`: there is no assigning to the call. -/
theorem evaluate_lower_resolvedTarget :
    let element := Expr.binary { facts := { operatorTarget := some ⟨⟨0⟩, "getAt"⟩ } } .index {}
      (.var {} "numbers" none) (.literal {} (.integer 0))
    let assignment := Expr.binary {} .assign {} element (.literal {} (.integer 5))
    let lowered := ((assignment.lower ⟨.initial, .ofTypes .initial, {}⟩ .object).run {}).1
    let state : State :=
      { heap := { sequences := #[#[.int 1, .int 2]] }, scopes := #[⟨[("numbers", .list 0)]⟩] }
    ((evaluate ⟨.initial, {}⟩ 1 assignment).run state).1 = .ok (.int 5) ∧
      ((evaluate ⟨.initial, {}⟩ 1 lowered).run state).1 = .error (.failed .notAssignable) := by
  decide +kernel

end StaticDispatch
