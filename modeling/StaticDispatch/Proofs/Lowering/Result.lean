import StaticDispatch.Lowering.Unit

/-!
# What a lowering answers in every session

A lowering reads its session only to number the names that it introduces, so
that much of what it answers is the same in every session.  The shape of a
lowered node is even that of the node before, as far as a rule looks at it.
-/

namespace StaticDispatch

/-! ## Results of session steps -/

/-- The answer has the property in every session. -/
def LowerM.Yields {α : Type} (step : LowerM α) (property : α → Prop) : Prop :=
  ∀ session, property (step.run session).1

namespace LowerM

variable {α β : Type}

theorem yields_pure {property : α → Prop} {a : α} (h : property a) :
    Yields (pure a) property := by
  intro session
  exact h

theorem Yields.bind {step : LowerM α} {next : α → LowerM β}
    {property : α → Prop} {goal : β → Prop}
    (hstep : Yields step property) (hnext : ∀ a, property a → Yields (next a) goal) :
    Yields (step >>= next) goal := by
  intro session
  exact hnext _ (hstep session) (step.run session).2

theorem Yields.and {step : LowerM α} {p q : α → Prop}
    (hp : Yields step p) (hq : Yields step q) : Yields step fun a => p a ∧ q a := by
  intro session
  exact ⟨hp session, hq session⟩

theorem Yields.mono {step : LowerM α} {p q : α → Prop}
    (hp : Yields step p) (himp : ∀ a, p a → q a) : Yields step q := by
  intro session
  exact himp _ (hp session)

theorem yields_count_bind {applied : Stats} {next : Unit → LowerM β} {goal : β → Prop}
    (hnext : Yields (next ()) goal) : Yields (count applied >>= next) goal := by
  intro session
  exact hnext _

end LowerM

open LowerM

theorem yields_bindTemporary (settings : Settings) (cls : TypeId) (value : Expr) :
    Yields (bindTemporary settings cls value) fun pair =>
      ∃ name,
        pair.1 = .declaration value.span.info name (value.staticType? settings.types cls) value ∧
        pair.2 = .var value.span.info name (value.staticType? settings.types cls) := by
  intro session
  exact ⟨_, rfl, rfl⟩

/-! ## Shapes that rules look at -/

/-- What a rule can see of a node without going into it: whether it can be evaluated
twice, whether it is a literal text, and whether it is a map of literal texts. -/
structure Expr.SameShape (a b : Expr) : Prop where
  sideEffects : a.isSideEffectFree = b.isSideEffectFree
  text : a.stringLiteral? = b.stringLiteral?
  keywords : (keywordEntries? [a]).isSome = (keywordEntries? [b]).isSome

/-- No literal, no reference and no map literal. -/
def Expr.isOpaque : Expr → Bool
  | .literal _ _ => false
  | .var _ _ _ => false
  | .this _ => false
  | .classRef _ _ => false
  | .map _ _ => false
  | _ => true

theorem Expr.SameShape.of_isOpaque {a b : Expr}
    (ha : a.isOpaque = true) (hb : b.isOpaque = true) : a.SameShape b := by
  constructor
  · cases a <;> cases b <;> simp_all [Expr.isOpaque, Expr.isSideEffectFree]
  · cases a <;> cases b <;> simp_all [Expr.isOpaque, Expr.stringLiteral?]
  · cases a <;> cases b <;> simp_all [Expr.isOpaque, keywordEntries?]

theorem Expr.SameShape.refl (e : Expr) : e.SameShape e :=
  ⟨rfl, rfl, rfl⟩

section Shape

variable (settings : Settings) (cls : TypeId)

theorem yields_lowerPlainCall_isOpaque (info : Info) (receiver : Expr) (name : String)
    (args : List Expr) (spread : Bool) :
    Yields (lowerPlainCall settings cls info receiver name args spread)
      fun out => out.isOpaque = true := by
  intro session
  unfold lowerPlainCall
  split
  · unfold lowerArrayAccess
    split <;> rfl
  · rfl

theorem yields_lowerMethodCall_isOpaque (info : Info) (receiver : Expr) (name : String)
    (args : List Expr) (safe spread : Bool) :
    Yields (lowerMethodCall settings cls info receiver name args safe spread)
      fun out => out.isOpaque = true := by
  unfold lowerMethodCall
  split
  · split
    · intro session
      rfl
    · exact yields_pure rfl
  · exact yields_lowerPlainCall_isOpaque settings cls info receiver name args spread

theorem yields_lowerStaticCall_isOpaque (info : Info) (owner : TypeId) (name : String)
    (args : List Expr) :
    Yields (lowerStaticCall settings info owner name args)
      fun out => out.isOpaque = true := by
  unfold lowerStaticCall
  split
  · exact yields_count_bind (yields_pure rfl)
  · exact yields_pure rfl

theorem yields_lowerConstructorCall_isOpaque (info : Info) (type : TypeId)
    (args : List Expr) :
    Yields (lowerConstructorCall settings info type args)
      fun out => out.isOpaque = true := by
  unfold lowerConstructorCall
  split
  · split
    · intro session
      rfl
    · exact yields_pure rfl
  · exact yields_pure rfl

theorem assignmentAfter_isOpaque (span : Span) (type : Option TypeId) (before : List Stmt)
    {assignment : Expr} (h : assignment.isOpaque = true) :
    (assignmentAfter span type before assignment).isOpaque = true := by
  unfold assignmentAfter
  split
  · exact h
  · rfl

theorem yields_lowerOperatorAssignment_isOpaque (span opSpan : Span) (type : Option TypeId)
    (target : OperatorTarget) (left right : Expr) :
    Yields (lowerOperatorAssignment settings cls span opSpan type target left right)
      fun out => out.isOpaque = true := by
  intro session
  exact assignmentAfter_isOpaque span type _ rfl

theorem yields_lowerBinary_isOpaque (info : Info) (op : BinaryOp) (opSpan : Span)
    (left right : Expr) :
    Yields (lowerBinary settings cls info op opSpan left right)
      fun out => out.isOpaque = true := by
  unfold lowerBinary
  split
  · split
    · unfold lowerResolvedOperator
      split
      · split
        · exact yields_count_bind (yields_pure rfl)
        · exact yields_count_bind (yields_pure rfl)
      · exact yields_lowerOperatorAssignment_isOpaque settings cls _ _ _ _ _ _
      · exact yields_lowerOperatorAssignment_isOpaque settings cls _ _ _ _ _ _
      · exact yields_count_bind (yields_pure rfl)
    · exact yields_pure rfl
  · exact yields_pure rfl

mutual

/-- Lowering leaves what a rule can see of a node without going into it. -/
theorem yields_lower_sameShape :
    (e : Expr) → Yields (e.lower settings cls) fun out => e.SameShape out
  | .literal info value => yields_pure (Expr.SameShape.refl _)
  | .var info name declaredType => yields_pure (Expr.SameShape.refl _)
  | .this info => yields_pure (Expr.SameShape.refl _)
  | .classRef info type => yields_pure (Expr.SameShape.refl _)
  | .property info receiver name => by
      intro session
      exact Expr.SameShape.of_isOpaque rfl rfl
  | .methodCall info receiver name args safe spread => by
      intro session
      exact Expr.SameShape.of_isOpaque rfl
        (yields_lowerMethodCall_isOpaque settings cls info _ name _ safe spread _)
  | .staticCall info owner name args => by
      intro session
      exact Expr.SameShape.of_isOpaque rfl
        (yields_lowerStaticCall_isOpaque settings info owner name _ _)
  | .constructorCall info type args => by
      intro session
      exact Expr.SameShape.of_isOpaque rfl
        (yields_lowerConstructorCall_isOpaque settings info type _ _)
  | .binary info op opSpan left right => by
      intro session
      exact Expr.SameShape.of_isOpaque rfl
        (yields_lowerBinary_isOpaque settings cls info op opSpan _ _ _)
  | .ternary info condition yes no => by
      intro session
      exact Expr.SameShape.of_isOpaque rfl rfl
  | .closure info params body scope => by
      intro session
      exact Expr.SameShape.of_isOpaque rfl rfl
  | .block info body => by
      intro session
      exact Expr.SameShape.of_isOpaque rfl rfl
  | .map info entries => by
      refine (yields_lowerEntries_keys entries).bind ?_
      intro out hkeys
      apply yields_pure
      constructor
      · rfl
      · rfl
      · simp only [keywordEntries?]
        rw [hkeys]
        split <;> rfl
  | .list info items => by
      intro session
      exact Expr.SameShape.of_isOpaque rfl rfl
  | .declaration info name declaredType initializer => by
      intro session
      exact Expr.SameShape.of_isOpaque rfl rfl
  | .cast info type operand => by
      intro session
      exact Expr.SameShape.of_isOpaque rfl rfl
  | .unary info op operand => by
      intro session
      exact Expr.SameShape.of_isOpaque rfl rfl

theorem yields_lowerEntries_keys :
    (entries : List Entry) → Yields (lowerEntries settings cls entries) fun out =>
      (entries.all fun entry => entry.key.stringLiteral?.isSome) =
        (out.all fun entry => entry.key.stringLiteral?.isSome)
  | [] => yields_pure rfl
  | .mk key value span :: rest => by
      refine (yields_lower_sameShape key).bind fun key' hkey => ?_
      intro session
      have hrest := yields_lowerEntries_keys rest
        ((value.lower settings cls).run session).2
      change ((key.stringLiteral?.isSome && _) : Bool) = (key'.stringLiteral?.isSome && _)
      rw [hkey.text]
      exact congrArg _ hrest

end

end Shape

end StaticDispatch
