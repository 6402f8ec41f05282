import StaticDispatch.Proofs.Lowering.Sugar

/-!
# What a rule can do

A rule leaves its node as it is or answers one of a few trees.  The cases are
stated once for each rule, with what is known of the node in each of them, so
that what holds of every lowered node is shown for these trees.
-/

namespace StaticDispatch

section Cases

variable (settings : Settings) (cls : TypeId)

theorem lowerPlainCall_cases (info : Info) (receiver : Expr) (name : String) (args : List Expr)
    (spread : Bool) :
    lowerPlainCall settings cls info receiver name args spread =
        pure (.methodCall info receiver name args false spread) ∨
      (∃ component index, args = [index] ∧
        lowerPlainCall settings cls info receiver name args spread = (do
          count { arrayAccesses := 1 }
          return elementAt info receiver component index)) ∨
      ∃ component index value, args = [index, value] ∧
        lowerPlainCall settings cls info receiver name args spread = (do
          count { arrayAccesses := 1 }
          return .binary info.span.info .assign value.span
            (elementAt info receiver component index) value) := by
  unfold lowerPlainCall
  split
  · unfold lowerArrayAccess
    cases haccess : arrayAccess? settings.types cls receiver name args with
    | none => exact .inl rfl
    | some access =>
        cases access with
        | read component index =>
            exact .inr (.inl ⟨component, index, (arrayAccess?_eq_read cls haccess).2, rfl⟩)
        | write component index value =>
            exact .inr (.inr ⟨component, index, value, (arrayAccess?_eq_write cls haccess).2, rfl⟩)
  · exact .inl rfl

/-- A constructor call is kept, or it passes a map of literal keys and an initializer is made. -/
theorem lowerConstructorCall_cases (info : Info) (type : TypeId) (args : List Expr) :
    lowerConstructorCall settings info type args = pure (.constructorCall info type args) ∨
      ∃ owner mapInfo entries, args = [.map mapInfo entries] ∧
        (∀ entry ∈ entries, entry.key.stringLiteral?.isSome = true) ∧
        lowerConstructorCall settings info type args = (do
          let name ← freshName settings.config.localStem
          count { namedConstructors := 1 }
          let body := initializerBody info.span owner name entries
          let scope ← registerScope [] body
          return initializerCall info owner body scope) := by
  unfold lowerConstructorCall
  cases hkeyword : keywordConstructor? settings.types info args with
  | none => exact .inl rfl
  | some found =>
      obtain ⟨owner, entries⟩ := found
      obtain ⟨-, hentries⟩ := keywordConstructor?_eq_some hkeyword
      obtain ⟨⟨mapInfo, hargs⟩, hkeys⟩ := keywordEntries?_eq_some hentries
      simp only
      split
      · exact .inr ⟨owner, mapInfo, entries, hargs, hkeys, rfl⟩
      · exact .inl rfl

/-- An operator is kept, or it was resolved and becomes a call of the routine for its comparison,
an assignment or a call. -/
theorem lowerBinary_cases (info : Info) (op : BinaryOp) (opSpan : Span) (left right : Expr) :
    lowerBinary settings cls info op opSpan left right =
        pure (.binary info op opSpan left right) ∨
      (∃ routine,
        lowerBinary settings cls info op opSpan left right = (do
          count { comparisons := 1 }
          return adapterCall settings.types info.span info.facts.inferredType routine left
            right)) ∨
      (∃ target, info.facts.operatorTarget = some target ∧ op.isAssignment = true ∧
        lowerBinary settings cls info op opSpan left right =
          lowerOperatorAssignment settings cls info.span opSpan info.facts.inferredType target left
            right) ∨
      ∃ target,
        lowerBinary settings cls info op opSpan left right = (do
          count { operatorCalls := 1 }
          return operatorCall info.span info.facts.inferredType target left right) := by
  unfold lowerBinary
  cases htarget : info.facts.operatorTarget with
  | none => exact .inl rfl
  | some target =>
      simp only
      split
      · unfold lowerResolvedOperator
        cases op with
        | comparison comparison =>
            simp only
            cases settings.adapters.routine? comparison with
            | none => exact .inr (.inr (.inr ⟨target, rfl⟩))
            | some routine => exact .inr (.inl ⟨routine, rfl⟩)
        | assign => exact .inr (.inr (.inl ⟨target, rfl, rfl, rfl⟩))
        | compound _ => exact .inr (.inr (.inl ⟨target, rfl, rfl, rfl⟩))
        | arithmetic _ => exact .inr (.inr (.inr ⟨target, rfl⟩))
        | and => exact .inr (.inr (.inr ⟨target, rfl⟩))
        | or => exact .inr (.inr (.inr ⟨target, rfl⟩))
        | index => exact .inr (.inr (.inr ⟨target, rfl⟩))
      · exact .inl rfl

end Cases

end StaticDispatch
