import StaticDispatch.Proofs.Eval.Agreement

/-!
# Comparing by method and by routine

A comparison that was resolved to `compareTo` asks the left operand for an
integer and looks at its sign; the adapter compares the operands itself, and
takes equality for what it is.  Where the method answers, both come to the
same: the built-in `compareTo` is a method of numbers and texts only.
-/

namespace StaticDispatch

open EvalM

/-! ## Decimals -/

section Decimals

open Float.Model

theorem compare_magnitudes_swap (e₁ e₂ : Int) (m₁ m₂ : Nat) :
    ((compare e₁ e₂).then (compare m₁ m₂)).swap = (compare e₂ e₁).then (compare m₂ m₁) := by
  rw [Ordering.swap_then, Int.compare_swap, Nat.compare_swap]

theorem compare_unpacked_swap (a b : UnpackedFloat) :
    b.compare a = (a.compare b).map Ordering.swap := by
  cases a with
  | notANumber => cases b <;> rfl
  | infinity sign =>
      cases b with
      | infinity other => cases sign <;> cases other <;> rfl
      | _ => cases sign <;> rfl
  | zero sign =>
      cases b with
      | infinity other => cases other <;> rfl
      | finite other m e hm => cases other <;> rfl
      | _ => rfl
  | finite sign m e hm =>
      cases b with
      | notANumber => rfl
      | infinity other => cases other <;> rfl
      | zero other => cases sign <;> rfl
      | finite other m' e' hm' =>
          cases sign with
          | negative =>
              cases other with
              | negative =>
                  change some ((compare e' e).then (compare m' m)).swap =
                    some ((compare e e').then (compare m m')).swap.swap
                  rw [compare_magnitudes_swap, Ordering.swap_swap]
              | positive => rfl
          | positive =>
              cases other with
              | negative => rfl
              | positive =>
                  change some ((compare e' e).then (compare m' m)) =
                    some ((compare e e').then (compare m m')).swap
                  rw [compare_magnitudes_swap]

theorem float_lt_iff (a b : Float) :
    a < b ↔ a.toModel.unpack.compare b.toModel.unpack = some .lt := by
  change decide (a.toModel < b.toModel) = true ↔ _
  rw [decide_eq_true_iff]
  change (a.toModel.unpack.lt b.toModel.unpack : Bool) = true ↔ _
  exact beq_iff_eq

theorem float_beq_iff (a b : Float) :
    (a == b) = true ↔ a.toModel.unpack.compare b.toModel.unpack = some .eq := by
  change (a.toModel.unpack.beq b.toModel.unpack : Bool) = true ↔ _
  exact beq_iff_eq

end Decimals

namespace Decimal

theorem equals_iff (a b : Decimal) :
    a.equals b = true ↔
      a.toFloat.toModel.unpack.compare b.toFloat.toModel.unpack = some .eq :=
  float_beq_iff a.toFloat b.toFloat

theorem equals_comm (a b : Decimal) : a.equals b = b.equals a := by
  rw [Bool.eq_iff_iff, equals_iff, equals_iff, compare_unpacked_swap]
  cases b.toFloat.toModel.unpack.compare a.toFloat.toModel.unpack with
  | none => simp
  | some order => cases order <;> simp

/-- Two decimals that have an order are equal just when it says so. -/
theorem equals_of_compare? {a b : Decimal} {order : Ordering} (h : a.compare? b = some order) :
    a.equals b = (order == .eq) := by
  unfold compare? at h
  split at h
  · rename_i hlt
    obtain rfl := Option.some.inj h
    rw [float_lt_iff] at hlt
    simp [Bool.eq_false_iff, equals_iff, hlt]
  · split at h
    · rename_i hgt
      obtain rfl := Option.some.inj h
      rw [float_lt_iff] at hgt
      rw [equals_comm]
      simp [Bool.eq_false_iff, equals_iff, hgt]
    · split at h
      · rename_i hequal
        obtain rfl := Option.some.inj h
        simpa using hequal
      · exact nomatch h

end Decimal

/-! ## Orders of integers and texts -/

theorem compareInts_beq_eq (a b : Int64) : (a == b) = (Number.compareInts a b == .eq) := by
  rw [Bool.eq_iff_iff, beq_iff_eq, beq_iff_eq, Number.compareInts, Int.compare_eq_eq,
    Int64.toInt_inj]

theorem compareTexts_beq_eq (a b : String) : (a == b) = (compareTexts a b == .eq) := by
  unfold compareTexts
  by_cases hlt : a < b
  · have hne : a ≠ b := fun heq => String.lt_irrefl b (heq ▸ hlt)
    simp [hlt, hne]
  · by_cases heq : a = b
    · rw [if_neg hlt, if_pos heq, heq, beq_self_eq_true]
      rfl
    · simp [hlt, heq]

theorem compareInts_orderingToInt (order : Ordering) :
    Number.compareInts (Number.orderingToInt order) 0 = order := by
  cases order <;> decide

/-! ## What the method answers -/

theorem valuesEqual_of_equal? {a b : Value} {answer : Bool}
    (h : ∀ heap : Heap, heap.equal? a b = some answer) : valuesEqual a b = pure answer := by
  apply ext_run
  intro state
  unfold valuesEqual
  rw [run_bind, run_getHeap]
  simp only [h]

/-- The built-in `compareTo` answers `order`, and the adapter sees the same order. -/
structure Value.Compares (left right : Value) (order : Ordering) : Prop where
  method : builtin left "compareTo" [right] = pure (.int (Number.orderingToInt order))
  values : ∀ lib runBody, compareValues lib runBody left right = pure order
  equality : valuesEqual left right = pure (order == .eq)

theorem compares_ints (a b : Int64) :
    Value.Compares (.int a) (.int b) (Number.compareInts a b) where
  method := rfl
  values _ _ := rfl
  equality := by
    rw [← compareInts_beq_eq]
    exact valuesEqual_of_equal? fun _ => rfl

theorem compares_texts (a b : String) :
    Value.Compares (.text a) (.text b) (compareTexts a b) where
  method := rfl
  values _ _ := rfl
  equality := by
    rw [← compareTexts_beq_eq]
    exact valuesEqual_of_equal? fun _ => rfl

theorem compareDecimals_eq (a b : Decimal) :
    Number.compareDecimals a b = .error (.failed .unordered) ∨
      ∃ order, Number.compareDecimals a b = .ok order ∧ a.equals b = (order == .eq) := by
  unfold Number.compareDecimals
  cases horder : a.compare? b with
  | none => exact .inl rfl
  | some order => exact .inr ⟨order, rfl, Decimal.equals_of_compare? horder⟩

/-- A number beside a decimal, each as a decimal. -/
theorem compares_decimals {left right : Value} {a b : Decimal}
    (hmethod : builtin left "compareTo" [right] = liftHalt (Number.decimalMethod "compareTo" a b))
    (hvalues : ∀ lib runBody,
      compareValues lib runBody left right = liftHalt (Number.compareDecimals a b))
    (hequal : ∀ heap : Heap, heap.equal? left right = some (a.equals b)) :
    (∃ halt, builtin left "compareTo" [right] = throw halt) ∨
      ∃ order, left.Compares right order := by
  rcases compareDecimals_eq a b with hnone | ⟨order, horder, hequals⟩
  · left
    refine ⟨.failed .unordered, ?_⟩
    rw [hmethod]
    simp only [Number.decimalMethod, hnone]
    rfl
  · right
    refine ⟨order, ?_, ?_, ?_⟩
    · rw [hmethod]
      simp only [Number.decimalMethod, horder]
      rfl
    · intro lib runBody
      rw [hvalues, horder]
      rfl
    · rw [← hequals]
      exact valuesEqual_of_equal? hequal

theorem compares_of_builtin (left right : Value) :
    (∃ halt, builtin left "compareTo" [right] = throw halt) ∨
      ∃ order, left.Compares right order := by
  cases left with
  | int a =>
      cases right with
      | int b => exact .inr ⟨_, compares_ints a b⟩
      | decimal b => exact compares_decimals rfl (fun _ _ => rfl) fun _ => rfl
      | _ => exact .inl ⟨_, rfl⟩
  | decimal a =>
      cases right with
      | int b =>
          refine compares_decimals rfl (fun _ _ => rfl) fun heap => ?_
          rw [Decimal.equals_comm]
          rfl
      | decimal b => exact compares_decimals rfl (fun _ _ => rfl) fun _ => rfl
      | _ => exact .inl ⟨_, rfl⟩
  | text a =>
      cases right with
      | text b => exact .inr ⟨_, compares_texts a b⟩
      | _ => exact .inl ⟨_, rfl⟩
  | _ => exact .inl ⟨_, rfl⟩

/-! ## The routines -/

variable {lib : Library} {runBody : Block → EvalM Flow}

theorem comparison_of_compares {left right : Value} {order : Ordering}
    (h : left.Compares right order) (op : Comparison) :
    comparison lib runBody op left right =
      pure (comparisonResult op (.int (Number.orderingToInt order))) := by
  cases op with
  | equal =>
      simp only [comparison, h.equality, pure_bind, comparisonResult,
        compareInts_orderingToInt, Comparison.holds]
  | notEqual =>
      simp only [comparison, h.equality, pure_bind, comparisonResult,
        compareInts_orderingToInt, Comparison.holds]
      rfl
  | threeWay => simp only [comparison, h.values, pure_bind, comparisonResult]
  | _ =>
      simp only [comparison, h.values, pure_bind, comparisonResult,
        compareInts_orderingToInt]

end StaticDispatch
