import StaticDispatch.Lowering.Session

/-!
# Introduced names

The names that a lowering introduces end in a dollar sign and a number.  The
number can be read off the name whatever the stem is, so that two names with
different numbers are different.
-/

namespace StaticDispatch

/-- The name is the stem with a dollar sign and a number. -/
def IsSynthetic (stem name : String) : Prop :=
  ∃ number, name = syntheticName stem number

theorem not_isSynthetic_of_not_prefix {stem name : String}
    (h : ¬ stem.toList <+: name.toList) : ¬ IsSynthetic stem name := by
  rintro ⟨number, rfl⟩
  apply h
  simp [syntheticName]

theorem dollar_ne_of_mem_digits {number : Nat} {c : Char}
    (hc : c ∈ (toString number).toList) : c ≠ '$' := by
  rintro rfl
  have hdigit := Nat.isDigit_of_mem_toDigits (by decide) (by decide) (Nat.toList_repr ▸ hc)
  exact absurd hdigit (by decide)

/-- What stands after the last dollar sign is the number. -/
theorem takeWhile_reverse_syntheticName (stem : String) (number : Nat) :
    (syntheticName stem number).toList.reverse.takeWhile (· ≠ '$') =
      (toString number).toList.reverse := by
  have hdigits : ∀ c ∈ (toString number).toList.reverse, decide (c ≠ '$') = true := by
    intro c hc
    simpa using dollar_ne_of_mem_digits (List.mem_reverse.mp hc)
  simp only [syntheticName, String.toList_append, List.reverse_append]
  rw [List.takeWhile_append_of_pos hdigits]
  simp

/-- The number after the last dollar sign. -/
def trailingNumber (name : String) : Nat :=
  Nat.ofDigitChars 10 (name.toList.reverse.takeWhile (· ≠ '$')).reverse 0

theorem trailingNumber_syntheticName (stem : String) (number : Nat) :
    trailingNumber (syntheticName stem number) = number := by
  unfold trailingNumber
  rw [takeWhile_reverse_syntheticName, List.reverse_reverse]
  change Nat.ofDigitChars 10 number.repr.toList 0 = number
  rw [Nat.toList_repr, Nat.ofDigitChars_ten_toDigits]

theorem syntheticName_number_inj {stem other : String} {number number' : Nat}
    (h : syntheticName stem number = syntheticName other number') : number = number' := by
  rw [← trailingNumber_syntheticName stem number, h, trailingNumber_syntheticName]

theorem isSynthetic_iff (stem name : String) :
    IsSynthetic stem name ↔ name = syntheticName stem (trailingNumber name) := by
  constructor
  · rintro ⟨number, rfl⟩
    rw [trailingNumber_syntheticName]
  · intro h
    exact ⟨_, h⟩

instance (stem name : String) : Decidable (IsSynthetic stem name) :=
  decidable_of_iff _ (isSynthetic_iff stem name).symm

/-! ## Numbers drawn -/

namespace LowerM

variable {α β : Type}

/-- In a session that goes on from `least`, the step draws its numbers from there, and its
answer has the property together with the number that comes next. -/
def DrawsFrom (least : Nat) (step : LowerM α) (property : Nat → α → Prop) : Prop :=
  ∀ session : Session, least ≤ session.nextName →
    session.nextName ≤ (step.run session).2.nextName ∧
      property (step.run session).2.nextName (step.run session).1

variable {least : Nat} {property : Nat → α → Prop} {goal : Nat → β → Prop}

theorem drawsFrom_pure {a : α} (h : ∀ next, least ≤ next → property next a) :
    DrawsFrom least (pure a) property :=
  fun session hleast => ⟨Nat.le_refl _, h session.nextName hleast⟩

theorem DrawsFrom.bind {step : LowerM α} {next : α → LowerM β}
    (hstep : DrawsFrom least step property)
    (hnext : ∀ a number, least ≤ number → property number a → DrawsFrom number (next a) goal) :
    DrawsFrom least (step >>= next) goal := by
  intro session hleast
  obtain ⟨hgrows, hproperty⟩ := hstep session hleast
  obtain ⟨hgrows', hgoal⟩ := hnext _ _ (Nat.le_trans hleast hgrows) hproperty
    (step.run session).2 (Nat.le_refl _)
  exact ⟨Nat.le_trans hgrows hgrows', hgoal⟩

theorem DrawsFrom.count_bind {applied : Stats} {next : Unit → LowerM β}
    (hnext : DrawsFrom least (next ()) goal) : DrawsFrom least (count applied >>= next) goal :=
  fun session hleast => hnext { session with stats := session.stats + applied } hleast

theorem DrawsFrom.registerScope_bind {params : List Param} {body : Block}
    {next : VariableScope → LowerM β} (hnext : ∀ scope, DrawsFrom least (next scope) goal) :
    DrawsFrom least (registerScope params body >>= next) goal :=
  fun session hleast =>
    hnext _
      { session with
        scopes := session.scopes ++ [VariableScope.ofClosure params body] } hleast

theorem drawsFrom_freshName (stem : String) :
    DrawsFrom least (freshName stem) fun next name =>
      ∃ number, least ≤ number ∧ next = number + 1 ∧ name = syntheticName stem number :=
  fun session hleast => ⟨Nat.le_succ _, session.nextName, hleast, rfl, rfl⟩

end LowerM

theorem drawsFrom_bindTemporary {least : Nat} (settings : Settings) (cls : TypeId)
    (value : Expr) :
    LowerM.DrawsFrom least (bindTemporary settings cls value) fun next pair =>
      ∃ number type, number < next ∧
        pair.1 = .declaration value.span.info
          (syntheticName settings.config.temporaryStem number) type value ∧
        pair.2 = .var value.span.info (syntheticName settings.config.temporaryStem number) type :=
  fun session _ => ⟨Nat.le_succ _, session.nextName, _, Nat.lt_succ_self _, rfl, rfl⟩

end StaticDispatch
