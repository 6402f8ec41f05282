import Mathlib.Algebra.GroupWithZero.Nat
import StaticDispatch.Lowering.Batch
import StaticDispatch.Proofs.Lowering.Carried
import StaticDispatch.Proofs.Lowering.Census
import StaticDispatch.Proofs.Lowering.Registration

/-!
# Renumbering

A session that goes on from another draws higher numbers and does the same
otherwise.  To go on from a session is a map on sessions: the numbers of
introduced names move on by those already drawn, and what was counted, recorded
and reported comes after what is there.  So units that share a session become
what they become in sessions of their own, up to the numbers of their names.
-/

namespace StaticDispatch

/-! ## Numbers moved on -/

namespace Config

variable (config : Config) (shift : Nat)

/-- The name with its number moved on, if it is one that lowerings introduce. -/
def renumber (name : String) : String :=
  if IsSynthetic config.temporaryStem name then
    syntheticName config.temporaryStem (trailingNumber name + shift)
  else if IsSynthetic config.localStem name then
    syntheticName config.localStem (trailingNumber name + shift)
  else name

end Config

/-! ## Sessions that go on -/

section Units

variable (settings : Settings)

end Units

/-! ## Units in turn -/

/-- What lowering a unit gave in a session that it shares with other units. -/
structure Turn where
  before : Session
  result : Except LoweringError CompilationUnit
  after : Session

def drawnCount (outcomes : List UnitOutcome) : Nat :=
  (outcomes.map fun outcome => outcome.session.nextName).sum

/-- The turn gives what the unit gives in a session of its own and adds the same to its
session, but for the names, whose numbers move on by those drawn before the turn. -/
structure Turn.Continues (config : Config) (turn : Turn) (outcome : UnitOutcome) : Prop where
  result : turn.result =
    outcome.result.map (CompilationUnit.rename (config.renumber turn.before.nextName))
  drawn : turn.after.nextName = turn.before.nextName + outcome.session.nextName
  counted : turn.after.stats = turn.before.stats + outcome.session.stats
  recorded : turn.after.scopes = turn.before.scopes ++
    outcome.session.scopes.map (VariableScope.rename (config.renumber turn.before.nextName))
  reported : turn.after.diagnostics = turn.before.diagnostics ++ outcome.session.diagnostics

/-- Turn by turn the units become what they become each by itself, where a turn's numbers move
on by those drawn before the first turn and in the turns before. -/
structure ContinueFrom (config : Config) (start : Session) (turns : List Turn)
    (outcomes : List UnitOutcome) : Prop where
  each : List.Forall₂ (Turn.Continues config) turns outcomes
  drawnBefore : ∀ position turn, turns[position]? = some turn →
    turn.before.nextName = start.nextName + drawnCount (outcomes.take position)

theorem ContinueFrom.cons {config : Config} {turn : Turn} {turns : List Turn}
    {outcome : UnitOutcome} {outcomes : List UnitOutcome} (hturn : turn.Continues config outcome)
    (hrest : ContinueFrom config turn.after turns outcomes) :
    ContinueFrom config turn.before (turn :: turns) (outcome :: outcomes) where
  each := .cons hturn hrest.each
  drawnBefore position other hother := by
    cases position with
    | zero =>
        cases hother
        rfl
    | succ position =>
        have hbefore := hrest.drawnBefore position other hother
        rw [hturn.drawn] at hbefore
        rw [hbefore, Nat.add_assoc]
        rfl

namespace ClassUnit

def inner : ClassUnit → List ClassUnit
  | .mk _ _ _ _ inner _ => inner

end ClassUnit

section Fields

variable (settings : Settings)

end Fields

/-! ### Sharing a session -/

end StaticDispatch
