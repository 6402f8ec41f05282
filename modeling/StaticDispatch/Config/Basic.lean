import StaticDispatch.Config.Rules
import StaticDispatch.Tree.Basic

/-!
# Configuration

What can be chosen about a lowering: the rules that may run, when the receiver
of a safe call is kept in a temporary, and how the names that it introduces
begin.
-/

namespace StaticDispatch

/-- When a safe call keeps its receiver in a temporary. -/
inductive TemporaryPolicy where
  /-- Where evaluating the receiver twice could make a difference. -/
  | whenImpure
  | always
deriving DecidableEq, Repr

def TemporaryPolicy.text : TemporaryPolicy → String
  | .whenImpure => "when-impure"
  | .always => "always"

def TemporaryPolicy.ofText? (text : String) : Option TemporaryPolicy :=
  [TemporaryPolicy.whenImpure, .always].find? fun policy => policy.text == text

structure Config where
  rules : Rules := .all
  safeNavigationTemps : TemporaryPolicy := .whenImpure
  /-- How the local of a keyword constructor begins. -/
  localStem : String := "obj"
  /-- How the temporaries begin that keep a value evaluated once. -/
  temporaryStem : String := "tmp"
deriving DecidableEq, Repr

namespace Config

instance : Inhabited Config := ⟨{}⟩

def isEnabled (config : Config) (rule : Rule) : Bool :=
  config.rules.contains rule

/-- Whether a safe call on this receiver keeps it in a temporary. -/
def bindsReceiver (config : Config) (receiver : Expr) : Bool :=
  match config.safeNavigationTemps with
  | .always => true
  | .whenImpure => !receiver.isSideEffectFree

end Config

end StaticDispatch
