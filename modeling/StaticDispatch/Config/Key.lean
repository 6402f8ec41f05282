import StaticDispatch.Config.Basic

/-!
# Keys of a configuration

The entries of a written configuration: what they are called, the text of
each, and how a configuration is read from entries of any form.
-/

namespace StaticDispatch.Config

/-- The keys of a configuration, in order. -/
inductive Key where
  | rules
  | safeNavigationTemps
  | localStem
  | temporaryStem
deriving DecidableEq, Repr

def Key.all : List Key :=
  [.rules, .safeNavigationTemps, .localStem, .temporaryStem]

def Key.name : Key → String
  | .rules => "rules"
  | .safeNavigationTemps => "safeNavigationTemps"
  | .localStem => "syntheticLocalPrefix"
  | .temporaryStem => "temporaryPrefix"

def Key.ofName? (name : String) : Option Key :=
  all.find? fun key => key.name == name

/-- The value of a key as text. -/
def text (config : Config) : Key → String
  | .rules => config.rules.text
  | .safeNavigationTemps => config.safeNavigationTemps.text
  | .localStem => config.localStem
  | .temporaryStem => config.temporaryStem

/-- Sets a key from its text, if that is a value of the key. -/
def setText? (config : Config) (key : Key) (text : String) : Option Config :=
  match key with
  | .rules => (Rules.ofText? text).map fun rules => { config with rules }
  | .safeNavigationTemps =>
    (TemporaryPolicy.ofText? text).map fun policy =>
      { config with safeNavigationTemps := policy }
  | .localStem => some { config with localStem := text }
  | .temporaryStem => some { config with temporaryStem := text }

/-- Takes entries in turn; `textOf?` gives the text that an entry stands for.  `seen` are
the known keys so far, which must not come again; other keys are passed over. -/
def setEntries? {α : Type} (textOf? : Key → α → Option String) (config : Config)
    (seen : List Key) : List (Option String × α) → Option Config
  | [] => some config
  | (none, _) :: _ => none
  | (some name, value) :: rest =>
    match Key.ofName? name with
    | none => setEntries? textOf? config seen rest
    | some key =>
      if seen.contains key then none
      else do
        let config ← config.setText? key (← textOf? key value)
        setEntries? textOf? config (key :: seen) rest

end StaticDispatch.Config
