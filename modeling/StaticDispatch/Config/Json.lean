import StaticDispatch.Config.Key
import StaticDispatch.Text.Json

/-!
# Configurations in JSON

A configuration is an object with up to four known keys, none of them twice,
or a list of the four values in order, of which the last may be missing.
Other keys are passed over.
-/

namespace StaticDispatch.Config

/-! ## Reading -/

/-- The text that a value stands for.  The policy for temporaries may also be written as
the only key of an object, with null. -/
def jsonText? (key : Key) : Json → Option String
  | .string text => text
  | .object [(name, .null)] => if key = .safeNavigationTemps then name else none
  | _ => none

def setJson? (config : Config) (key : Key) (value : Json) : Option Config :=
  (jsonText? key value).bind (config.setText? key)

/-- Takes the values for the keys in turn. -/
def ofItems? (config : Config) : List Key → List Json → Option Config
  | _, [] => some config
  | [], _ :: _ => none
  | key :: keys, value :: rest =>
    (config.setJson? key value).bind fun config => ofItems? config keys rest

def ofJson? : Json → Option Config
  | .object members => setEntries? jsonText? {} [] members
  | .array items => ofItems? {} Key.all items
  | _ => none

def ofJsonText? (text : String) : Option Config :=
  (Json.ofText? text).bind ofJson?

/-! ## Writing -/

def jsonMember (config : Config) (key : Key) : String :=
  Json.quoted key.name ++ ":" ++ Json.quoted (config.text key)

def toJsonText (config : Config) : String :=
  "\x7b" ++ ",".intercalate (Key.all.map config.jsonMember) ++ "\x7d"

end StaticDispatch.Config
