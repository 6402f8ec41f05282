import StaticDispatch.Config.Key
import StaticDispatch.Yaml.Node
import StaticDispatch.Yaml.Printer

/-!
# Configurations in YAML

A configuration is a mapping with up to four known keys, none of them twice;
other keys are passed over.  A text without content is the default
configuration.  Scalars of any kind are taken as text.
-/

namespace StaticDispatch.Config

open Yaml (Node)

/-! ## Reading -/

/-- The text of a tag after its mark, if it has one. -/
def localTag? : List UInt8 → Option String
  | [] => none
  | octet :: rest => if octet = Yaml.tagMark then String.fromUTF8? ⟨rest.toArray⟩ else none

/-- The text that a value stands for.  The policy for temporaries may also be written as
the tag of an empty scalar, after a mark. -/
def yamlText? (key : Key) : Node → Option String
  | .scalar tag isPlain text =>
    match key, tag.bind localTag? with
    | .safeNavigationTemps, some name =>
      if isPlain && Yaml.isNull text then some name else none
    | _, _ => some text
  | _ => none

/-- The text of a key, if it is a scalar. -/
def yamlKey? : Node → Option String
  | .scalar _ _ text => some text
  | _ => none

/-- Reads the node that a root stands for. -/
def ofYamlRoot? (root : Node) : Option Config := do
  match ← root.target? root with
  | .scalar _ true "" => some {}
  | .mapping entries =>
    setEntries? (fun key value => (root.target? value).bind (yamlText? key)) {} []
      (entries.map fun (key, value) => ((root.target? key).bind yamlKey?, value))
  | _ => none

def ofYaml? : Option Node → Option Config
  | none => some {}
  | some root => ofYamlRoot? root

def ofYamlText? (text : String) : Option Config :=
  (Node.ofText? text).bind ofYaml?

/-! ## Writing -/

def toYamlText (config : Config) : String :=
  String.join (Key.all.map fun key => Yaml.writtenEntry key.name (config.text key))

end StaticDispatch.Config
