import StaticDispatch.Config.Json
import StaticDispatch.Config.Yaml

/-!
# Configuration files

A file is read in the format that the extension of its name stands for.  The name
is a path, and the extension that of the last part of it.
-/

namespace StaticDispatch.Config

inductive FileFormat where
  | yaml
  | json
deriving DecidableEq, Repr

def FileFormat.ofExtension? : String → Option FileFormat
  | "yaml" => some .yaml
  | "yml" => some .yaml
  | "json" => some .json
  | _ => none

inductive FileError where
  | unreadable
  | invalid (format : FileFormat)
  | unsupportedFormat (extension : String)
deriving DecidableEq, Repr

/-- The message for a format that is not supported. -/
def unsupportedFormatMessage (extension : String) : String :=
  "unsupported config file extension: " ++ extension

/-- What follows the last slash of a path. -/
def baseName (path : String) : String :=
  String.ofList (path.toList.reverse.takeWhile (· != '/')).reverse

/-- What follows the last dot of the base name, if something comes before that dot. -/
def extension (path : String) : String :=
  let reversed := (baseName path).toList.reverse
  let found := reversed.takeWhile (· != '.')
  if (reversed.drop (found.length + 1)).isEmpty then "" else String.ofList found.reverse

def ofText (format : FileFormat) (text : String) : Except FileError Config :=
  let found := match format with
    | .yaml => ofYamlText? text
    | .json => ofJsonText? text
  match found with
  | some config => .ok config
  | none => .error (.invalid format)

/-- Reads a file; `content` is its text, if it could be read. -/
def ofFile (path : String) (content : Option String) : Except FileError Config :=
  match content, FileFormat.ofExtension? (extension path) with
  | none, _ => .error .unreadable
  | some _, none => .error (.unsupportedFormat (extension path))
  | some text, some format => ofText format text

end StaticDispatch.Config
