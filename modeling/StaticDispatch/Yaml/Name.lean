import StaticDispatch.Yaml.Flow

/-!
# Anchors, tags and directives

The names that a YAML text gives to nodes and to kinds of nodes, and the
directives before a document.
-/

namespace StaticDispatch.Yaml

def isNameChar (c : Char) : Bool :=
  c.isAlphanum || c == '_' || c == '-'

/-- The name of an anchor, and what follows it. -/
def anchorName? (text : List Char) : Option (String × List Char) :=
  let name := text.takeWhile isNameChar
  let rest := text.drop name.length
  let ends := endsWord rest || (rest.head?.any "?:,]\x7d%@\x60".toList.contains)
  if !name.isEmpty && ends then some (String.ofList name, rest) else none

/-! ## Tags -/

/-- A tag as it is written: a handle that stands for the beginning, and the octets of the
rest. -/
structure TagName where
  handle : String
  suffix : List UInt8
deriving DecidableEq, Repr

/-- The octet of the mark that tags begin with. -/
def tagMark : UInt8 := '!'.toUInt8

def isTagChar (c : Char) : Bool :=
  isNameChar c || ";/?:@&=+$.!~*'()".toList.contains c

/-- How many octets are due after the first octet of a character. -/
def octetsAfter? (octet : UInt8) : Option Nat :=
  if octet < 0x80 then some 0
  else if octet < 0xc0 then none
  else if octet < 0xe0 then some 1
  else if octet < 0xf0 then some 2
  else if octet < 0xf8 then some 3
  else none

/-- How many octets are due after one more, when so many were due before it. -/
def octetsDue? (octet : UInt8) : Nat → Option Nat
  | 0 => octetsAfter? octet
  | due + 1 => if 0x80 ≤ octet && octet < 0xc0 then some due else none

/-- The octets of a text of tag characters.  Octets may be written with a percent sign, and
all the octets of a character must be if one is. -/
def tagOctets? (due : Nat) : List Char → Option (List UInt8)
  | [] => if due = 0 then some [] else none
  | '%' :: a :: b :: rest => do
    let octet := UInt8.ofNat (← Hexadecimal.value? [a, b])
    return octet :: (← tagOctets? (← octetsDue? octet due) rest)
  | c :: rest =>
    if c == '%' || due != 0 then none else (tagOctets? 0 rest).map (c.toUInt8 :: ·)

/-- The octets of the longest text of tag characters, which end before a zero, and what
follows that text. -/
def tagText? (isMore : Char → Bool) (text : List Char) : Option (List UInt8 × List Char) := do
  let found := text.takeWhile fun c => isTagChar c || c == '%' || isMore c
  let octets ← tagOctets? 0 found
  return (octets.takeWhile (· != 0), text.drop found.length)

/-- A text of tag characters that must not be missing. -/
def someTagText? (isMore : Char → Bool) (text : List Char) : Option (List UInt8 × List Char) :=
  if text.head?.any fun c => isTagChar c || c == '%' || isMore c then tagText? isMore text
  else none

def isVerbatimChar (c : Char) : Bool :=
  c == ',' || c == '[' || c == ']'

/-- The name between two marks, the first of which has been read. -/
def handleName (text : List Char) : Option (String × List Char) :=
  let name := text.takeWhile isNameChar
  match text.drop name.length with
  | '!' :: rest => some ("!" ++ String.ofList name ++ "!", rest)
  | _ => none

/-- A tag after its mark, and what follows it: in full between angle brackets, after a
handle, or by itself. -/
def TagName.read? (inFlow : Bool) (text : List Char) : Option (TagName × List Char) := do
  let (name, rest) ← match text with
    | '<' :: rest =>
      match someTagText? isVerbatimChar rest with
      | some (suffix, '>' :: rest) => some (⟨"", suffix⟩, rest)
      | _ => none
    | text =>
      match handleName text with
      | some (handle, rest) => do
        let (suffix, rest) ← someTagText? (fun _ => false) rest
        some (⟨handle, suffix⟩, rest)
      | none => do
        let (suffix, rest) ← tagText? (fun _ => false) text
        some (if suffix.isEmpty then ⟨"", [tagMark]⟩ else ⟨"!", suffix⟩, rest)
  if endsWord rest || (inFlow && rest.head? = some ',') then some (name, rest) else none

/-! ## Directives -/

inductive Directive where
  | version (major minor : Nat)
  /-- What a handle stands for. -/
  | tag (handle : String) (start : List UInt8)
deriving DecidableEq, Repr

/-- A number of at most nine digits, and what follows it. -/
def versionNumber? (text : List Char) : Option (Nat × List Char) :=
  let digits := text.takeWhile Char.isDigit
  if digits.isEmpty || 9 < digits.length then none
  else
    some (digits.foldl (fun n c => 10 * n + (c.toNat - '0'.toNat)) 0, text.drop digits.length)

def versionDirective? (text : List Char) : Option (Directive × List Char) := do
  let (major, rest) ← versionNumber? text
  match rest with
  | '.' :: rest =>
    let (minor, rest) ← versionNumber? rest
    return (.version major minor, rest)
  | _ => none

def directiveHandle? : List Char → Option (String × List Char)
  | '!' :: rest =>
    match handleName rest with
    | some found => some found
    | none => if (rest.head?.any isNameChar) then none else some ("!", rest)
  | _ => none

def tagDirective? (text : List Char) : Option (Directive × List Char) := do
  let (handle, rest) ← directiveHandle? text
  if rest.head?.any isBlank then
    let (start, rest) ← someTagText? isVerbatimChar (rest.dropWhile isBlank)
    if endsWord rest then some (.tag handle start, rest) else none
  else none

/-- A directive after its mark, and the lines after it.  Only a comment may follow on its own
line. -/
def Directive.read? (text : List Char) : Option (Directive × List Char) := do
  let name := text.takeWhile isNameChar
  let rest := text.drop name.length
  if !endsWord rest then none
  let content := rest.dropWhile isBlank
  let (directive, rest) ← match String.ofList name with
    | "YAML" => versionDirective? content
    | "TAG" => tagDirective? content
    | _ => none
  let rest := rest.dropWhile isBlank
  if rest.isEmpty || rest.head?.any isBreak || rest.head? = some '#' then
    some (directive, (rest.dropWhile fun c => !isBreak c).drop 1)
  else none

end StaticDispatch.Yaml
