import StaticDispatch.Text.Hexadecimal

/-!
# JSON

JSON values and their reader.  A string may be written with escapes that form
no text, halves of a surrogate pair; it can be read as a value, but it has no
text.  The digits of a number are checked and not kept.
-/

namespace StaticDispatch

inductive Json where
  | null
  | boolean (value : Bool)
  | number
  /-- The text, if the escapes form one. -/
  | string (text : Option String)
  | array (items : List Json)
  | object (members : List (Option String × Json))

namespace Json

def isSpace (c : Char) : Bool :=
  c == ' ' || c == '\n' || c == '\t' || c == '\r'

def skipSpace (text : List Char) : List Char :=
  text.dropWhile isSpace

/-! ## Strings -/

/-- What a string is written with: characters and halves of surrogate pairs. -/
inductive Piece where
  | char (c : Char)
  | half (code : Nat)

def Piece.ofCode (code : Nat) : Piece :=
  if 0xd800 ≤ code && code ≤ 0xdfff then .half code else .char (Char.ofNat code)

def simpleEscape? : Char → Option Char
  | '"' => some '"'
  | '\\' => some '\\'
  | '/' => some '/'
  | 'b' => some '\x08'
  | 'f' => some '\x0c'
  | 'n' => some '\n'
  | 'r' => some '\r'
  | 't' => some '\t'
  | _ => none

/-- The rest of a string after its opening quote, and what follows its closing one. -/
def pieces? : List Char → Option (List Piece × List Char)
  | [] => none
  | '"' :: rest => some ([], rest)
  | '\\' :: 'u' :: a :: b :: c :: d :: rest => do
    let code ← Hexadecimal.value? [a, b, c, d]
    let (found, rest) ← pieces? rest
    return (.ofCode code :: found, rest)
  | '\\' :: e :: rest => do
    let c ← simpleEscape? e
    let (found, rest) ← pieces? rest
    return (.char c :: found, rest)
  | c :: rest =>
    if c.toNat < 0x20 || c == '\\' then none
    else do
      let (found, rest) ← pieces? rest
      return (.char c :: found, rest)

def isLeading (code : Nat) : Bool := 0xd800 ≤ code && code ≤ 0xdbff

def isTrailing (code : Nat) : Bool := 0xdc00 ≤ code && code ≤ 0xdfff

/-- The characters of a string, in which each leading half is followed by a trailing one
and no trailing half stands elsewhere. -/
def joinPieces? : List Piece → Option (List Char)
  | [] => some []
  | .char c :: rest => (joinPieces? rest).map (c :: ·)
  | .half lead :: .half trail :: rest =>
    if isLeading lead && isTrailing trail then
      (joinPieces? rest).map
        (Char.ofNat (0x10000 + (lead - 0xd800) * 0x400 + (trail - 0xdc00)) :: ·)
    else none
  | .half _ :: _ => none

def string? (text : List Char) : Option (Option String × List Char) :=
  (pieces? text).map fun (found, rest) => ((joinPieces? found).map String.ofList, rest)

/-! ## Numbers -/

/-- What follows one or more digits. -/
def digits? (text : List Char) : Option (List Char) :=
  if (text.head?.map Char.isDigit).getD false then some (text.dropWhile Char.isDigit) else none

def fraction? : List Char → Option (List Char)
  | '.' :: rest => digits? rest
  | text => some text

def exponent? : List Char → Option (List Char)
  | c :: rest =>
    if c == 'e' || c == 'E' then
      match rest with
      | '+' :: rest => digits? rest
      | '-' :: rest => digits? rest
      | rest => digits? rest
    else some (c :: rest)
  | [] => some []

/-- What follows the whole part of a number, which has no leading zero. -/
def wholePart? : List Char → Option (List Char)
  | '0' :: rest => if (rest.head?.map Char.isDigit).getD false then none else some rest
  | text => digits? text

/-- What follows a number. -/
def number? (text : List Char) : Option (List Char) :=
  let unsigned := if text.head? = some '-' then text.drop 1 else text
  (wholePart? unsigned).bind fun rest => (fraction? rest).bind exponent?

/-! ## Values -/

/-- The rest of the text after a word it starts with. -/
def word? (word : String) (text : List Char) : Option (List Char) :=
  if word.toList.isPrefixOf text then some (text.drop word.length) else none

mutual

/-- Reads a value; `fuel` bounds the length of the text. -/
def value? : Nat → List Char → Option (Json × List Char)
  | 0, _ => none
  | fuel + 1, text =>
    match skipSpace text with
    | '"' :: rest => (string? rest).map fun (text, rest) => (.string text, rest)
    | '[' :: rest =>
      match skipSpace rest with
      | ']' :: rest => some (.array [], rest)
      | rest => (items? fuel rest).map fun (items, rest) => (.array items, rest)
    | '\x7b' :: rest =>
      match skipSpace rest with
      | '\x7d' :: rest => some (.object [], rest)
      | rest => (members? fuel rest).map fun (members, rest) => (.object members, rest)
    | 'n' :: rest => (word? "ull" rest).map fun rest => (.null, rest)
    | 't' :: rest => (word? "rue" rest).map fun rest => (.boolean true, rest)
    | 'f' :: rest => (word? "alse" rest).map fun rest => (.boolean false, rest)
    | text => (number? text).map fun rest => (.number, rest)

/-- One or more items and the closing bracket. -/
def items? : Nat → List Char → Option (List Json × List Char)
  | 0, _ => none
  | fuel + 1, text => do
    let (item, rest) ← value? fuel text
    match skipSpace rest with
    | ']' :: rest => return ([item], rest)
    | ',' :: rest =>
      let (items, rest) ← items? fuel rest
      return (item :: items, rest)
    | _ => none

/-- One or more members and the closing brace. -/
def members? : Nat → List Char → Option (List (Option String × Json) × List Char)
  | 0, _ => none
  | fuel + 1, text =>
    match skipSpace text with
    | '"' :: rest => do
      let (key, rest) ← string? rest
      match skipSpace rest with
      | ':' :: rest =>
        let (value, rest) ← value? fuel rest
        match skipSpace rest with
        | '\x7d' :: rest => return ([(key, value)], rest)
        | ',' :: rest =>
          let (members, rest) ← members? fuel rest
          return ((key, value) :: members, rest)
        | _ => none
      | _ => none
    | _ => none

end

/-- Reads a text that is one value and nothing else.  Every step into or along a value
takes a character, and no value is entered without one. -/
def ofText? (text : String) : Option Json :=
  let chars := text.toList
  match value? (2 * chars.length + 2) chars with
  | some (value, rest) => if (skipSpace rest).isEmpty then some value else none
  | none => none

/-! ## Writing strings -/

def escape : Char → List Char
  | '"' => ['\\', '"']
  | '\\' => ['\\', '\\']
  | '\x08' => ['\\', 'b']
  | '\x0c' => ['\\', 'f']
  | '\n' => ['\\', 'n']
  | '\r' => ['\\', 'r']
  | '\t' => ['\\', 't']
  | c => if c.toNat < 0x20 then ['\\', 'u'] ++ Hexadecimal.padded 4 c.toNat else [c]

def quoted (text : String) : String :=
  String.ofList ('"' :: text.toList.flatMap escape ++ ['"'])

end Json

end StaticDispatch
