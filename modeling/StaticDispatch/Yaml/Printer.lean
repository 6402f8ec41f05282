import StaticDispatch.Yaml.Implicit

/-!
# Written scalars

A string as the value of an entry of a mapping.  It is plain where it can be,
else between single quotes, else between double quotes; a string of several
lines is a literal block where it can be.
-/

namespace StaticDispatch.Yaml

/-- Whether a character can stand outside double quotes. -/
def isPrintable (c : Char) : Bool :=
  let code := c.toNat
  c == '\n' || (0x20 ≤ code && code ≤ 0x7e)
    || (0xa0 ≤ code && code ≤ 0xfffd && !isOrderMark c) || 0x10000 ≤ code

/-! ## What a text allows -/

/-- Whether a character is followed by another one somewhere. -/
def hasPair (first second : Char → Bool) (text : List Char) : Bool :=
  (text.zip (text.drop 1)).any fun pair => first pair.1 && second pair.2

def isSpace (c : Char) : Bool := c == ' '

/-- Whether a character of this kind stands at one of the ends. -/
def atEnds (kind : Char → Bool) (text : List Char) : Bool :=
  text.head?.any kind || text.getLast?.any kind

def isIndicator (c : Char) : Bool :=
  "#,[]\x7b\x7d&*!|>'\"%@\x60".toList.contains c

/-- Whether an indicator stands where a plain scalar begins. -/
def startsWithIndicator (text : List Char) : Bool :=
  "---".toList.isPrefixOf text || "...".toList.isPrefixOf text
    || match text with
      | [] => false
      | c :: rest => isIndicator c || ((c == '?' || c == '-') && endsWord rest)

/-- Whether a colon ends a word, or a comment sign begins one. -/
def hasInnerIndicator (text : List Char) : Bool :=
  text.getLast? = some ':'
    || hasPair (· == ':') (fun c => isBlank c || isBreak c) text
    || hasPair (fun c => isBlank c || isBreak c) (· == '#') text

/-- Whether a text needs the escapes of double quotes. -/
def needsEscapes (text : List Char) : Bool :=
  text.any (fun c => !isPrintable c) || hasPair isSpace isBreak text

def allowsSingleQuotes (text : List Char) : Bool :=
  !needsEscapes text && !hasPair isBreak isSpace text

def allowsPlain (text : List Char) : Bool :=
  !needsEscapes text && !text.any isBreak && !atEnds isSpace text
    && !startsWithIndicator text && !hasInnerIndicator text

def allowsLiteral (text : List Char) : Bool :=
  !needsEscapes text && !(text.getLast?.any isSpace)

/-! ## Styles -/

inductive Style where
  | plain
  | singleQuoted
  | doubleQuoted
  | literal
deriving DecidableEq, Repr

def Style.ofText (text : String) : Style :=
  let chars := text.toList
  if chars.contains '\n' then
    if allowsLiteral chars then .literal else .doubleQuoted
  else if !isImplicit text && allowsPlain chars then .plain
  else if allowsSingleQuotes chars then .singleQuoted
  else .doubleQuoted

/-- What the lines of a scalar begin with. -/
def margin : List Char := [' ', ' ']

/-- A quote is written twice, and so is the first of several line feeds; a line begins at
the margin. -/
def singleQuotedBody (lineStart : Bool) : List Char → List Char
  | [] => if lineStart then margin else []
  | c :: rest =>
    if isBreak c then
      (if !lineStart && c == '\n' then ['\n', c] else [c]) ++ singleQuotedBody true rest
    else
      (if lineStart then margin else []) ++ (if c == '\'' then ['\'', c] else [c])
        ++ singleQuotedBody false rest

def hexText (width code : Nat) : List Char :=
  (Hexadecimal.padded width code).map Char.toUpper

/-- The escape of a character. -/
def escaped (c : Char) : List Char :=
  match c with
  | '\x00' => ['\\', '0']
  | '\x07' => ['\\', 'a']
  | '\x08' => ['\\', 'b']
  | '\t' => ['\\', 't']
  | '\n' => ['\\', 'n']
  | '\x0b' => ['\\', 'v']
  | '\x0c' => ['\\', 'f']
  | '\r' => ['\\', 'r']
  | '\x1b' => ['\\', 'e']
  | '"' => ['\\', '"']
  | '\\' => ['\\', '\\']
  | '\u0085' => ['\\', 'N']
  | '\u2028' => ['\\', 'L']
  | '\u2029' => ['\\', 'P']
  | c =>
    if c.toNat ≤ 0xff then '\\' :: 'x' :: hexText 2 c.toNat
    else if c.toNat ≤ 0xffff then '\\' :: 'u' :: hexText 4 c.toNat
    else '\\' :: 'U' :: hexText 8 c.toNat

def doubleQuotedBody (text : List Char) : List Char :=
  text.flatMap fun c =>
    if !isPrintable c || isBreak c || c == '"' || c == '\\' then escaped c else [c]

/-- The indentation is given where the first line does not show it. -/
def indentationSign (text : List Char) : List Char :=
  if text.head?.any fun c => c == ' ' || isBreak c then ['2'] else []

/-- How the line breaks at the end are to be taken. -/
def chompingSign (text : List Char) : List Char :=
  match text.reverse with
  | [] => ['-']
  | c :: rest =>
    if !isBreak c then ['-']
    else if rest.isEmpty || rest.head?.any isBreak then ['+']
    else []

def literalBody (lineStart : Bool) : List Char → List Char
  | [] => []
  | c :: rest =>
    if isBreak c then c :: literalBody true rest
    else (if lineStart then margin else []) ++ c :: literalBody false rest

/-- The written form of a text, up to the end of its last line. -/
def written (text : String) : List Char :=
  let chars := text.toList
  match Style.ofText text with
  | .plain => chars ++ ['\n']
  | .singleQuoted => '\'' :: singleQuotedBody false chars ++ ['\'', '\n']
  | .doubleQuoted => '"' :: doubleQuotedBody chars ++ ['"', '\n']
  | .literal =>
    let ending := if chars.getLast?.any isBreak then [] else ['\n']
    '|' :: indentationSign chars ++ chompingSign chars ++ '\n' :: literalBody true chars ++ ending

/-- An entry of a mapping with a plain key. -/
def writtenEntry (key value : String) : String :=
  key ++ ": " ++ String.ofList (written value)

end StaticDispatch.Yaml
