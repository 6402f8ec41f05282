/-!
# Characters and lines

The characters that a YAML text may hold, and its division into lines.  A
line keeps the character that ends it, so that the lines hold the whole text
(`joinLines_lines`).
-/

namespace StaticDispatch.Yaml

def isBlank (c : Char) : Bool :=
  c == ' ' || c == '\t'

/-- Line breaks, once all kinds of line feed are written as one. -/
def isBreak (c : Char) : Bool :=
  c == '\n' || c == '\u2028' || c == '\u2029'

/-- A byte order mark, which takes a column but does not count where a line begins. -/
def isOrderMark (c : Char) : Bool :=
  c == '\ufeff'

/-- How many octets a text takes. -/
def octetCount (text : List Char) : Nat :=
  text.foldl (fun count c => count + c.utf8Size) 0

/-- Whether a word that goes up to here ends here. -/
def endsWord : List Char → Bool
  | [] => true
  | c :: _ => isBlank c || isBreak c

/-- Writes carriage returns, with or without a line feed, and next-line characters as
line feeds. -/
def uniformBreaks : List Char → List Char
  | [] => []
  | '\r' :: '\n' :: rest => '\n' :: uniformBreaks rest
  | c :: rest => (if c == '\r' || c == '\u0085' then '\n' else c) :: uniformBreaks rest

/-- Whether a character may stand in a text: no control but the usual blanks. -/
def isReadable (c : Char) : Bool :=
  let code := c.toNat
  c == '\t' || c == '\n' || c == '\r' || (0x20 ≤ code && code ≤ 0x7e) || code == 0x85
    || (0xa0 ≤ code && code ≤ 0xfffd) || 0x10000 ≤ code

def characters? (text : String) : Option (List Char) :=
  let chars := text.toList
  if chars.all isReadable then some (uniformBreaks chars) else none

/-- Whether a text begins with these three characters as a word. -/
def startsWithMarker (marker : String) (text : List Char) : Bool :=
  marker.toList.isPrefixOf text && endsWord (text.drop 3)

/-- Whether a text, at the beginning of a line, begins with a mark between documents. -/
def atDocumentMarker (text : List Char) : Bool :=
  startsWithMarker "---" text || startsWithMarker "..." text

/-! ## Lines -/

structure Line where
  text : List Char
  /-- The line break; only the last line may have none. -/
  ending : Option Char
deriving DecidableEq, Repr

def Line.characters (line : Line) : List Char :=
  line.text ++ line.ending.toList

def lines : List Char → List Line
  | [] => []
  | c :: rest =>
    if isBreak c then { text := [], ending := some c } :: lines rest
    else
      match lines rest with
      | [] => [{ text := [c], ending := none }]
      | line :: more => { line with text := c :: line.text } :: more

def joinLines (lines : List Line) : List Char :=
  lines.flatMap Line.characters

theorem joinLines_lines (text : List Char) : joinLines (lines text) = text := by
  induction text with
  | nil => rfl
  | cons c rest ih =>
    rw [lines]
    split
    · simpa [joinLines, Line.characters] using ih
    · split <;> simp_all [joinLines, Line.characters]

end StaticDispatch.Yaml
