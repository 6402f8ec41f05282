import StaticDispatch.Text.Hexadecimal
import StaticDispatch.Yaml.Line

/-!
# Flow scalars

Quoted and plain scalars.  They may go over several lines: a single line break
between words counts as a space, further ones count as themselves, and blanks
beside a line break do not count.  A scalar is first read into pieces, from
which `fold` makes its text.
-/

namespace StaticDispatch.Yaml

/-- What a flow scalar is written with. -/
inductive Piece where
  /-- A character of the text, as it stands. -/
  | char (c : Char)
  | blank (c : Char)
  | lineBreak (c : Char)
  /-- An escaped line break, which joins two lines. -/
  | joint
deriving DecidableEq, Repr

/-- The blanks and line breaks between two words. -/
inductive Gap where
  | blanks (found : List Char)
  /-- From the first line break on, or from a joint, which leaves none. -/
  | broken (first : Option Char) (more : List Char)
deriving DecidableEq, Repr

def Gap.none : Gap := .blanks []

/-- What a gap counts as. -/
def Gap.text : Gap → List Char
  | .blanks found => found
  | .broken (some '\n') [] => [' ']
  | .broken (some '\n') more => more
  | .broken first more => first.toList ++ more

def Gap.addBlank (c : Char) : Gap → Gap
  | .blanks found => .blanks (found ++ [c])
  | .broken first more => .broken first more

def Gap.addBreak (c : Char) : Gap → Gap
  | .blanks _ => .broken (some c) []
  | .broken first more => .broken first (more ++ [c])

/-- The text of the pieces after a gap. -/
def foldAfter (gap : Gap) : List Piece → List Char
  | [] => gap.text
  | .char c :: rest => gap.text ++ c :: foldAfter .none rest
  | .blank c :: rest => foldAfter (gap.addBlank c) rest
  | .lineBreak c :: rest => foldAfter (gap.addBreak c) rest
  | .joint :: rest => gap.text ++ foldAfter (.broken Option.none []) rest

def fold (pieces : List Piece) : String :=
  String.ofList (foldAfter .none pieces)

def Piece.ofChar (c : Char) : Piece :=
  if isBlank c then .blank c else if isBreak c then .lineBreak c else .char c

/-! ## Single quotes -/

/-- The pieces up to the closing quote, and what follows it. -/
def singleQuoted? (lineStart : Bool) : List Char → Option (List Piece × List Char)
  | [] => none
  | '\'' :: '\'' :: rest => do
    let (pieces, rest) ← singleQuoted? false rest
    return (.char '\'' :: pieces, rest)
  | '\'' :: rest => some ([], rest)
  | c :: rest =>
    if lineStart && atDocumentMarker (c :: rest) then none
    else do
      let (pieces, rest) ← singleQuoted? (isBreak c) rest
      return (.ofChar c :: pieces, rest)

/-! ## Double quotes -/

def simpleEscape? : Char → Option Char
  | '0' => some '\x00'
  | 'a' => some '\x07'
  | 'b' => some '\x08'
  | 't' => some '\t'
  | '\t' => some '\t'
  | 'n' => some '\n'
  | 'v' => some '\x0b'
  | 'f' => some '\x0c'
  | 'r' => some '\r'
  | 'e' => some '\x1b'
  | ' ' => some ' '
  | '"' => some '"'
  | '/' => some '/'
  | '\\' => some '\\'
  | 'N' => some '\u0085'
  | '_' => some '\u00a0'
  | 'L' => some '\u2028'
  | 'P' => some '\u2029'
  | _ => none

/-- The character with a code point in hexadecimal. -/
def codePoint? (digits : List Char) : Option Char :=
  (Hexadecimal.value? digits).bind fun code =>
    if h : code.isValidChar then some (Char.ofNatAux code h) else none

/-- The pieces up to the closing quote, and what follows it. -/
def doubleQuoted? (lineStart : Bool) : List Char → Option (List Piece × List Char)
  | [] => none
  | '"' :: rest => some ([], rest)
  | '\\' :: 'x' :: a :: b :: rest => do
    let c ← codePoint? [a, b]
    let (pieces, rest) ← doubleQuoted? false rest
    return (.char c :: pieces, rest)
  | '\\' :: 'u' :: a :: b :: c :: d :: rest => do
    let c ← codePoint? [a, b, c, d]
    let (pieces, rest) ← doubleQuoted? false rest
    return (.char c :: pieces, rest)
  | '\\' :: 'U' :: a :: b :: c :: d :: e :: f :: g :: h :: rest => do
    let c ← codePoint? [a, b, c, d, e, f, g, h]
    let (pieces, rest) ← doubleQuoted? false rest
    return (.char c :: pieces, rest)
  | '\\' :: e :: rest =>
    if isBreak e then do
      let (pieces, rest) ← doubleQuoted? true rest
      return (.joint :: pieces, rest)
    else do
      let c ← simpleEscape? e
      let (pieces, rest) ← doubleQuoted? false rest
      return (.char c :: pieces, rest)
  | c :: rest =>
    if c == '\\' || (lineStart && atDocumentMarker (c :: rest)) then none
    else do
      let (pieces, rest) ← doubleQuoted? (isBreak c) rest
      return (.ofChar c :: pieces, rest)

/-! ## Plain scalars -/

/-- Where a plain scalar stands. -/
structure PlainContext where
  inFlow : Bool
  /-- The least column of a further line. -/
  margin : Nat

def isFlowIndicator (c : Char) : Bool :=
  c == ',' || c == '[' || c == ']' || c == '\x7b' || c == '\x7d'

/-- Where the reading of a plain scalar is. -/
inductive PlainPlace where
  | word
  | gap
  /-- After a line break. -/
  | brokenGap
deriving DecidableEq, Repr

/-- The place after a line break or a blank. -/
def PlainPlace.afterBlank : PlainPlace → PlainPlace
  | .brokenGap => .brokenGap
  | _ => .gap

/-- Whether a scalar ends before a word at this place. -/
def PlainContext.endsBefore (context : PlainContext) (place : PlainPlace) (column : Nat)
    (text : List Char) : Bool :=
  place != .word && (text.head? = some '#' || (column == 0 && atDocumentMarker text)
    || (!context.inFlow && column < context.margin))

/-- The pieces of a plain scalar, what follows the gap after it, and whether that gap has
a line break. -/
def plain? (context : PlainContext) (place : PlainPlace) (column : Nat) :
    List Char → Option (List Piece × List Char × Bool)
  | [] => some ([], [], place = .brokenGap)
  | c :: rest =>
    let stop := some ([], c :: rest, decide (place = .brokenGap))
    let continue? (place : PlainPlace) (column : Nat) :=
      (plain? context place column rest).map fun (pieces, rest) => (.ofChar c :: pieces, rest)
    if isBreak c then continue? .brokenGap 0
    else if isBlank c then
      if place = .brokenGap && column < context.margin && c == '\t' then none
      else continue? place.afterBlank (column + 1)
    else if context.endsBefore place column (c :: rest) then stop
    else if c == ':' && context.inFlow
        && (rest.head?.any fun next => isFlowIndicator next || next == '?') then none
    else if c == ':' && endsWord rest then stop
    else if context.inFlow && isFlowIndicator c then stop
    else continue? .word (column + 1)

def Piece.isChar : Piece → Bool
  | .char _ => true
  | _ => false

/-- The pieces without the gap at the end. -/
def withoutLastGap (pieces : List Piece) : List Piece :=
  (pieces.reverse.dropWhile fun piece => !piece.isChar).reverse

end StaticDispatch.Yaml
