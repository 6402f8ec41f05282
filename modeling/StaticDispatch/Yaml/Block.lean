import StaticDispatch.Yaml.Line

/-!
# Block scalars

Scalars whose lines stand below their indicator, further in than the block
around them.  A literal scalar keeps its line breaks; a folded one counts a
line break between two lines that begin with no blank as a space.
-/

namespace StaticDispatch.Yaml

/-- What becomes of the line breaks at the end. -/
inductive Chomping where
  | strip
  | clip
  | keep
deriving DecidableEq, Repr

structure BlockHeader where
  chomping : Chomping := .clip
  /-- How much further in than the block around them the lines begin, if it is given. -/
  indentation : Option Nat := none
deriving DecidableEq, Repr

def Chomping.ofChar? : Char → Option Chomping
  | '-' => some .strip
  | '+' => some .keep
  | _ => none

/-- The signs after the indicator, in either order, and what follows them. -/
def BlockHeader.read? (header : BlockHeader) : List Char → Option (BlockHeader × List Char)
  | [] => some (header, [])
  | c :: rest =>
    match Chomping.ofChar? c with
    | some chomping =>
      if header.chomping = .clip then { header with chomping }.read? rest else none
    | none =>
      if c.isDigit && header.indentation.isNone then
        if c == '0' then none
        else { header with indentation := some (c.toNat - '0'.toNat) }.read? rest
      else some (header, c :: rest)

/-- The lines after the one with the indicator, on which only a comment may follow. -/
def linesBelow? (text : List Char) : Option (List Char) :=
  let rest := text.dropWhile isBlank
  let rest := if rest.head? = some '#' then rest.dropWhile fun c => !isBreak c else rest
  if endsWord rest then some (rest.drop 1) else none

def leadingSpaces (text : List Char) : Nat :=
  (text.takeWhile (· == ' ')).length

def isEmptyLine (line : Line) : Bool :=
  line.text.all (· == ' ')

/-- The column of the lines of a scalar without a given one: that of the first line that
is not empty, or of a longer empty line before it. -/
def widestBefore (least : Nat) : List Line → Nat
  | [] => least
  | line :: rest =>
    let least := max least (leadingSpaces line.text)
    if isEmptyLine line && line.ending.isSome then widestBefore least rest else least

/-- What has been read of a block scalar. -/
structure BlockText where
  text : List Char := []
  /-- The break after the last line with text. -/
  lineBreak : Option Char := none
  /-- The breaks of the empty lines since. -/
  emptyLines : List Char := []
  /-- Whether the last line with text began with a blank. -/
  isIndented : Bool := false

/-- What the breaks since the last line count as before a line with text. -/
def BlockText.gap (found : BlockText) (folded isIndented : Bool) : List Char :=
  if folded && found.lineBreak = some '\n' && !found.isIndented && !isIndented then
    if found.emptyLines.isEmpty then [' '] else found.emptyLines
  else found.lineBreak.toList ++ found.emptyLines

def BlockText.addLine (found : BlockText) (folded : Bool) (text : List Char)
    (ending : Option Char) : BlockText :=
  let isIndented := (text.head?.map isBlank).getD false
  { text := found.text ++ found.gap folded isIndented ++ text
    lineBreak := ending
    emptyLines := []
    isIndented }

def BlockText.chomped (found : BlockText) : Chomping → List Char
  | .strip => found.text
  | .clip => found.text ++ found.lineBreak.toList
  | .keep => found.text ++ found.lineBreak.toList ++ found.emptyLines

/-- Takes the lines of a scalar that begin at a column; a tab may not stand before it. -/
def blockLines? (folded : Bool) (column : Nat) (found : BlockText) :
    List Line → Option (BlockText × List Line)
  | [] => some (found, [])
  | line :: rest =>
    let body := line.text.drop column
    if column ≤ leadingSpaces line.text && !body.isEmpty then
      blockLines? folded column (found.addLine folded body line.ending) rest
    else
      let own := line.text.dropWhile (· == ' ')
      if own.head? = some '\t' then none
      else if own.isEmpty then
        blockLines? folded column
          { found with emptyLines := found.emptyLines ++ line.ending.toList } rest
      else some (found, line :: rest)

/-- Whether a tab stands where the column of the lines is not known yet. -/
def beginsWithTab : List Line → Bool
  | [] => false
  | line :: rest =>
    if isEmptyLine line then line.ending.isSome && beginsWithTab rest
    else (line.text.dropWhile (· == ' ')).head? = some '\t'

/-- The text of a block scalar after its indicator, and what follows it.  The scalar stands
in a block that begins at a column, if it stands in one. -/
def blockScalar? (folded : Bool) (block : Option Nat) (text : List Char) :
    Option (String × List Char) := do
  let (header, rest) ← BlockHeader.read? {} text
  let below := lines (← linesBelow? rest)
  let least := max 1 ((block.map (· + 1)).getD 0)
  let column ← match header.indentation with
    | some n => some (block.getD 0 + n)
    | none => if beginsWithTab below then none else some (widestBefore least below)
  let (found, rest) ← blockLines? folded column {} below
  return (String.ofList (found.chomped header.chomping), joinLines rest)

end StaticDispatch.Yaml
