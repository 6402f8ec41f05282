import StaticDispatch.Yaml.Block
import StaticDispatch.Yaml.Name

/-!
# Tokens

A text as a sequence of tokens.  Indentation becomes tokens of its own: a
block collection opens where a first entry stands further in than the block
around it, and closes before the first token that stands further out.  What
comes before a colon is known as a key only when the colon is reached, and so
the token for the key is put in at the place where that node began.
-/

namespace StaticDispatch.Yaml

inductive Token where
  | directive (directive : Directive)
  | documentStart
  | documentEnd
  | blockSequenceStart
  | blockMappingStart
  | blockEnd
  | flowSequenceStart
  | flowSequenceEnd
  | flowMappingStart
  | flowMappingEnd
  | blockEntry
  | flowEntry
  | key
  | value
  | anchor (name : String)
  | reference (name : String)
  | tag (name : TagName)
  | scalar (isPlain : Bool) (text : String)
deriving DecidableEq, Repr

/-- A node that is a key if a colon follows it on the same line. -/
structure KeyCandidate where
  /-- How many tokens come before it. -/
  place : Nat
  line : Nat
  column : Nat
  /-- How many octets come before it on its line. -/
  offset : Nat
  /-- Whether the block mapping around it allows nothing but a key here. -/
  isRequired : Bool
deriving DecidableEq, Repr

/-- How far a text has been read, and the tokens so far. -/
structure Reading where
  rest : List Char
  line : Nat := 0
  column : Nat := 0
  /-- How many octets come before on the line. -/
  offset : Nat := 0
  tokens : List Token := []
  /-- The columns of the open block collections, innermost first. -/
  blocks : List Nat := []
  candidate : Option KeyCandidate := none
  /-- The candidates around the open flow collections, innermost first. -/
  outer : List (Option KeyCandidate) := []
  keyAllowed : Bool := true

namespace Reading

def inFlow (r : Reading) : Bool :=
  !r.outer.isEmpty

/-- Goes on to a later place in the text. -/
def goTo (r : Reading) (rest : List Char) : Reading :=
  let passed := r.rest.take (r.rest.length - rest.length)
  let lastLine := passed.reverse.takeWhile fun c => !isBreak c
  let breaks := passed.countP isBreak
  let (column, offset) := if breaks = 0 then (r.column, r.offset) else (0, 0)
  { r with
    rest
    line := r.line + breaks
    column := column + lastLine.length
    offset := offset + octetCount lastLine }

def emit (r : Reading) (token : Token) : Reading :=
  { r with tokens := r.tokens ++ [token] }

/-! ## Candidates for keys -/

/-- Gives up a candidate; one that is required must not be given up. -/
def giveUp? : Option KeyCandidate → Option (Option KeyCandidate)
  | some c => if c.isRequired then none else some none
  | none => some none

def giveUpCandidate? (r : Reading) : Option Reading := do
  return { r with candidate := ← giveUp? r.candidate }

/-- Whether the candidate can no longer be a key: it must end on its line and take at most
1024 octets. -/
def isTooFar (r : Reading) (c : KeyCandidate) : Bool :=
  c.line < r.line || c.offset + 1024 < r.offset

def checkCandidates? (r : Reading) : Option Reading := do
  let check (c : Option KeyCandidate) :=
    if c.any r.isTooFar then giveUp? c else some c
  return { r with candidate := ← check r.candidate, outer := ← r.outer.mapM check }

/-- Notes that the node that begins here may be a key. -/
def noteCandidate? (r : Reading) : Option Reading :=
  if r.keyAllowed then do
    let r ← r.giveUpCandidate?
    let candidate : KeyCandidate :=
      { place := r.tokens.length
        line := r.line
        column := r.column
        offset := r.offset
        isRequired := !r.inFlow && r.blocks.head? = some r.column }
    return { r with candidate := some candidate }
  else some r

/-! ## Indentation -/

/-- Closes the block collections that stand further in than a column. -/
def closeBlocks (r : Reading) (column : Nat) : Reading :=
  if r.inFlow then r
  else
    let closed := r.blocks.takeWhile fun block => column < block
    { r with
      blocks := r.blocks.drop closed.length
      tokens := r.tokens ++ closed.map fun _ => .blockEnd }

def closeAllBlocks (r : Reading) : Reading :=
  if r.inFlow then r
  else { r with blocks := [], tokens := r.tokens ++ r.blocks.map fun _ => .blockEnd }

/-- Opens a block collection at a column and a place among the tokens, if that column is
further in than the block around it. -/
def openBlock (r : Reading) (column place : Nat) (token : Token) : Reading :=
  if r.inFlow || (r.blocks.head?.any (column ≤ ·)) then r
  else
    { r with
      blocks := column :: r.blocks
      tokens := r.tokens.take place ++ token :: r.tokens.drop place }

/-! ## Tokens -/

/-- What follows blanks, comments, line breaks and byte order marks at the beginning of a
line, and whether a key may stand there.  A tab may not stand where a key may. -/
def skipGap (inFlow inComment lineStart keyAllowed : Bool) : List Char → List Char × Bool
  | [] => ([], keyAllowed)
  | c :: rest =>
    if isBreak c then skipGap inFlow false true (keyAllowed || !inFlow) rest
    else if inComment || c == ' ' || (c == '\t' && (inFlow || !keyAllowed))
        || (lineStart && isOrderMark c) then
      skipGap inFlow inComment false keyAllowed rest
    else if c == '#' then skipGap inFlow true false keyAllowed rest
    else (c :: rest, keyAllowed)

def toNextToken (r : Reading) : Reading :=
  let (rest, keyAllowed) := skipGap r.inFlow false (r.column = 0) r.keyAllowed r.rest
  { r.goTo rest with keyAllowed }

/-- A token of one character. -/
def take (r : Reading) (token : Token) : Reading :=
  (r.goTo (r.rest.drop 1)).emit token

/-- A token that stands between documents. -/
def documentToken? (r : Reading) (token : Token) (rest : List Char) : Option Reading := do
  let r ← r.closeAllBlocks.giveUpCandidate?
  return ({ r with keyAllowed := false }.goTo rest).emit token

def openFlow? (r : Reading) (token : Token) : Option Reading := do
  let r ← r.noteCandidate?
  return { r with
    candidate := none, outer := r.candidate :: r.outer, keyAllowed := true }.take token

def closeFlow? (r : Reading) (token : Token) : Option Reading := do
  let r ← r.giveUpCandidate?
  let r := match r.outer with
    | candidate :: outer => { r with candidate, outer }
    | [] => r
  return { r with keyAllowed := false }.take token

def flowEntry? (r : Reading) : Option Reading := do
  let r ← r.giveUpCandidate?
  return { r with keyAllowed := true }.take .flowEntry

/-- Opens a block collection at the indicator that stands here, where a key must be
allowed. -/
def openAtIndicator? (r : Reading) (token : Token) : Option Reading :=
  if r.inFlow then some r
  else if r.keyAllowed then some (r.openBlock r.column r.tokens.length token)
  else none

def blockEntry? (r : Reading) : Option Reading := do
  let r ← (← r.openAtIndicator? .blockSequenceStart).giveUpCandidate?
  return { r with keyAllowed := true }.take .blockEntry

def key? (r : Reading) : Option Reading := do
  let r ← (← r.openAtIndicator? .blockMappingStart).giveUpCandidate?
  return { r with keyAllowed := !r.inFlow }.take .key

/-- A colon: it makes the candidate a key, or else belongs to a key with an indicator. -/
def value? (r : Reading) : Option Reading := do
  match r.candidate with
  | some c =>
    let tokens := r.tokens.take c.place ++ Token.key :: r.tokens.drop c.place
    let r := { r with tokens, candidate := none, keyAllowed := false }
    return (r.openBlock c.column c.place .blockMappingStart).take .value
  | none =>
    let r ← r.openAtIndicator? .blockMappingStart
    return { r with keyAllowed := !r.inFlow }.take .value

/-- A token of a node that may be a key, and the text after it. -/
def nodeToken? (r : Reading) (found : Option (Token × List Char)) : Option Reading := do
  let r ← r.noteCandidate?
  let (token, rest) ← found
  return ({ r with keyAllowed := false }.goTo rest).emit token

def blockToken? (r : Reading) (folded : Bool) : Option Reading := do
  let r ← r.giveUpCandidate?
  let (text, rest) ← blockScalar? folded r.blocks.head? (r.rest.drop 1)
  return ({ r with keyAllowed := true }.goTo rest).emit (.scalar false text)

def plainToken? (r : Reading) : Option Reading := do
  let context : PlainContext :=
    { inFlow := r.inFlow, margin := (r.blocks.head?.map (· + 1)).getD 0 }
  let (pieces, rest, broken) ← plain? context .word r.column r.rest
  let r ← r.nodeToken? (some (.scalar true (fold (withoutLastGap pieces)), rest))
  return { r with keyAllowed := broken }

def quotedToken? (r : Reading) (found : Option (List Piece × List Char)) : Option Reading :=
  r.nodeToken? (found.map fun (pieces, rest) => (.scalar false (fold pieces), rest))

/-- Reads the token that begins with a character here. -/
def token? (r : Reading) (c : Char) (rest : List Char) : Option Reading :=
  if r.column = 0 && c == '%' then do
    let (directive, rest) ← Directive.read? rest
    r.documentToken? (.directive directive) rest
  else if r.column = 0 && startsWithMarker "---" r.rest then
    r.documentToken? .documentStart (rest.drop 2)
  else if r.column = 0 && startsWithMarker "..." r.rest then
    r.documentToken? .documentEnd (rest.drop 2)
  else
    match c with
    | '[' => r.openFlow? .flowSequenceStart
    | '\x7b' => r.openFlow? .flowMappingStart
    | ']' => r.closeFlow? .flowSequenceEnd
    | '\x7d' => r.closeFlow? .flowMappingEnd
    | ',' => r.flowEntry?
    | '-' => if endsWord rest then r.blockEntry? else r.plainToken?
    | '?' => if r.inFlow || endsWord rest then r.key? else r.plainToken?
    | ':' => if r.inFlow || endsWord rest then r.value? else r.plainToken?
    | '*' => r.nodeToken? ((anchorName? rest).map fun (name, rest) => (.reference name, rest))
    | '&' => r.nodeToken? ((anchorName? rest).map fun (name, rest) => (.anchor name, rest))
    | '!' =>
      r.nodeToken? ((TagName.read? r.inFlow rest).map fun (name, rest) => (.tag name, rest))
    | '|' => if r.inFlow then none else r.blockToken? false
    | '>' => if r.inFlow then none else r.blockToken? true
    | '\'' => r.quotedToken? (singleQuoted? false rest)
    | '"' => r.quotedToken? (doubleQuoted? false rest)
    | c => if "\t%@\x60".toList.contains c then none else r.plainToken?

/-- Reads tokens to the end of the text; every token takes a character. -/
def run? : Nat → Reading → Option Reading
  | 0, _ => none
  | fuel + 1, r => do
    let r ← r.toNextToken.checkCandidates?
    match r.rest with
    | [] => r.closeAllBlocks.giveUpCandidate?
    | c :: rest => run? fuel (← (r.closeBlocks r.column).token? c rest)

end Reading

/-- The tokens of a text. -/
def Token.ofText? (text : String) : Option (List Token) := do
  let chars ← characters? text
  let r ← Reading.run? (chars.length + 1) { rest := chars }
  return r.tokens

end StaticDispatch.Yaml
