import StaticDispatch.OrderedMap
import StaticDispatch.Yaml.Token

/-!
# Nodes

A text as a tree of scalars, sequences and mappings.  Anchors are numbers in
the tree, and a reference stands for the last node with its number.  The tags
of collections are checked and not kept.
-/

namespace StaticDispatch.Yaml

inductive Node where
  /-- The tag is given by its octets. -/
  | scalar (tag : Option (List UInt8)) (isPlain : Bool) (text : String)
  | sequence (items : List Node)
  | mapping (entries : List (Node × Node))
  | anchored (number : Nat) (node : Node)
  | reference (number : Nat)

/-- The node that stands where nothing is written. -/
def Node.empty : Node := .scalar none true ""

/-! ## References -/

mutual

/-- The last node with this number, in the order in which nodes begin. -/
def Node.lastAnchored? (number : Nat) : Node → Option Node
  | .scalar _ _ _ => none
  | .sequence items => Node.lastAnchoredItem? number items
  | .mapping entries => Node.lastAnchoredEntry? number entries
  | .anchored own node =>
    (node.lastAnchored? number).or (if own = number then some node else none)
  | .reference _ => none

def Node.lastAnchoredItem? (number : Nat) : List Node → Option Node
  | [] => none
  | item :: rest => (Node.lastAnchoredItem? number rest).or (item.lastAnchored? number)

def Node.lastAnchoredEntry? (number : Nat) : List (Node × Node) → Option Node
  | [] => none
  | (key, value) :: rest =>
    (Node.lastAnchoredEntry? number rest).or
      ((value.lastAnchored? number).or (key.lastAnchored? number))

end

/-- What a node within a root stands for, without its anchor. -/
def Node.target? (root : Node) : Node → Option Node
  | .reference number => root.lastAnchored? number
  | .anchored _ node => some node
  | node => some node

/-- The tokens to come, the numbers of the anchors, and what the handles of tags stand
for. -/
structure NodeState where
  tokens : List Token
  anchors : OrderedMap Nat := {}
  handles : OrderedMap (List UInt8) := {}

abbrev NodeM := StateT NodeState Option

namespace Node

def peek? : NodeM (Option Token) := do
  return (← get).tokens.head?

def skip : NodeM Unit :=
  modify fun s => { s with tokens := s.tokens.drop 1 }

/-- Skips a token if it is there, and tells whether it was. -/
def skipIf (token : Token) : NodeM Bool := do
  if (← peek?) = some token then
    skip
    return true
  else return false

def expect (token : Token) : NodeM Unit := do
  if !(← skipIf token) then failure

/-- Whether the next token is one of these, or there is none. -/
def isBefore (tokens : List Token) : NodeM Bool := do
  return (← peek?).all tokens.contains

/-! ## Anchors and tags -/

/-- The tag with what its handle stands for. -/
def fullTag (name : TagName) : NodeM (List UInt8) := do
  if name.handle.isEmpty then return name.suffix
  else
    match (← get).handles.get? name.handle with
    | some start => return start ++ name.suffix
    | none => failure

/-- The anchor and the tag before a node, in either order. -/
def properties : NodeM (Option String × Option TagName) := do
  match ← peek? with
  | some (.anchor name) =>
    skip
    match ← peek? with
    | some (.tag tag) =>
      skip
      return (some name, some tag)
    | _ => return (some name, none)
  | some (.tag tag) =>
    skip
    match ← peek? with
    | some (.anchor name) =>
      skip
      return (some name, some tag)
    | _ => return (none, some tag)
  | _ => return (none, none)

/-- Reads a node after its anchor.  The number of an anchor is the count of names so far;
so an anchor with a name that came before shares its number with the next new one. -/
def withAnchor (anchor : Option String) (content : NodeM Node) : NodeM Node := do
  match anchor with
  | some name =>
    let number := (← get).anchors.size
    modify fun s => { s with anchors := s.anchors.insert name number }
    return .anchored number (← content)
  | none => content

/-- The number of an anchor that came before. -/
def referenceTo (name : String) : NodeM Node := do
  return .reference (← (← get).anchors.get? name)

/-! ## Nodes -/

/-- The rules for what may stand at a place. -/
structure Place where
  /-- Whether block collections may stand here. -/
  inBlock : Bool
  /-- Whether the entries of a sequence may stand here as far out as the mapping around. -/
  entriesAllowed : Bool

def Place.block : Place := { inBlock := true, entriesAllowed := false }

def Place.blockEntry : Place := { inBlock := true, entriesAllowed := true }

def Place.flow : Place := { inBlock := false, entriesAllowed := false }

mutual

def read (place : Place) : Nat → NodeM Node
  | 0 => failure
  | fuel + 1 => do
    if let some (.reference name) ← peek? then
      skip
      referenceTo name
    else
      let (anchor, name) ← properties
      let tag ← name.mapM fullTag
      withAnchor anchor (do
        match ← peek? with
        | some (.scalar isPlain text) =>
          skip
          return .scalar tag isPlain text
        | some .flowSequenceStart =>
          skip
          return .sequence (← flowItems true fuel)
        | some .flowMappingStart =>
          skip
          return .mapping (← flowEntries true fuel)
        | next =>
          if place.entriesAllowed && next = some .blockEntry then
            return .sequence (← entriesBeside fuel)
          else if place.inBlock && next = some .blockSequenceStart then
            skip
            return .sequence (← blockItems fuel)
          else if place.inBlock && next = some .blockMappingStart then
            skip
            return .mapping (← blockEntries fuel)
          else if anchor.isSome || tag.isSome then return .scalar tag true ""
          else failure)

/-- Reads a node unless one of these tokens or nothing comes next. -/
def readUnless (place : Place) (ends : List Token) : Nat → NodeM Node
  | 0 => failure
  | fuel + 1 => do
    if ← isBefore ends then return .empty else read place fuel

/-- The items of a block sequence, up to its end. -/
def blockItems : Nat → NodeM (List Node)
  | 0 => failure
  | fuel + 1 => do
    if ← skipIf .blockEnd then return []
    expect .blockEntry
    let item ← readUnless .block [.blockEntry, .blockEnd] fuel
    return item :: (← blockItems fuel)

/-- The items of a block sequence that stands as far out as the mapping around it. -/
def entriesBeside : Nat → NodeM (List Node)
  | 0 => failure
  | fuel + 1 => do
    if ← skipIf .blockEntry then
      let item ← readUnless .block [.blockEntry, .key, .value, .blockEnd] fuel
      return item :: (← entriesBeside fuel)
    else return []

/-- The entries of a block mapping, up to its end. -/
def blockEntries : Nat → NodeM (List (Node × Node))
  | 0 => failure
  | fuel + 1 => do
    if ← skipIf .blockEnd then return []
    expect .key
    let key ← readUnless .blockEntry [.key, .value, .blockEnd] fuel
    let value ← valueUnless .blockEntry [.key, .value, .blockEnd] fuel
    return (key, value) :: (← blockEntries fuel)

/-- The value after a key; one that is not written is empty. -/
def valueUnless (place : Place) (ends : List Token) : Nat → NodeM Node
  | 0 => failure
  | fuel + 1 => do
    if ← skipIf .value then readUnless place ends fuel else return .empty

/-- The key after its sign in a flow sequence.  Where no key is written, the sign that
comes next is passed over. -/
def keyOfItem : Nat → NodeM Node
  | 0 => failure
  | fuel + 1 => do
    match ← peek? with
    | some .value | some .flowEntry | some .flowSequenceEnd =>
      skip
      return .empty
    | _ => read .flow fuel

/-- The items of a flow sequence, up to its end.  An item with a key is a mapping with one
entry. -/
def flowItems (first : Bool) : Nat → NodeM (List Node)
  | 0 => failure
  | fuel + 1 => do
    if ← skipIf .flowSequenceEnd then return []
    if !first then expect .flowEntry
    if ← skipIf .key then
      let key ← keyOfItem fuel
      let value ← valueUnless .flow [.flowEntry, .flowSequenceEnd] fuel
      return .mapping [(key, value)] :: (← flowItems false fuel)
    else if ← skipIf .flowSequenceEnd then return []
    else
      let item ← read .flow fuel
      return item :: (← flowItems false fuel)

/-- The entries of a flow mapping, up to its end. -/
def flowEntries (first : Bool) : Nat → NodeM (List (Node × Node))
  | 0 => failure
  | fuel + 1 => do
    if ← skipIf .flowMappingEnd then return []
    if !first then expect .flowEntry
    if ← skipIf .key then
      let key ← readUnless .flow [.value, .flowEntry, .flowMappingEnd] fuel
      let value ← valueUnless .flow [.flowEntry, .flowMappingEnd] fuel
      return (key, value) :: (← flowEntries false fuel)
    else if ← skipIf .flowMappingEnd then return []
    else
      let key ← read .flow fuel
      return (key, .empty) :: (← flowEntries false fuel)

end

/-! ## Documents -/

def standardHandles : List (String × List UInt8) :=
  [("!", [tagMark]), ("!!", "tag:yaml.org,2002:".toList.map Char.toUInt8)]

/-- Reads the directives of a document; each may stand once, and the version must be
known. -/
def directives (hasVersion : Bool) (handles : OrderedMap (List UInt8)) :
    List Token → Option (OrderedMap (List UInt8) × List Token)
  | .directive (.version major minor) :: rest =>
    if hasVersion || major != 1 || (minor != 1 && minor != 2) then none
    else directives true handles rest
  | .directive (.tag handle start) :: rest =>
    if handles.contains handle then none
    else directives hasVersion (handles.insert handle start) rest
  | rest => some (handles, rest)

/-- The handles with the standard ones, where they have no other meaning. -/
def withStandardHandles (handles : OrderedMap (List UInt8)) : OrderedMap (List UInt8) :=
  standardHandles.foldl
    (fun all entry => if all.contains entry.1 then all else all.insert entry.1 entry.2) handles

/-- Whether nothing but ends of documents follows. -/
def isEnd (tokens : List Token) : Bool :=
  tokens.all (· = .documentEnd)

/-- Whether a document that has been announced holds nothing. -/
def isDocumentEmpty : List Token → Bool
  | [] => true
  | .directive _ :: _ => true
  | .documentStart :: _ => true
  | .documentEnd :: _ => true
  | _ => false

/-- The root of the only document of a text; a text without content has no document. -/
def ofTokens? (tokens : List Token) : Option (Option Node) := do
  if tokens.isEmpty then return none
  let (handles, rest) ← directives false {} tokens
  let rest ← match rest with
    | .documentStart :: rest => some rest
    | rest => if rest.length = tokens.length then some rest else none
  if rest.length < tokens.length && isDocumentEmpty rest then
    if isEnd rest then return some .empty else none
  else
    let start : NodeState := { tokens := rest, handles := withStandardHandles handles }
    let (root, final) ← (read .block (4 * rest.length + 4)).run start
    if isEnd final.tokens then return some root else none

def ofText? (text : String) : Option (Option Node) :=
  (Token.ofText? text).bind ofTokens?

end Node

end StaticDispatch.Yaml
