/-
  From tokens to the nodes of a YAML text.

  An alias stands for the node that its anchor names, which may be one that the alias
  itself lies in.  So the nodes are the cells of a `Graph`, and a collection holds the
  numbers of its children.  An anchor is bound before the children of its node are read.

  The functions of the grammar take the tokens one by one, with one token of foresight.
  A round of a loop takes a token, so the number of tokens bounds it; `node` goes down by
  the nesting that is left, at most `depthLimit` at the root.
-/
import TraitCatalog.Yaml.Tag
import TraitCatalog.Yaml.TokenStream

namespace TraitCatalog.Yaml

open Text (lit)

/-- What a node holds; the numbers are those of cells. -/
inductive Content where
  | scalar (text : Text)
  | sequence (items : List Nat)
  | mapping (pairs : List (Nat × Nat))
  deriving DecidableEq, Repr

/-- A node. -/
structure Cell where
  tag : Tag
  content : Content
  deriving DecidableEq, Repr

/-- The nodes of a text. -/
abbrev Graph := Array Cell

/-- The number of collections that a node may lie in.  The number is nominal: it is the stack that is
    full then, so it differs by what is on the stack already.  The theorems hold for any number. -/
def depthLimit : Nat := 485

/-- Nodes being read. -/
structure Composer where
  tokens : List Token
  /-- What stands after the last token. -/
  fault : Fault
  /-- More than the number of all tokens, so that no loop over them has more rounds. -/
  bound : Nat
  cells : Graph
  anchors : List (Text × Nat)
  /-- What the handles of tags stand for. -/
  handles : List (Text × Text)

/-- Work on the tokens that are left. -/
abbrev Compose := StateT Composer (Except Fault)

namespace Compose

/-! ## Tokens and cells -/

/-- The next token. -/
def peek : Compose Token := do
  let s ← get
  match s.tokens with
  | t :: _ => return t
  | [] => throw s.fault

/-- Passes the next token. -/
def advance : Compose Unit :=
  modify fun s => { s with tokens := s.tokens.tail }

/-- Passes the next token if it is `t`, and says whether it was. -/
def accept (t : Token) : Compose Bool := do
  if (← peek) = t then
    advance
    return true
  return false

/-- Passes the token `t`, which has to come next. -/
def expect (t : Token) : Compose Unit := do
  unless ← accept t do throw .invalid

/-- Adds a cell. -/
def addCell (c : Cell) : Compose Nat :=
  modifyGet fun s => (s.cells.size, { s with cells := s.cells.push c })

/-- Names a cell, unless the name is taken. -/
def bindAnchor (anchor? : Option Text) (i : Nat) : Compose Unit := do
  if let some name := anchor? then
    let s ← get
    if s.anchors.any (·.1 = name) then throw .invalid
    set { s with anchors := (name, i) :: s.anchors }

/-- The cell that a name stands for. -/
def findAnchor (name : Text) : Compose Nat := do
  match (← get).anchors.find? (·.1 = name) with
  | some (_, i) => return i
  | none => throw .invalid

/-- A node without content. -/
def emptyScalar : Compose Nat :=
  addCell ⟨.null, .scalar []⟩

/-- A scalar. -/
def scalar (anchor? : Option Text) (tag : Tag) (t : Text) : Compose Nat := do
  let i ← addCell ⟨tag, .scalar t⟩
  bindAnchor anchor? i
  return i

/-- A collection whose children `children` reads. -/
def collection (anchor? : Option Text) (tag : Tag) (children : Compose Content) : Compose Nat := do
  let i ← addCell ⟨tag, .sequence []⟩
  bindAnchor anchor? i
  let content ← children
  modify fun s => { s with cells := s.cells.setIfInBounds i ⟨tag, content⟩ }
  return i

/-! ## Properties -/

/-- The tag of a node: none, `!` alone, or a full name. -/
inductive GivenTag where
  | none
  | plain
  | named (tag : Tag)
  deriving DecidableEq, Repr

/-- The tag that a token stands for. -/
def givenTag (handle? : Option Text) (suffix : Text) : Compose GivenTag := do
  let name ← match handle? with
    | some handle =>
      match (← get).handles.find? (·.1 = handle) with
      | some (_, lead) => pure (lead ++ suffix)
      | none => throw .invalid
    | none => pure suffix
  return if name = lit "!" then .plain else .named (.ofName name)

/-- The anchor and the tag of a node, in either order. -/
def properties : Compose (Option Text × GivenTag) := do
  match ← peek with
  | .anchor name =>
    advance
    match ← peek with
    | .tag handle? suffix =>
      advance
      return (some name, ← givenTag handle? suffix)
    | _ => return (some name, .none)
  | .tag handle? suffix =>
    advance
    match ← peek with
    | .anchor name =>
      advance
      return (some name, ← givenTag handle? suffix)
    | _ => return (none, ← givenTag handle? suffix)
  | _ => return (none, .none)

/-- The tag of a scalar. -/
def scalarTag (given : GivenTag) (plain : Bool) (t : Text) : Tag :=
  match given with
  | .named tag => tag
  | .plain => .ofPlain t
  | .none => if plain then .ofPlain t else .text

/-- The tag of a collection that is `usual` where nothing is said. -/
def collectionTag (given : GivenTag) (usual : Tag) : Tag :=
  match given with
  | .named tag => tag
  | .plain | .none => usual

/-! ## The grammar -/

/-- Where a node stands: inside brackets, in a block, or as key or value of a block mapping,
    where a sequence need not be indented. -/
inductive Position where
  | flow
  | block
  | entry
  deriving DecidableEq, Repr

/-- Reads the children of a collection, by where they stand. -/
abbrev Child := Position → Compose Nat

/-- A child, or a node without content where a token of `stops` comes next. -/
def childBefore (child : Child) (stops : List Token) (position : Position) : Compose Nat := do
  if stops.contains (← peek) then emptyScalar else child position

/-- The value of a pair, after its sign; a pair without the sign has an empty value. -/
def pairValue (child : Child) (stops : List Token) (position : Position) : Compose Nat := do
  if ← accept .value then childBefore child stops position else emptyScalar

/-- The items of an indented block sequence. -/
def blockItems (child : Child) : (n : Nat) → Compose (List Nat)
  | 0 => throw .invalid
  | n + 1 => do
    if ← accept .item then
      let i ← childBefore child [.item, .blockEnd] .block
      return i :: (← blockItems child n)
    expect .blockEnd
    return []

/-- The items of a sequence that stands at the indentation of its mapping. -/
def flushItems (child : Child) : (n : Nat) → Compose (List Nat)
  | 0 => throw .invalid
  | n + 1 => do
    if ← accept .item then
      let i ← childBefore child [.item, .key, .value, .blockEnd] .block
      return i :: (← flushItems child n)
    return []

/-- The pairs of a block mapping. -/
def blockPairs (child : Child) : (n : Nat) → Compose (List (Nat × Nat))
  | 0 => throw .invalid
  | n + 1 => do
    if ← accept .key then
      let stops := [Token.key, .value, .blockEnd]
      let k ← childBefore child stops .entry
      let v ← pairValue child stops .entry
      return (k, v) :: (← blockPairs child n)
    expect .blockEnd
    return []

/-- An item of a sequence in brackets.  A pair without brackets of its own is a mapping, whose
    key and value `grandchild` reads. -/
def flowItem (child grandchild : Child) : Compose Nat := do
  if ← accept .key then
    let stops := [Token.comma, .closeSequence]
    collection none .mapping do
      let k ← childBefore grandchild (.value :: stops) .flow
      let v ← pairValue grandchild stops .flow
      return .mapping [(k, v)]
  else child .flow

/-- The items of a sequence in brackets. -/
def flowItems (child grandchild : Child) (first : Bool) : (n : Nat) → Compose (List Nat)
  | 0 => throw .invalid
  | n + 1 => do
    if ← accept .closeSequence then return []
    unless first do expect .comma
    if ← accept .closeSequence then return []
    let i ← flowItem child grandchild
    return i :: (← flowItems child grandchild false n)

/-- A pair of a mapping in brackets. -/
def flowPair (child : Child) : Compose (Nat × Nat) := do
  if ← accept .key then
    let stops := [Token.comma, .closeMapping]
    let k ← childBefore child (.value :: stops) .flow
    return (k, ← pairValue child stops .flow)
  else
    let k ← child .flow
    return (k, ← emptyScalar)

/-- The pairs of a mapping in brackets. -/
def flowPairs (child : Child) (first : Bool) : (n : Nat) → Compose (List (Nat × Nat))
  | 0 => throw .invalid
  | n + 1 => do
    if ← accept .closeMapping then return []
    unless first do expect .comma
    if ← accept .closeMapping then return []
    let p ← flowPair child
    return p :: (← flowPairs child false n)

/-- A node whose children `child` reads, and `grandchild` those that lie one level deeper. -/
def nodeWith (child grandchild : Child) (position : Position) : Compose Nat := do
  if let .alias name ← peek then
    advance
    return ← findAnchor name
  let (anchor?, given) ← properties
  let rounds := (← get).bound
  let sequence (items : Nat → Compose (List Nat)) : Compose Nat :=
    collection anchor? (collectionTag given .sequence) (do return .sequence (← items rounds))
  let mapping (pairs : Nat → Compose (List (Nat × Nat))) : Compose Nat :=
    collection anchor? (collectionTag given .mapping) (do return .mapping (← pairs rounds))
  match ← peek with
  | .scalar plain t =>
    advance
    scalar anchor? (scalarTag given plain t) t
  | .openSequence =>
    advance
    sequence (flowItems child grandchild true)
  | .openMapping =>
    advance
    mapping (flowPairs child true)
  | token =>
    if position = .entry && token = .item then sequence (flushItems child)
    else if position ≠ .flow && token = .blockSequence then
      advance
      sequence (blockItems child)
    else if position ≠ .flow && token = .blockMapping then
      advance
      mapping (blockPairs child)
    else if anchor?.isSome || given ≠ .none then scalar anchor? (scalarTag given true []) []
    else throw .invalid

/-- A node, in which collections may be nested `room` deep. -/
def node : (room : Nat) → Child
  | 0, _ => throw .tooDeep
  | 1, position => nodeWith (fun _ => throw .tooDeep) (fun _ => throw .tooDeep) position
  | room + 2, position => nodeWith (node (room + 1)) (node room) position

/-! ## Documents -/

/-- The handles that every document has. -/
def usualHandles : List (Text × Text) :=
  [(lit "!", lit "!"), (lit "!!", Tag.lead)]

/-- The directives of a document: at most one version, which starts with 1, and handles of
    tags, each given once. -/
def directives (versioned : Bool) (handles : List (Text × Text)) :
    (n : Nat) → Compose (List (Text × Text))
  | 0 => throw .invalid
  | n + 1 => do
    match ← peek with
    | .version major _ =>
      advance
      if versioned || major ≠ 1 then throw .invalid
      directives true handles n
    | .tagHandle handle lead =>
      advance
      if handles.any (·.1 = handle) then throw .invalid
      directives versioned ((handle, lead) :: handles) n
    | .directive =>
      advance
      directives versioned handles n
    | _ => return handles

/-- Passes the start of a document that is marked as such. -/
def documentStart (n : Nat) : Compose Unit := do
  let handles ← directives false [] n
  expect .documentStart
  modify fun s => { s with handles := handles ++ usualHandles }

/-- Passes the ends of documents. -/
def documentEnds : (n : Nat) → Compose Unit
  | 0 => throw .invalid
  | n + 1 => do if ← accept .documentEnd then documentEnds n

/-- A token that directives or markers begin or end with. -/
def isBoundary : Token → Bool
  | .version _ _ | .tagHandle _ _ | .directive | .documentStart | .streamEnd => true
  | _ => false

/-- The root of the only document; none if there is no document. -/
def document (n : Nat) : Compose (Option Nat) := do
  if (← peek) = .streamEnd then return none
  let root ←
    if isBoundary (← peek) then do
      documentStart n
      let token ← peek
      if isBoundary token || token = .documentEnd then emptyScalar else node depthLimit .block
    else node depthLimit .block
  documentEnds n
  unless (← peek) = .streamEnd do
    documentStart n
    throw .invalid
  return some root

end Compose

/-- The nodes of a text and the root of its document, if it has one. -/
def Graph.ofText (t : Text) : Except Fault (Graph × Option Nat) := do
  let (tokens, fault?) := tokenize t
  let bound := tokens.length + 1
  let s : Composer := ⟨tokens, fault?.getD .invalid, bound, #[], [], Compose.usualHandles⟩
  let (root?, s) ← (Compose.document bound).run s
  return (s.cells, root?)

end TraitCatalog.Yaml
