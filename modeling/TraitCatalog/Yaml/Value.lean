/-
  The value of a YAML text.

  `load` reads the one document of a text.  The value of a scalar is found when the
  collection around it is built; collections are built in the order in which they are met,
  so the first fault in this order is the one reported.

  * `flatten` puts the pairs of merged mappings in front of a mapping's own;
  * a mapping keeps its pairs in order, and of two pairs with one key the later counts
    (`Value.field?`);
  * nodes may contain themselves, so a value shows collections down to a given depth, and
    empty ones below.
-/
import TraitCatalog.Yaml.Base64
import TraitCatalog.Yaml.Graph

namespace TraitCatalog.Yaml

open Text (lit)

/-! ## Values -/

/-- A value. -/
inductive Value where
  | null
  | truth (b : Bool)
  | integer (n : Int)
  | real (r : RealNumber)
  | text (t : Text)
  | bytes (bs : List UInt8)
  /-- A date, with or without a time of day. -/
  | moment (m : MomentFields)
  | list (items : List Value)
  | mapping (pairs : List (Value × Value))

namespace Value

/-- The key of a pair is the text `name`. -/
def hasKey (name : Text) : Value × Value → Bool
  | (text t, _) => t = name
  | _ => false

/-- The value at the key `name` among some pairs. -/
def field? (pairs : List (Value × Value)) (name : Text) : Option Value :=
  (pairs.reverse.find? (hasKey name)).map (·.2)

end Value

/-! ## Building -/

/-- A value that has been met: a scalar, or the collection at a cell. -/
inductive Part where
  | leaf (v : Value)
  | node (i : Nat)

/-- The contents of a collection. -/
inductive Filling where
  | list (items : List Part)
  /-- A list whose items are pairs. -/
  | pairList (pairs : List (Part × Part))
  | mapping (pairs : List (Part × Part))

/-- A pair with a merge key. -/
def Graph.isMerge (g : Graph) (p : Nat × Nat) : Bool :=
  g[p.1]?.any (·.tag = .merge)

/-- The pairs at a cell; none if it holds no mapping. -/
def Graph.pairs (g : Graph) (i : Nat) : List (Nat × Nat) :=
  match g[i]? with
  | some ⟨_, .mapping pairs⟩ => pairs
  | _ => []

/-- The number of pairs with a merge key. -/
def Graph.mergeCount (g : Graph) : Nat :=
  ((List.range g.size).flatMap fun i => (g.pairs i).filter g.isMerge).length

/-- Values being built. -/
structure Builder where
  cells : Graph
  /-- More than the number of pairs with a merge key, so that no loop over them has more
      rounds. -/
  bound : Nat
  /-- The collections that have been met, the latest first. -/
  met : List Nat
  /-- The collections that have been met and are not built yet, in order. -/
  waiting : List Nat
  built : List (Nat × Filling)

/-- Work on values. -/
abbrev Build := StateT Builder (Except Fault)

namespace Build

/-- The node at a cell. -/
def cell (i : Nat) : Build Cell := do
  match (← get).cells[i]? with
  | some c => return c
  | none => throw .invalid

/-- Changes the node at a cell. -/
def setCell (i : Nat) (c : Cell) : Build Unit :=
  modify fun s => { s with cells := s.cells.setIfInBounds i c }

/-- The pairs of a mapping. -/
def pairsAt (i : Nat) : Build (List (Nat × Nat)) := do
  match (← cell i).content with
  | .mapping pairs => return pairs
  | _ => throw .invalid

/-- Changes the pairs of a mapping. -/
def setPairs (i : Nat) (pairs : List (Nat × Nat)) : Build Unit := do
  setCell i { ← cell i with content := .mapping pairs }

/-! ## Scalars -/

/-- The bound on nesting where one node leads to the next.  The number is nominal: it is the stack that
    is full then, so it differs by what is on the stack already.  The theorems hold for any number. -/
def chainLimit : Nat := 970

/-- The text of a scalar; that of a mapping is the text at its key `=`. -/
def scalarText : (n : Nat) → (i : Nat) → Build Text
  | 0, _ => throw .tooDeep
  | n + 1, i => do
    match (← cell i).content with
    | .scalar t => return t
    | .sequence _ => throw .invalid
    | .mapping pairs =>
      match ← pairs.findM? fun p => do return (← cell p.1).tag = .default with
      | some (_, v) => scalarText n v
      | none => throw .invalid

/-- The value of a word for a truth value, in any case. -/
def truthOf (t : Text) : Except Fault Bool :=
  let word := t.lower
  if ["yes", "true", "on"].any (lit · = word) then .ok true
  else if ["no", "false", "off"].any (lit · = word) then .ok false
  else .error (.unknownTruth word)

/-- The bytes of a scalar in base 64. -/
def bytesOf (t : Text) : Except Fault (List UInt8) :=
  if t.all (·.toNat < 0x80) then
    match Base64.decode? t with
    | some bs => .ok bs
    | none => .error .invalid
  else .error .invalid

/-- The date of a scalar. -/
def momentOf (t : Text) : Except Fault MomentFields := do
  match MomentFields.parse? t with
  | none => throw .notMoment
  | some m =>
    m.check
    return m

/-- The value of a scalar, given its text. -/
def scalarValue (tag : Tag) (content : Content) (t : Text) : Except Fault Value :=
  match tag with
  | .null => .ok .null
  | .truth => .truth <$> truthOf t
  | .integer => .integer <$> readInteger t
  | .real => .real <$> readReal t
  | .text => .ok (.text t)
  | .bytes => .bytes <$> bytesOf t
  | .moment =>
    match content with
    | .scalar t => .moment <$> momentOf t
    | _ => .error .momentOfCollection
  | _ => .error .invalid

/-- The value at a cell.  A collection is only met, and waits to be built. -/
def part (i : Nat) : Build Part := do
  let c ← cell i
  match c.tag with
  | .sequence | .mapping | .set | .orderedMapping | .pairs =>
    modify fun s =>
      if s.met.contains i then s else { s with met := i :: s.met, waiting := s.waiting ++ [i] }
    return .node i
  | .merge | .default | .unknown => throw .invalid
  | tag => return .leaf (← scalarValue tag c.content (← scalarText chainLimit i))

/-! ## Merging -/

/-- The pairs that a merge key brings in, given how a mapping is flattened.  Of several
    mappings the earlier ones count more, so they come later. -/
def mergedPairs (flatten : Nat → Build Unit) (i : Nat) : Build (List (Nat × Nat)) := do
  match (← cell i).content with
  | .mapping _ =>
    flatten i
    pairsAt i
  | .sequence items =>
    let lists ← items.mapM fun j => do
      let _ ← pairsAt j
      flatten j
      pairsAt j
    return lists.reverse.flatten
  | .scalar _ => throw .invalid

/-- The first merge key among pairs of which the first stands at `index`: its place and its
    value.  In front of it `=` becomes an ordinary text. -/
def nextMerge : (index : Nat) → (pairs : List (Nat × Nat)) → Build (Option (Nat × Nat))
  | _, [] => return none
  | index, (k, v) :: pairs => do
    let key ← cell k
    if key.tag = .merge then return some (index, v)
    if key.tag = .default then setCell k { key with tag := .text }
    nextMerge (index + 1) pairs

/-- Goes over the pairs of a mapping from the one at `index`: takes merge keys out and
    collects what they bring in. -/
def flattenFrom (flatten : Nat → Build Unit) (i : Nat) :
    (n index : Nat) → (merged : List (Nat × Nat)) → Build (List (Nat × Nat))
  | 0, _, _ => throw .invalid
  | n + 1, index, merged => do
    let pairs ← pairsAt i
    match ← nextMerge index (pairs.drop index) with
    | none => return merged
    | some (index, v) =>
      setPairs i (pairs.eraseIdx index)
      let more ← mergedPairs flatten v
      flattenFrom flatten i n index (merged ++ more)

/-- Resolves the merge keys of a mapping. -/
def flatten : (n : Nat) → (i : Nat) → Build Unit
  | 0, _ => throw .tooDeep
  | n + 1, i => do
    let merged ← flattenFrom (flatten n) i (← get).bound 0 []
    unless merged.isEmpty do setPairs i (merged ++ (← pairsAt i))

/-! ## Collections -/

/-- A pair of a mapping, whose key has to be a scalar. -/
def mappingPair (p : Nat × Nat) : Build (Part × Part) := do
  match ← part p.1 with
  | .node _ => throw .invalid
  | key => return (key, ← part p.2)

/-- The only pair of a mapping in a list of pairs. -/
def singlePair (i : Nat) : Build (Part × Part) := do
  match ← pairsAt i with
  | [(k, v)] =>
    let key ← part k
    return (key, ← part v)
  | _ => throw .invalid

/-- The items of a sequence. -/
def itemsAt (i : Nat) : Build (List Nat) := do
  match (← cell i).content with
  | .sequence items => return items
  | _ => throw .invalid

/-- The contents of a collection. -/
def filling (i : Nat) : Build Filling := do
  match (← cell i).tag with
  | .sequence => return .list (← (← itemsAt i).mapM part)
  | .orderedMapping | .pairs => return .pairList (← (← itemsAt i).mapM singlePair)
  | tag =>
    let _ ← pairsAt i
    flatten chainLimit i
    let pairs ← (← pairsAt i).mapM mappingPair
    return if tag = .set then .list (pairs.map (·.1)) else .mapping pairs

/-- Builds the collections that wait, in order. -/
def all : (n : Nat) → Build Unit
  | 0 => return
  | n + 1 => do
    match (← get).waiting with
    | [] => return
    | i :: is =>
      modify fun s => { s with waiting := is }
      let f ← filling i
      modify fun s => { s with built := (i, f) :: s.built }
      all n

end Build

/-! ## Values of texts -/

/-- The value of a part, with collections down to a depth. -/
def Value.ofPart (built : List (Nat × Filling)) : (depth : Nat) → Part → Value
  | _, .leaf v => v
  | 0, .node i =>
    match built.lookup i with
    | some (.mapping _) => .mapping []
    | _ => .list []
  | depth + 1, .node i =>
    let inside := ofPart built depth
    match built.lookup i with
    | some (.list items) => .list (items.map inside)
    | some (.pairList pairs) => .list (pairs.map fun (k, v) => .list [inside k, inside v])
    | some (.mapping pairs) => .mapping (pairs.map fun (k, v) => (inside k, inside v))
    | none => .list []

/-- The value of the one document of a text, with collections down to a depth.  A text
    without a document has the value null. -/
def load (depth : Nat) (t : Text) : Except Fault Value := do
  let (cells, root?) ← Graph.ofText t
  match root? with
  | none => return .null
  | some root =>
    let work : Build Part := do
      let p ← Build.part root
      Build.all (cells.size + 1)
      return p
    let (p, s) ← work.run ⟨cells, cells.mergeCount + 1, [], [], []⟩
    return .ofPart s.built depth p

end TraitCatalog.Yaml
