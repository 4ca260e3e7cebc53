/-
  File name patterns.

  A pattern has parts between slashes.  The part `**` stands for this folder and all
  folders below it, entered without following links; a part with `*`, `?` or `[` is a
  wildcard for one name; any other part, `..` included, is a name.

  * `Wildcard.parse` reads a wildcard; a bracket that is not closed stands for itself,
    and a range whose ends are in the wrong order holds nothing;
  * `Pattern.parse` reads a pattern and refuses those that cannot be used;
  * `Pattern.select` gives the paths that a pattern selects below a path.  Every part but
    the last must lead to a folder.  Where a folder has to be looked into whose path is too
    long, or folders lie inside each other too deeply, nothing is selected at all.
-/
import TraitCatalog.Files.Tree

namespace TraitCatalog

open Text (lit)

/-! ## Wildcards -/

/-- What one place in a wildcard admits. -/
inductive Glyph where
  | exactly (c : CodePoint)
  | anyOne
  /-- A code point in one of the ranges, or in none of them. -/
  | among (negated : Bool) (ranges : List (Nat × Nat))
  /-- Any number of code points. -/
  | anyRun
  deriving DecidableEq, Repr

/-- A pattern for one name. -/
abbrev Wildcard := List Glyph

namespace Wildcard

/-- A text and all that remains of it when code points are taken off its front. -/
def suffixes : Text → List Text
  | [] => [[]]
  | c :: t => (c :: t) :: suffixes t

/-- One code point is admitted. -/
def admits (c : CodePoint) : Glyph → Bool
  | .exactly d => c == d
  | .anyOne | .anyRun => true
  | .among negated ranges => (ranges.any fun (lo, hi) => lo ≤ c.toNat && c.toNat ≤ hi) != negated

/-- A whole name is admitted. -/
def isMatch : Wildcard → Text → Bool
  | [], t => t.isEmpty
  | .anyRun :: gs, t => (suffixes t).any fun s => isMatch gs s
  | g :: gs, c :: t => admits c g && isMatch gs t
  | _ :: _, [] => false

/-- What stands between a bracket and the one that closes it, and what follows.  A closing
    bracket right at the front, or right after `!`, does not close. -/
def bracketed? (t : Text) : Option (Text × Text) :=
  let bang := if t.startsWith (lit "!") then 1 else 0
  let lead := if Text.startsWith (t.drop bang) (lit "]") then bang + 1 else bang
  let inside := (t.drop lead).takeWhile (· != .scalar ']')
  match t.drop (lead + inside.length) with
  | _ :: rest => some (t.take lead ++ inside, rest)
  | [] => none

/-- Cuts at the hyphens that make ranges: a hyphen counts from the place `skip` on, and
    after it again from the third place. -/
def chunks : (n skip : Nat) → Text → List Text
  | 0, _, t => [t]
  | n + 1, skip, t =>
    let before := t.take skip ++ (t.drop skip).takeWhile (· != .scalar '-')
    match t.drop before.length with
    | _ :: rest => before :: chunks n 2 rest
    | [] => [t]

/-- A hyphen at the very end makes no range. -/
def closeChunks (cs : List Text) : List Text :=
  match cs.reverse with
  | [] :: c :: rest => ((c ++ lit "-") :: rest).reverse
  | _ => cs

/-- Joins chunks whose range would be in the wrong order, dropping its ends. -/
def dropEmptyRanges : List Text → List Text
  | [] => []
  | c :: cs =>
    match dropEmptyRanges cs with
    | d :: ds =>
      if (c.getLast?.map CodePoint.toNat).getD 0 > (d.head?.map CodePoint.toNat).getD 0 then
        (c.dropLast ++ d.tail) :: ds
      else c :: d :: ds
    | [] => [c]

/-- Single code points as ranges. -/
def singles (t : Text) : List (Nat × Nat) :=
  t.map fun c => (c.toNat, c.toNat)

/-- The ranges of chunks: one from the end of each to the start of the next, and the other
    code points by themselves. -/
def chunkRanges (cur : Text) : List Text → List (Nat × Nat)
  | [] => singles cur
  | d :: ds =>
    singles cur.dropLast ++
      ((cur.getLast?.map CodePoint.toNat).getD 0, (d.head?.map CodePoint.toNat).getD 0) ::
        chunkRanges d.tail ds

/-- The glyph of a bracket with the given inside. -/
def bracketGlyph (inside : Text) : Glyph :=
  let cs :=
    if inside.contains (.scalar '-') then
      dropEmptyRanges (closeChunks
        (chunks inside.length (if inside.startsWith (lit "!") then 2 else 1) inside))
    else [inside]
  match cs with
  | [] => .among false []
  | c :: cs =>
    match Text.dropLead? (lit "!") c with
    | some c => .among true (chunkRanges c cs)
    | none => .among false (chunkRanges c cs)

/-- Reads at most `n` glyphs. -/
def parseFrom : (n : Nat) → Text → Wildcard
  | 0, _ => []
  | _, [] => []
  | n + 1, c :: t =>
    if c = .scalar '*' then .anyRun :: parseFrom n t
    else if c = .scalar '?' then .anyOne :: parseFrom n t
    else if c = .scalar '[' then
      match bracketed? t with
      | some (inside, rest) => bracketGlyph inside :: parseFrom n rest
      | none => .exactly c :: parseFrom n t
    else .exactly c :: parseFrom n t

/-- Reads a wildcard. -/
def parse (t : Text) : Wildcard :=
  parseFrom t.length t

end Wildcard

/-! ## Patterns -/

/-- A part of a pattern. -/
inductive PatternPart where
  | anyDepth
  | wild (w : Wildcard)
  | name (n : Text)
  deriving DecidableEq, Repr

/-- A pattern: its parts, and whether a slash at its end admits folders only. -/
structure Pattern where
  parts : List PatternPart
  foldersOnly : Bool
  deriving DecidableEq, Repr

/-- Why a pattern cannot be used. -/
inductive PatternFault where
  | isEmpty
  | notRelative
  /-- `**` together with other characters. -/
  | mixedStars
  /-- No part counts. -/
  | noParts
  /-- No part counts, and a slash stands at the end. -/
  | bareSlash
  /-- There are too many parts. -/
  | tooDeep
  deriving DecidableEq, Repr

namespace Pattern

/-- Two stars next to each other. -/
def hasDoubleStar : Text → Bool
  | c :: d :: t => (c == .scalar '*' && d == .scalar '*') || hasDoubleStar (d :: t)
  | _ => false

/-- Reads a part. -/
def parsePart (p : Text) : Except PatternFault PatternPart :=
  if p == lit "**" then .ok .anyDepth
  else if hasDoubleStar p then .error .mixedStars
  else if p.any (CodePoint.isOneOf "*?[") then .ok (.wild (Wildcard.parse p))
  else .ok (.name p)

/-- How many parts a pattern may have.  The number is nominal: it is the stack that is full then, so
    it differs by what is on the stack already.  No theorem uses its value. -/
def partLimit : Nat := 195

/-- Reads a pattern. -/
def parse (t : Text) : Except PatternFault Pattern :=
  if t.isEmpty then .error .isEmpty
  else if PathName.anchorOf t ≠ .relative then .error .notRelative
  else
    let slash := t.getLast? == some (.scalar '/')
    match PathName.partsOf t with
    | [] => .error (if slash then .bareSlash else .noParts)
    | ps => do
      let parts ← (ps.take partLimit).mapM parsePart
      if partLimit < ps.length then throw .tooDeep
      return ⟨parts, slash⟩

/-- The results of `f` on all members of a list, one after the other. -/
def gather {α β ε : Type} (f : α → Except ε (List β)) (xs : List α) : Except ε (List β) := do
  return (← xs.mapM f).flatten

/-- The folder that a path leads to, to be looked into.  A path that is too long is refused. -/
def folderAt? (t : FileTree) (parts : List Text) : Except FileTree.Refusal (Option Location) :=
  match t.walk parts with
  | .ok l => .ok (some l)
  | .error .tooLong => .error (.walk .tooLong)
  | .error _ => .ok none

/-- Looks into the folder `down` below `here`, after all folders on the way to it. -/
def enterDown (t : FileTree) (here down : List Text) : Except FileTree.Refusal Unit := do
  let _ ← folderAt? t (here ++ down.take folderLimit)
  if folderLimit < down.length then throw .tooDeep

/-- What stands in a folder at the end of a path is a folder or a link to one.  Only links are
    followed. -/
def isEnterable (t : FileTree) (parts : List Text) : Entry → Except FileTree.Refusal Bool
  | .folder => .ok true
  | .file _ => .ok false
  | .link _ => (t.isFolder parts).mapError .walk

/-- The paths below `base` that parts select, as paths from `base`; `at_` is the path so
    far.  With `last`, the last part may lead to anything that is there. -/
def selectFrom (t : FileTree) (base : List Text) (last : Bool) :
    List PatternPart → (at_ : List Text) → Except FileTree.Refusal (List (List Text))
  | [], at_ => .ok [at_]
  | part :: rest, at_ =>
    let folderNeeded := !rest.isEmpty || !last
    let here := base ++ at_
    match part with
    | .name n => do
      let there := at_ ++ [n]
      let found ← (if folderNeeded then t.isFolder (base ++ there)
        else t.exists? (base ++ there)).mapError .walk
      if found then selectFrom t base last rest there else return []
    | .wild w => do
      match ← folderAt? t here with
      | none => return []
      | some l =>
        gather (fun (n, e) => do
          let passable ← if folderNeeded then isEnterable t (here ++ [n]) e else pure true
          if passable && w.isMatch n then selectFrom t base last rest (at_ ++ [n])
          else return []) (t.children l)
    | .anyDepth => do
      match ← folderAt? t here with
      | none => return []
      | some l =>
        gather (fun down => do
          enterDown t here down
          selectFrom t base last rest (at_ ++ down)) (t.foldersBelow l)

/-- The paths that a pattern selects below the folder `base`, as paths from it. -/
def select (t : FileTree) (base : List Text) (p : Pattern) :
    Except FileTree.Refusal (List (List Text)) := do
  return (← selectFrom t base (!p.foldersOnly) p.parts []).eraseDups

end Pattern

end TraitCatalog
