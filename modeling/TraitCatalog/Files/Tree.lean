/-
  Files, folders and symbolic links.

  A `FileTree` gives for every location, a list of names from the top, what is there.
  There are two ways to find the location that a path stands for, and they differ on
  paths that lead nowhere:

  * `FileTree.walk` goes from folder to folder and follows every link, at most
    `linkLimit` of them; it fails where something is missing or is no folder, and where a
    name or the whole path is too long.  It decides what is read and written;
  * `FileTree.resolve` also follows links, but takes missing parts as they are written, and
    a link whose own path is too long as no link; when a link leads back to itself it gives
    up, joins the rest of the path as a text, and tidies it without looking.  It decides
    what a path is called.

  Reading, writing and making folders are functions of the tree.
-/
import TraitCatalog.Files.PathName
import TraitCatalog.Text.Codec

namespace TraitCatalog

open Text (lit)

/-- A location: names from the top. -/
abbrev Location := List Text

/-- What is at a location. -/
inductive Entry where
  | file (content : List UInt8)
  | folder
  | link (target : Text)
  deriving DecidableEq, Repr

/-- Locations with what is there.  The folder at the top is always there. -/
structure FileTree where
  entries : List (Location × Entry)
  deriving DecidableEq

/-- Why a location cannot be reached. -/
inductive WalkFault where
  | missing
  | notFolder
  | tooManyLinks
  /-- A name or a path is too long. -/
  | tooLong
  /-- No file can have a name as in the path. -/
  | unnameable
  deriving DecidableEq, Repr

namespace Location

/-- The text of a location. -/
def render (l : Location) : Text :=
  lit "/" ++ Text.join (lit "/") l

/-- A step along a path without looking at the tree. -/
def plainStep (l : Location) (part : Text) : Location :=
  if part.isEmpty || part == lit "." then l
  else if part == lit ".." then l.dropLast
  else l ++ [part]

/-- The location of a path from the top, without looking at the tree. -/
def tidy (parts : List Text) : Location :=
  parts.foldl plainStep []

end Location

/-! ## Limits -/

/-- How many bytes a name may have. -/
def nameLimit : Nat := 255

/-- How many bytes a path may have. -/
def pathLimit : Nat := 4095

/-- How deeply work on folders may be nested: missing folders above each other, folders below each
    other that are searched, and links whose targets lead through further links.  The number is
    nominal: it is the stack that is full then, so it differs by what is on the stack already.  Of
    its value the theorems use only that it is not below `FileTree.linkLimit`. -/
def folderLimit : Nat := 990

namespace CodePoint

/-- A surrogate that stands for a byte in a name that is no text. -/
def isRawByte (c : CodePoint) : Bool :=
  0xDC80 ≤ c.toNat && c.toNat ≤ 0xDCFF

/-- A code point that the name of a file can have. -/
def isNameable : CodePoint → Bool
  | scalar c => c != '\x00'
  | surrogate n => isRawByte (surrogate n)

/-- The number of bytes of a code point in a name. -/
def nameBytes (c : CodePoint) : Nat :=
  if c.isRawByte then 1 else (Utf8.bytes c).length

end CodePoint

/-- The number of bytes of a name. -/
def nameLength (name : Text) : Nat :=
  name.foldl (fun n c => n + c.nameBytes) 0

/-- The number of bytes of a path from the top. -/
def pathLength (parts : List Text) : Nat :=
  parts.foldl (fun n part => n + nameLength part + 1) 0

namespace FileTree

/-- The tree with nothing in it. -/
def empty : FileTree := ⟨[]⟩

/-- What is at a location; links are not followed. -/
def lookup (t : FileTree) (l : Location) : Option Entry :=
  if l.isEmpty then some .folder else t.entries.lookup l

/-- Puts an entry at a location, in place of what is there. -/
def put (t : FileTree) (l : Location) (e : Entry) : FileTree :=
  ⟨t.entries.filter (fun x => x.1 != l) ++ [(l, e)]⟩

/-- The names in a folder, with what they name. -/
def children (t : FileTree) (l : Location) : List (Text × Entry) :=
  t.entries.filterMap fun (p, e) =>
    match p.getLast? with
    | some name => if p.dropLast == l then some (name, e) else none
    | none => none

/-- The folders at and below a location, as paths from it. -/
def foldersBelow (t : FileTree) (l : Location) : List (List Text) :=
  [] :: t.entries.filterMap fun (p, e) =>
    if e = .folder ∧ l.isPrefixOf p ∧ l ≠ p then some (p.drop l.length) else none

/-- Where a link's target starts, seen from the folder of the link. -/
def linkStart (folder : Location) (target : Text) : Location :=
  match PathName.anchorOf target with
  | .relative => folder
  | _ => []

/-! ## Walking -/

/-- Walks along `parts` from `here`.  `follow` continues at a link, given where its target
    starts and all parts to come.  With `create`, the last part may be missing. -/
def walkWith (t : FileTree) (create : Bool)
    (follow : Location → List Text → Except WalkFault Location) :
    Location → List Text → Except WalkFault Location
  | here, [] => .ok here
  | here, part :: rest =>
    match t.lookup here with
    | none => .error .missing
    | some (.file _) | some (.link _) => .error .notFolder
    | some .folder =>
      if part.isEmpty || part == lit "." then walkWith t create follow here rest
      else if part == lit ".." then walkWith t create follow here.dropLast rest
      else if nameLimit < nameLength part then .error .tooLong
      else
        match t.lookup (here ++ [part]) with
        | none => if create && rest.isEmpty then .ok (here ++ [part]) else .error .missing
        | some (.link target) =>
          follow (linkStart here target) (Text.splitOn (.scalar '/') target ++ rest)
        | some _ => walkWith t create follow (here ++ [part]) rest

/-- Walks along `parts` from `here`, following at most `links` links. -/
def walkFrom (t : FileTree) (create : Bool) :
    (links : Nat) → Location → List Text → Except WalkFault Location
  | 0 => walkWith t create fun _ _ => .error .tooManyLinks
  | links + 1 => walkWith t create (walkFrom t create links)

/-- How many links a walk follows. -/
def linkLimit : Nat := 40

/-- Walks along a whole path from the top. -/
def walkPath (t : FileTree) (create : Bool) (parts : List Text) : Except WalkFault Location :=
  if !parts.all (·.all CodePoint.isNameable) then .error .unnameable
  else if pathLimit < pathLength parts then .error .tooLong
  else t.walkFrom create linkLimit [] parts

/-- The location that a path leads to. -/
def walk (t : FileTree) (parts : List Text) : Except WalkFault Location :=
  t.walkPath false parts

/-- What a path leads to, if anything.  A path that is too long is refused. -/
def find (t : FileTree) (parts : List Text) : Except WalkFault (Option Entry) :=
  match t.walk parts with
  | .ok l => .ok (t.lookup l)
  | .error .tooLong => .error .tooLong
  | .error _ => .ok none

/-- A path leads to something. -/
def exists? (t : FileTree) (parts : List Text) : Except WalkFault Bool := do
  return (← t.find parts).isSome

/-- A path leads to a folder. -/
def isFolder (t : FileTree) (parts : List Text) : Except WalkFault Bool := do
  return (← t.find parts) == some .folder

/-- The content of the file that a path leads to, if it leads to one. -/
def fileAt? (t : FileTree) (parts : List Text) : Except WalkFault (Option (List UInt8)) := do
  match ← t.find parts with
  | some (.file content) => return some content
  | _ => return none

/-! ## Resolving -/

/-- Why a path cannot be resolved. -/
inductive ResolveFault where
  /-- No file can have the last name of a path that is looked at. -/
  | unnameable (l : Location)
  /-- Too many links lie inside each other. -/
  | tooDeep
  deriving DecidableEq, Repr

/-- How far resolving a path came. -/
inductive Resolution where
  | done (l : Location)
  /-- A link led back to itself: the path of the link, joined with what was to come after it. -/
  | stuck (path : Text)
  | failed (f : ResolveFault)
  deriving DecidableEq

/-- Joins two path names as texts.  One that starts with a slash replaces what is before it. -/
def joinPaths (path rest : Text) : Text :=
  if rest.head? = some (.scalar '/') then rest
  else if path.getLast? = some (.scalar '/') then path ++ rest
  else path ++ lit "/" ++ rest

/-- The text of parts that are still to come. -/
def restText (parts : List Text) : Text :=
  Text.join (lit "/") parts

/-- The target of the link at a location, if there is one that can be read: its path must not be too
    long. -/
def readableLink? (t : FileTree) (l : Location) : Option Text :=
  match t.lookup l with
  | some (.link target) =>
    if nameLength (l.getLastD []) ≤ nameLimit && pathLength l ≤ pathLimit then some target else none
  | _ => none

/-- Resolves `parts` from `here`.  The links in `active` are being resolved; `descend`
    resolves the target of a further link. -/
def resolveWith (t : FileTree) (active : List Location)
    (descend : Location → Location → List Text → Resolution) :
    Location → List Text → Resolution
  | here, [] => .done here
  | here, part :: rest =>
    if part.isEmpty || part == lit "." then resolveWith t active descend here rest
    else if part == lit ".." then resolveWith t active descend here.dropLast rest
    else
      let there := here ++ [part]
      if !part.all CodePoint.isNameable then .failed (.unnameable there)
      else
        match t.readableLink? there with
        | none => resolveWith t active descend there rest
        | some target =>
          if active.contains there then .stuck (joinPaths there.render (restText rest))
          else
            match descend there (linkStart here target) (Text.splitOn (.scalar '/') target) with
            | .done l => resolveWith t active descend l rest
            | .stuck path => .stuck (joinPaths path (restText rest))
            | .failed f => .failed f

/-- Resolves `parts` from `here` through at most `depth` links inside each other. -/
def resolveFrom (t : FileTree) : (depth : Nat) → (active : List Location) →
    Location → List Text → Resolution
  | 0, active => resolveWith t active fun _ _ _ => .failed .tooDeep
  | depth + 1, active =>
    resolveWith t active fun link start parts => resolveFrom t depth (link :: active) start parts

/-- The path name that a path is taken to stand for. -/
def resolve (t : FileTree) (parts : List Text) : Except ResolveFault PathName :=
  match t.resolveFrom folderLimit [] [] parts with
  | .done l => .ok ⟨.top, l⟩
  | .stuck path => .ok ⟨PathName.anchorOf path, Location.tidy (Text.splitOn (.scalar '/') path)⟩
  | .failed f => .error f

/-! ## Changing -/

/-- Why work on a tree cannot be done as asked. -/
inductive Refusal where
  | isFolder
  | alreadyThere
  /-- Folders are nested too deeply. -/
  | tooDeep
  | walk (f : WalkFault)
  deriving DecidableEq, Repr

/-- Makes the folder that a path names; the folder above it must be there and the name
    free. -/
def makeFolder (t : FileTree) (parts : List Text) : Except Refusal FileTree :=
  match parts.getLast? with
  | none => .error .alreadyThere
  | some name =>
    if !parts.all (·.all CodePoint.isNameable) then .error (.walk .unnameable)
    else if pathLimit < pathLength parts then .error (.walk .tooLong)
    else
      match t.walk parts.dropLast with
      | .error f => .error (.walk f)
      | .ok above =>
        match t.lookup above with
        | some .folder =>
          if nameLimit < nameLength name then .error (.walk .tooLong)
          else
            match t.lookup (above ++ [name]) with
            | none => .ok (t.put (above ++ [name]) .folder)
            | some _ => .error .alreadyThere
        | _ => .error (.walk .notFolder)

/-- Makes a folder and the missing ones above it, `room` of them at most; `up` is the path read
    backwards.  A folder that is there is left alone. -/
def makeFoldersUp (t : FileTree) : (room : Nat) → (up : List Text) → FileTree × Except Refusal Unit
  | _, [] => (t, .ok ())
  | 0, _ :: _ => (t, .error .tooDeep)
  | room + 1, name :: up =>
    let parts := (name :: up).reverse
    let keepIfFolder (t : FileTree) (f : Refusal) : FileTree × Except Refusal Unit :=
      (t, match t.isFolder parts with
        | .ok true => .ok ()
        | .ok false => .error f
        | .error g => .error (.walk g))
    match t.makeFolder parts with
    | .ok t => (t, .ok ())
    | .error (.walk .missing) =>
      match makeFoldersUp t room up with
      | (t, .ok ()) =>
        match t.makeFolder parts with
        | .ok t => (t, .ok ())
        | .error f => keepIfFolder t f
      | (t, .error f) => (t, .error f)
    | .error f => keepIfFolder t f

/-- Makes the folder that a path names and the missing ones above it. -/
def makeFolders (t : FileTree) (parts : List Text) : FileTree × Except Refusal Unit :=
  t.makeFoldersUp folderLimit parts.reverse

/-- The location of the file that writing to a path changes or creates. -/
def writeLocation (t : FileTree) (parts : List Text) : Except Refusal Location :=
  match t.walkPath true parts with
  | .error f => .error (.walk f)
  | .ok l =>
    match t.lookup l with
    | some .folder => .error .isFolder
    | _ => .ok l

end FileTree

end TraitCatalog
