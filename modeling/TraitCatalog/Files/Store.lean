/-
  Data files below a root folder.

  A `Store` lists, reads and writes files below its base, which was resolved when the
  store was opened.

  * `Store.target` resolves a path and refuses it unless the result is at or below the
    base;
  * `Store.list` gives the files that the pattern selects, as paths from the base in the
    order of their texts;
  * `Store.write` makes missing folders, then empties or creates the file, and only then
    looks for the encoding: whatever fails afterwards leaves the empty file behind.
-/
import TraitCatalog.Files.Pattern
import TraitCatalog.Text.Display
import TraitCatalog.Text.Lines

namespace TraitCatalog

open Text (lit)

/-! ## Faults -/

/-- Why a file cannot be listed, read or written. -/
inductive FileFault where
  /-- The path leads out of the base. -/
  | escapes (path : Text)
  /-- A path cannot hold U+0000. -/
  | nullByte
  /-- Bytes that are no text in the encoding. -/
  | undecodable (f : DecodeFault) (bytes : List UInt8)
  /-- A text that the encoding cannot write. -/
  | unencodable (f : EncodeFault) (text : Text)
  /-- The name of an encoding cannot hold U+0000. -/
  | nullInEncoding
  /-- A source refused to read, with a message of its own. -/
  | refused (message : Text)
  | pattern (f : PatternFault)
  | unknownEncoding (name : Text)
  | fileMissing (path : Text)
  | rootMissing (root : PathName)
  /-- A source without files in folders does not have the path. -/
  | unlisted (path : Text)
  /-- Links lead back to themselves. -/
  | linkLoop (path : PathName)
  /-- The system refuses. -/
  | system (f : FileTree.Refusal)
  deriving DecidableEq, Repr

namespace FileFault

/-- The file is there but its path or its content is not acceptable; such a file is skipped
    and reported rather than ending the work. -/
def isRejection : FileFault → Bool
  | escapes _ | nullByte | undecodable _ _ | unencodable _ _ | nullInEncoding | refused _ => true
  | pattern .isEmpty | pattern .mixedStars | system (.walk .unnameable) => true
  | _ => false

/-- The wording of a fault; the system words its own. -/
def message? : FileFault → Option Text
  | escapes path => some (lit "Path traversal attempt detected: " ++ path)
  | nullByte => some (lit "embedded null byte")
  | undecodable f _ => some f.message
  | unencodable f _ => some f.message
  | nullInEncoding => some (lit "embedded null character")
  | refused m => some m
  | pattern .isEmpty => some (lit "Unacceptable pattern: ''")
  | pattern .notRelative => some (lit "Non-relative patterns are unsupported")
  | pattern .mixedStars => some (lit "Invalid pattern: '**' can only be an entire path component")
  | pattern .noParts => some (lit "tuple index out of range")
  | pattern .bareSlash =>
    some (lit "'_TerminatingSelector' object has no attribute 'select_from'")
  | pattern .tooDeep => none
  | unknownEncoding name => some (lit "unknown encoding: " ++ name)
  | fileMissing path => some (lit "File not found: " ++ path)
  | rootMissing root => some (lit "Data file root not found: " ++ root.render)
  | unlisted path => some path
  | linkLoop path => some (lit "Symlink loop from " ++ path.render.shown)
  | system _ => none

/-- A fault that is a rejection, with its values. -/
def shown : FileFault → Text
  | undecodable f bytes => f.shown bytes
  | unencodable f text => f.shown text
  | f => lit "ValueError(" ++ (f.message?.getD []).shown ++ lit ")"

end FileFault

/-! ## Paths -/

/-- The fault of a path that no file can have, because of a surrogate that stands for no byte or of
    U+0000. -/
def FileFault.ofPath (path : Text) : FileFault :=
  let isBad (c : CodePoint) : Bool := !Encoding.utf8.fits c && !c.isRawByte
  let good := path.takeWhile (!isBad ·)
  match path.drop good.length with
  | [] => .nullByte
  | c :: rest =>
    let run := (c :: rest).takeWhile (!Encoding.utf8.fits ·)
    .unencodable ⟨Encoding.utf8.codec, c, good.length, good.length + run.length,
      Encoding.utf8.refusal⟩ path

/-- The path name of a path seen from the folder `here`, with its links resolved. -/
def FileTree.locate (t : FileTree) (here : Location) (path : Text) : Except FileFault PathName :=
  match t.resolve ((PathName.parse path).partsFrom here) with
  | .error (.unnameable l) => .error (.ofPath l.render)
  | .error .tooDeep => .error (.system .tooDeep)
  | .ok p =>
    match t.walk p.parts with
    | .error .unnameable => .error (.ofPath p.render)
    | .error .tooManyLinks => .error (.linkLoop p)
    | _ => .ok p

/-- What a walk or a search found; the system words what went wrong. -/
def FileFault.ofWalk {α : Type} (x : Except WalkFault α) : Except FileFault α :=
  x.mapError fun f => .system (.walk f)

/-! ## Encodings -/

/-- How content is read as text and text is written. -/
structure Codec where
  decode : List UInt8 → Except FileFault Text
  encode : Text → Except FileFault (List UInt8)

/-- The codec of an encoding. -/
def Codec.of (e : Encoding) : Codec where
  decode content := (e.decode content).mapError fun f => .undecodable f (e.body content)
  encode text := (e.encode text).mapError fun f => .unencodable f text

/-- The name of an encoding has to be text without U+0000. -/
def checkEncodingName (name : Text) : Except FileFault Unit := do
  if let .error f := Encoding.utf8.encode name then throw (.unencodable f name)
  if name.contains (.scalar '\x00') then throw .nullInEncoding

/-- The codec of a name: that of an encoding, or one of the further `codecs` that the system has. -/
def findCodec (codecs : Text → Option Codec) (name : Text) : Except FileFault Codec :=
  match Encoding.ofName? name with
  | some e => .ok (.of e)
  | none =>
    match codecs name with
    | some c => .ok c
    | none => .error (.unknownEncoding name)

/-- The text of file content. -/
def readText (codecs : Text → Option Codec) (encoding : Text) (content : List UInt8) :
    Except FileFault Text := do
  checkEncodingName encoding
  let c ← findCodec codecs encoding
  return (← c.decode content).unifyBreaks

/-! ## Stores -/

/-- Data files below a base, whose path name has an anchor of its own. -/
structure Store where
  anchor : Anchor
  base : Location
  pattern : Text
  encoding : Text
  /-- What the system can encode besides the encodings of `Encoding`. -/
  codecs : Text → Option Codec

/-- The pattern of data files. -/
def Store.defaultPattern : Text := lit "**/trait.*.js"

/-- The encoding of data files. -/
def Store.defaultEncoding : Text := lit "utf-8"

namespace Store

/-- Opens the store below a root path seen from the folder `here`. -/
def atRoot (t : FileTree) (here : Location) (codecs : Text → Option Codec)
    (root pattern encoding : Text) : Except FileFault Store := do
  let p ← t.locate here root
  return ⟨p.anchor, p.parts, pattern, encoding, codecs⟩

/-- The path name of the base. -/
def root (s : Store) : PathName :=
  ⟨s.anchor, s.base⟩

/-- The codec of a store. -/
def codec (s : Store) : Except FileFault Codec :=
  findCodec s.codecs s.encoding

/-- The location of a path from the base; it must be at or below the base. -/
def target (s : Store) (t : FileTree) (path : Text) : Except FileFault Location := do
  let p ← t.locate s.base path
  if p.anchor = s.anchor ∧ s.base.isPrefixOf p.parts then return p.parts else throw (.escapes path)

/-- A location at or below the base, as a path from it. -/
def pathFromBase (s : Store) (l : Location) : Text :=
  PathName.render ⟨.relative, l.drop s.base.length⟩

/-- The files that the pattern selects, in order. -/
def list (s : Store) (t : FileTree) : Except FileFault (List Text) := do
  unless ← FileFault.ofWalk (t.isFolder s.base) do throw (.rootMissing s.root)
  match Pattern.parse s.pattern with
  | .error f => throw (.pattern f)
  | .ok p =>
    let paths ← (p.select t s.base).mapError .system
    let found ← FileFault.ofWalk
      (paths.filterM fun path => do return (← t.fileAt? (s.base ++ path)).isSome)
    return Text.sort (found.map (Text.join (lit "/")))

/-- The text of the file at a path. -/
def read (s : Store) (t : FileTree) (path : Text) : Except FileFault Text := do
  let l ← s.target t path
  match ← FileFault.ofWalk (t.fileAt? l) with
  | none => throw (.fileMissing path)
  | some content => readText s.codecs s.encoding content

/-- Creates or empties the file at a location, then writes a text to it. -/
def fill (s : Store) (t : FileTree) (l : Location) (text : Text) : FileTree × Except FileFault Unit :=
  match t.writeLocation l with
  | .error f => (t, .error (.system f))
  | .ok place =>
    let emptied := t.put place (.file [])
    match s.codec with
    | .error f => (emptied, .error f)
    | .ok c =>
      match c.encode text with
      | .error f => (emptied, .error f)
      | .ok content => (t.put place (.file content), .ok ())

/-- Writes a text to the file at a path, and gives its path from the base. -/
def write (s : Store) (t : FileTree) (path text : Text) : FileTree × Except FileFault Text :=
  match s.target t path with
  | .error f => (t, .error f)
  | .ok l =>
    match t.makeFolders l.dropLast with
    | (t, .error f) => (t, .error (.system f))
    | (t, .ok ()) =>
      match checkEncodingName s.encoding with
      | .error f => (t, .error f)
      | .ok () =>
        match s.fill t l text with
        | (t, .error f) => (t, .error f)
        | (t, .ok ()) => (t, .ok (s.pathFromBase l))

end Store

end TraitCatalog
