/-
  Reading data files.

  * A file must hold the declaration `var implementors = {};` and the call
    `register_implementors(implementors)` somewhere, with any blanks between the words
    (`Phrase`); without them no line is looked at.
  * Every line that begins with `implementors[` must assign a list of strings to a
    crate (`splitEntry?`, `readBody`, `readLine`).  A faulty line adds one fault and
    nothing else; its crate stays free.
  * `DataFile.read` gives the data file, or all faults in line order.  Two kinds of
    list cannot be read at all and end the reading (`ReadAbort`).
-/
import TraitCatalog.DataFile.Writer
import TraitCatalog.Fault
import TraitCatalog.Json.ItemList
import TraitCatalog.Text.Blank
import TraitCatalog.Text.Lines
import TraitCatalog.TraitPath

namespace TraitCatalog

/-! ## Phrases -/

/-- A part of a phrase: a word, or blanks. -/
inductive PhrasePart where
  | word (w : Text)
  | blanks
  | someBlanks
  deriving DecidableEq, Repr

/-- Words and blanks that follow each other. -/
abbrev Phrase := List PhrasePart

namespace Phrase

open Text (lit)

/-- The phrase stands at the front of the text.  No word begins with a blank, so blanks
    are taken as far as they go. -/
def isAtFront : Phrase → Text → Bool
  | [], _ => true
  | .word w :: ps, t =>
    match Text.dropLead? w t with
    | some r => isAtFront ps r
    | none => false
  | .blanks :: ps, t => isAtFront ps (Text.skipBlanks t)
  | .someBlanks :: ps, t =>
    match t with
    | c :: r => c.isBlank && isAtFront ps (Text.skipBlanks r)
    | [] => false

/-- The phrase stands somewhere in the text. -/
def occursIn (p : Phrase) : Text → Bool
  | [] => p.isAtFront []
  | c :: t => p.isAtFront (c :: t) || occursIn p t

/-- The declaration of the implementors object. -/
def declaration : Phrase :=
  [.word (lit "var"), .someBlanks, .word (lit "implementors"), .blanks, .word (lit "="), .blanks,
    .word (lit "\x7b"), .blanks, .word (lit "\x7d"), .blanks, .word (lit ";")]

/-- The call that hands the object over. -/
def registrationCall : Phrase :=
  [.word (lit "register_implementors"), .blanks, .word (lit "("), .blanks,
    .word (lit "implementors"), .blanks, .word (lit ")")]

end Phrase

namespace DataFile

open Text (lit)

/-! ## Lines -/

/-- The key of an entry up to its closing quote, with its escapes untouched, and what
    follows the quote. -/
def takeKey : Text → Option (Text × Text)
  | [] => none
  | c :: t =>
    if c = .scalar '"' then some ([], t)
    else if c = .scalar '\\' then
      match t with
      | d :: r => (takeKey r).map fun (k, rest) => (c :: d :: k, rest)
      | [] => none
    else (takeKey t).map fun (k, rest) => (c :: k, rest)

/-- The key and the list body of an entry line:
    `implementors["` key `"]` `=` `[` body `];`, with blanks around the equals sign and
    at the end. -/
def splitEntry? (line : Text) : Option (Text × Text) := do
  let r ← Text.dropLead? (entryLead ++ lit "\"") line
  let (key, r) ← takeKey r
  let r ← Text.dropLead? (lit "]") r
  let r ← Text.dropLead? (lit "=") (Text.skipBlanks r)
  let r ← Text.dropLead? (lit "[") (Text.skipBlanks r)
  let body ← Text.dropTail? (lit "];") (Text.trimRight r)
  return (key, body)

/-- What ends the reading of a file without a verdict on it. -/
inductive ReadAbort where
  | longInteger (digits : Nat)
  | tooDeep
  deriving DecidableEq, Repr

/-- The strings of a list body.  Blanks at its ends and one comma before the last of them
    do not count; there is no result if the body is not a list of strings. -/
def readBody (body : Text) : Except ReadAbort (Option (List Text)) :=
  let inside := Text.trim body
  let inside := (Text.dropTail? (lit ",") inside).getD inside
  match Json.readItems (inside ++ lit "]") with
  | .ok items => .ok (items.mapM id)
  | .error .malformed => .ok none
  | .error (.longInteger n) => .error (.longInteger n)
  | .error .tooDeep => .error .tooDeep

/-- The crate name that a key spells. -/
def readKey? (key : Text) : Option Text :=
  Json.unquote? (lit "\"" ++ key ++ lit "\"")

/-- What reading has found so far. -/
structure Found where
  crates : OrderedMap (List Text)
  faults : List Fault

/-- Reads line number `n`.  The list is judged before the crate name, and the crate name
    before its being taken. -/
def readLine (found : Found) (n : Nat) (line : Text) : Except ReadAbort Found :=
  let faulty (f : Fault) : Except ReadAbort Found := .ok { found with faults := found.faults ++ [f] }
  if !line.startsWith entryLead then .ok found
  else
    match splitEntry? line with
    | none => faulty (.notStringList n)
    | some (key, body) =>
      match readBody body with
      | .error a => .error a
      | .ok none => faulty (.notStringList n)
      | .ok (some descriptors) =>
        match readKey? key with
        | none => faulty (.crateName n)
        | some crate =>
          if found.crates.contains crate then faulty (.duplicateCrate crate n)
          else .ok { found with crates := found.crates.put crate descriptors }

/-- Reads lines in order, the first of which has number `n`. -/
def readLines (found : Found) : (n : Nat) → List Text → Except ReadAbort Found
  | _, [] => .ok found
  | n, line :: rest =>
    match readLine found n line with
    | .ok found => readLines found (n + 1) rest
    | .error a => .error a

/-! ## Files -/

/-- The parts that are missing from a text. -/
def missingParts (text : Text) : List Fault :=
  (if Phrase.declaration.occursIn text then [] else [.missingPreamble]) ++
    (if Phrase.registrationCall.occursIn text then [] else [.missingRegistration])

/-- Reads the text of the data file of a trait: the data file, or its faults. -/
def read (text traitPath : Text) : Except ReadAbort (Except (List Fault) DataFile) :=
  match missingParts text with
  | [] =>
    match readLines ⟨.empty, []⟩ 1 (Text.lines text) with
    | .error a => .error a
    | .ok found =>
      if found.faults.isEmpty then .ok (.ok ⟨traitPath, found.crates⟩)
      else .ok (.error found.faults)
  | faults => .ok (.error faults)

/-- Reads the data file at a place below the index root. -/
def readAt (text place : Text) : Except ReadAbort (Except (List Fault) DataFile) :=
  match traitPathAt place with
  | .error f => .ok (.error [f])
  | .ok traitPath => read text traitPath

end DataFile

end TraitCatalog
