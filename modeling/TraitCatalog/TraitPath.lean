/-
  Trait paths and the places of their data files.

  The data file of the trait `core::ops::Mul` is found at `core/ops/trait.Mul.js`
  below the index root.  `traitPathAt` reads a trait path off a place and
  `placeOf` gives the place of a trait path.

  A segment is an ASCII identifier, and one line feed may follow it: at the end of a
  module segment it is part of the segment, at the end of the file name it is dropped.
-/
import TraitCatalog.Fault

namespace TraitCatalog

open Text (lit)

/-- An ASCII identifier: a letter or underscore, then letters, digits and
    underscores. -/
def isIdentifier : Text → Bool
  | [] => false
  | c :: t => (c.isWord && !c.isDigit) && t.all CodePoint.isWord

/-- A text without one line feed at its end. -/
def dropFinalNewline (t : Text) : Text :=
  (Text.dropTail? (lit "\n") t).getD t

/-- A module segment: an identifier that one line feed may follow. -/
def isModuleSegment (t : Text) : Bool :=
  isIdentifier (dropFinalNewline t)

/-- The trait name in a file name `trait.<Name>.js`. -/
def traitNameIn? (file : Text) : Option Text := do
  let rest ← Text.dropLead? (lit "trait.") (dropFinalNewline file)
  let name ← Text.dropTail? (lit ".js") rest
  if isIdentifier name then some name else none

/-- The parts of a place: separated by slashes or backslashes, empty parts dropped. -/
def placeParts (place : Text) : List Text :=
  (Text.splitOn (.scalar '/') (place.map fun c => if c = .scalar '\\' then .scalar '/' else c)).filter
    (!·.isEmpty)

/-- The trait path of the data file at a place below the index root. -/
def traitPathAt (place : Text) : Except Fault Text :=
  match (placeParts place).reverse with
  | [] => .error .emptyLocation
  | file :: above =>
    match traitNameIn? file with
    | none => .error (.fileName file)
    | some name =>
      match above.reverse.find? (!isModuleSegment ·) with
      | some bad => .error (.moduleSegment bad)
      | none => .ok (Text.join (lit "::") (above.reverse ++ [name]))

/-- The place of the data file of a trait path. -/
def placeOf (traitPath : Text) : Text :=
  let pieces := Text.splitPath traitPath
  Text.join (lit "/") (pieces.dropLast ++ [lit "trait." ++ pieces.getLastD [] ++ lit ".js"])

end TraitCatalog
