/-
  What can be wrong with a data file.

  A `Fault` is a cause; its code, its wording and the field it points at are derived
  from it here and nowhere else.
-/
import TraitCatalog.Text.Basic

namespace TraitCatalog

/-- Why a data file is not taken into the index. -/
inductive Fault where
  /-- The path has no parts. -/
  | emptyLocation
  /-- The last part of the path is not `trait.<Name>.js`. -/
  | fileName (name : Text)
  /-- A directory on the path is not an identifier. -/
  | moduleSegment (segment : Text)
  /-- The implementors object is not declared. -/
  | missingPreamble
  /-- The registration call is missing. -/
  | missingRegistration
  /-- The line does not assign a list of strings. -/
  | notStringList (line : Nat)
  /-- The crate name of the line is not a string literal. -/
  | crateName (line : Nat)
  /-- The crate has been assigned on an earlier line. -/
  | duplicateCrate (crate : Text) (line : Nat)
  /-- The file could not be read. -/
  | unreadable (reason : Text)
  deriving DecidableEq, Repr

namespace Fault

open Text (lit)

/-- The code that names the kind of fault. -/
def code : Fault → Text
  | emptyLocation | fileName _ => lit "invalid_filename"
  | moduleSegment _ => lit "invalid_module_path"
  | missingPreamble => lit "missing_preamble"
  | missingRegistration => lit "missing_registration"
  | notStringList _ | crateName _ => lit "invalid_entry"
  | duplicateCrate _ _ => lit "duplicate_crate"
  | unreadable _ => lit "read_error"

/-- The wording of a fault. -/
def message : Fault → Text
  | emptyLocation => lit "Data file path is empty"
  | fileName name => lit "Expected trait.<Name>.js, got '" ++ name ++ lit "'"
  | moduleSegment s => lit "Invalid module path segment '" ++ s ++ lit "'"
  | missingPreamble => lit "Data file does not declare the implementors object"
  | missingRegistration => lit "Data file does not call register_implementors"
  | notStringList n => lit "Line " ++ Text.ofNat n ++ lit " is not a list of implementor strings"
  | crateName n => lit "Line " ++ Text.ofNat n ++ lit " has an invalid crate name"
  | duplicateCrate crate _ => lit "Crate '" ++ crate ++ lit "' is assigned more than once"
  | unreadable reason => lit "Could not read data file: " ++ reason

/-- The place a fault points at. -/
def field? : Fault → Option Text
  | emptyLocation | fileName _ | moduleSegment _ => some (lit "relpath")
  | missingPreamble | missingRegistration | unreadable _ => none
  | notStringList n | crateName n | duplicateCrate _ n => some (lit "line:" ++ Text.ofNat n)

end Fault

end TraitCatalog
