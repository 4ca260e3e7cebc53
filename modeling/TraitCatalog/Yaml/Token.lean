/-
  The tokens of a YAML text.

  Indentation is turned into tokens of its own: a block collection is announced by
  `blockSequence` or `blockMapping` and closed by `blockEnd`, so that what reads the tokens
  needs no columns.
-/
import TraitCatalog.Text.Basic

namespace TraitCatalog.Yaml

/-- A token. -/
inductive Token where
  | streamEnd
  /-- `%YAML major.minor` -/
  | version (major minor : Nat)
  /-- `%TAG handle lead` -/
  | tagHandle (handle lead : Text)
  /-- Any other directive. -/
  | directive
  | documentStart
  | documentEnd
  | blockSequence
  | blockMapping
  | blockEnd
  | openSequence
  | closeSequence
  | openMapping
  | closeMapping
  /-- The hyphen of a block sequence. -/
  | item
  | comma
  | key
  | value
  | alias (name : Text)
  | anchor (name : Text)
  | tag (handle : Option Text) (suffix : Text)
  | scalar (plain : Bool) (text : Text)
  deriving DecidableEq, Repr

end TraitCatalog.Yaml
