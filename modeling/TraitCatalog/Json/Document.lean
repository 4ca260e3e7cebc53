/-
  Writing JSON for readers.

  Every item and field stands on a line of its own, two spaces further right than what
  holds it; an empty list is `[]` and an empty object two braces.  Strings are in ASCII.
-/
import TraitCatalog.Json.Quoted

namespace TraitCatalog.Json

open Text (lit)

/-- A JSON document of numbers, strings, lists and objects. -/
inductive Document where
  | number (n : Nat)
  | text (t : Text)
  | list (items : List Document)
  | object (fields : List (Text × Document))

namespace Document

/-- A line break and the indentation of depth `depth`. -/
def newLine (depth : Nat) : Text :=
  lit "\n" ++ List.replicate (2 * depth) (.scalar ' ')

/-- Parts between brackets, each on a line of depth `depth + 1`. -/
def bracketed (opening closing : String) (depth : Nat) (parts : List Text) : Text :=
  if parts.isEmpty then lit opening ++ lit closing
  else
    lit opening ++ newLine (depth + 1) ++ Text.join (lit "," ++ newLine (depth + 1)) parts ++
      newLine depth ++ lit closing

mutual

/-- The text of a document that starts at depth `depth`. -/
def render (depth : Nat) : Document → Text
  | number n => Text.ofNat n
  | text t => quoteAscii t
  | list items => bracketed "[" "]" depth (renderItems (depth + 1) items)
  | object fields => bracketed "\x7b" "\x7d" depth (renderFields (depth + 1) fields)

/-- The texts of items. -/
def renderItems (depth : Nat) : List Document → List Text
  | [] => []
  | d :: ds => render depth d :: renderItems depth ds

/-- The texts of fields. -/
def renderFields (depth : Nat) : List (Text × Document) → List Text
  | [] => []
  | (k, d) :: fs => (quoteAscii k ++ lit ": " ++ render depth d) :: renderFields depth fs

end

end Document

end TraitCatalog.Json
