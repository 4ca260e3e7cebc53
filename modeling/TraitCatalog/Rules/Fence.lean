/-
  Rules inside a document.

  Rules may stand in a fenced block of a longer document: a line that starts with
  "```yaml", blanks aside, opens the block, and the next line that starts with "```" but not
  with "```yaml" closes it.  Further opening lines inside the block are left out.  A text
  without an opening line is taken as it is.
-/
import TraitCatalog.Text.Blank
import TraitCatalog.Text.Lines

namespace TraitCatalog.Fence

open Text (lit)

/-- The line opens a block. -/
def opens (line : Text) : Bool :=
  line.trim.startsWith (lit "```yaml")

/-- The line starts with a fence, so that inside a block it opens or closes one. -/
def isFence (line : Text) : Bool :=
  line.trim.startsWith (lit "```")

/-- The lines of a block, given those after its opening line. -/
def inside : List Text → List Text
  | [] => []
  | l :: ls => if opens l then inside ls else if isFence l then [] else l :: inside ls

/-- The lines of the first block, if there is one. -/
def block? : List Text → Option (List Text)
  | [] => none
  | l :: ls => if opens l then some (inside ls) else block? ls

/-- The text of the first block, or all of the text if there is none. -/
def extract (t : Text) : Text :=
  match block? t.splitLines with
  | some ls => Text.join (lit "\n") ls
  | none => t

end TraitCatalog.Fence
