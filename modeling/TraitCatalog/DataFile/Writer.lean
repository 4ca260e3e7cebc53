/-
  Writing data files.

  A data file is a script: it declares an object `implementors`, assigns one list of
  strings to each crate on a line of its own, and hands the object to the page.  Every
  descriptor is followed by a comma.
-/
import TraitCatalog.DataFile.Basic
import TraitCatalog.Json.Quoted

namespace TraitCatalog.DataFile

open Text (lit)

/-- The first line. -/
def preamble : Text :=
  lit "(function() \x7bvar implementors = \x7b\x7d;"

/-- What follows the line feed after the last assignment. -/
def registration : Text :=
  Text.join (lit "\n") <| List.map lit
    ["",
      "            if (window.register_implementors) \x7b",
      "                window.register_implementors(implementors);",
      "            \x7d else \x7b",
      "                window.pending_implementors = implementors;",
      "            \x7d",
      "        ",
      "\x7d)()",
      ""]

/-- What every assignment line begins with. -/
def entryLead : Text :=
  lit "implementors["

/-- The list of descriptors of a crate, without its brackets. -/
def writeItems (descriptors : List Text) : Text :=
  descriptors.flatMap fun d => Json.quote d ++ lit ","

/-- The assignment line of a crate. -/
def writeEntry (crate : Text) (descriptors : List Text) : Text :=
  entryLead ++ Json.quote crate ++ lit "] = [" ++ writeItems descriptors ++ lit "];"

/-- The text of a data file. -/
def write (d : DataFile) : Text :=
  Text.join (lit "\n") (preamble :: d.crates.entries.map fun (crate, ds) => writeEntry crate ds) ++
    lit "\n" ++ registration

end TraitCatalog.DataFile
