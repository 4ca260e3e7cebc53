/-
  Path names as they are written.

  A path name is anchored at the top or is relative, and has parts.  Empty parts and
  the part `.` do not count, `..` does.  Exactly two slashes at the front are kept as
  two; any other number is one.
-/
import TraitCatalog.Text.Basic

namespace TraitCatalog

open Text (lit)

/-- Where a path name starts. -/
inductive Anchor where
  | relative
  | top
  /-- Two slashes. -/
  | doubleTop
  deriving DecidableEq, Repr

/-- A path name. -/
structure PathName where
  anchor : Anchor
  parts : List Text
  deriving DecidableEq, Repr

namespace PathName

/-- The parts of a path between slashes that count. -/
def partsOf (t : Text) : List Text :=
  (Text.splitOn (.scalar '/') t).filter fun p => !(p.isEmpty || p == lit ".")

/-- Where a path starts. -/
def anchorOf (t : Text) : Anchor :=
  match (t.takeWhile (· == .scalar '/')).length with
  | 0 => .relative
  | 2 => .doubleTop
  | _ => .top

/-- Reads a path name. -/
def parse (t : Text) : PathName :=
  ⟨anchorOf t, partsOf t⟩

/-- The text of a path name; a relative one without parts is `.`. -/
def render (p : PathName) : Text :=
  let body := Text.join (lit "/") p.parts
  match p.anchor with
  | .relative => if p.parts.isEmpty then lit "." else body
  | .top => lit "/" ++ body
  | .doubleTop => lit "//" ++ body

/-- The parts of a path name seen from the place `here`: those of `here` come first unless
    the name is anchored. -/
def partsFrom (here : List Text) (p : PathName) : List Text :=
  match p.anchor with
  | .relative => here ++ p.parts
  | _ => p.parts

end PathName

end TraitCatalog
