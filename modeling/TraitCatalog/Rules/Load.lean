/-
  Rules from texts and files.
-/
import TraitCatalog.Rules.Fence
import TraitCatalog.Rules.Schema

namespace TraitCatalog

open Text (lit)

/-- Why there are no rules. -/
inductive RulesFault where
  | yaml (f : Yaml.Fault)
  | violations (vs : List Violation)
  | missing (path : PathName)
  | file (f : FileFault)
  deriving DecidableEq, Repr

/-- The wording of a fault, if it has one. -/
def RulesFault.message? : RulesFault → Option Text
  | yaml f => f.message?
  | violations _ => some (lit "Rules validation failed")
  | missing path => some (lit "Rules file not found at: " ++ path.render)
  | file f => f.message?

namespace Rules

/-- The depth of a value that rules are read from: the document, its sections and their
    fields. -/
def valueDepth : Nat := 3

/-- The rules in a text, or in the first fenced block of it. -/
def parse (t : Text) : Except RulesFault Rules :=
  match Yaml.load valueDepth (Fence.extract t) with
  | .error f => .error (.yaml f)
  | .ok v =>
    match ofValue v with
    | .error vs => .error (.violations vs)
    | .ok r => .ok r

/-- The name of the rules file where none is given. -/
def usualPath : Text := lit "rules.yaml"

/-- The path of the rules file: one that is given and not empty, else that of the
    surroundings, else the usual one. -/
def findPath (given? surrounding? : Option Text) : PathName :=
  match given? with
  | some (c :: t) => .parse (c :: t)
  | _ => .parse (surrounding?.getD usualPath)

/-- The rules in a file, seen from the folder `here`. -/
def load (tree : FileTree) (here : Location) (path : PathName) : Except RulesFault Rules :=
  match tree.find (path.partsFrom here) with
  | .ok (some (.file content)) =>
    match readText (fun _ => none) (lit "utf-8") content with
    | .ok t => parse t
    | .error f => .error (.file f)
  | .ok (some _) => .error (.file (.system .isFolder))
  | .ok none => .error (.missing path)
  | .error f => .error (.file (.system (.walk f)))

end Rules

end TraitCatalog
