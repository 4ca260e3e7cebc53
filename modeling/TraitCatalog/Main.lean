/-
  The command line.

  The files that the arguments lead to are read into a tree, the program runs on the tree,
  and what it wrote is printed.
-/
import Std.Time.DateTime.Timestamp
import TraitCatalog.Command.Run
import TraitCatalog.Log.Stamp

namespace TraitCatalog.Main

open Text (lit)

/-- A text as a string; surrogates that stand alone cannot be printed and are replaced. -/
def printable (t : Text) : String :=
  String.ofList (t.map fun
    | .scalar c => c
    | .surrogate _ => '\uFFFD')

/-- The path of a location, as the system knows it. -/
def systemPath (l : Location) : String :=
  printable l.render

/-- The location of an absolute path. -/
def locationOf (path : String) : Location :=
  PathName.partsOf (lit path)

/-- Adds the folders above a location. -/
def addFoldersAbove (tree : FileTree) (l : Location) : FileTree :=
  (List.range l.length).foldl
    (fun t n => if (t.lookup (l.take n)).isSome then t else t.put (l.take n) .folder) tree

/-- Files being read, with the locations that have been looked at. -/
structure Reading where
  tree : FileTree
  seen : List Location

/-- Adds an entry. -/
def Reading.add (r : Reading) (l : Location) (e : Entry) : Reading :=
  { r with tree := (addFoldersAbove r.tree l).put l e }

/-- Adds what is at a location, and all that is below it or that links lead to.  What cannot
    be read is left out. -/
partial def takeIn (r : Reading) (l : Location) : IO Reading := do
  if r.seen.contains l then return r
  let r := { r with seen := l :: r.seen }
  try
    let folder ← IO.FS.realPath (systemPath l.dropLast)
    let path := if l.isEmpty then folder else folder / printable (l.getLastD [])
    match (← path.symlinkMetadata).type with
    | .dir =>
      let mut r := r.add l .folder
      for e in ← path.readDir do
        r ← takeIn r (l ++ [lit e.fileName])
      return r
    | .file =>
      let content ← IO.FS.readBinFile path
      return r.add l (.file content.toList)
    | .symlink =>
      let target := locationOf (← IO.FS.realPath path).toString
      takeIn (r.add l (.link (lit (systemPath target)))) target
    | .other => return r
  catch _ => return r

/-- Adds what a path leads to, and the links on the way. -/
def takeInPath (r : Reading) (here : Location) (path : Text) : IO Reading := do
  try
    let parts := (PathName.parse path).partsFrom here
    let real ← IO.FS.realPath (systemPath parts)
    let mut r ← takeIn r (locationOf real.toString)
    let mut place : Location := []
    for part in parts do
      place := place.plainStep part
      let real := locationOf (← IO.FS.realPath (systemPath place)).toString
      if real ≠ place && (r.tree.lookup place).isNone then
        r := r.add place (.link (lit (systemPath real)))
    return r
  catch _ => return r

/-- The surroundings that arguments see. -/
def surroundings (args : Arguments) : IO Surroundings := do
  let here := locationOf (← IO.currentDir).toString
  let rulesPath? := (← IO.getEnv "IMPL_RULES_PATH").map lit
  let now ← Std.Time.Timestamp.now
  let r := Reading.add ⟨.empty, []⟩ here .folder
  let r ← takeInPath r here (Rules.findPath args.rulesPath? rulesPath?).render
  let r ← takeInPath r here args.root
  return ⟨r.tree, here, fun _ => none, rulesPath?, timeStamp now.toMillisecondsSinceUnixEpoch.val.toNat⟩

/-- Prints what a command wrote, and gives its exit code. -/
def report (o : Outcome) : IO UInt32 := do
  IO.print (printable o.stdout)
  IO.eprint (printable o.stderr)
  match o.ending with
  | .ok code => return .ofNat code
  | .error f =>
    IO.eprintln (printable (f.message?.getD (lit "The files cannot be used.")))
    return 1

/-- Runs the program on its arguments, and gives its exit code. -/
def run (words : List String) : IO UInt32 := do
  match Arguments.parse (words.map lit) with
  | .error stop =>
    IO.eprintln "usage: [--rules PATH] [-v] (load ROOT | show ROOT TRAIT) [--strict]"
    return .ofNat stop.code
  | .ok args => report (runArguments (← surroundings args) args)

end TraitCatalog.Main

/-- Runs the program. -/
def main (words : List String) : IO UInt32 :=
  TraitCatalog.Main.run words
