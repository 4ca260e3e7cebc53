/-
  Loading data files into a registry.

  A `Source` lists paths and reads texts.  Every listed file becomes one registration, in
  the order of the listing; a file that cannot be read or has faults is reported and nothing
  is registered for it, and in a strict load the first such file ends the load.
-/
import TraitCatalog.Registry.Basic

namespace TraitCatalog

variable {η ω : Type}

/-- Where data files come from: the paths, with events that listing them notes, and the text
    at a path. -/
structure Source where
  list : Except FileFault (List Text × List LogEvent)
  read : Text → Except FileFault Text

/-- A file that was skipped. -/
structure LoadFailure where
  path : Text
  faults : List Fault
  deriving DecidableEq, Repr

/-- The outcome of a load. -/
structure LoadReport where
  registered : List Text
  failures : List LoadFailure
  deriving DecidableEq, Repr

namespace LoadReport

/-- No file was skipped. -/
def success (r : LoadReport) : Bool :=
  r.failures.isEmpty

/-- The number of files. -/
def total (r : LoadReport) : Nat :=
  r.registered.length + r.failures.length

end LoadReport

/-- A row of a source that is kept in memory: a path with its text, or with the message of a
    refusal. -/
structure SourceRow where
  path : Text
  content : Except Text Text

/-- The source of some rows: it lists their paths, repeats included, and the first row with a
    path is read. -/
def Source.ofRows (rows : List SourceRow) : Source where
  list := .ok (rows.map SourceRow.path, [])
  read path :=
    match rows.find? (·.path == path) with
    | none => .error (.unlisted path)
    | some ⟨_, .error message⟩ => .error (.refused message)
    | some ⟨_, .ok text⟩ => .ok text

/-- The source of a store on a tree. -/
def Store.source (s : Store) (t : FileTree) : Source where
  list := do
    let paths ← s.list t
    return (paths, [.found paths.length s.root.render])
  read := s.read t

/-- Loads one file; there is a failure if it is skipped. -/
def loadFile (invoke : Invoke η ω) (source : Source) (path : Text) : Run η ω (Option LoadFailure) := do
  match source.read path with
  | .error f =>
    if f.isRejection then
      Run.note (.unreadable path f)
      return some ⟨path, [.unreadable (f.message?.getD [])]⟩
    else throw (.file f)
  | .ok text =>
    match DataFile.readAt text path with
    | .error a => throw (.reading a)
    | .ok (.error faults) =>
      Run.note (.faulty path (faults.map Fault.message))
      return some ⟨path, faults⟩
    | .ok (.ok d) =>
      register invoke d.toMap
      Run.note (.registered d.traitPath d.count)
      return none

/-- Loads files in order, adding to a report. -/
def loadFiles (invoke : Invoke η ω) (source : Source) (strict : Bool) (report : LoadReport) :
    List Text → Run η ω LoadReport
  | [] => return report
  | path :: rest => do
    match ← loadFile invoke source path with
    | none => loadFiles invoke source strict { report with registered := report.registered ++ [path] } rest
    | some failure =>
      if strict then throw (.strictLoad failure.path failure.faults)
      else loadFiles invoke source strict { report with failures := report.failures ++ [failure] } rest

/-- Loads every file that a source lists. -/
def loadAll (invoke : Invoke η ω) (source : Source) (strict : Bool) : Run η ω LoadReport := do
  match source.list with
  | .error f => throw (.file f)
  | .ok (paths, events) =>
    Run.noteAll events
    let report ← loadFiles invoke source strict ⟨[], []⟩ paths
    Run.note (.loaded report.registered.length report.failures.length)
    return report

/-- Loads every file that a source lists into the queue, then installs a hook. -/
def loadThenInstall (invoke : Invoke η ω) (source : Source) (strict : Bool) (h : η) :
    Run η ω LoadReport := do
  let report ← loadAll invoke source strict
  let _ ← install invoke h
  return report

end TraitCatalog
