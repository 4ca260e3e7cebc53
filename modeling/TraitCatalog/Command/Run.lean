/-
  Carrying out a command line.

  `runProgram` reads the rules, sets up the log, loads the catalog and answers the command:
  `load` prints a summary, `show` the implementors of one trait.  A load that ends because a
  strict load met a faulty file, or because a file or folder is missing, is an answer with
  exit code 1; any other failure leaves the program.
-/
import TraitCatalog.Catalog
import TraitCatalog.Command.Arguments
import TraitCatalog.Json.Document
import TraitCatalog.Log.Settings
import TraitCatalog.Rules.Load

namespace TraitCatalog

open Text (lit)

/-! ## Outcomes -/

/-- Why a command was not answered. -/
inductive CommandFault where
  | rules (f : RulesFault)
  | log (f : LogFault)
  | work (f : Failure)
  /-- A trait is asked for, but none is named. -/
  | noTrait
  deriving DecidableEq, Repr

/-- The wording of a fault, if it has one. -/
def CommandFault.message? : CommandFault → Option Text
  | rules f => f.message?
  | log f => some f.message
  | work f => f.message?
  | noTrait => some (lit "unhashable type: 'list'")

/-- What a command did: its exit code or the fault it ended with, and what it wrote. -/
structure Outcome where
  ending : Except CommandFault Nat
  stdout : Text
  stderr : Text

/-! ## Answers -/

/-- The answer to a command: an exit code, a text and events to note. -/
structure Answer where
  code : Nat
  text : Text
  events : List LogEvent
  deriving DecidableEq, Repr

/-- A file or folder is missing. -/
def FileFault.isAbsence : FileFault → Bool
  | fileMissing _ | rootMissing _ | unlisted _ | system (.walk .missing) => true
  | _ => false

/-- A failure that a command answers. -/
def Failure.isAnswered : Failure → Bool
  | strictLoad _ _ => true
  | file f => f.isAbsence
  | _ => false

/-- The summary of a load. -/
def summaryDocument (report : LoadReport) (ix : TraitIndex) : Json.Document :=
  .object [
    (lit "files", .number report.registered.length),
    (lit "failures", .list (report.failures.map fun f =>
      .object [(lit "path", .text f.path), (lit "errors", .list (f.faults.map fun e => .text e.code))])),
    (lit "traits", .object (ix.summary.map fun (t, n) => (t, .number n)))]

/-- The answer of `load` to a load that came to its end. -/
def loadAnswer (report : LoadReport) (ix : TraitIndex) : Answer :=
  ⟨if report.success then 0 else 1, (summaryDocument report ix).render 0 ++ lit "\n", []⟩

/-- The answer of `show` to a load that came to its end. -/
def showAnswer (trait_ : Text) (ix : TraitIndex) : Answer :=
  match ix.implementorsOf trait_ with
  | [] => ⟨1, [], [.noImplementors trait_]⟩
  | ds => ⟨0, ds.flatMap (· ++ lit "\n"), []⟩

/-- The answer of a command, given how the load ended and the index after it. -/
def answerLoad (command : Command) (ix : TraitIndex) (loaded : Except Failure LoadReport) :
    Except CommandFault Answer :=
  match loaded, command with
  | .ok report, .load => .ok (loadAnswer report ix)
  | .ok _, .showTrait (.text trait_) => .ok (showAnswer trait_ ix)
  | .ok _, .showTrait .absent => .error .noTrait
  | .error f, .load =>
    if f.isAnswered then .ok ⟨1, [], [.loadFailed (f.message?.getD [])]⟩ else .error (.work f)
  | .error f, .showTrait _ =>
    if f.isAnswered then .ok ⟨1, [], [.showFailed (f.message?.getD [])]⟩ else .error (.work f)

namespace Catalog

/-- Loads a fresh catalog: how the load ended, and the stage after it. -/
def loadFresh (c : Catalog) (tree : FileTree) (strict : Bool) :
    Except Failure LoadReport × Stage (Hook Unit) TraitIndex :=
  (c.loadIndex (call collect) tree () strict).run.run (.fresh .empty)

/-- Answers a command on a fresh catalog; gives the events that were noted, oldest first. -/
def answer (c : Catalog) (tree : FileTree) (command : Command) (strict : Bool) :
    Except CommandFault Answer × List LogEvent :=
  let (loaded, stage) := c.loadFresh tree strict
  match answerLoad command stage.world loaded with
  | .ok a => (.ok a, stage.log ++ a.events)
  | .error f => (.error f, stage.log)

end Catalog

/-! ## Programs -/

/-- The surroundings of a program: the files, the folder it runs in, the codecs that there are
    besides the usual encodings, the path of the rules file that they give, and the time. -/
structure Surroundings where
  tree : FileTree
  here : Location
  codecs : Text → Option Codec
  rulesPath? : Option Text
  stamp : Text

/-- Carries out arguments. -/
def runArguments (s : Surroundings) (args : Arguments) : Outcome :=
  let path := Rules.findPath args.rulesPath? s.rulesPath?
  match s.tree.exists? (path.partsFrom s.here) with
  | .error f => ⟨.error (.rules (.file (.system (.walk f)))), [], []⟩
  | .ok false => ⟨.ok 1, [], (LogEvent.rulesMissing path.render).message ++ lit "\n"⟩
  | .ok true =>
    match Rules.load s.tree s.here path with
    | .error f => ⟨.error (.rules f), [], []⟩
    | .ok rules =>
      match LogSettings.make rules.log.level rules.log.format args.verbose with
      | .error f => ⟨.error (.log f), [], []⟩
      | .ok log =>
        match Catalog.atRoot s.tree s.here s.codecs args.root rules with
        | .error f => ⟨.error (.work (.file f)), [], []⟩
        | .ok c =>
          match c.answer s.tree args.command args.strict with
          | (.ok a, events) => ⟨.ok a.code, a.text, log.lines s.stamp events⟩
          | (.error f, events) => ⟨.error f, [], log.lines s.stamp events⟩

/-- Carries out a command line. -/
def runProgram (s : Surroundings) (words : List Text) : Outcome :=
  match Arguments.parse words with
  | .error stop => ⟨.ok stop.code, [], []⟩
  | .ok args => runArguments s args

end TraitCatalog
