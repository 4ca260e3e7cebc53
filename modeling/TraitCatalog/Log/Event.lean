/-
  What the program notes in its log.

  A `LogEvent` is what happened; its level, the logger that notes it, its wording and the
  place it is noted at are derived from it here.  The wording is made of fixed words and of
  values that stand in it (`LogEvent.parts`), so that a log line can also show the wording
  with places for the values (`template`), and the values by themselves (`values`).
-/
import TraitCatalog.Files.Store

namespace TraitCatalog

open Text (lit)

/-- How grave an event is. -/
inductive LogLevel where
  | debug
  | info
  | warning
  | error
  deriving DecidableEq, Repr

namespace LogLevel

/-- The name of a level. -/
def name : LogLevel → Text
  | debug => lit "DEBUG"
  | info => lit "INFO"
  | warning => lit "WARNING"
  | error => lit "ERROR"

/-- The rank of a level. -/
def rank : LogLevel → Nat
  | debug => 10
  | info => 20
  | warning => 30
  | error => 40

end LogLevel

/-- An event worth a line in the log. -/
inductive LogEvent where
  /-- A map with this many traits waits for a hook; this many maps wait now. -/
  | queued (traits pending : Nat)
  | hookReplaced
  | hookInstalled (drained : Nat)
  /-- A file could not be read. -/
  | unreadable (path : Text) (fault : FileFault)
  /-- A file has faults. -/
  | faulty (path : Text) (messages : List Text)
  | registered (traitPath : Text) (implementors : Nat)
  | loaded (registered failed : Nat)
  | delivering (implementors : Nat) (trait_ : Text)
  | found (files : Nat) (root : Text)
  | rulesMissing (path : Text)
  /-- Loading the index ended early while `load` was at work. -/
  | loadFailed (message : Text)
  /-- Loading the index ended early while `show` was at work. -/
  | showFailed (message : Text)
  | noImplementors (trait_ : Text)
  deriving DecidableEq, Repr

/-- A part of the wording of an event: fixed words, or a value. -/
inductive LogPart where
  | words (t : Text)
  | number (n : Nat)
  | text (t : Text)
  /-- The path of a folder. -/
  | place (path : Text)
  /-- Why a file was skipped. -/
  | fault (f : FileFault)
  deriving DecidableEq, Repr

namespace LogPart

/-- A part as it is worded. -/
def render : LogPart → Text
  | words t | text t | place t => t
  | number n => Text.ofNat n
  | fault f => f.message?.getD []

/-- What stands in the place of a part before its value is known. -/
def slot : LogPart → Text
  | words t => t
  | number _ => lit "%d"
  | text _ | place _ | fault _ => lit "%s"

/-- The value of a part, as it is shown. -/
def value? : LogPart → Option Text
  | words _ => none
  | number n => some (Text.ofNat n)
  | text t => some t.shown
  | place t => some (lit "PosixPath(" ++ t.shown ++ lit ")")
  | fault f => some f.shown

end LogPart

/-- Where an event is noted. -/
structure LogSite where
  logger : String
  module_ : String
  function : String
  line : Nat

namespace LogEvent

/-- The level of an event. -/
def level : LogEvent → LogLevel
  | queued _ _ | registered _ _ | delivering _ _ | found _ _ => .debug
  | hookInstalled _ | loaded _ _ => .info
  | hookReplaced | unreadable _ _ | faulty _ _ => .warning
  | rulesMissing _ | loadFailed _ | showFailed _ | noImplementors _ => .error

/-- The place where an event is noted. -/
def site : LogEvent → LogSite
  | queued _ _ => ⟨"src.components.implementors._impl", "_impl", "register", 76⟩
  | hookReplaced => ⟨"src.components.implementors._impl", "_impl", "install_hook", 94⟩
  | hookInstalled _ => ⟨"src.components.implementors._impl", "_impl", "install_hook", 113⟩
  | unreadable _ _ => ⟨"src.components.loader._impl", "_impl", "load_file", 55⟩
  | faulty _ _ => ⟨"src.components.loader._impl", "_impl", "load_file", 68⟩
  | registered _ _ => ⟨"src.components.loader._impl", "_impl", "load_file", 76⟩
  | loaded _ _ => ⟨"src.components.loader._impl", "_impl", "load_all", 102⟩
  | delivering _ _ => ⟨"src.shell.hooks.index_hooks", "index_hooks", "__call__", 87⟩
  | found _ _ => ⟨"src.adapters.fs.datafile_store", "datafile_store", "list_datafiles", 31⟩
  | rulesMissing _ => ⟨"cli", "cli", "get_context", 23⟩
  | loadFailed _ => ⟨"cli", "cli", "handle_load", 42⟩
  | showFailed _ => ⟨"cli", "cli", "handle_show", 61⟩
  | noImplementors _ => ⟨"cli", "cli", "handle_show", 66⟩

/-- The logger that notes an event. -/
def logger (e : LogEvent) : Text :=
  lit e.site.logger

/-- The wording of an event, part by part. -/
def parts : LogEvent → List LogPart
  | queued n k =>
    [.words (lit "Queued implementor map ("), .number n, .words (lit " traits), "), .number k,
      .words (lit " pending")]
  | hookReplaced => [.words (lit "Implementor hook already installed; replacing it")]
  | hookInstalled n =>
    [.words (lit "Implementor hook installed, drained "), .number n, .words (lit " pending map(s)")]
  | unreadable path f => [.words (lit "Skipping "), .text path, .words (lit ": "), .fault f]
  | faulty path messages =>
    [.words (lit "Skipping "), .text path, .words (lit ": "), .text (Text.join (lit "; ") messages)]
  | registered t n =>
    [.words (lit "Registered "), .text t, .words (lit " ("), .number n, .words (lit " implementors)")]
  | loaded n k =>
    [.words (lit "Loaded "), .number n, .words (lit " data file(s), "), .number k,
      .words (lit " failed")]
  | delivering n t =>
    [.words (lit "Delivering "), .number n, .words (lit " implementor(s) of "), .text t]
  | found n root =>
    [.words (lit "Found "), .number n, .words (lit " data file(s) under "), .place root]
  | rulesMissing path => [.words (lit "Rules file " ++ path ++ lit " not found.")]
  | loadFailed m | showFailed m => [.words m]
  | noImplementors t => [.words (lit "No implementors found for " ++ t ++ lit ".")]

/-- The wording of an event. -/
def message (e : LogEvent) : Text :=
  e.parts.flatMap LogPart.render

/-- The wording of an event with places for its values. -/
def template (e : LogEvent) : Text :=
  e.parts.flatMap LogPart.slot

/-- The values in the wording of an event, as they are shown. -/
def values (e : LogEvent) : List Text :=
  e.parts.filterMap LogPart.value?

end LogEvent

end TraitCatalog
