/-
  The arguments of a command line.

  Options of the program come first, then the name of a command and the arguments of the
  command, among which its own options may stand anywhere.  A long option may be shortened
  as long as it stays unique, a value may be attached by `=`, and short options may be
  clustered.  Everything after `--` is a value; but a further `--` in the place of a value
  stands for none, unless the first one was read with it.

  Words are sorted before any of them is used (`OptionTable.sortAll`), so an ambiguous word
  is refused first; after that the words are used in order, and help is given, or a usage
  error found, where it stands.
-/
import TraitCatalog.Text.Digit

namespace TraitCatalog

open Text (lit)

/-! ## Arguments -/

/-- The value of an argument. -/
inductive ArgumentValue where
  | text (t : Text)
  /-- A word `--` stands in the place of the value. -/
  | absent
  deriving DecidableEq, Repr

/-- The value that one word by itself gives. -/
def ArgumentValue.ofWord (t : Text) : ArgumentValue :=
  if t = lit "--" then absent else text t

/-- A command. -/
inductive Command where
  | load
  | showTrait (trait_ : ArgumentValue)
  deriving DecidableEq, Repr

/-- The arguments of a command line. -/
structure Arguments where
  command : Command
  root : Text
  strict : Bool
  rules? : Option ArgumentValue
  verbose : Bool
  deriving DecidableEq, Repr

/-- The path of the rules file, if one is given. -/
def Arguments.rulesPath? (a : Arguments) : Option Text :=
  match a.rules? with
  | some (.text t) => some t
  | _ => none

/-- Why a command line is not carried out. -/
inductive UsageStop where
  /-- Help was asked for. -/
  | help
  /-- The arguments make no sense. -/
  | misuse
  deriving DecidableEq, Repr

/-- The exit code of a command line that is not carried out. -/
def UsageStop.code : UsageStop → Nat
  | help => 0
  | misuse => 2

/-! ## Options -/

/-- An option. -/
inductive Switch where
  | help
  | rules
  | verbose
  | strict
  deriving DecidableEq, Repr

namespace Switch

/-- The option needs a value. -/
def takesValue : Switch → Bool
  | rules => true
  | help | verbose | strict => false

end Switch

/-- The names of options. -/
abbrev OptionTable := List (String × Switch)

/-- A word of a command line. -/
inductive Word where
  | plain
  /-- `--`, after which all words are plain. -/
  | divider
  /-- A known option, the name it is known by, and a value attached to it. -/
  | option (s : Switch) (name : Text) (attached? : Option Text)
  /-- What looks like an option but is none. -/
  | unknown
  deriving DecidableEq, Repr

/-- A negative number, which is no option. -/
def isNegativeNumber (t : Text) : Bool :=
  match Text.dropLead? (lit "-") ((Text.dropTail? (lit "\n") t).getD t) with
  | none => false
  | some t =>
    let whole := t.takeWhile CodePoint.isDecimal
    match t.drop whole.length with
    | [] => !whole.isEmpty
    | .scalar '.' :: part => !part.isEmpty && part.all CodePoint.isDecimal
    | _ => false

/-- A text before and after its first equals sign. -/
def splitAttached (t : Text) : Text × Option Text :=
  let name := t.takeWhile (· != .scalar '=')
  (name, (t.drop name.length).tail?)

namespace OptionTable

/-- The option of a name. -/
def find (table : OptionTable) (name : Text) : Option Switch :=
  (table.find? fun p => lit p.1 = name).map (·.2)

/-- The options that a word may be short for: a long one by the start of its name, or a
    short one with more letters after it. -/
def candidates (table : OptionTable) (t : Text) : List (Switch × Text × Option Text) :=
  if t.startsWith (lit "--") then
    let (start, attached?) := splitAttached t
    table.filterMap fun (name, s) =>
      if (lit name).startsWith start then some (s, lit name, attached?) else none
  else
    table.filterMap fun (name, s) =>
      if lit name = t.take 2 then some (s, lit name, some (t.drop 2))
      else if (lit name).startsWith t then some (s, lit name, none)
      else none

/-- What a word before any divider is. -/
def sort (table : OptionTable) (t : Text) : Except UsageStop Word :=
  if !t.startsWith (lit "-") then .ok .plain
  else if let some s := table.find t then .ok (.option s t none)
  else if t.length = 1 then .ok .plain
  else
    let (name, attached?) := splitAttached t
    match attached?.bind fun v => (table.find name).map fun s => (s, v) with
    | some (s, v) => .ok (.option s name (some v))
    | none =>
      match table.candidates t with
      | [(s, name, attached?)] => .ok (.option s name attached?)
      | _ :: _ :: _ => .error .misuse
      | [] =>
        .ok (if isNegativeNumber t || t.contains (.scalar ' ') then .plain else .unknown)

/-- What all words are. -/
def sortAll (table : OptionTable) : List Text → Except UsageStop (List (Text × Word))
  | [] => .ok []
  | t :: ts =>
    if t = lit "--" then .ok ((t, .divider) :: ts.map fun t => (t, .plain))
    else do
      let w ← table.sort t
      return (t, w) :: (← sortAll table ts)

/-- The options without values in a cluster, after the first one. -/
def cluster (table : OptionTable) : (letters : Text) → Except UsageStop (List Switch)
  | [] => .ok []
  | c :: cs =>
    match table.find [.scalar '-', c] with
    | some s => if s.takesValue then .error .misuse else (table.cluster cs).map (s :: ·)
    | none => .error .misuse

/-- The options without values that a word stands for.  Only a short option may have more
    letters after it. -/
def flags (table : OptionTable) (s : Switch) (name : Text) (attached? : Option Text) :
    Except UsageStop (List Switch) :=
  match attached? with
  | none => .ok [s]
  | some letters =>
    if letters.isEmpty || name.startsWith (lit "--") then .error .misuse
    else (table.cluster letters).map (s :: ·)

end OptionTable

/-! ## Commands -/

/-- The options of the commands. -/
def commandOptions : OptionTable :=
  [("-h", .help), ("--help", .help), ("--strict", .strict)]

/-- What has been read of the arguments of a command. -/
structure CommandValues where
  /-- The values that the command wants, as far as they have come. -/
  values : List ArgumentValue
  strict : Bool
  /-- There was a word that nothing wants. -/
  excess : Bool

/-- Uses options of a command. -/
def useCommandFlags (v : CommandValues) : List Switch → Except UsageStop CommandValues
  | [] => .ok v
  | .help :: _ => .error .help
  | .strict :: rest => useCommandFlags { v with strict := true } rest
  | _ :: rest => useCommandFlags v rest

/-- The word before another one. -/
inductive WordBefore where
  /-- A value. -/
  | value
  /-- A divider that is read with the value after it. -/
  | divider
  | other
  deriving DecidableEq, Repr

/-- Reads the words of a command that wants `wanted` more values, after the word `before`.
    A divider is read with the value before it, if there is one, else with the value after
    it. -/
def readCommand (wanted : Nat) (before : WordBefore) (v : CommandValues) :
    List (Text × Word) → Except UsageStop (Nat × CommandValues)
  | [] => .ok (wanted, v)
  | (t, .plain) :: ws =>
    match wanted with
    | wanted + 1 =>
      let value := if before = .divider then .text t else ArgumentValue.ofWord t
      readCommand wanted .value { v with values := v.values ++ [value] } ws
    | 0 => readCommand 0 .other { v with excess := true } ws
  | (_, .divider) :: ws =>
    if before = .value then readCommand wanted .other v ws
    else
      let used := 0 < wanted && !ws.isEmpty
      readCommand wanted .divider { v with excess := v.excess || !used } ws
  | (_, .unknown) :: ws => readCommand wanted .other { v with excess := true } ws
  | (_, .option s name attached?) :: ws => do
    let v ← useCommandFlags v (← commandOptions.flags s name attached?)
    readCommand wanted .other v ws

/-- The values of a command that wants `wanted` of them. -/
def parseCommand (wanted : Nat) (words : List Text) : Except UsageStop CommandValues := do
  let sorted ← commandOptions.sortAll words
  match ← readCommand wanted .other ⟨[], false, false⟩ sorted with
  | (0, v) => return v
  | _ => throw .misuse

/-! ## Command lines -/

/-- The options of the program. -/
def programOptions : OptionTable :=
  [("-h", .help), ("--help", .help), ("--rules", .rules), ("-v", .verbose), ("--verbose", .verbose)]

/-- What has been read before the command. -/
structure ProgramValues where
  rules? : Option ArgumentValue
  verbose : Bool
  excess : Bool

/-- Uses options of the program. -/
def useProgramFlags (v : ProgramValues) : List Switch → Except UsageStop ProgramValues
  | [] => .ok v
  | .help :: _ => .error .help
  | .verbose :: rest => useProgramFlags { v with verbose := true } rest
  | _ :: rest => useProgramFlags v rest

/-- The arguments that a command and what came before it make. -/
def finish (p : ProgramValues) (name : Text) (words : List Text) : Except UsageStop Arguments := do
  let make (command : Command) (root : Text) (v : CommandValues) : Except UsageStop Arguments :=
    if p.excess || v.excess then .error .misuse
    else .ok ⟨command, root, v.strict, p.rules?, p.verbose⟩
  if name = lit "load" then
    let v ← parseCommand 1 words
    match v.values with
    | [.text root] => make .load root v
    | _ => throw .misuse
  else if name = lit "show" then
    let v ← parseCommand 2 words
    match v.values with
    | [.text root, trait_] => make (.showTrait trait_) root v
    | _ => throw .misuse
  else throw .misuse

/-- Reads the words up to the name of the command. -/
def readProgram (p : ProgramValues) : List (Text × Word) → Except UsageStop Arguments
  | [] => .error .misuse
  | (t, .plain) :: ws => finish p t (ws.map (·.1))
  | (_, .divider) :: _ => .error .misuse
  | (_, .unknown) :: ws => readProgram { p with excess := true } ws
  | (_, .option s name attached?) :: ws =>
    if s.takesValue then
      match attached?, ws with
      | some v, ws => readProgram { p with rules? := some (.ofWord v) } ws
      | none, (v, .plain) :: ws => readProgram { p with rules? := some (.ofWord v) } ws
      | none, _ => .error .misuse
    else do
      let p ← useProgramFlags p (← programOptions.flags s name attached?)
      readProgram p ws

/-- The arguments of a command line. -/
def Arguments.parse (words : List Text) : Except UsageStop Arguments := do
  readProgram ⟨none, false, false⟩ (← programOptions.sortAll words)

end TraitCatalog
