/-
  From a YAML text to its tokens.

  What a place may hold depends on the surroundings, which a `Lexer` keeps: the columns of
  the open block collections, the open brackets, and the places where a key may have
  started.  That a scalar is a key shows only at the colon after it; then the token `key`
  is put in front of it, and `blockMapping` too if a mapping starts there.  A key lies on
  one line and is at most 1024 code points long.

  `tokenize` gives the tokens with the fault that ended them, if there is one: what reads
  the tokens meets the fault only after all of them.  A token that may turn out to be the
  start of a key is not given out before that is decided, so a fault that comes first hides
  it and all tokens after it (`Lexer.settled`).
-/
import TraitCatalog.Yaml.Lexeme

namespace TraitCatalog.Yaml

open Text (lit)

/-- A place where a key may have started, inside `depth` brackets and after `before` tokens.
    One that is `required` has to be a key, because a line of a block mapping starts there. -/
structure KeyPlace where
  depth : Nat
  before : Nat
  required : Bool
  line : Nat
  column : Nat
  index : Nat

/-- The length that a key may have. -/
def keyLimit : Nat := 1024

/-- Tokens being read. -/
structure Lexer where
  cursor : Cursor
  /-- The tokens so far, the latest first. -/
  made : List Token
  count : Nat
  /-- The columns of the open block collections, the innermost first. -/
  indents : List Nat
  /-- The number of open brackets. -/
  depth : Nat
  /-- Where keys may have started, at most once for each number of brackets, the innermost
      first. -/
  keys : List KeyPlace
  /-- A key may start here. -/
  keyAllowed : Bool

namespace Lexer

/-- The start of a text. -/
def start (t : Text) : Lexer :=
  ⟨.start t, [], 0, [], 0, [], true⟩

/-- Inside brackets. -/
def inFlow (s : Lexer) : Bool :=
  s.depth != 0

/-- Adds a token. -/
def emit (s : Lexer) (t : Token) : Lexer :=
  { s with made := t :: s.made, count := s.count + 1 }

/-- Adds a token and goes on at `c`. -/
def emitAt (s : Lexer) (t : Token) (c : Cursor) : Lexer :=
  { s.emit t with cursor := c }

/-- Adds the token of one sign. -/
def emitSign (s : Lexer) (t : Token) : Lexer :=
  s.emitAt t s.cursor.next

/-- Adds a token in front of the one that came after `before` others. -/
def emitAfter (s : Lexer) (before : Nat) (t : Token) : Lexer :=
  let later := s.count - before
  { s with made := s.made.take later ++ t :: s.made.drop later, count := s.count + 1 }

/-! ## Keys -/

/-- A place that can no longer be a key's: another line, or too far behind. -/
def isStale (c : Cursor) (k : KeyPlace) : Bool :=
  k.line != c.line || c.index - k.index > keyLimit

/-- The place where a key may have started inside the innermost brackets. -/
def key? (s : Lexer) : Option KeyPlace :=
  s.keys.head?.filter (·.depth == s.depth)

/-- The places outside the innermost brackets. -/
def outerKeys (s : Lexer) : List KeyPlace :=
  if s.key?.isSome then s.keys.tail else s.keys

/-- Gives the innermost place up, which is an error if a key was required there. -/
def forgetKey (s : Lexer) : Except Fault Lexer := do
  require !(s.key?.any (·.required))
  return { s with keys := s.outerKeys }

/-- Gives up all places that can no longer be a key's.  If a place is stale, so are those
    outside it, because they came before it. -/
def dropStale (s : Lexer) : Except Fault Lexer := do
  let fresh := s.keys.takeWhile (!isStale s.cursor ·)
  require !((s.keys.drop fresh.length).any (·.required))
  return { s with keys := fresh }

/-- Notes that a key may start here. -/
def noteKey (s : Lexer) : Except Fault Lexer :=
  if s.keyAllowed then do
    let c := s.cursor
    let required := !s.inFlow && s.indents.head? == some c.column
    let s ← s.forgetKey
    return { s with keys := ⟨s.depth, s.count, required, c.line, c.column, c.index⟩ :: s.keys }
  else .ok s

/-! ## Indentation -/

/-- Closes the block collections that stand further right than `column`. -/
def closeTo (column : Nat) : (indents : List Nat) → Lexer → Lexer
  | i :: is, s => if column < i then closeTo column is { s.emit .blockEnd with indents := is } else s
  | [], s => s

/-- Closes the block collections that stand further right than the place. -/
def unwind (s : Lexer) : Lexer :=
  if s.inFlow then s else closeTo s.cursor.column s.indents s

/-- Closes all block collections. -/
def unwindAll (s : Lexer) : Lexer :=
  if s.inFlow then s
  else { s.indents.foldl (fun s _ => s.emit .blockEnd) s with indents := [] }

/-- A block collection that starts at `column` is new. -/
def isDeeper (s : Lexer) (column : Nat) : Bool :=
  s.indents.head?.all (· < column)

/-- Opens a block collection here, if it is new; `t` announces it. -/
def openBlock (s : Lexer) (t : Token) : Lexer :=
  let column := s.cursor.column
  if s.isDeeper column then { s.emit t with indents := column :: s.indents } else s

/-! ## Single tokens -/

/-- Skips spaces, comments and breaks.  Outside brackets a key may start after a break. -/
def skipGaps : (n : Nat) → Lexer → Lexer
  | 0, s => s
  | n + 1, s =>
    let c := s.cursor.skipSpaces.skipComment
    if c.sees 0 isBreak then
      skipGaps n { s with cursor := c.takeBreak.2, keyAllowed := s.keyAllowed || !s.inFlow }
    else { s with cursor := c }

/-- Ends all that is open, before a directive, a document marker or the end. -/
def endAll (s : Lexer) : Except Fault Lexer := do
  let s ← s.unwindAll.forgetKey
  return { s with keyAllowed := false }

/-- A document marker. -/
def documentMarker (s : Lexer) (t : Token) : Except Fault Lexer := do
  let s ← s.endAll
  return s.emitAt t (s.cursor.skip 3)

/-- An opening bracket, which may be the start of a key. -/
def openFlow (s : Lexer) (t : Token) : Except Fault Lexer := do
  let s ← s.noteKey
  return { s.emitSign t with depth := s.depth + 1, keyAllowed := true }

/-- A closing bracket. -/
def closeFlow (s : Lexer) (t : Token) : Lexer :=
  { s.emitSign t with depth := s.depth - 1, keys := s.outerKeys, keyAllowed := false }

/-- A comma. -/
def comma (s : Lexer) : Except Fault Lexer := do
  let s ← s.forgetKey
  return { s.emitSign .comma with keyAllowed := true }

/-- The hyphen of a block sequence. -/
def item (s : Lexer) : Except Fault Lexer := do
  require (s.inFlow || s.keyAllowed)
  let s ← (if s.inFlow then s else s.openBlock .blockSequence).forgetKey
  return { s.emitSign .item with keyAllowed := true }

/-- The question mark of a key. -/
def keySign (s : Lexer) : Except Fault Lexer := do
  require (s.inFlow || s.keyAllowed)
  let s ← (if s.inFlow then s else s.openBlock .blockMapping).forgetKey
  return { s.emitSign .key with keyAllowed := !s.inFlow }

/-- The colon of a value.  What started at the innermost place, if there is one, is its
    key. -/
def valueSign (s : Lexer) : Except Fault Lexer := do
  match s.key? with
  | some k =>
    let s := { s.emitAfter k.before .key with keys := s.outerKeys, keyAllowed := false }
    let s := if !s.inFlow && s.isDeeper k.column then
        { s.emitAfter k.before .blockMapping with indents := k.column :: s.indents }
      else s
    return s.emitSign .value
  | none =>
    require (s.inFlow || s.keyAllowed)
    let s := if s.inFlow then s else s.openBlock .blockMapping
    return { s.emitSign .value with keyAllowed := !s.inFlow }

/-- A token that may be the start of a key, or all of it. -/
def content (s : Lexer) (read : Cursor → Except Fault (Token × Cursor)) : Except Fault Lexer := do
  let s ← s.noteKey
  let (t, c) ← read s.cursor
  return { s.emitAt t c with keyAllowed := false }

/-- A block scalar. -/
def block (s : Lexer) (folded : Bool) : Except Fault Lexer := do
  let s ← s.forgetKey
  let (t, c) ← readBlock folded s.indents.head? s.cursor
  return { s.emitAt (.scalar false t) c with keyAllowed := true }

/-- A plain scalar. -/
def plain (s : Lexer) : Except Fault Lexer := do
  let s ← s.noteKey
  let (t, broke, c) := readPlain s.inFlow (s.indents.head?.elim 0 (· + 1)) s.cursor
  return { s.emitAt (.scalar true t) c with keyAllowed := broke }

/-- A plain scalar may start here. -/
def startsPlain (s : Lexer) : Bool :=
  let c := s.cursor
  c.sees 0 (fun ch => !(isSeparator ch || ch.isOneOf "-?:,[]\x7b\x7d#&*!|>'\"%@`")) ||
    (!c.seesGap 1 && (c.seesChar 0 '-' || (!s.inFlow && c.sees 0 (·.isOneOf "?:"))))

/-- The next token, where no gap stands. -/
def token (s : Lexer) : Except Fault Lexer :=
  let c := s.cursor
  match c.peek 0 with
  | none => do return (← s.endAll).emit .streamEnd
  | some ch =>
    let sees (x : Char) : Bool := ch == .scalar x
    if sees '%' && c.column == 0 then do
      let s ← s.endAll
      let (t, c) ← readDirective s.cursor
      return s.emitAt t c
    else if c.column == 0 && c.seesMarker '-' then s.documentMarker .documentStart
    else if c.column == 0 && c.seesMarker '.' then s.documentMarker .documentEnd
    else if sees '[' then s.openFlow .openSequence
    else if sees '\x7b' then s.openFlow .openMapping
    else if sees ']' then .ok (s.closeFlow .closeSequence)
    else if sees '\x7d' then .ok (s.closeFlow .closeMapping)
    else if sees ',' then s.comma
    else if sees '-' && c.seesGap 1 then s.item
    else if sees '?' && (s.inFlow || c.seesGap 1) then s.keySign
    else if sees ':' && (s.inFlow || c.seesGap 1) then s.valueSign
    else if sees '*' then
      s.content fun c => do let (name, c) ← readAnchorName c; return (.alias name, c)
    else if sees '&' then
      s.content fun c => do let (name, c) ← readAnchorName c; return (.anchor name, c)
    else if sees '!' then s.content readTag
    else if sees '|' && !s.inFlow then s.block false
    else if sees '>' && !s.inFlow then s.block true
    else if sees '\'' then
      s.content fun c => do let (t, c) ← readQuoted false c; return (.scalar false t, c)
    else if sees '"' then
      s.content fun c => do let (t, c) ← readQuoted true c; return (.scalar false t, c)
    else if s.startsPlain then s.plain
    else .error .invalid

/-- The next token, with the block collections that end before it. -/
def step (s : Lexer) : Except Fault Lexer := do
  let s ← (skipGaps s.cursor.bound s).dropStale
  s.unwind.token

/-- The tokens in front of the first one that may still be the start of a key. -/
def settled (s : Lexer) : List Token :=
  let fresh := s.keys.takeWhile (!isStale s.cursor ·)
  s.made.reverse.take (fresh.getLast?.elim s.count (·.before))

/-- All tokens, and the fault that ended them.  A closing bracket that closes nothing ends
    them too. -/
def run : (n : Nat) → Lexer → List Token × Option Fault
  | 0, s => (s.made.reverse, some .invalid)
  | n + 1, s =>
    match s.step with
    | .error f => (s.settled, some f)
    | .ok s' =>
      match s'.made with
      | .streamEnd :: _ => (s'.made.reverse, none)
      | .closeSequence :: _ | .closeMapping :: _ =>
        if s.inFlow then run n s' else (s'.made.reverse, some .invalid)
      | _ => run n s'

end Lexer

/-- The tokens of a text, and the fault that ended them.  A byte order mark at the front is
    skipped; a code point that may not stand in a YAML text spoils all of it. -/
def tokenize (t : Text) : List Token × Option Fault :=
  if t.all isPrintable then
    let s := Lexer.start t
    let s := if t.head? == some byteOrderMark then { s with cursor := s.cursor.next } else s
    s.run (t.length + 2)
  else ([], some .invalid)

end TraitCatalog.Yaml
