/-
  Reading single lexemes of a YAML text.

  Each reader starts at a cursor and gives what it read with the cursor after it.  Every
  round of a loop takes part of the text, so the bound of the cursor is never reached.

  * `readAnchorName`, `readTag`, `readDirective`: the small ones;
  * `readQuoted`: single and double quotes, with folded breaks and escapes;
  * `readPlain`: scalars without quotes, which end where the surroundings say so;
  * `readBlock`: literal and folded blocks, by their indentation.
-/
import TraitCatalog.Text.Codec
import TraitCatalog.Yaml.Cursor
import TraitCatalog.Yaml.Fault
import TraitCatalog.Yaml.Token

namespace TraitCatalog.Yaml

open Text (lit)

/-- A faulty text unless `b`. -/
def require (b : Bool) : Except Fault Unit :=
  if b then .ok () else .error .invalid

/-- The text ends `k` places ahead, or a space or break is there. -/
def Cursor.seesWordEnd (c : Cursor) (k : Nat) : Bool :=
  (c.peek k).all fun ch => ch == .scalar ' ' || isBreak ch

/-- The place after a comment, if one stands here. -/
def Cursor.skipComment (c : Cursor) : Cursor :=
  if c.seesChar 0 '#' then (c.takeWhile (!isBreak ·)).2 else c

/-- What is left of a line that may hold only a comment. -/
def Cursor.skipRestOfLine (c : Cursor) : Except Fault Cursor := do
  let c := c.skipSpaces.skipComment
  require (c.seesLineEnd 0)
  return c.takeBreak.2

/-- The value of some digits in base sixteen, if all of them are. -/
def hexValue? (t : Text) : Option Nat :=
  t.foldl (fun n? c => do return (← n?) * 16 + (← c.hexDigit?)) (some 0)

/-! ## Anchors and aliases -/

/-- The name of an anchor or alias, whose sign stands here. -/
def readAnchorName (c : Cursor) : Except Fault (Text × Cursor) := do
  let (name, c) := c.next.takeWhile isNamePoint
  require (!name.isEmpty && (c.seesGap 0 || c.sees 0 (·.isOneOf "?:,]\x7d%@`")))
  return (name, c)

/-! ## Tags -/

/-- A code point of a tag, other than the sign of an escape. -/
def isTagPoint (c : CodePoint) : Bool :=
  c.isDigit || c.isLetter || c.isOneOf "-;/?:@&=+$,_.!~*'()[]"

/-- The bytes that escapes stand for, as far as they go. -/
def readEscapedBytes : (n : Nat) → Cursor → Except Fault (List UInt8 × Cursor)
  | 0, c => .ok ([], c)
  | n + 1, c =>
    if c.seesChar 0 '%' then do
      let digits := c.next.rest.take 2
      require (digits.length == 2)
      match hexValue? digits with
      | none => throw .invalid
      | some b =>
        let (bs, c) ← readEscapedBytes n (c.skip 3)
        return (.ofNat b :: bs, c)
    else .ok ([], c)

/-- The body of a tag, escapes resolved. -/
def readTagPieces : (n : Nat) → Cursor → Except Fault (Text × Cursor)
  | 0, c => .ok ([], c)
  | n + 1, c =>
    if c.seesChar 0 '%' then do
      let (bytes, c) ← readEscapedBytes c.bound c
      match Utf8.decode bytes with
      | .error _ => throw .invalid
      | .ok piece =>
        let (t, c) ← readTagPieces n c
        return (piece ++ t, c)
    else if c.sees 0 isTagPoint then do
      let (piece, c) := c.takeWhile isTagPoint
      let (t, c) ← readTagPieces n c
      return (piece ++ t, c)
    else .ok ([], c)

/-- The body of a tag, which is not empty. -/
def readTagBody (c : Cursor) : Except Fault (Text × Cursor) := do
  let (t, c) ← readTagPieces c.bound c
  require (!t.isEmpty)
  return (t, c)

/-- The handle of a tag: `!`, `!!` or `!name!`. -/
def readTagHandle (c : Cursor) : Except Fault (Text × Cursor) := do
  require (c.seesChar 0 '!')
  if c.seesChar 1 ' ' then return (lit "!", c.next)
  let (name, c) := c.next.takeWhile isNamePoint
  require (c.seesChar 0 '!')
  return (lit "!" ++ name ++ lit "!", c.next)

/-- A tag, whose sign stands here: `!<body>`, `!` alone, or a handle and a body. -/
def readTag (c : Cursor) : Except Fault (Token × Cursor) := do
  let (token, c) ←
    if c.seesChar 1 '<' then do
      let (body, c) ← readTagBody (c.skip 2)
      require (c.seesChar 0 '>')
      pure (Token.tag none body, c.next)
    else if c.seesGap 1 then pure (Token.tag none (lit "!"), c.next)
    else do
      let word := (c.rest.drop 1).takeWhile fun ch => !(ch == .scalar ' ' || isBreak ch)
      let (handle, c) ←
        if word.contains (.scalar '!') then readTagHandle c else pure (lit "!", c.next)
      let (body, c) ← readTagBody c
      pure (Token.tag (some handle) body, c)
  require (c.seesWordEnd 0)
  return (token, c)

/-! ## Directives -/

/-- A number of a version. -/
def readVersionNumber (c : Cursor) : Except Fault (Nat × Cursor) := do
  let (digits, c) := c.takeWhile CodePoint.isDigit
  require (!digits.isEmpty)
  if digits.length > Json.digitLimit then throw (.longInteger digits.length)
  return (digits.foldl (fun n d => n * 10 + (d.toNat - 0x30)) 0, c)

/-- A directive, whose sign stands here. -/
def readDirective (c : Cursor) : Except Fault (Token × Cursor) := do
  let (name, c) := c.next.takeWhile isNamePoint
  require (!name.isEmpty && c.seesWordEnd 0)
  let (token, c) ←
    if name = lit "YAML" then do
      let (major, c) ← readVersionNumber c.skipSpaces
      require (c.seesChar 0 '.')
      let (minor, c) ← readVersionNumber c.next
      require (c.seesWordEnd 0)
      pure (Token.version major minor, c)
    else if name = lit "TAG" then do
      let (handle, c) ← readTagHandle c.skipSpaces
      require (c.seesChar 0 ' ')
      let (lead, c) ← readTagBody c.skipSpaces
      require (c.seesWordEnd 0)
      pure (Token.tagHandle handle lead, c)
    else pure (Token.directive, (c.takeWhile (!isBreak ·)).2)
  return (token, ← c.skipRestOfLine)

/-! ## Scalars in quotes -/

/-- What a break and the empty lines after it become: a single line feed is folded to a
    space. -/
def foldBreak (first rest : Text) : Text :=
  if first ≠ lit "\n" then first ++ rest else if rest.isEmpty then lit " " else rest

/-- The empty lines after a break inside quotes.  A document marker may not stand there. -/
def readQuotedBreaks : (n : Nat) → Cursor → Except Fault (Text × Cursor)
  | 0, _ => .error .invalid
  | n + 1, c =>
    if c.seesDocumentMarker then .error .invalid
    else do
      let c := (c.takeWhile (·.isOneOf " \t")).2
      if c.sees 0 isBreak then
        let (first, c) := c.takeBreak
        let (more, c) ← readQuotedBreaks n c
        return (first ++ more, c)
      else return ([], c)

/-- Blanks inside quotes: kept as they are, or folded if there is a break among them. -/
def readQuotedGap (c : Cursor) : Except Fault (Text × Cursor) := do
  let (blanks, c) := c.takeWhile (·.isOneOf " \t")
  require (!c.atEnd)
  if c.sees 0 isBreak then
    let (first, c) := c.takeBreak
    let (more, c) ← readQuotedBreaks c.bound c
    return (foldBreak first more, c)
  else return (blanks, c)

/-- What the letter of a short escape stands for. -/
def shortEscape? : CodePoint → Option Char
  | .scalar '0' => some '\x00'
  | .scalar 'a' => some '\x07'
  | .scalar 'b' => some '\x08'
  | .scalar 't' => some '\t'
  | .scalar '\t' => some '\t'
  | .scalar 'n' => some '\n'
  | .scalar 'v' => some '\x0b'
  | .scalar 'f' => some '\x0c'
  | .scalar 'r' => some '\r'
  | .scalar 'e' => some '\x1b'
  | .scalar ' ' => some ' '
  | .scalar '"' => some '"'
  | .scalar '\\' => some '\\'
  | .scalar '/' => some '/'
  | .scalar 'N' => some '\u0085'
  | .scalar '_' => some '\u00a0'
  | .scalar 'L' => some '\u2028'
  | .scalar 'P' => some '\u2029'
  | _ => none

/-- The number of digits after the letter of a numeric escape. -/
def escapeWidth? : CodePoint → Option Nat
  | .scalar 'x' => some 2
  | .scalar 'u' => some 4
  | .scalar 'U' => some 8
  | _ => none

/-- The code point of a numeric escape. -/
def escapedPoint (n : Nat) : Except Fault CodePoint :=
  match CodePoint.ofNat? n with
  | some c => .ok c
  | none => .error (if n < 0x80000000 then .pointRange else .pointOverflow)

/-- An escape, after its backslash. -/
def readEscape (c : Cursor) : Except Fault (Text × Cursor) := do
  match c.peek 0 with
  | none => throw .invalid
  | some ch =>
    if let some e := shortEscape? ch then return ([.scalar e], c.next)
    if let some width := escapeWidth? ch then
      let digits := c.next.rest.take width
      require (digits.length == width)
      match hexValue? digits with
      | none => throw .invalid
      | some n => return ([← escapedPoint n], c.skip (width + 1))
    require (isBreak ch)
    readQuotedBreaks c.bound c.takeBreak.2

/-- The next piece of a quoted scalar; none where it ends. -/
def readQuotedPiece (double : Bool) (c : Cursor) : Except Fault (Option Text × Cursor) := do
  match c.peek 0 with
  | none => throw .invalid
  | some ch =>
    if isSeparator ch then
      let (t, c) ← readQuotedGap c
      return (some t, c)
    if double && ch == .scalar '\\' then
      let (t, c) ← readEscape c.next
      return (some t, c)
    if !double && ch == .scalar '\'' && c.seesChar 1 '\'' then return (some (lit "'"), c.skip 2)
    if ch == .scalar (if double then '"' else '\'') then return (none, c.next)
    return (some [ch], c.next)

/-- The pieces of a quoted scalar up to its closing quote. -/
def readQuotedPieces (double : Bool) : (n : Nat) → Cursor → Except Fault (Text × Cursor)
  | 0, _ => .error .invalid
  | n + 1, c => do
    match ← readQuotedPiece double c with
    | (none, c) => return ([], c)
    | (some t, c) =>
      let (more, c) ← readQuotedPieces double n c
      return (t ++ more, c)

/-- A quoted scalar, whose opening quote stands here. -/
def readQuoted (double : Bool) (c : Cursor) : Except Fault (Text × Cursor) :=
  readQuotedPieces double c.bound c.next

/-! ## Plain scalars -/

/-- The code points of a plain scalar up to the next blank, or to an indicator that ends
    it. -/
def plainWord (inFlow : Bool) : Text → Text
  | [] => []
  | ch :: t =>
    let colonEnds := t.head?.all fun d => isSeparator d || (inFlow && d.isOneOf ",[]\x7b\x7d")
    if isSeparator ch || (ch == .scalar ':' && colonEnds) ||
        (inFlow && ch.isOneOf ",?[]\x7b\x7d") then []
    else ch :: plainWord inFlow t

/-- The empty lines after a break in a plain scalar; none if a document marker follows. -/
def readPlainBreaks : (n : Nat) → Cursor → Option Text × Cursor
  | 0, c => (none, c)
  | n + 1, c =>
    if c.seesDocumentMarker then (none, c)
    else
      let c := c.skipSpaces
      if c.sees 0 isBreak then
        let (first, c) := c.takeBreak
        let (more, c) := readPlainBreaks n c
        (more.map (first ++ ·), c)
      else (some [], c)

/-- What stands between two words of a plain scalar, and whether a break was passed; empty
    where the scalar ends. -/
def readPlainGap (c : Cursor) : Text × Bool × Cursor :=
  let (blanks, c) := c.takeWhile (· == .scalar ' ')
  if c.sees 0 isBreak then
    let (first, c) := c.takeBreak
    match readPlainBreaks c.bound c with
    | (none, c) => ([], true, c)
    | (some more, c) => (foldBreak first more, true, c)
  else (blanks, false, c)

/-- The words of a plain scalar, after `gap`; `broke` says whether that gap passed a
    break. -/
def readPlainWords (inFlow : Bool) (indent : Nat) :
    (n : Nat) → (gap : Text) → (broke : Bool) → Cursor → Text × Bool × Cursor
  | 0, _, broke, c => ([], broke, c)
  | n + 1, gap, broke, c =>
    let word := if c.seesChar 0 '#' then [] else plainWord inFlow c.rest
    if word.isEmpty then ([], broke, c)
    else
      let (next, broke, c) := readPlainGap (c.skip word.length)
      if next.isEmpty || c.seesChar 0 '#' || (!inFlow && c.column < indent) then
        (gap ++ word, broke, c)
      else
        let (more, broke, c) := readPlainWords inFlow indent n next broke c
        (gap ++ word ++ more, broke, c)

/-- A plain scalar, and whether a break stands after it.  Outside brackets its lines are
    indented by `indent` at least. -/
def readPlain (inFlow : Bool) (indent : Nat) (c : Cursor) : Text × Bool × Cursor :=
  readPlainWords inFlow indent c.bound [] false c

/-! ## Block scalars -/

/-- What becomes of the breaks at the end of a block scalar. -/
inductive Chomping where
  | strip
  | clip
  | keep
  deriving DecidableEq, Repr

/-- A sign of chomping. -/
def readChomping (c : Cursor) : Option Chomping × Cursor :=
  if c.seesChar 0 '+' then (some .keep, c.next)
  else if c.seesChar 0 '-' then (some .strip, c.next)
  else (none, c)

/-- A digit of indentation, which is not zero. -/
def readIncrement (c : Cursor) : Except Fault (Option Nat × Cursor) := do
  match c.peek 0 with
  | none => return (none, c)
  | some ch =>
    if !ch.isDigit then return (none, c)
    require (ch != .scalar '0')
    return (some (ch.toNat - 0x30), c.next)

/-- The head of a block scalar: chomping and indentation in either order. -/
def readBlockHead (c : Cursor) : Except Fault (Chomping × Option Nat × Cursor) := do
  let (first, c) := readChomping c
  let (increment, c) ← readIncrement c
  let (chomping, c) := if first.isNone && increment.isSome then readChomping c else (first, c)
  require (c.seesWordEnd 0)
  return (chomping.getD .clip, increment, ← c.skipRestOfLine)

/-- The place after spaces that go no further than column `indent`. -/
def Cursor.skipIndent (indent : Nat) (c : Cursor) : Cursor :=
  c.skip ((c.rest.take (indent - c.column)).takeWhile (· == .scalar ' ')).length

/-- The empty lines before a line of a block scalar. -/
def readBlockBreaks (indent : Nat) : (n : Nat) → Cursor → Text × Cursor
  | 0, c => ([], c)
  | n + 1, c =>
    let c := c.skipIndent indent
    if c.sees 0 isBreak then
      let (first, c) := c.takeBreak
      let (more, c) := readBlockBreaks indent n c
      (first ++ more, c)
    else ([], c)

/-- The empty lines before the first line of a block scalar, and the widest indentation
    among them and that line. -/
def readBlockIndent : (n : Nat) → Cursor → Text × Nat × Cursor
  | 0, c => ([], 0, c)
  | n + 1, c =>
    let c := c.skipSpaces
    if c.sees 0 isBreak then
      let width := c.column
      let (first, c) := c.takeBreak
      let (more, widest, c) := readBlockIndent n c
      (first ++ more, max width widest, c)
    else ([], c.column, c)

/-- The lines of a block scalar: their text, the last break, the empty lines at the end. -/
structure BlockLines where
  text : Text
  last : Text
  blank : Text
  cursor : Cursor

/-- The lines of a block scalar, after the empty lines `blank`. -/
def readBlockLines (folded : Bool) (indent : Nat) : (n : Nat) → (blank : Text) → Cursor → BlockLines
  | 0, blank, c => ⟨[], [], blank, c⟩
  | n + 1, blank, c =>
    if c.column = indent && !c.atEnd then
      let flush := !c.sees 0 (·.isOneOf " \t")
      let (line, c) := c.takeWhile (!isBreak ·)
      let (last, c) := c.takeBreak
      let (next, c) := readBlockBreaks indent c.bound c
      if c.column = indent && !c.atEnd then
        let joint :=
          if folded && last = lit "\n" && flush && !c.sees 0 (·.isOneOf " \t") then
            if next.isEmpty then lit " " else []
          else last
        let r := readBlockLines folded indent n next c
        { r with text := blank ++ line ++ joint ++ r.text }
      else ⟨blank ++ line, last, next, c⟩
    else ⟨[], [], blank, c⟩

/-- A block scalar, whose sign stands here, in a collection with indentation `around`. -/
def readBlock (folded : Bool) (around : Option Nat) (c : Cursor) : Except Fault (Text × Cursor) := do
  let (chomping, increment, c) ← readBlockHead c.next
  let least := around.elim 1 (· + 1)
  let (indent, blank, c) :=
    match increment with
    | some k =>
      let indent := least + k - 1
      let (blank, c) := readBlockBreaks indent c.bound c
      (indent, blank, c)
    | none =>
      let (blank, width, c) := readBlockIndent c.bound c
      (max least width, blank, c)
  let r := readBlockLines folded indent c.bound blank c
  let tail := match chomping with
    | .strip => []
    | .clip => r.last
    | .keep => r.last ++ r.blank
  return (r.text ++ tail, r.cursor)

end TraitCatalog.Yaml
