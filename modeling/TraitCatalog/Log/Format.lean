/-
  Log lines.

  A log format is a text with directives in it.  `%%` is a percent sign.

  * `LogFormat.isAcceptable`: a format must hold at least one directive with a field;
  * `LogFormat.fill` writes a line; there is none if a directive is broken or names an
    unknown field;
  * `LogFormat.line` writes the line of an event.
-/
import TraitCatalog.Log.Directive
import TraitCatalog.Log.Event
import TraitCatalog.Text.Digit
import TraitCatalog.Text.Letter

namespace TraitCatalog

open Text (lit)

/-- A log format. -/
abbrev LogFormat := Text

namespace LogFormat

/-- A star or digits, if there are any. -/
def skipCount (t : Text) : Text :=
  match t with
  | .scalar '*' :: r => r
  | _ => t.dropWhile CodePoint.isDecimal

/-- A letter that a directive may end with, in either case.  The dotless and the dotted `i`
    and the long `s` count as forms of their letters. -/
def isFinalLetter (c : CodePoint) : Bool :=
  c.isOneOf "diouxefgcrsaDIOUXEFGCRSA%\u0130\u0131\u017F"

/-- A directive with a field stands at the front, after its percent sign and its opening
    parenthesis. -/
def isFieldDirective (t : Text) : Bool :=
  let name := t.takeWhile CodePoint.isNameLetter
  !name.isEmpty &&
    match t.drop name.length with
    | .scalar ')' :: r =>
      let r := skipCount (r.dropWhile (CodePoint.isOneOf "#0+ -"))
      let r := match r with
        | .scalar '.' :: d :: more =>
          if d = CodePoint.scalar '*' then more
          else if d.isDecimal then more.dropWhile CodePoint.isDecimal
          else r
        | r => r
      match r with
      | c :: _ => isFinalLetter c
      | [] => false
    | _ => false

/-- A directive with a field stands somewhere. -/
def isAcceptable : LogFormat → Bool
  | [] => false
  | c :: t =>
    (match c, t with
      | .scalar '%', .scalar '(' :: r => isFieldDirective r
      | _, _ => false) || isAcceptable t

/-- What is left of a value after the stars of a directive: one star uses up a number. -/
def afterStars (stars : Nat) (value? : Option FieldValue) : Option (Option FieldValue) :=
  match stars, value? with
  | 0, v => some v
  | 1, some (.number _) => some none
  | _, _ => none

/-- Writes at most `n` code points and directives of a format.  A directive without a field
    writes the value of the last field, if that has not been used yet; `value?` is that
    value. -/
def fillFrom (fields : Text → Option FieldValue) :
    (n : Nat) → (value? : Option FieldValue) → LogFormat → Option Text
  | 0, _, _ => some []
  | _, _, [] => some []
  | n + 1, value?, c :: t =>
    if c = .scalar '%' then do
      let (d, rest) ← Directive.parse? t
      let value? ← match d.field? with
        | some f => (fields f).map some
        | none => some value?
      let value? ← afterStars d.stars value?
      if d.letter = .scalar '%' then return lit "%" ++ (← fillFrom fields n value? rest)
      else return (← d.write? (← value?)) ++ (← fillFrom fields n none rest)
    else (fillFrom fields n value? t).map (c :: ·)

/-- Fields and their values, up to the first that differs from run to run. -/
def shownRecord (fields : List (String × FieldValue)) : Text :=
  let known := fields.takeWhile (·.2 ≠ .varying)
  lit "\x7b" ++ Text.join (lit ", ") (known.map fun (name, v) =>
    (lit name).shown ++ lit ": " ++ v.shownText)

/-- Writes a format with the given fields.  In front of the first field, a directive without
    a field writes the whole record. -/
def fill (fmt : LogFormat) (fields : List (String × FieldValue)) : Option Text :=
  fillFrom (fun f => (fields.find? fun x => lit x.1 == f).map (·.2)) fmt.length
    (some (.shown (shownRecord fields))) fmt

/-- The fields of an event that happens at the time `stamp`. -/
def eventFields (stamp : Text) (e : LogEvent) : List (String × FieldValue) :=
  [("name", .text e.logger), ("msg", .text e.template), ("args", .shown (shownTuple e.values)),
    ("levelname", .text e.level.name), ("levelno", .number e.level.rank), ("pathname", .varying),
    ("filename", .text (lit e.site.module_ ++ lit ".py")), ("module", .text (lit e.site.module_)),
    ("exc_info", .shown (lit "None")), ("exc_text", .shown (lit "None")),
    ("stack_info", .shown (lit "None")), ("lineno", .number e.site.line),
    ("funcName", .text (lit e.site.function)), ("created", .varying), ("msecs", .varying),
    ("relativeCreated", .varying), ("thread", .varying), ("threadName", .text (lit "MainThread")),
    ("processName", .text (lit "MainProcess")), ("process", .varying),
    ("message", .text e.message), ("asctime", .text stamp)]

/-- The format that an empty format stands for. -/
def plain : LogFormat := lit "%(message)s"

/-- The line of an event that happens at the time `stamp`. -/
def line (fmt : LogFormat) (stamp : Text) (e : LogEvent) : Option Text :=
  (if fmt.isEmpty then plain else fmt).fill (eventFields stamp e)

end LogFormat

end TraitCatalog
