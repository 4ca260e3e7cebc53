/-
  Reading a JSON array of which only the strings are wanted.

  The text after the opening bracket is cut into *tokens* (`Token.all`), and a
  reader with a stack of open containers goes over them (`Reader.step`).  It checks
  the whole of JSON's grammar, and of the values it keeps those that are items of the
  outermost array: the text of a string, nothing for any other value.

  Two faults are told apart from malformed text, and the first fault in reading order
  wins: an integer whose numeral is too long to convert, and containers that are nested
  too deeply.  Both are noticed where the value begins, before what follows it is
  looked at.

  * `readItems` reads the rest of an array whose opening bracket has been taken.
-/
import TraitCatalog.Json.Quoted

namespace TraitCatalog.Json

/-! ## Tokens -/

/-- The tokens of JSON.  Of a number it matters how many digits it has if it is an
    integer; the other values without parts are all alike. -/
inductive Token where
  | openArray
  | closeArray
  | openObject
  | closeObject
  | comma
  | colon
  | text (t : Text)
  | integer (digits : Nat)
  | atom
  deriving DecidableEq, Repr

/-- A blank between tokens. -/
def isSpace (c : CodePoint) : Bool :=
  c.isOneOf " \t\n\r"

/-- What follows the fraction of a number, and whether there is one. -/
def skipFraction : Text → Bool × Text
  | .scalar '.' :: d :: t =>
    if d.isDigit then (true, t.dropWhile CodePoint.isDigit) else (false, .scalar '.' :: d :: t)
  | t => (false, t)

/-- What follows the sign of an exponent. -/
def skipSign : Text → Text
  | c :: t => if c.isOneOf "+-" then t else c :: t
  | [] => []

/-- What follows the exponent of a number, and whether there is one. -/
def skipExponent : Text → Bool × Text
  | c :: t =>
    if c.isOneOf "eE" then
      match skipSign t with
      | d :: r => if d.isDigit then (true, r.dropWhile CodePoint.isDigit) else (false, c :: t)
      | [] => (false, c :: t)
    else (false, c :: t)
  | [] => (false, [])

/-- A number without its sign. -/
def number? : Text → Option (Token × Text)
  | [] => none
  | c :: t =>
    if c.isDigit then
      let more := if c = .scalar '0' then [] else t.takeWhile CodePoint.isDigit
      let (fraction, r) := skipFraction (t.drop more.length)
      let (exponent, r) := skipExponent r
      some (if fraction || exponent then .atom else .integer (more.length + 1), r)
    else none

/-- The names of values without parts. -/
def atomNames : List Text :=
  ["null", "true", "false", "NaN", "Infinity", "-Infinity"].map Text.lit

/-- The token at the front of a text that does not start with a space. -/
def token? : Text → Option (Token × Text)
  | [] => none
  | c :: t =>
    match c with
    | .scalar '[' => some (.openArray, t)
    | .scalar ']' => some (.closeArray, t)
    | .scalar '\x7b' => some (.openObject, t)
    | .scalar '\x7d' => some (.closeObject, t)
    | .scalar ',' => some (.comma, t)
    | .scalar ':' => some (.colon, t)
    | .scalar '"' => (scanText t).map fun (s, r) => (.text s, r)
    | _ =>
      match atomNames.findSome? (Text.dropLead? · (c :: t)) with
      | some r => some (.atom, r)
      | none => if c = .scalar '-' then number? t else number? (c :: t)

/-- At most `n` tokens from the front of a text, and whether the text ends after
    them. -/
def Token.take : (n : Nat) → Text → List Token × Bool
  | 0, _ => ([], false)
  | n + 1, t =>
    match t.dropWhile isSpace with
    | [] => ([], true)
    | r =>
      match token? r with
      | none => ([], false)
      | some (k, r) =>
        let (ks, ended) := Token.take n r
        (k :: ks, ended)

/-- The tokens of a text up to the first place where no token can be read, and whether
    that is its end. -/
def Token.all (t : Text) : List Token × Bool :=
  Token.take (t.length + 1) t

/-! ## The reader -/

/-- Why an array cannot be read. -/
inductive ReadFault where
  | malformed
  /-- An integer with so many digits that its numeral is not converted. -/
  | longInteger (digits : Nat)
  /-- Containers nested beyond the limit. -/
  | tooDeep
  deriving DecidableEq, Repr

/-- An integer may have this many digits. -/
def digitLimit : Nat := 4300

/-- Containers may be nested this deeply.  The number is nominal: it is the stack that is full then, so
    it differs by what is on the stack already.  The theorems hold for any number. -/
def depthLimit : Nat := 990

/-- An open container. -/
inductive Frame where
  | array
  | object
  deriving DecidableEq, Repr

/-- What the innermost open container waits for. -/
inductive Awaits where
  | value
  | valueOrClose
  | key
  | keyOrClose
  | colon
  | commaOrClose
  deriving DecidableEq, Repr

/-- The reader's state: the open containers, innermost first, what comes next, and the
    items of the outermost array so far, last first. -/
structure Reader where
  open_ : List Frame
  awaits : Awaits
  items : List (Option Text)

namespace Reader

/-- The state after the opening bracket of the outermost array. -/
def start : Reader :=
  ⟨[.array], .valueOrClose, []⟩

/-- Notes a value; it is kept if it is an item of the outermost array. -/
def addValue (r : Reader) (item : Option Text) : Reader :=
  { r with
    awaits := .commaOrClose
    items := if r.open_.length = 1 then item :: r.items else r.items }

/-- Opens a container. -/
def enter (r : Reader) (f : Frame) : Except ReadFault Reader :=
  if r.open_.length < depthLimit then
    .ok { r.addValue none with
      open_ := f :: r.open_
      awaits := match f with
        | .array => .valueOrClose
        | .object => .keyOrClose }
  else .error .tooDeep

/-- Closes the innermost container if it is an `f`. -/
def leave (r : Reader) (f : Frame) : Except ReadFault Reader :=
  match r.open_ with
  | g :: rest => if f = g then .ok { r with open_ := rest, awaits := .commaOrClose } else .error .malformed
  | [] => .error .malformed

/-- A token where a value may stand. -/
def value (r : Reader) : Token → Except ReadFault Reader
  | .text t => .ok (r.addValue (some t))
  | .atom => .ok (r.addValue none)
  | .integer n => if n ≤ digitLimit then .ok (r.addValue none) else .error (.longInteger n)
  | .openArray => r.enter .array
  | .openObject => r.enter .object
  | _ => .error .malformed

/-- One token.  Nothing may follow the closing bracket of the outermost array. -/
def step (r : Reader) (t : Token) : Except ReadFault Reader :=
  match r.open_ with
  | [] => .error .malformed
  | frame :: _ =>
    match r.awaits, t with
    | .valueOrClose, .closeArray => r.leave .array
    | .valueOrClose, t => r.value t
    | .value, t => r.value t
    | .keyOrClose, .closeObject => r.leave .object
    | .keyOrClose, .text _ => .ok { r with awaits := .colon }
    | .key, .text _ => .ok { r with awaits := .colon }
    | .colon, .colon => .ok { r with awaits := .value }
    | .commaOrClose, .comma =>
      .ok { r with awaits := match frame with
        | .array => .value
        | .object => .key }
    | .commaOrClose, .closeArray => r.leave .array
    | .commaOrClose, .closeObject => r.leave .object
    | _, _ => .error .malformed

/-- All tokens in order. -/
def run (r : Reader) (ts : List Token) : Except ReadFault Reader :=
  ts.foldlM step r

end Reader

/-- The items of an array, read from the text after its opening bracket: the array must
    be closed and only spaces may follow it. -/
def readItems (t : Text) : Except ReadFault (List (Option Text)) := do
  let (ts, ended) := Token.all t
  let r ← Reader.start.run ts
  if ended && r.open_.isEmpty then return r.items.reverse else throw .malformed

end TraitCatalog.Json
