/-
  What kind of value a YAML node has.

  A node names its kind by a tag, or a scalar without quotes shows it by its form
  (`Tag.ofPlain`): the forms are those of YAML 1.1, where `yes` is a truth value and
  `1:30` a number in base sixty.
-/
import TraitCatalog.Yaml.Number

namespace TraitCatalog.Yaml

open Text (lit)

/-- The kinds of values. -/
inductive Tag where
  | null
  | truth
  | integer
  | real
  | text
  | bytes
  | moment
  | sequence
  | mapping
  | set
  | orderedMapping
  | pairs
  /-- The key `<<`, whose values are merged into the mapping. -/
  | merge
  /-- The key `=`, whose value stands for the mapping where a scalar is wanted. -/
  | default
  /-- A kind that no value has. -/
  | unknown
  deriving DecidableEq, Repr

namespace Tag

/-- The names of the kinds. -/
def names : List (String × Tag) :=
  [("null", null), ("bool", truth), ("int", integer), ("float", real), ("str", text),
    ("binary", bytes), ("timestamp", moment), ("seq", sequence), ("map", mapping), ("set", set),
    ("omap", orderedMapping), ("pairs", pairs), ("merge", merge), ("value", default)]

/-- The lead of the names of all kinds. -/
def lead : Text := lit "tag:yaml.org,2002:"

/-- The kind with a full name. -/
def ofName (t : Text) : Tag :=
  match Text.dropLead? lead t with
  | none => unknown
  | some name => ((names.find? fun p => lit p.1 = name).map (·.2)).getD unknown

/-! ## Forms of plain scalars -/

/-- A digit or an underscore. -/
def isDigitOrGap (c : CodePoint) : Bool :=
  c.isDigit || c == .scalar '_'

/-- A text without a sign at its front. -/
def dropSign : Text → Text
  | c :: t => if c.isOneOf "+-" then t else c :: t
  | [] => []

/-- One of the words of truth values, in lower case, capitalised or in upper case. -/
def isTruth (t : Text) : Bool :=
  ["yes", "Yes", "YES", "no", "No", "NO", "true", "True", "TRUE", "false", "False", "FALSE",
    "on", "On", "ON", "off", "Off", "OFF"].any (lit · = t)

/-- A digit of base sixty: one decimal digit, or two of which the first is at most 5. -/
def isSixtieth : Text → Bool
  | [d] => d.isDigit
  | [c, d] => c.isOneOf "012345" && d.isDigit
  | _ => false

/-- A first number with digits of base sixty after it, a colon before each. -/
def isSexagesimal (first : Text → Bool) (t : Text) : Bool :=
  match Text.splitOn (.scalar ':') t with
  | head :: d :: ds => first head && (d :: ds).all isSixtieth
  | _ => false

/-- A digit, then digits and underscores. -/
def isNumeral : Text → Bool
  | c :: t => c.isDigit && t.all isDigitOrGap
  | [] => false

/-- The same, without a zero at the front. -/
def isLeadingNumeral (t : Text) : Bool :=
  isNumeral t && t.head? != some (.scalar '0')

/-- An integer without its sign. -/
def isUnsignedInteger (t : Text) : Bool :=
  let all (p : CodePoint → Bool) (body : Text) : Bool :=
    !body.isEmpty && body.all fun c => p c || c == .scalar '_'
  match t with
  | .scalar '0' :: rest =>
    rest.isEmpty || all (·.isOneOf "01234567") rest ||
      (match rest with
        | .scalar 'b' :: body => all (·.isOneOf "01") body
        | .scalar 'x' :: body => all (·.hexDigit?.isSome) body
        | _ => false)
  | _ => isLeadingNumeral t || isSexagesimal isLeadingNumeral t

/-- The power of ten of a real, which always has a sign. -/
def isPower : Text → Bool
  | [] => true
  | e :: s :: ds => e.isOneOf "eE" && s.isOneOf "+-" && !ds.isEmpty && ds.all CodePoint.isDigit
  | _ => false

/-- A real. -/
def isReal (t : Text) : Bool :=
  let unsigned := dropSign t
  let isInfinite := [".inf", ".Inf", ".INF"].any (lit · = unsigned)
  let isNotNumber := [".nan", ".NaN", ".NAN"].any (lit · = t)
  let whole := unsigned.takeWhile (· != .scalar '.')
  match unsigned.drop whole.length with
  | [] => false
  | _ :: part =>
    let power := part.dropWhile isDigitOrGap
    (isNumeral whole && isPower power) ||
      (t.head? == some (.scalar '.') && part.head?.any CodePoint.isDigit && isPower power) ||
      (isSexagesimal isNumeral whole && power.isEmpty) || isInfinite || isNotNumber

/-- The kind of a scalar without quotes and without a tag, or with a tag that leaves the kind open.
    A line feed at its end does not count.  The marks `!`, `&` and `*` are of a kind of their own,
    which no value has. -/
def ofPlain (t : Text) : Tag :=
  let body := (Text.dropTail? (lit "\n") t).getD t
  if t.isEmpty || ["~", "null", "Null", "NULL"].any (lit · = body) then null
  else if isTruth body then truth
  else if isReal body then real
  else if isUnsignedInteger (dropSign body) then integer
  else if body = lit "<<" then merge
  else if body = lit "=" then default
  else if ["!", "&", "*"].any (lit · = body) then unknown
  else if MomentFields.isEvident t then moment
  else text

end Tag

end TraitCatalog.Yaml
