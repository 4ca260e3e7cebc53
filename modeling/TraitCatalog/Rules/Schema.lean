/-
  Rules from a YAML value.

  A value is judged against the declared sections and fields; keys that are not declared do
  not matter.  All violations are reported at once, in the order of their places: sections
  and fields are judged in alphabetical order, each on its own, and a place has at most one
  violation.

  Text fields take text, or bytes that are UTF-8.  Truth fields take truth values, the
  numbers 0 and 1, and a few words.
-/
import TraitCatalog.Rules.Basic
import TraitCatalog.Yaml.Value

namespace TraitCatalog

open Text (lit)
open Yaml (Value)

/-! ## Violations -/

/-- How a value breaks the schema. -/
inductive ViolationKind where
  | missing
  | notMapping
  | notText
  /-- A word for a truth value that has no UTF-8 form, or bytes that are not UTF-8. -/
  | notUnicode
  | notTruth
  /-- A word or number that could be a truth value but is none. -/
  | unknownTruth
  deriving DecidableEq, Repr

/-- A violation and the keys that lead to it. -/
structure Violation where
  place : List Text
  kind : ViolationKind
  deriving DecidableEq, Repr

/-- The name of a kind of violation. -/
def ViolationKind.name : ViolationKind → Text
  | missing => lit "missing"
  | notMapping => lit "model_type"
  | notText => lit "string_type"
  | notUnicode => lit "string_unicode"
  | notTruth => lit "bool_type"
  | unknownTruth => lit "bool_parsing"

/-! ## Single values -/

namespace Yaml.Value

/-- A value as text. -/
def asText : Value → Except ViolationKind Text
  | .text t => .ok t
  | .bytes bs =>
    match Utf8.decode bs with
    | .ok t => .ok t
    | .error _ => .error .notUnicode
  | _ => .error .notText

/-- The words for truth values. -/
def falseWords : List String := ["0", "off", "f", "false", "n", "no"]

@[inherit_doc falseWords]
def trueWords : List String := ["1", "on", "t", "true", "y", "yes"]

/-- A word as a truth value, in any case. -/
def truthOfWord (t : Text) : Except ViolationKind Bool :=
  let word := t.asciiLower
  if falseWords.any (lit · = word) then .ok false
  else if trueWords.any (lit · = word) then .ok true
  else .error .unknownTruth

/-- An integer of 64 bits with a sign. -/
def fitsWord (n : Int) : Bool :=
  -0x8000000000000000 ≤ n && n < 0x8000000000000000

/-- An integer that a real is, and that has 64 bits with a sign.  The least of these does not count. -/
def fitsWordInReal (n : Int) : Bool :=
  -0x8000000000000000 < n && n < 0x8000000000000000

/-- Text with a UTF-8 form. -/
def unicodeText (t : Text) : Except ViolationKind Text :=
  if t.all fun c => Encoding.utf8.fits c then .ok t else .error .notUnicode

/-- A value as a truth value. -/
def asTruth : Value → Except ViolationKind Bool
  | .truth b => .ok b
  | .text t => unicodeText t >>= truthOfWord
  | .bytes bs =>
    match Utf8.decode bs with
    | .ok t => truthOfWord t
    | .error _ => .error .unknownTruth
  | .integer n =>
    if n = 0 then .ok false
    else if n = 1 then .ok true
    else .error (if fitsWord n then .unknownTruth else .notTruth)
  | .real r =>
    match r.integer? with
    | none => .error .notTruth
    | some n =>
      if n = 0 then .ok false
      else if n = 1 then .ok true
      else .error (if fitsWordInReal n then .unknownTruth else .notTruth)
  | _ => .error .notTruth

end Yaml.Value

/-! ## Sections -/

/-- A result, or all violations on the way to it. -/
abbrev Judged (α : Type) := Except (List Violation) α

namespace Judged

/-- Joins two results; violations of both are kept, in order. -/
def both {α β γ : Type} (f : α → β → γ) : Judged α → Judged β → Judged γ
  | .ok a, .ok b => .ok (f a b)
  | .ok _, .error vs => .error vs
  | .error vs, .ok _ => .error vs
  | .error vs, .error ws => .error (vs ++ ws)

end Judged

/-- A field at a place. -/
def judgeField {α : Type} (judge : Value → Except ViolationKind α) (place : List Text) (v : Value) :
    Judged α :=
  match judge v with
  | .ok a => .ok a
  | .error k => .error [⟨place, k⟩]

/-- A field that has to be there. -/
def requiredField {α : Type} (judge : Value → Except ViolationKind α) (section_ : Text)
    (pairs : List (Value × Value)) (name : Text) : Judged α :=
  match Value.field? pairs name with
  | some v => judgeField judge [section_, name] v
  | none => .error [⟨[section_, name], .missing⟩]

/-- A field that is `usual` where it is absent. -/
def optionalField {α : Type} (judge : Value → Except ViolationKind α) (usual : α) (section_ : Text)
    (pairs : List (Value × Value)) (name : Text) : Judged α :=
  match Value.field? pairs name with
  | some v => judgeField judge [section_, name] v
  | none => .ok usual

/-- A section that has to be a mapping. -/
def judgeSection {α : Type} (judge : List (Value × Value) → Judged α) (place : List Text) :
    Value → Judged α
  | .mapping pairs => judge pairs
  | _ => .error [⟨place, .notMapping⟩]

namespace ProjectRules

/-- The section `project`. -/
def ofPairs (pairs : List (Value × Value)) : Judged ProjectRules :=
  Judged.both (fun version slug => ⟨slug, version⟩)
    (requiredField Value.asText (lit "project") pairs (lit "rules_version"))
    (requiredField Value.asText (lit "project") pairs (lit "slug"))

end ProjectRules

namespace FileRules

/-- The section `datafiles`. -/
def ofPairs (pairs : List (Value × Value)) : Judged FileRules :=
  let usual : FileRules := {}
  Judged.both (fun (encoding, pattern) strict => ⟨pattern, encoding, strict⟩)
    (Judged.both Prod.mk
      (optionalField Value.asText usual.encoding (lit "datafiles") pairs (lit "encoding"))
      (optionalField Value.asText usual.pattern (lit "datafiles") pairs (lit "glob")))
    (optionalField Value.asTruth usual.strict (lit "datafiles") pairs (lit "strict"))

end FileRules

namespace RegistryRules

/-- The section `registry`. -/
def ofPairs (pairs : List (Value × Value)) : Judged RegistryRules :=
  let usual : RegistryRules := {}
  (optionalField Value.asTruth usual.logDeliveries (lit "registry") pairs
    (lit "log_deliveries")).map RegistryRules.mk

end RegistryRules

namespace LogRules

/-- The section `logging`. -/
def ofPairs (pairs : List (Value × Value)) : Judged LogRules :=
  let usual : LogRules := {}
  Judged.both (fun format level => ⟨level, format⟩)
    (optionalField Value.asText usual.format (lit "logging") pairs (lit "format"))
    (optionalField Value.asText usual.level (lit "logging") pairs (lit "level"))

end LogRules

/-! ## Rules -/

/-- A section that is `usual` where it is absent. -/
def optionalSection {α : Type} (judge : List (Value × Value) → Judged α) (usual : α)
    (pairs : List (Value × Value)) (name : Text) : Judged α :=
  match Value.field? pairs name with
  | some v => judgeSection judge [name] v
  | none => .ok usual

/-- A section that has to be there. -/
def requiredSection {α : Type} (judge : List (Value × Value) → Judged α)
    (pairs : List (Value × Value)) (name : Text) : Judged α :=
  match Value.field? pairs name with
  | some v => judgeSection judge [name] v
  | none => .error [⟨[name], .missing⟩]

/-- Rules from the pairs of a mapping. -/
def Rules.ofPairs (pairs : List (Value × Value)) : Judged Rules :=
  Judged.both (fun (files, log) (project, registry) => ⟨project, files, registry, log⟩)
    (Judged.both Prod.mk
      (optionalSection FileRules.ofPairs {} pairs (lit "datafiles"))
      (optionalSection LogRules.ofPairs {} pairs (lit "logging")))
    (Judged.both Prod.mk
      (requiredSection ProjectRules.ofPairs pairs (lit "project"))
      (optionalSection RegistryRules.ofPairs {} pairs (lit "registry")))

/-- Rules from a value. -/
def Rules.ofValue (v : Value) : Judged Rules :=
  judgeSection Rules.ofPairs [] v

end TraitCatalog
