/-
  The rules that a value stands for.

  A value is compared with a table of the declared sections and fields (`declared`).

  * `TextOf`, `TruthOf`: what values stand for in text fields and truth fields; `TextRejects`,
    `TruthRejects`: how the others break the schema;
  * `Reads`: each field of some rules is what the value at its place stands for, or what is usual
    where there is none;
  * `Violates`: the violations of a value, each section judged on its own.
-/
import Mathlib.Logic.Relation
import TraitCatalog.Rules.Load

namespace TraitCatalog

open Text (lit)
open Yaml (Value)

namespace Schema

/-! ## Single values -/

/-- The text that a value stands for: a text itself, or bytes that are UTF-8. -/
inductive TextOf : Value → Text → Prop
  | text (t : Text) : TextOf (.text t) t
  | bytes {bs : List UInt8} {t : Text} : Utf8.decode bs = .ok t → TextOf (.bytes bs) t

/-- How a value that stands for no text breaks the schema. -/
inductive TextRejects : Value → ViolationKind → Prop
  | bytes {bs : List UInt8} {f : DecodeFault} : Utf8.decode bs = .error f →
      TextRejects (.bytes bs) .notUnicode
  | other {v : Value} : (∀ t, v ≠ .text t) → (∀ bs, v ≠ .bytes bs) → TextRejects v .notText

/-- A word for a truth value, in any case. -/
inductive WordOf (t : Text) : Bool → Prop
  | no {w : String} : w ∈ Value.falseWords → t.asciiLower = lit w → WordOf t false
  | yes {w : String} : w ∈ Value.trueWords → t.asciiLower = lit w → WordOf t true

/-- The truth value that a value stands for. -/
inductive TruthOf : Value → Bool → Prop
  | truth (b : Bool) : TruthOf (.truth b) b
  | text {t : Text} {b : Bool} : WordOf t b → TruthOf (.text t) b
  | bytes {bs : List UInt8} {t : Text} {b : Bool} : Utf8.decode bs = .ok t → WordOf t b →
      TruthOf (.bytes bs) b
  | zero : TruthOf (.integer 0) false
  | one : TruthOf (.integer 1) true
  | realZero {r : Yaml.RealNumber} : r.integer? = some 0 → TruthOf (.real r) false
  | realOne {r : Yaml.RealNumber} : r.integer? = some 1 → TruthOf (.real r) true

/-- How a value that stands for no truth value breaks the schema. -/
inductive TruthRejects : Value → ViolationKind → Prop
  | surrogate {t : Text} {n : Fin 2048} : .surrogate n ∈ t → TruthRejects (.text t) .notUnicode
  | text {t : Text} : (∀ n, .surrogate n ∉ t) → (∀ b, ¬WordOf t b) →
      TruthRejects (.text t) .unknownTruth
  | bytes {bs : List UInt8} : (∀ t b, Utf8.decode bs = .ok t → ¬WordOf t b) →
      TruthRejects (.bytes bs) .unknownTruth
  | integer {n : Int} : n ≠ 0 → n ≠ 1 →
      TruthRejects (.integer n) (if Value.fitsWord n then .unknownTruth else .notTruth)
  | realInteger {r : Yaml.RealNumber} {n : Int} : r.integer? = some n → n ≠ 0 → n ≠ 1 →
      TruthRejects (.real r) (if Value.fitsWordInReal n then .unknownTruth else .notTruth)
  | real {r : Yaml.RealNumber} : r.integer? = none → TruthRejects (.real r) .notTruth
  | null : TruthRejects .null .notTruth
  | moment (m : Yaml.MomentFields) : TruthRejects (.moment m) .notTruth
  | list (items : List Value) : TruthRejects (.list items) .notTruth
  | mapping (pairs : List (Value × Value)) : TruthRejects (.mapping pairs) .notTruth

/-- A judgement gives what a value stands for, or the only way in which it breaks the schema. -/
inductive Decides {α : Type} (denotes : α → Prop) (rejects : ViolationKind → Prop) :
    Except ViolationKind α → Prop
  | ok {a : α} : denotes a → (∀ k, ¬rejects k) → Decides denotes rejects (.ok a)
  | error {k : ViolationKind} : (∀ a, ¬denotes a) → rejects k → (∀ k', rejects k' → k' = k) →
      Decides denotes rejects (.error k)

theorem asText_decides (v : Value) : Decides (TextOf v) (TextRejects v) v.asText := by
  have hother : ∀ {v : Value}, (∀ t, v ≠ .text t) → (∀ bs, v ≠ .bytes bs) →
      Decides (TextOf v) (TextRejects v) (.error .notText) := by
    intro v ht hb
    refine .error (fun t hv => ?_) (.other ht hb) fun k hk => ?_
    · cases hv with
      | text t => exact ht t rfl
      | bytes _ => exact hb _ rfl
    · cases hk with
      | bytes _ => exact absurd rfl (hb _)
      | other _ _ => rfl
  cases v with
  | text t =>
    refine .ok (.text t) fun k hk => ?_
    cases hk with
    | other ht _ => exact ht t rfl
  | bytes bs =>
    rw [Value.asText]
    cases hd : Utf8.decode bs with
    | ok t =>
      refine .ok (.bytes hd) fun k hk => ?_
      cases hk with
      | bytes hf => rw [hd] at hf; cases hf
      | other _ hb => exact hb bs rfl
    | error f =>
      refine .error (fun t hv => ?_) (.bytes hd) fun k hk => ?_
      · cases hv with
        | bytes ht => rw [hd] at ht; cases ht
      · cases hk with
        | bytes _ => rfl
        | other _ hb => exact absurd rfl (hb bs)
  | null | truth | integer | real | moment | list | mapping =>
    exact hother (fun _ => Value.noConfusion) fun _ => Value.noConfusion

theorem truthOfWord_cases (t : Text) :
    (∃ b, Value.truthOfWord t = .ok b ∧ WordOf t b) ∨
      Value.truthOfWord t = .error .unknownTruth ∧ ∀ b, ¬WordOf t b := by
  have hword : ∀ {ws : List String}, (ws.any (lit · = t.asciiLower)) = true ↔
      ∃ w ∈ ws, t.asciiLower = lit w := by
    intro ws
    rw [List.any_eq_true]
    exact ⟨fun ⟨w, hw, ht⟩ => ⟨w, hw, (of_decide_eq_true ht).symm⟩,
      fun ⟨w, hw, ht⟩ => ⟨w, hw, decide_eq_true ht.symm⟩⟩
  rw [Value.truthOfWord]
  cases hf : Value.falseWords.any (lit · = t.asciiLower) with
  | true =>
    obtain ⟨w, hw, ht⟩ := hword.1 hf
    exact .inl ⟨false, rfl, .no hw ht⟩
  | false =>
    cases htr : Value.trueWords.any (lit · = t.asciiLower) with
    | true =>
      obtain ⟨w, hw, ht⟩ := hword.1 htr
      exact .inl ⟨true, rfl, .yes hw ht⟩
    | false =>
      refine .inr ⟨rfl, fun b hb => ?_⟩
      cases hb with
      | no hw ht => exact Bool.false_ne_true (hf.symm.trans (hword.2 ⟨_, hw, ht⟩))
      | yes hw ht => exact Bool.false_ne_true (htr.symm.trans (hword.2 ⟨_, hw, ht⟩))

/-- Words are made of scalar values. -/
theorem surrogate_notMem_of_wordOf {t : Text} {b : Bool} (h : WordOf t b) (n : Fin 2048) :
    .surrogate n ∉ t := by
  obtain ⟨w, ht⟩ : ∃ w, t.asciiLower = lit w := by
    cases h with
    | no _ ht => exact ⟨_, ht⟩
    | yes _ ht => exact ⟨_, ht⟩
  intro hn
  have hmem : .surrogate n ∈ lit w := by
    rw [← ht]
    exact List.mem_map.2 ⟨_, hn, rfl⟩
  obtain ⟨c, -, hc⟩ := List.mem_map.1 hmem
  cases hc

theorem unicodeText_cases (t : Text) :
    Value.unicodeText t = .ok t ∧ (∀ n, .surrogate n ∉ t) ∨
      Value.unicodeText t = .error .notUnicode ∧ ∃ n, .surrogate n ∈ t := by
  rw [Value.unicodeText]
  cases hf : t.all fun c => Encoding.utf8.fits c with
  | true =>
    refine .inl ⟨rfl, fun n hn => ?_⟩
    exact Bool.false_ne_true (List.all_eq_true.1 hf _ hn)
  | false =>
    refine .inr ⟨rfl, ?_⟩
    obtain ⟨c, hc, hfits⟩ := List.all_eq_false.1 hf
    cases c with
    | scalar c => exact absurd rfl hfits
    | surrogate n => exact ⟨n, hc⟩

theorem text_decides (t : Text) :
    Decides (TruthOf (.text t)) (TruthRejects (.text t)) (Value.asTruth (.text t)) := by
  rw [Value.asTruth]
  rcases unicodeText_cases t with ⟨hu, hall⟩ | ⟨hu, n, hn⟩
  · rw [hu]
    show Decides _ _ (Value.truthOfWord t)
    rcases truthOfWord_cases t with ⟨b, hb, hword⟩ | ⟨hb, hnone⟩
    · rw [hb]
      refine .ok (.text hword) fun k hk => ?_
      cases hk with
      | surrogate hn => exact hall _ hn
      | text _ hnone => exact hnone b hword
    · rw [hb]
      refine .error (fun b hv => ?_) (.text hall hnone) fun k hk => ?_
      · cases hv with
        | text hword => exact hnone b hword
      · cases hk with
        | surrogate hn => exact absurd hn (hall _)
        | text _ _ => rfl
  · rw [hu]
    refine .error (fun b hv => ?_) (.surrogate hn) fun k hk => ?_
    · cases hv with
      | text hword => exact surrogate_notMem_of_wordOf hword n hn
    · cases hk with
      | surrogate _ => rfl
      | text hall _ => exact absurd hn (hall n)

theorem bytes_decides (bs : List UInt8) :
    Decides (TruthOf (.bytes bs)) (TruthRejects (.bytes bs)) (Value.asTruth (.bytes bs)) := by
  have hfault : (∀ t b, Utf8.decode bs = .ok t → ¬WordOf t b) →
      Decides (TruthOf (.bytes bs)) (TruthRejects (.bytes bs)) (.error .unknownTruth) := by
    intro hnone
    refine .error (fun b hv => ?_) (.bytes hnone) fun k hk => ?_
    · cases hv with
      | bytes ht hword => exact hnone _ b ht hword
    · cases hk with
      | bytes _ => rfl
  rw [Value.asTruth]
  cases hd : Utf8.decode bs with
  | error f =>
    refine hfault fun t b ht => ?_
    rw [hd] at ht
    cases ht
  | ok t =>
    show Decides _ _ (Value.truthOfWord t)
    rcases truthOfWord_cases t with ⟨b, hb, hword⟩ | ⟨hb, hnone⟩
    · rw [hb]
      refine .ok (.bytes hd hword) fun k hk => ?_
      cases hk with
      | bytes hnone => exact hnone t b hd hword
    · rw [hb]
      refine hfault fun u b hu => ?_
      rw [hd] at hu
      cases hu
      exact hnone b

theorem integer_decides (n : Int) :
    Decides (TruthOf (.integer n)) (TruthRejects (.integer n)) (Value.asTruth (.integer n)) := by
  rw [Value.asTruth]
  split
  · next h =>
    subst h
    refine .ok .zero fun k hk => ?_
    cases hk with
    | integer h₀ _ => exact h₀ rfl
  next h₀ =>
  split
  · next h =>
    subst h
    refine .ok .one fun k hk => ?_
    cases hk with
    | integer _ h₁ => exact h₁ rfl
  next h₁ =>
  refine .error (fun b hv => ?_) (.integer h₀ h₁) fun k hk => ?_
  · cases hv with
    | zero => exact h₀ rfl
    | one => exact h₁ rfl
  · cases hk with
    | integer _ _ => rfl

theorem real_decides (r : Yaml.RealNumber) :
    Decides (TruthOf (.real r)) (TruthRejects (.real r)) (Value.asTruth (.real r)) := by
  rw [Value.asTruth]
  cases hr : r.integer? with
  | none =>
    refine .error (fun b hv => ?_) (.real hr) fun k hk => ?_
    · cases hv with
      | realZero h | realOne h => rw [hr] at h; cases h
    · cases hk with
      | realInteger h _ _ => rw [hr] at h; cases h
      | real _ => rfl
  | some n =>
    dsimp only
    split
    · next h =>
      subst h
      refine .ok (.realZero hr) fun k hk => ?_
      cases hk with
      | realInteger h h₀ _ => rw [hr] at h; exact h₀ (Option.some.inj h).symm
      | real h => rw [hr] at h; cases h
    next h₀ =>
    split
    · next h =>
      subst h
      refine .ok (.realOne hr) fun k hk => ?_
      cases hk with
      | realInteger h _ h₁ => rw [hr] at h; exact h₁ (Option.some.inj h).symm
      | real h => rw [hr] at h; cases h
    next h₁ =>
    refine .error (fun b hv => ?_) (.realInteger hr h₀ h₁) fun k hk => ?_
    · cases hv with
      | realZero h => rw [hr] at h; exact h₀ (Option.some.inj h)
      | realOne h => rw [hr] at h; exact h₁ (Option.some.inj h)
    · cases hk with
      | realInteger h _ _ => rw [hr] at h; rw [Option.some.inj h]
      | real h => rw [hr] at h; cases h

theorem asTruth_decides (v : Value) : Decides (TruthOf v) (TruthRejects v) v.asTruth := by
  cases v with
  | truth b => exact .ok (.truth b) fun _ => nofun
  | text t => exact text_decides t
  | bytes bs => exact bytes_decides bs
  | integer n => exact integer_decides n
  | real r => exact real_decides r
  | null => exact .error (fun _ => nofun) .null fun k hk => by cases hk; rfl
  | moment m => exact .error (fun _ => nofun) (.moment m) fun k hk => by cases hk; rfl
  | list items => exact .error (fun _ => nofun) (.list items) fun k hk => by cases hk; rfl
  | mapping pairs => exact .error (fun _ => nofun) (.mapping pairs) fun k hk => by cases hk; rfl

/-! ## The declared sections and fields -/

/-- What a field holds. -/
inductive FieldKind where
  | text
  | truth
  deriving DecidableEq

/-- A value stands for something in fields of the kind. -/
def FieldKind.Admits : FieldKind → Value → Prop
  | text, v => ∃ t, TextOf v t
  | truth, v => ∃ b, TruthOf v b

/-- How other values break the schema. -/
def FieldKind.Rejects : FieldKind → Value → ViolationKind → Prop
  | text => TextRejects
  | truth => TruthRejects

/-- A field of a section. -/
structure FieldDecl where
  name : Text
  kind : FieldKind
  required : Bool
  deriving DecidableEq

/-- A section of the rules. -/
structure SectionDecl where
  name : Text
  required : Bool
  fields : List FieldDecl
  deriving DecidableEq

/-- The section `datafiles`. -/
def filesDecl : SectionDecl where
  name := lit "datafiles"
  required := false
  fields := [⟨lit "encoding", .text, false⟩, ⟨lit "glob", .text, false⟩, ⟨lit "strict", .truth, false⟩]

/-- The section `logging`. -/
def logDecl : SectionDecl where
  name := lit "logging"
  required := false
  fields := [⟨lit "format", .text, false⟩, ⟨lit "level", .text, false⟩]

/-- The section `project`. -/
def projectDecl : SectionDecl where
  name := lit "project"
  required := true
  fields := [⟨lit "rules_version", .text, true⟩, ⟨lit "slug", .text, true⟩]

/-- The section `registry`. -/
def registryDecl : SectionDecl where
  name := lit "registry"
  required := false
  fields := [⟨lit "log_deliveries", .truth, false⟩]

/-- All sections. -/
def declared : List SectionDecl :=
  [filesDecl, logDecl, projectDecl, registryDecl]

/-! ## What a value says -/

/-- Each section that is there is a mapping whose fields are admissible, and nothing that is required
    is absent. -/
def Admissible (v : Value) : Prop :=
  ∃ ps, v = .mapping ps ∧ ∀ s ∈ declared,
    (Value.field? ps s.name = none → s.required = false) ∧
    ∀ w, Value.field? ps s.name = some w → ∃ qs, w = .mapping qs ∧ ∀ f ∈ s.fields,
      (Value.field? qs f.name = none → f.required = false) ∧
      ∀ u, Value.field? qs f.name = some u → f.kind.Admits u

/-- A violation of a field among the pairs `qs` of a section. -/
inductive FieldViolates (section_ : Text) (qs : List (Value × Value)) (f : FieldDecl) : Violation → Prop
  | missing : f.required = true → Value.field? qs f.name = none →
      FieldViolates section_ qs f ⟨[section_, f.name], .missing⟩
  | value {u : Value} {k : ViolationKind} : Value.field? qs f.name = some u → f.kind.Rejects u k →
      FieldViolates section_ qs f ⟨[section_, f.name], k⟩

/-- A violation of a section of a document with the pairs `ps`, whatever the others are. -/
inductive SectionViolates (ps : List (Value × Value)) (s : SectionDecl) : Violation → Prop
  | missing : s.required = true → Value.field? ps s.name = none →
      SectionViolates ps s ⟨[s.name], .missing⟩
  | shape {w : Value} : Value.field? ps s.name = some w → (∀ qs, w ≠ .mapping qs) →
      SectionViolates ps s ⟨[s.name], .notMapping⟩
  | field {qs : List (Value × Value)} {f : FieldDecl} {x : Violation} :
      Value.field? ps s.name = some (.mapping qs) → f ∈ s.fields → FieldViolates s.name qs f x →
      SectionViolates ps s x

/-- A violation of a document. -/
inductive Violates : Value → Violation → Prop
  | shape {v : Value} : (∀ ps, v ≠ .mapping ps) → Violates v ⟨[], .notMapping⟩
  | section_ {ps : List (Value × Value)} {s : SectionDecl} {x : Violation} : s ∈ declared →
      SectionViolates ps s x → Violates (.mapping ps) x

/-- The pairs of a mapping; none of any other value. -/
def pairsOf : Option Value → List (Value × Value)
  | some (.mapping ps) => ps
  | _ => []

/-- A field is what the value at its place stands for, or what is usual where there is none. -/
def FieldIs {α : Type} (denotes : Value → α → Prop) (usual? : Option α) (w? : Option Value) (a : α) :
    Prop :=
  match w? with
  | some w => denotes w a
  | none => usual? = some a

/-- The field `name` of the section `section_` of a document. -/
def fieldAt (v : Value) (section_ name : String) : Option Value :=
  Value.field? (pairsOf (Value.field? (pairsOf (some v)) (lit section_))) (lit name)

/-- The rules are what a document says, field by field. -/
structure Reads (v : Value) (r : Rules) : Prop where
  slug : FieldIs TextOf none (fieldAt v "project" "slug") r.project.slug
  version : FieldIs TextOf none (fieldAt v "project" "rules_version") r.project.version
  pattern : FieldIs TextOf (some (lit "**/trait.*.js")) (fieldAt v "datafiles" "glob") r.files.pattern
  encoding : FieldIs TextOf (some (lit "utf-8")) (fieldAt v "datafiles" "encoding") r.files.encoding
  strict : FieldIs TruthOf (some false) (fieldAt v "datafiles" "strict") r.files.strict
  logDeliveries :
    FieldIs TruthOf (some true) (fieldAt v "registry" "log_deliveries") r.registry.logDeliveries
  level : FieldIs TextOf (some (lit "INFO")) (fieldAt v "logging" "level") r.log.level
  format : FieldIs TextOf (some (lit "%(asctime)s - %(name)s - %(levelname)s - %(message)s"))
    (fieldAt v "logging" "format") r.log.format

end Schema

end TraitCatalog
