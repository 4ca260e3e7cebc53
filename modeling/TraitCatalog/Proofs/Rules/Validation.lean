/-
  Rules are read from a value exactly if it keeps to the schema.

  `Rules.ofValue_exact`: rules are read from a value if and only if it is admissible; what is read is
  what the value says, field by field; otherwise all violations are reported, each of them once; each
  section is judged on its own; and keys that are not declared change nothing.

  * `Exact`: a result that holds, or all violations of what is judged, each of them once.  Sections and
    fields keep this when they are put together (`Exact.both`), because violations at different places
    differ;
  * `Edit`: a key that is not declared is put into the document or into one of its sections.
-/
import Mathlib.Data.List.Nodup
import TraitCatalog.Proofs.Rules.Schema

namespace TraitCatalog

open Text (lit)
open Yaml (Value)

namespace Schema

/-! ## Exact results -/

section
variable {α β γ : Type} {holds holds' : α → Prop} {other : β → Prop}
  {violates violates' : Violation → Prop} {j : Judged α} {k : Judged β}

/-- A result that holds, or all violations, each of them once. -/
inductive Exact (holds : α → Prop) (violates : Violation → Prop) : Judged α → Prop
  | ok {a : α} : holds a → (∀ x, ¬violates x) → Exact holds violates (.ok a)
  | error {vs : List Violation} : vs ≠ [] → vs.Nodup → (∀ x, x ∈ vs ↔ violates x) →
      Exact holds violates (.error vs)

theorem Exact.imp (h : Exact holds violates j) (hh : ∀ a, holds a → holds' a)
    (hv : ∀ x, violates x ↔ violates' x) : Exact holds' violates' j := by
  cases h with
  | ok ha hnone => exact .ok (hh _ ha) fun x hx => hnone x ((hv x).2 hx)
  | error hne hnodup hmem => exact .error hne hnodup fun x => (hmem x).trans (hv x)

theorem Exact.map (f : α → β) (h : Exact holds violates j) :
    Exact (fun b => ∃ a, holds a ∧ f a = b) violates (j.map f) := by
  cases h with
  | ok ha hnone => exact .ok ⟨_, ha, rfl⟩ hnone
  | error hne hnodup hmem => exact .error hne hnodup hmem

/-- Two results with different violations are exact together. -/
theorem Exact.both (f : α → β → γ) (h : Exact holds violates j) (h' : Exact other violates' k)
    (hd : ∀ x, violates x → ¬violates' x) :
    Exact (fun c => ∃ a b, holds a ∧ other b ∧ f a b = c) (fun x => violates x ∨ violates' x)
      (Judged.both f j k) := by
  cases h with
  | ok ha hnone =>
    cases h' with
    | ok hb hnone' => exact .ok ⟨_, _, ha, hb, rfl⟩ fun x hx => hx.elim (hnone x) (hnone' x)
    | error hne hnodup hmem =>
      exact .error hne hnodup fun x => (hmem x).trans ⟨.inr, fun hx => hx.resolve_left (hnone x)⟩
  | error hne hnodup hmem =>
    cases h' with
    | ok hb hnone' =>
      exact .error hne hnodup fun x => (hmem x).trans ⟨.inl, fun hx => hx.resolve_right (hnone' x)⟩
    | error _ hnodup' hmem' =>
      refine .error (by simp [hne]) ?_ fun x => ?_
      · refine List.nodup_append.2 ⟨hnodup, hnodup', ?_⟩
        rintro x hx _ hy rfl
        exact hd x ((hmem x).1 hx) ((hmem' x).1 hy)
      · rw [List.mem_append, hmem, hmem']

end

/-! ## Fields -/

section
variable {α : Type} {judge : Value → Except ViolationKind α} {denotes : Value → α → Prop}
  {section_ : Text} {qs : List (Value × Value)} {f : FieldDecl}

theorem exact_judgeField (hd : ∀ v, Decides (denotes v) (f.kind.Rejects v) (judge v)) {u : Value}
    (hu : Value.field? qs f.name = some u) :
    Exact (denotes u) (FieldViolates section_ qs f) (judgeField judge [section_, f.name] u) := by
  have hdecided := hd u
  rw [judgeField]
  generalize judge u = r at hdecided
  cases hdecided with
  | ok ha hnone =>
    refine .ok ha fun x hx => ?_
    cases hx with
    | missing _ hmissing => rw [hu] at hmissing; cases hmissing
    | value hw hk => rw [hu] at hw; cases hw; exact hnone _ hk
  | error _ hk hunique =>
    refine .error (by simp) (by simp) fun x => ?_
    rw [List.mem_singleton]
    constructor
    · rintro rfl
      exact .value hu hk
    · intro hx
      cases hx with
      | missing _ hmissing => rw [hu] at hmissing; cases hmissing
      | value hw hk' => rw [hu] at hw; cases hw; rw [hunique _ hk']

theorem exact_requiredField (section_ : Text) (qs : List (Value × Value)) (f : FieldDecl)
    (hd : ∀ v, Decides (denotes v) (f.kind.Rejects v) (judge v))
    (hr : f.required = true) :
    Exact (FieldIs denotes none (Value.field? qs f.name)) (FieldViolates section_ qs f)
      (requiredField judge section_ qs f.name) := by
  rw [requiredField]
  cases hu : Value.field? qs f.name with
  | some u => exact exact_judgeField hd hu
  | none =>
    refine .error (by simp) (by simp) fun x => ?_
    rw [List.mem_singleton]
    constructor
    · rintro rfl
      exact .missing hr hu
    · intro hx
      cases hx with
      | missing _ _ => rfl
      | value hw _ => rw [hu] at hw; cases hw

theorem exact_optionalField (section_ : Text) (qs : List (Value × Value)) (f : FieldDecl)
    (hd : ∀ v, Decides (denotes v) (f.kind.Rejects v) (judge v))
    (hr : f.required = false) (usual : α) :
    Exact (FieldIs denotes (some usual) (Value.field? qs f.name)) (FieldViolates section_ qs f)
      (optionalField judge usual section_ qs f.name) := by
  rw [optionalField]
  cases hu : Value.field? qs f.name with
  | some u => exact exact_judgeField hd hu
  | none =>
    refine .ok rfl fun x hx => ?_
    cases hx with
    | missing hrequired _ => rw [hr] at hrequired; cases hrequired
    | value hw _ => rw [hu] at hw; cases hw

theorem FieldViolates.place {x : Violation} (h : FieldViolates section_ qs f x) :
    x.place = [section_, f.name] := by
  cases h <;> rfl

/-- Violations of different fields differ. -/
theorem FieldViolates.ne {g : FieldDecl} (hne : f.name ≠ g.name) (x : Violation)
    (hf : FieldViolates section_ qs f x) : ¬FieldViolates section_ qs g x := by
  intro hg
  have hplace := hf.place.symm.trans hg.place
  injection hplace with _ hplace
  injection hplace with hplace _
  exact hne hplace

end

/-! ## Sections -/

/-- A violation of one of the fields of a section. -/
def FieldsViolate (s : SectionDecl) (qs : List (Value × Value)) (x : Violation) : Prop :=
  ∃ f ∈ s.fields, FieldViolates s.name qs f x

section
variable {α : Type} {judge : List (Value × Value) → Judged α} {holds : List (Value × Value) → α → Prop}
  {s : SectionDecl} {ps qs : List (Value × Value)}

theorem exact_files (qs : List (Value × Value)) :
    Exact (fun a : FileRules =>
        FieldIs TextOf (some (lit "**/trait.*.js")) (Value.field? qs (lit "glob")) a.pattern ∧
        FieldIs TextOf (some (lit "utf-8")) (Value.field? qs (lit "encoding")) a.encoding ∧
        FieldIs TruthOf (some false) (Value.field? qs (lit "strict")) a.strict)
      (FieldsViolate filesDecl qs) (FileRules.ofPairs qs) := by
  have hencoding := exact_optionalField filesDecl.name qs ⟨lit "encoding", .text, false⟩ asText_decides
    rfl (lit "utf-8")
  have hpattern := exact_optionalField filesDecl.name qs ⟨lit "glob", .text, false⟩ asText_decides rfl
    (lit "**/trait.*.js")
  have hstrict := exact_optionalField filesDecl.name qs ⟨lit "strict", .truth, false⟩ asTruth_decides rfl
    false
  refine ((hencoding.both Prod.mk hpattern (FieldViolates.ne (by decide))).both _ hstrict ?_).imp ?_ ?_
  · rintro x (hx | hx)
    · exact FieldViolates.ne (by decide) x hx
    · exact FieldViolates.ne (by decide) x hx
  · rintro _ ⟨_, strict, ⟨encoding, pattern, he, hp, rfl⟩, hs, rfl⟩
    exact ⟨hp, he, hs⟩
  · intro x
    simp [FieldsViolate, filesDecl, or_assoc]

theorem exact_log (qs : List (Value × Value)) :
    Exact (fun a : LogRules =>
        FieldIs TextOf (some (lit "INFO")) (Value.field? qs (lit "level")) a.level ∧
        FieldIs TextOf (some (lit "%(asctime)s - %(name)s - %(levelname)s - %(message)s"))
          (Value.field? qs (lit "format")) a.format)
      (FieldsViolate logDecl qs) (LogRules.ofPairs qs) := by
  have hformat := exact_optionalField logDecl.name qs ⟨lit "format", .text, false⟩ asText_decides rfl
    (lit "%(asctime)s - %(name)s - %(levelname)s - %(message)s")
  have hlevel := exact_optionalField logDecl.name qs ⟨lit "level", .text, false⟩ asText_decides rfl
    (lit "INFO")
  refine (hformat.both _ hlevel (FieldViolates.ne (by decide))).imp ?_ ?_
  · rintro _ ⟨format, level, hf, hl, rfl⟩
    exact ⟨hl, hf⟩
  · intro x
    simp [FieldsViolate, logDecl]

theorem exact_project (qs : List (Value × Value)) :
    Exact (fun a : ProjectRules =>
        FieldIs TextOf none (Value.field? qs (lit "slug")) a.slug ∧
        FieldIs TextOf none (Value.field? qs (lit "rules_version")) a.version)
      (FieldsViolate projectDecl qs) (ProjectRules.ofPairs qs) := by
  have hversion := exact_requiredField projectDecl.name qs ⟨lit "rules_version", .text, true⟩
    asText_decides rfl
  have hslug := exact_requiredField projectDecl.name qs ⟨lit "slug", .text, true⟩ asText_decides rfl
  refine (hversion.both _ hslug (FieldViolates.ne (by decide))).imp ?_ ?_
  · rintro _ ⟨version, slug, hv, hs, rfl⟩
    exact ⟨hs, hv⟩
  · intro x
    simp [FieldsViolate, projectDecl]

theorem exact_registry (qs : List (Value × Value)) :
    Exact (fun a : RegistryRules =>
        FieldIs TruthOf (some true) (Value.field? qs (lit "log_deliveries")) a.logDeliveries)
      (FieldsViolate registryDecl qs) (RegistryRules.ofPairs qs) := by
  have hfield := exact_optionalField registryDecl.name qs ⟨lit "log_deliveries", .truth, false⟩
    asTruth_decides rfl true
  refine (hfield.map RegistryRules.mk).imp ?_ ?_
  · rintro _ ⟨b, hb, rfl⟩
    exact hb
  · intro x
    simp [FieldsViolate, registryDecl]

theorem exact_judgeSection (hj : ∀ qs, Exact (holds qs) (FieldsViolate s qs) (judge qs)) {w : Value}
    (hw : Value.field? ps s.name = some w) :
    Exact (holds (pairsOf (some w))) (SectionViolates ps s) (judgeSection judge [s.name] w) := by
  by_cases hm : ∃ qs, w = .mapping qs
  · obtain ⟨qs, rfl⟩ := hm
    refine (hj qs).imp (fun _ => id) fun x => ⟨?_, fun hx => ?_⟩
    · rintro ⟨f, hf, hx⟩
      exact .field hw hf hx
    · cases hx with
      | missing _ hnone => rw [hw] at hnone; cases hnone
      | shape hw' hne => rw [hw] at hw'; cases hw'; exact absurd rfl (hne qs)
      | field hw' hf hx => rw [hw] at hw'; cases hw'; exact ⟨_, hf, hx⟩
  · have hne : ∀ qs, w ≠ .mapping qs := fun qs hqs => hm ⟨qs, hqs⟩
    have herror : judgeSection judge [s.name] w = .error [⟨[s.name], .notMapping⟩] := by
      cases w <;> first | rfl | exact absurd rfl (hne _)
    rw [herror]
    refine .error (by simp) (by simp) fun x => ?_
    rw [List.mem_singleton]
    constructor
    · rintro rfl
      exact .shape hw hne
    · intro hx
      cases hx with
      | missing _ hnone => rw [hw] at hnone; cases hnone
      | shape _ _ => rfl
      | field hw' _ _ => rw [hw] at hw'; cases hw'; exact absurd rfl (hne _)

theorem exact_optionalSection (hj : ∀ qs, Exact (holds qs) (FieldsViolate s qs) (judge qs))
    (hr : s.required = false) (usual : α) (hu : holds [] usual) (ps : List (Value × Value)) :
    Exact (holds (pairsOf (Value.field? ps s.name))) (SectionViolates ps s)
      (optionalSection judge usual ps s.name) := by
  rw [optionalSection]
  cases hw : Value.field? ps s.name with
  | some w => exact exact_judgeSection hj hw
  | none =>
    refine .ok hu fun x hx => ?_
    cases hx with
    | missing hrequired _ => rw [hr] at hrequired; cases hrequired
    | shape hw' _ => rw [hw] at hw'; cases hw'
    | field hw' _ _ => rw [hw] at hw'; cases hw'

theorem exact_requiredSection (hj : ∀ qs, Exact (holds qs) (FieldsViolate s qs) (judge qs))
    (hr : s.required = true) (ps : List (Value × Value)) :
    Exact (holds (pairsOf (Value.field? ps s.name))) (SectionViolates ps s)
      (requiredSection judge ps s.name) := by
  rw [requiredSection]
  cases hw : Value.field? ps s.name with
  | some w => exact exact_judgeSection hj hw
  | none =>
    refine .error (by simp) (by simp) fun x => ?_
    rw [List.mem_singleton]
    constructor
    · rintro rfl
      exact .missing hr hw
    · intro hx
      cases hx with
      | missing _ _ => rfl
      | shape hw' _ => rw [hw] at hw'; cases hw'
      | field hw' _ _ => rw [hw] at hw'; cases hw'

theorem SectionViolates.head? {x : Violation} (h : SectionViolates ps s x) :
    x.place.head? = some s.name := by
  cases h with
  | missing _ _ => rfl
  | shape _ _ => rfl
  | field _ _ hx => rw [hx.place]; rfl

/-- Violations of different sections differ. -/
theorem SectionViolates.ne {s' : SectionDecl} (hne : s.name ≠ s'.name) (x : Violation)
    (h : SectionViolates ps s x) : ¬SectionViolates ps s' x := fun h' =>
  hne (Option.some.inj (h.head?.symm.trans h'.head?))

end

/-! ## Documents -/

theorem exact_ofPairs (ps : List (Value × Value)) :
    Exact (Reads (.mapping ps)) (Violates (.mapping ps)) (Rules.ofPairs ps) := by
  have hfiles := exact_optionalSection exact_files rfl {} ⟨rfl, rfl, rfl⟩ ps
  have hlog := exact_optionalSection exact_log rfl {} ⟨rfl, rfl⟩ ps
  have hproject := exact_requiredSection exact_project rfl ps
  have hregistry := exact_optionalSection exact_registry rfl {} rfl ps
  refine ((hfiles.both Prod.mk hlog (SectionViolates.ne (by decide))).both _
    (hproject.both Prod.mk hregistry (SectionViolates.ne (by decide))) ?_).imp ?_ ?_
  · rintro x (hx | hx) (hx' | hx')
    · exact SectionViolates.ne (by decide) x hx hx'
    · exact SectionViolates.ne (by decide) x hx hx'
    · exact SectionViolates.ne (by decide) x hx hx'
    · exact SectionViolates.ne (by decide) x hx hx'
  · rintro _ ⟨_, _, ⟨files, log, hf, hl, rfl⟩, ⟨project, registry, hp, hr, rfl⟩, rfl⟩
    exact ⟨hp.1, hp.2, hf.1, hf.2.1, hf.2.2, hr, hl.1, hl.2⟩
  · intro x
    constructor
    · rintro ((hx | hx) | (hx | hx))
      · exact .section_ (.head _) hx
      · exact .section_ (.tail _ (.head _)) hx
      · exact .section_ (.tail _ (.tail _ (.head _))) hx
      · exact .section_ (.tail _ (.tail _ (.tail _ (.head _)))) hx
    · intro hx
      cases hx with
      | shape hne => exact absurd rfl (hne ps)
      | section_ hs hx =>
        simp only [declared, List.mem_cons, List.not_mem_nil, or_false] at hs
        rcases hs with rfl | rfl | rfl | rfl
        · exact .inl (.inl hx)
        · exact .inl (.inr hx)
        · exact .inr (.inl hx)
        · exact .inr (.inr hx)

theorem exact_ofValue (v : Value) : Exact (Reads v) (Violates v) (Rules.ofValue v) := by
  by_cases hm : ∃ ps, v = .mapping ps
  · obtain ⟨ps, rfl⟩ := hm
    exact exact_ofPairs ps
  · have hne : ∀ ps, v ≠ .mapping ps := fun ps hps => hm ⟨ps, hps⟩
    have herror : Rules.ofValue v = .error [⟨[], .notMapping⟩] := by
      cases v <;> first | rfl | exact absurd rfl (hne _)
    rw [herror]
    refine .error (by simp) (by simp) fun x => ?_
    rw [List.mem_singleton]
    constructor
    · rintro rfl
      exact .shape hne
    · intro hx
      cases hx with
      | shape _ => rfl
      | section_ _ _ => exact absurd rfl (hne _)

/-! ## Admissible values -/

theorem FieldKind.admits_iff (kind : FieldKind) (u : Value) :
    kind.Admits u ↔ ∀ k, ¬kind.Rejects u k := by
  have hiff : ∀ {α : Type} {denotes : α → Prop} {rejects : ViolationKind → Prop} {r},
      Decides denotes rejects r → ((∃ a, denotes a) ↔ ∀ k, ¬rejects k) := by
    intro α denotes rejects r h
    cases h with
    | ok ha hnone => exact ⟨fun _ => hnone, fun _ => ⟨_, ha⟩⟩
    | error hnone hk _ => exact ⟨fun ⟨a, ha⟩ => absurd ha (hnone a), fun h => absurd hk (h _)⟩
  cases kind with
  | text => exact hiff (asText_decides u)
  | truth => exact hiff (asTruth_decides u)

theorem admissible_iff (v : Value) : Admissible v ↔ ∀ x, ¬Violates v x := by
  constructor
  · rintro ⟨ps, rfl, hsections⟩ x hx
    cases hx with
    | shape hne => exact hne ps rfl
    | section_ hs hx =>
      obtain ⟨hoptional, hfields⟩ := hsections _ hs
      cases hx with
      | missing hr hnone => exact Bool.false_ne_true ((hoptional hnone).symm.trans hr)
      | shape hw hne =>
        obtain ⟨qs, rfl, -⟩ := hfields _ hw
        exact hne qs rfl
      | field hw hf hx =>
        obtain ⟨_, hqs, hfields⟩ := hfields _ hw
        cases hqs
        obtain ⟨hoptional, hvalue⟩ := hfields _ hf
        cases hx with
        | missing hr hnone => exact Bool.false_ne_true ((hoptional hnone).symm.trans hr)
        | value hu hk => exact (FieldKind.admits_iff _ _).1 (hvalue _ hu) _ hk
  · intro h
    obtain ⟨ps, rfl⟩ : ∃ ps, v = .mapping ps :=
      Classical.byContradiction fun hne => h _ (.shape fun ps hps => hne ⟨ps, hps⟩)
    refine ⟨ps, rfl, fun s hs => ⟨fun hnone => ?_, fun w hw => ?_⟩⟩
    · rw [← Bool.not_eq_true]
      exact fun hr => h _ (.section_ hs (.missing hr hnone))
    · obtain ⟨qs, rfl⟩ : ∃ qs, w = .mapping qs :=
        Classical.byContradiction fun hne =>
          h _ (.section_ hs (.shape hw fun qs hqs => hne ⟨qs, hqs⟩))
      refine ⟨qs, rfl, fun f hf => ⟨fun hnone => ?_, fun u hu => ?_⟩⟩
      · rw [← Bool.not_eq_true]
        exact fun hr => h _ (.section_ hs (.field hw hf (.missing hr hnone)))
      · exact (FieldKind.admits_iff _ _).2 fun k hk =>
          h _ (.section_ hs (.field hw hf (.value hu hk)))

/-! ## Keys that are not declared -/

/-- The second value is the first with one more pair, whose key is not declared where it stands. -/
inductive Edit : Value → Value → Prop
  | document {ps ps' : List (Value × Value)} {p : Value × Value} :
      (∀ s ∈ declared, Value.hasKey s.name p = false) →
      Edit (.mapping (ps ++ ps')) (.mapping (ps ++ p :: ps'))
  | section_ {ps ps' qs qs' : List (Value × Value)} {s : SectionDecl} {p : Value × Value} :
      s ∈ declared → (∀ f ∈ s.fields, Value.hasKey f.name p = false) →
      Edit (.mapping (ps ++ (.text s.name, .mapping (qs ++ qs')) :: ps'))
        (.mapping (ps ++ (.text s.name, .mapping (qs ++ p :: qs')) :: ps'))

theorem field?_put {name : Text} {p : Value × Value} (h : Value.hasKey name p = false)
    (ps ps' : List (Value × Value)) :
    Value.field? (ps ++ p :: ps') name = Value.field? (ps ++ ps') name := by
  rw [Value.field?, Value.field?]
  simp [List.find?_append, h]

/-- The value at a key with another value put there: both values, or the one of a later pair. -/
theorem field?_replace (name : Text) (u u' : Value) (ps ps' : List (Value × Value)) :
    Value.field? (ps ++ (.text name, u) :: ps') name =
        Value.field? (ps ++ (.text name, u') :: ps') name ∨
      Value.field? (ps ++ (.text name, u) :: ps') name = some u ∧
        Value.field? (ps ++ (.text name, u') :: ps') name = some u' := by
  have hfield : ∀ w : Value, Value.field? (ps ++ (.text name, w) :: ps') name =
      some (((ps'.reverse.find? (Value.hasKey name)).map (·.2)).getD w) := by
    intro w
    rw [Value.field?]
    cases hp : ps'.reverse.find? (Value.hasKey name) <;> simp [List.find?_append, hp, Value.hasKey]
  rw [hfield, hfield]
  cases ps'.reverse.find? (Value.hasKey name) with
  | some p => exact .inl rfl
  | none => exact .inr ⟨rfl, rfl⟩

section
variable {s : SectionDecl} {ps ps' qs qs' : List (Value × Value)}

/-- Pairs that agree on the fields of a section. -/
def Agree (s : SectionDecl) (qs qs' : List (Value × Value)) : Prop :=
  ∀ f ∈ s.fields, Value.field? qs f.name = Value.field? qs' f.name

theorem files_congr (h : Agree filesDecl qs qs') : FileRules.ofPairs qs = FileRules.ofPairs qs' := by
  have hencoding : Value.field? qs (lit "encoding") = Value.field? qs' (lit "encoding") := h _ (.head _)
  have hpattern : Value.field? qs (lit "glob") = Value.field? qs' (lit "glob") := h _ (.tail _ (.head _))
  have hstrict : Value.field? qs (lit "strict") = Value.field? qs' (lit "strict") :=
    h _ (.tail _ (.tail _ (.head _)))
  simp only [FileRules.ofPairs, optionalField, hencoding, hpattern, hstrict]

theorem log_congr (h : Agree logDecl qs qs') : LogRules.ofPairs qs = LogRules.ofPairs qs' := by
  have hformat : Value.field? qs (lit "format") = Value.field? qs' (lit "format") := h _ (.head _)
  have hlevel : Value.field? qs (lit "level") = Value.field? qs' (lit "level") := h _ (.tail _ (.head _))
  simp only [LogRules.ofPairs, optionalField, hformat, hlevel]

theorem project_congr (h : Agree projectDecl qs qs') :
    ProjectRules.ofPairs qs = ProjectRules.ofPairs qs' := by
  have hversion : Value.field? qs (lit "rules_version") = Value.field? qs' (lit "rules_version") :=
    h _ (.head _)
  have hslug : Value.field? qs (lit "slug") = Value.field? qs' (lit "slug") := h _ (.tail _ (.head _))
  simp only [ProjectRules.ofPairs, requiredField, hversion, hslug]

theorem registry_congr (h : Agree registryDecl qs qs') :
    RegistryRules.ofPairs qs = RegistryRules.ofPairs qs' := by
  have hfield : Value.field? qs (lit "log_deliveries") = Value.field? qs' (lit "log_deliveries") :=
    h _ (.head _)
  simp only [RegistryRules.ofPairs, optionalField, hfield]

/-- Two values of a section that agree on its fields. -/
inductive SameFields (s : SectionDecl) : Option Value → Option Value → Prop
  | refl (w? : Option Value) : SameFields s w? w?
  | mapping {qs qs' : List (Value × Value)} : Agree s qs qs' →
      SameFields s (some (.mapping qs)) (some (.mapping qs'))

theorem ofPairs_congr
    (h : ∀ s ∈ declared, SameFields s (Value.field? ps s.name) (Value.field? ps' s.name)) :
    Rules.ofPairs ps = Rules.ofPairs ps' := by
  have hoptional : ∀ {α : Type} {judge : List (Value × Value) → Judged α} (usual : α), ∀ s ∈ declared,
      (∀ {qs qs'}, Agree s qs qs' → judge qs = judge qs') →
      optionalSection judge usual ps s.name = optionalSection judge usual ps' s.name := by
    intro α judge usual s hs hj
    have hsame := h s hs
    rw [optionalSection, optionalSection]
    generalize Value.field? ps s.name = w at hsame
    generalize Value.field? ps' s.name = w' at hsame
    cases hsame with
    | refl _ => rfl
    | mapping hagree => exact hj hagree
  have hproject : requiredSection ProjectRules.ofPairs ps projectDecl.name =
      requiredSection ProjectRules.ofPairs ps' projectDecl.name := by
    have hsame := h projectDecl (by decide)
    rw [requiredSection, requiredSection]
    generalize Value.field? ps projectDecl.name = w at hsame
    generalize Value.field? ps' projectDecl.name = w' at hsame
    cases hsame with
    | refl _ => rfl
    | mapping hagree => exact project_congr hagree
  have hfiles := hoptional {} filesDecl (by decide) files_congr
  have hlog := hoptional {} logDecl (by decide) log_congr
  have hregistry := hoptional {} registryDecl (by decide) registry_congr
  show Judged.both _ (Judged.both _ (optionalSection _ _ ps filesDecl.name)
    (optionalSection _ _ ps logDecl.name)) (Judged.both _ (requiredSection _ ps projectDecl.name)
    (optionalSection _ _ ps registryDecl.name)) = _
  rw [hfiles, hlog, hproject, hregistry]
  rfl

theorem Edit.ofValue_eq {v w : Value} (h : Edit v w) : Rules.ofValue v = Rules.ofValue w := by
  cases h with
  | @document ps ps' p hp =>
    refine ofPairs_congr fun s hs => ?_
    rw [field?_put (hp s hs)]
    exact .refl _
  | @section_ ps ps' qs qs' s p hs hp =>
    refine ofPairs_congr fun s' hs' => ?_
    by_cases hname : s.name = s'.name
    · have hunique : ∀ s ∈ declared, ∀ s' ∈ declared, s.name = s'.name → s = s' := by decide
      obtain rfl := hunique s hs s' hs' hname
      rcases field?_replace s.name (.mapping (qs ++ qs')) (.mapping (qs ++ p :: qs')) ps ps' with
        heq | ⟨hleft, hright⟩
      · rw [heq]
        exact .refl _
      · rw [hleft, hright]
        exact .mapping fun f hf => (field?_put (hp f hf) qs qs').symm
    · have hkey : ∀ u : Value, Value.hasKey s'.name (.text s.name, u) = false := fun u =>
        decide_eq_false hname
      rw [field?_put (hkey _), field?_put (hkey _)]
      exact .refl _

/-- Keys that are not declared change nothing, however many are added, removed or changed. -/
theorem ofValue_eq_of_edits {v w : Value} (h : Relation.EqvGen Edit v w) :
    Rules.ofValue v = Rules.ofValue w := by
  induction h with
  | rel _ _ h => exact h.ofValue_eq
  | refl _ => rfl
  | symm _ _ _ ih => exact ih.symm
  | trans _ _ _ _ _ ih ih' => exact ih.trans ih'

end

/-! ## All of it -/

/-- The violations that are reported for a value. -/
def reported (v : Value) : List Violation :=
  match Rules.ofValue v with
  | .ok _ => []
  | .error vs => vs

theorem mem_reported (v : Value) (x : Violation) : x ∈ reported v ↔ Violates v x := by
  have hexact := exact_ofValue v
  rw [reported]
  generalize Rules.ofValue v = j at hexact
  cases hexact with
  | ok _ hnone => exact ⟨nofun, fun hx => absurd hx (hnone x)⟩
  | error _ _ hmem => exact hmem x

/-- The violations of a section depend on its value only. -/
theorem Violates.of_field?_eq {ps ps' : List (Value × Value)} {name : Text}
    (h : Value.field? ps name = Value.field? ps' name) {x : Violation}
    (hx : x.place.head? = some name) (hv : Violates (.mapping ps) x) : Violates (.mapping ps') x := by
  cases hv with
  | shape hne => exact absurd rfl (hne ps)
  | section_ hs hv =>
    obtain rfl := Option.some.inj (hx.symm.trans hv.head?)
    refine .section_ hs ?_
    cases hv with
    | missing hr hnone => exact .missing hr (h ▸ hnone)
    | shape hw hne => exact .shape (h ▸ hw) hne
    | field hw hf hx => exact .field (h ▸ hw) hf hx

end Schema

open Schema

/-- **Rules are read from a value exactly if it keeps to the schema.**  They are read if and only if the
    value is admissible, and then are what it says, field by field.  Otherwise all violations of all
    sections are reported, each of them once.  The violations of a section depend on its value only, and
    keys that are not declared, at the top level or in a section, change nothing. -/
theorem Rules.ofValue_exact (v : Value) :
    ((∃ r, Rules.ofValue v = .ok r) ↔ Admissible v) ∧
    (∀ r, Rules.ofValue v = .ok r → Reads v r) ∧
    (∀ vs, Rules.ofValue v = .error vs → vs.Nodup ∧ ∀ x, x ∈ vs ↔ Violates v x) ∧
    (∀ ps ps' name, v = .mapping ps → Value.field? ps name = Value.field? ps' name →
      ∀ x : Violation, x.place.head? = some name → (x ∈ reported v ↔ x ∈ reported (.mapping ps'))) ∧
    ∀ w, Relation.EqvGen Edit v w → Rules.ofValue w = Rules.ofValue v := by
  have hexact := exact_ofValue v
  refine ⟨?_, ?_, ?_, ?_, fun w hw => (ofValue_eq_of_edits hw).symm⟩
  · rw [admissible_iff]
    cases hv : Rules.ofValue v with
    | ok r =>
      rw [hv] at hexact
      cases hexact with
      | ok _ hnone => exact ⟨fun _ => hnone, fun _ => ⟨r, rfl⟩⟩
    | error vs =>
      rw [hv] at hexact
      cases hexact with
      | error hne _ hmem =>
        obtain ⟨x, hx⟩ := List.exists_mem_of_ne_nil vs hne
        exact ⟨nofun, fun hnone => absurd ((hmem x).1 hx) (hnone x)⟩
  · intro r hr
    rw [hr] at hexact
    cases hexact with
    | ok hreads _ => exact hreads
  · intro vs hvs
    rw [hvs] at hexact
    cases hexact with
    | error _ hnodup hmem => exact ⟨hnodup, hmem⟩
  · rintro ps ps' name rfl hname x hx
    rw [mem_reported, mem_reported]
    exact ⟨.of_field?_eq hname hx, .of_field?_eq hname.symm hx⟩

/-- A value with violations in all sections that it has, and with keys that are not declared. -/
def faultySample : Value :=
  .mapping [(.text (lit "extra"), .null), (.text (lit "datafiles"), .null),
    (.text (lit "project"), .mapping [(.text (lit "slug"), .integer 7)]),
    (.text (lit "logging"), .mapping [(.text (lit "level"), .bytes [0xff]), (.truth true, .null)])]

/-- The same value without these keys. -/
def trimmedSample : Value :=
  .mapping [(.text (lit "datafiles"), .null),
    (.text (lit "project"), .mapping [(.text (lit "slug"), .integer 7)]),
    (.text (lit "logging"), .mapping [(.text (lit "level"), .bytes [0xff])])]

theorem ofValue_exact_sample :
    ¬Admissible faultySample ∧
      Rules.ofValue trimmedSample = .error [⟨[lit "datafiles"], .notMapping⟩,
        ⟨[lit "logging", lit "level"], .notUnicode⟩, ⟨[lit "project", lit "rules_version"], .missing⟩,
        ⟨[lit "project", lit "slug"], .notText⟩] ∧
      Rules.ofValue trimmedSample = Rules.ofValue faultySample := by
  have hreported : Rules.ofValue trimmedSample = .error [⟨[lit "datafiles"], .notMapping⟩,
      ⟨[lit "logging", lit "level"], .notUnicode⟩, ⟨[lit "project", lit "rules_version"], .missing⟩,
      ⟨[lit "project", lit "slug"], .notText⟩] := by decide
  obtain ⟨hok, -, -, -, hedits⟩ := Rules.ofValue_exact faultySample
  have hlog := @Edit.section_ [(.text (lit "datafiles"), .null),
      (.text (lit "project"), .mapping [(.text (lit "slug"), .integer 7)])] []
    [(.text (lit "level"), .bytes [0xff])] [] logDecl (.truth true, .null) (by decide) (by decide)
  have hextra := @Edit.document [] [(.text (lit "datafiles"), .null),
      (.text (lit "project"), .mapping [(.text (lit "slug"), .integer 7)]),
      (.text (lit "logging"), .mapping [(.text (lit "level"), .bytes [0xff]), (.truth true, .null)])]
    (.text (lit "extra"), .null) (by decide)
  have hsame := hedits trimmedSample (.trans _ _ _ (.symm _ _ (.rel _ _ hextra)) (.symm _ _ (.rel _ _ hlog)))
  refine ⟨fun hadmissible => ?_, hreported, hsame⟩
  obtain ⟨r, hr⟩ := hok.2 hadmissible
  rw [← hsame, hreported] at hr
  cases hr

/-- A value whose slug is not text but bytes. -/
def bytesSample : Value :=
  .mapping [(.text (lit "project"), .mapping [(.text (lit "slug"), .bytes [0x61]),
    (.text (lit "rules_version"), .text (lit "1"))])]

/-- Text fields take more than text: bytes that are UTF-8 are read as text. -/
theorem bytes_taken_for_text :
    (∀ t, fieldAt bytesSample "project" "slug" ≠ some (.text t)) ∧
      Rules.ofValue bytesSample = .ok ⟨⟨lit "a", lit "1"⟩, {}, {}, {}⟩ ∧
      Rules.parse (lit "project:\n  slug: !!binary YQ==\n  rules_version: '1'\n") =
        .ok ⟨⟨lit "a", lit "1"⟩, {}, {}, {}⟩ := by
  refine ⟨fun t ht => ?_, by decide, by decide +kernel⟩
  have hslug : fieldAt bytesSample "project" "slug" = some (.bytes [0x61]) := rfl
  rw [hslug] at ht
  cases ht

end TraitCatalog
