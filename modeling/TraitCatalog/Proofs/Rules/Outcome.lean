/-
  How a reading of rules ends.

  Rules that are bad are reported: as no YAML, as a value that does not exist, or with the violations
  of their schema.  A few texts end the reading otherwise, and it can be told from a text that it is
  none of them.

  * `RulesFault.isForeseen`: the faults that are reported as bad rules;
  * `parse_outcome`: how the reading of any text ends.
-/
import TraitCatalog.Proofs.Yaml.Outcome.Exact
import TraitCatalog.Rules.Load

namespace TraitCatalog

open Text (lit)
open Yaml

/-- A fault that is reported as that of bad rules. -/
def RulesFault.isForeseen : RulesFault → Bool
  | .yaml f => f.isForeseen
  | .violations _ => true
  | .missing _ | .file _ => false

namespace Rules

theorem parse_of_load_error {t : Text} {e : Yaml.Fault}
    (h : Yaml.load valueDepth (Fence.extract t) = .error e) : parse t = .error (.yaml e) := by
  rw [parse, h]

/-- The fault of a text is that of its value, if it is one of YAML. -/
theorem parse_eq_yaml_iff {t : Text} {e : Yaml.Fault} :
    parse t = .error (.yaml e) ↔ Yaml.load valueDepth (Fence.extract t) = .error e := by
  refine ⟨fun h => ?_, parse_of_load_error⟩
  rw [parse] at h
  split at h
  · rename_i f hf
    rw [hf, RulesFault.yaml.inj (Except.error.inj h)]
  · split at h <;> cases h

/-- **How a reading of rules ends.**  It ends with rules, or with a fault that is reported as bad
    rules, unless the text offends: it holds an escape with a number that is too large by far, opens
    too many collections, has a node whose text is no value of its kind, or nodes that lead from one
    to the next too often.  In a text without tags only an escape, nesting or such a path, or a real
    in base sixty with too many digits can do that.

    A text that is just a scalar with a tag ends so exactly when the scalar is unreadable, and a text
    of brackets does when there are more of them than may be nested, whatever number that is. -/
theorem parse_outcome (t : Text) :
    ((∃ r, parse t = .ok r) ∨ ∃ f, parse t = .error f ∧
      (f.isForeseen = true ∨ ∃ e, f = .yaml e ∧ Offence (Fence.extract t) e)) ∧
    (.scalar '!' ∉ Fence.extract t → ∀ e, Offence (Fence.extract t) e →
      e = .pointOverflow ∨ e = .tooDeep ∨ e = .hugePower) ∧
    (∀ name w, Fence.extract t = tagged name w → IsTagName name → IsQuotable w →
      ∀ e : Yaml.Fault, e.isForeseen = false → (parse t = .error (.yaml e) ↔
        Unreadable (.ofName (Tag.lead ++ name)) (.scalar w) w e)) ∧
    ∀ n, Fence.extract t = brackets n → depthLimit < n → parse t = .error (.yaml .tooDeep) := by
  refine ⟨?_, fun hsign e h => h.of_untagged hsign, ?_, ?_⟩
  · cases hvalue : Yaml.load valueDepth (Fence.extract t) with
    | error e =>
      have hends := (load_yields valueDepth (Fence.extract t)).of_error hvalue
      exact .inr ⟨_, parse_of_load_error hvalue, hends.imp_right fun h => ⟨e, rfl, h⟩⟩
    | ok v =>
      rw [parse, hvalue]
      dsimp only
      cases ofValue v with
      | error vs => exact .inr ⟨_, rfl, .inl rfl⟩
      | ok r => exact .inl ⟨r, rfl⟩
  · intro name w ht hname hw e he
    rw [parse_eq_yaml_iff, ht, load_tagged hname hw, scalarValue_eq_error_iff he]
  · intro n ht hn
    refine parse_of_load_error ?_
    rw [ht, load_brackets hn]

/-- A text with an escape whose number is too large by far. -/
def hugeSample : Text :=
  lit "a: \"\\UFFFFFFFF\""

theorem parse_outcome_samples :
    (Offence (Fence.extract hugeSample) .pointOverflow ∧ .scalar '!' ∉ Fence.extract hugeSample ∧
      (Yaml.Fault.pointOverflow = .pointOverflow ∨ Yaml.Fault.pointOverflow = .tooDeep ∨
        Yaml.Fault.pointOverflow = .hugePower)) ∧
    parse (tagged (lit "bool") (lit "maybe")) = .error (.yaml (.unknownTruth (lit "maybe"))) ∧
    parse (brackets 486) = .error (.yaml .tooDeep) := by
  have hhuge : Offence (Fence.extract hugeSample) .pointOverflow :=
    .escape ⟨lit "a: \"", lit "FFFFFFFF", lit "\"", 0xFFFFFFFF, by decide, by decide, by decide,
      by decide⟩
  have hsign : .scalar '!' ∉ Fence.extract hugeSample := by decide
  have hmaybe : IsQuotable (lit "maybe") := by
    rw [IsQuotable]
    decide
  refine ⟨⟨hhuge, hsign, (parse_outcome hugeSample).2.1 hsign _ hhuge⟩, ?_, ?_⟩
  · have htagged := (parse_outcome (tagged (lit "bool") (lit "maybe"))).2.2.1 (lit "bool")
      (lit "maybe") (by decide) ⟨by decide, by decide⟩ hmaybe
    exact (htagged _ rfl).2 (.truth (by decide))
  · exact (parse_outcome (brackets 486)).2.2.2 486 (by decide +kernel) (by decide)

/-- A truth value that is none ends the reading with a fault which is not reported as bad rules. -/
theorem unknown_truth_unreported : ∃ f,
    parse (lit "a: !!bool x") = .error f ∧ f.isForeseen = false :=
  ⟨.yaml (.unknownTruth (lit "x")), by decide +kernel, rfl⟩

end Rules

end TraitCatalog
