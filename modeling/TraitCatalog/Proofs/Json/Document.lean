/-
  Documents are written in code points that can be printed.

  Whatever is not ASCII is escaped in the strings of a document, so that its text has no surrogates,
  whatever its strings hold: `Document.scalar_render`.
-/
import TraitCatalog.Json.Document
import TraitCatalog.Proofs.DataFile.RoundTrip

namespace TraitCatalog.Json

open Text (lit)

theorem scalar_escapeNumber (n : Nat) : Text.Scalar (escapeNumber n) := by
  refine (Text.Scalar.lit _).append fun c hc => ?_
  obtain ⟨ch, -, rfl⟩ := List.mem_map.1 hc
  exact ⟨ch, rfl⟩

/-- A code point is written without surrogates, also one that is a surrogate. -/
theorem scalar_escapeAscii (c : CodePoint) : Text.Scalar (escapeAscii c) := by
  rw [escapeAscii]
  split
  · rename_i hlow
    refine DataFile.scalar_escape ?_
    cases c with
    | scalar ch => exact ⟨ch, rfl⟩
    | surrogate n =>
      rw [CodePoint.toNat] at hlow
      omega
  · split
    · exact scalar_escapeNumber _
    · exact (scalar_escapeNumber _).append (scalar_escapeNumber _)

theorem scalar_quoteAscii (t : Text) : Text.Scalar (quoteAscii t) := by
  have hquote : Text.Scalar [.scalar '"'] := Text.Scalar.lit "\""
  exact (hquote.append (.flatMap fun c _ => scalar_escapeAscii c)).append hquote

namespace Document

theorem scalar_newLine (depth : Nat) : Text.Scalar (newLine depth) := by
  refine (Text.Scalar.lit _).append fun c hc => ?_
  exact ⟨' ', List.eq_of_mem_replicate hc⟩

theorem scalar_bracketed (opening closing : String) (depth : Nat) {parts : List Text}
    (h : ∀ p ∈ parts, p.Scalar) : Text.Scalar (bracketed opening closing depth parts) := by
  have hline := scalar_newLine
  rw [bracketed]
  split
  · exact (Text.Scalar.lit _).append (.lit _)
  · have hparts := Text.Scalar.join ((Text.Scalar.lit ",").append (hline (depth + 1))) h
    exact ((((Text.Scalar.lit _).append (hline _)).append hparts).append (hline _)).append (.lit _)

mutual

theorem scalar_render (depth : Nat) : ∀ d : Document, Text.Scalar (d.render depth)
  | number n => by
    intro c hc
    obtain ⟨ch, -, rfl⟩ := List.mem_map.1 hc
    exact ⟨ch, rfl⟩
  | text t => scalar_quoteAscii t
  | list items => scalar_bracketed _ _ depth (scalar_renderItems (depth + 1) items)
  | object fields => scalar_bracketed _ _ depth (scalar_renderFields (depth + 1) fields)

theorem scalar_renderItems (depth : Nat) :
    ∀ ds : List Document, ∀ p ∈ renderItems depth ds, Text.Scalar p
  | [] => List.forall_mem_nil _
  | d :: ds => List.forall_mem_cons.2 ⟨scalar_render depth d, scalar_renderItems depth ds⟩

theorem scalar_renderFields (depth : Nat) :
    ∀ fs : List (Text × Document), ∀ p ∈ renderFields depth fs, Text.Scalar p
  | [] => List.forall_mem_nil _
  | (k, d) :: fs => by
    refine List.forall_mem_cons.2 ⟨?_, scalar_renderFields depth fs⟩
    exact ((scalar_quoteAscii k).append (.lit _)).append (scalar_render depth d)

end

end Document

end TraitCatalog.Json
