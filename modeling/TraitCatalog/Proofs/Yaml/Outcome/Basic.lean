/-
  How a reading ends.

  A reading of a YAML text ends with a result or with a fault.  Most faults are *foreseen*: whoever
  asked for the text is told that it is bad.  A few are not, and end the work of whoever asked.

  * `Fault.isForeseen`: which faults are foreseen;
  * `Yields E Q x`: the reading `x` ends with a result that has `Q`, or with a fault that has `E`;
  * `Yields.bind`, `Yields.bindState`: what a reading yields, from what its parts yield.
-/
import TraitCatalog.Yaml.Lexeme

namespace TraitCatalog.Yaml

/-- A fault that is reported as that of a bad text.  The others come out as they are. -/
def Fault.isForeseen : Fault → Bool
  | .tooDeep | .pointOverflow | .unknownTruth _ | .emptyNumber | .hugePower | .notMoment |
    .momentOfCollection => false
  | .invalid | .pointRange | .badInteger _ _ | .longInteger _ | .badFloat _ | .moment _ => true

/-- A reading ends with a result that has `Q`, or with a fault that has `E`. -/
inductive Yields {α : Type} (E : Fault → Prop) (Q : α → Prop) : Except Fault α → Prop
  | ok {a : α} : Q a → Yields E Q (.ok a)
  | error {f : Fault} : E f → Yields E Q (.error f)

namespace Yields

variable {α β σ : Type} {E E' : Fault → Prop} {Q Q' : α → Prop} {R : β → Prop}
  {x : Except Fault α} {f : Fault}

theorem of_ok {a : α} (h : Yields E Q x) (hx : x = .ok a) : Q a := by
  subst hx
  cases h with
  | ok hq => exact hq

theorem of_error (h : Yields E Q x) (hx : x = .error f) : E f := by
  subst hx
  cases h with
  | error he => exact he

theorem imp (h : Yields E Q x) (hE : ∀ f, E f → E' f) (hQ : ∀ a, Q a → Q' a) :
    Yields E' Q' x := by
  cases h with
  | ok hq => exact .ok (hQ _ hq)
  | error he => exact .error (hE _ he)

theorem weaken (h : Yields E Q x) (hQ : ∀ a, Q a → Q' a) : Yields E Q' x :=
  h.imp (fun _ he => he) hQ

theorem bind {g : α → Except Fault β} (h : Yields E Q x) (hg : ∀ a, Q a → Yields E R (g a)) :
    Yields E R (x >>= g) := by
  cases h with
  | ok hq => exact hg _ hq
  | error he => exact .error he

theorem map {g : α → β} (h : Yields E Q x) (hg : ∀ a, Q a → R (g a)) : Yields E R (g <$> x) := by
  cases h with
  | ok hq => exact .ok (hg _ hq)
  | error he => exact .error he

theorem ite {b : Prop} [Decidable b] {y : Except Fault α} (hx : b → Yields E Q x)
    (hy : ¬b → Yields E Q y) : Yields E Q (if b then x else y) := by
  by_cases h : b
  · rw [if_pos h]
    exact hx h
  · rw [if_neg h]
    exact hy h

theorem require {b : Bool} {g : Unit → Except Fault β} (hE : E .invalid)
    (hg : b = true → Yields E R (g ())) : Yields E R (Yaml.require b >>= g) := by
  cases b with
  | true => exact hg rfl
  | false => exact .error hE

theorem mapM {g : α → Except Fault β} {P : α → β → Prop} : ∀ {as : List α},
    (∀ a ∈ as, Yields E (P a) (g a)) →
      Yields E (fun bs => bs.length = as.length ∧ ∀ a ∈ as, ∃ b, P a b) (as.mapM g)
  | [], _ => .ok ⟨rfl, by simp⟩
  | a :: as, h => by
    obtain ⟨ha, has⟩ := List.forall_mem_cons.1 h
    rw [List.mapM_cons]
    refine ha.bind fun b hb => (mapM has).bind fun bs hbs => .ok ⟨?_, ?_⟩
    · rw [List.length_cons, List.length_cons, hbs.1]
    · exact List.forall_mem_cons.2 ⟨⟨b, hb⟩, hbs.2⟩

/-! ## Work on a state -/

/-- Work on a state that can end with a fault. -/
abbrev Work (σ α : Type) := StateT σ (Except Fault) α

variable {s : σ} {m : Work σ α} {P : α × σ → Prop} {P' : β × σ → Prop}

theorem bindState {g : α → Work σ β} (h : Yields E P (m.run s))
    (hg : ∀ a s', P (a, s') → Yields E P' ((g a).run s')) : Yields E P' ((m >>= g).run s) :=
  h.bind fun (a, s') hp => hg a s' hp

theorem getState {g : σ → Work σ β} (h : Yields E P' ((g s).run s)) :
    Yields E P' ((get >>= g).run s) :=
  h

theorem liftState (h : Yields E Q x) :
    Yields E (fun r => r.2 = s ∧ Q r.1) ((liftM x : Work σ α).run s) :=
  Yields.bind h fun _ hq => .ok ⟨rfl, hq⟩

theorem iteState {b : Prop} [Decidable b] {m' : Work σ α} (h : b → Yields E P (m.run s))
    (h' : ¬b → Yields E P (m'.run s)) : Yields E P ((if b then m else m').run s) := by
  by_cases hb : b
  · rw [if_pos hb]
    exact h hb
  · rw [if_neg hb]
    exact h' hb

/-- One piece of work after the other, where `R` holds in between, and what is said of a result
    stays so. -/
theorem mapMState {R : σ → Prop} {P : β → σ → Prop} {g : α → Work σ β} {as : List α}
    (hg : ∀ a ∈ as, ∀ s, R s →
      Yields E (fun r => R r.2 ∧ P r.1 r.2 ∧ ∀ b, P b s → P b r.2) ((g a).run s))
    (s : σ) (hs : R s) :
    Yields E (fun r => R r.2 ∧ (∀ b ∈ r.1, P b r.2) ∧ ∀ b, P b s → P b r.2)
      ((as.mapM g).run s) := by
  induction as generalizing s with
  | nil => exact .ok ⟨hs, by simp, fun _ h => h⟩
  | cons a as ih =>
    obtain ⟨ha, has⟩ := List.forall_mem_cons.1 hg
    rw [List.mapM_cons]
    refine (ha s hs).bindState fun b s₁ ⟨hs₁, hb, hkept⟩ => ?_
    refine (ih has s₁ hs₁).bindState fun bs s₂ ⟨hs₂, hbs, hkept'⟩ => ?_
    refine .ok ⟨hs₂, List.forall_mem_cons.2 ⟨hkept' b hb, hbs⟩, fun c hc => hkept' c (hkept c hc)⟩

end Yields

end TraitCatalog.Yaml
