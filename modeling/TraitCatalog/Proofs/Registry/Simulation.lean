/-
  Registries that go as others do.

  Two registries with different hooks, in different worlds, are followed step by step.  The hooks
  are matched by a relation `H` and the stages by a relation `R` that the registry respects
  (`Respects`).  If calls of matching hooks simulate each other, then so does all that the registry
  does with them.  The second registry may break off: once it is on a stage where `B` holds it stays
  on such stages, and from there on the two are not compared.

  * `Run.Keeps`: what some work keeps of a stage; `Stage.Lasting`: what a registry keeps if its
    hooks do;
  * `Run.Simulates`: two pieces of work end in the same way and on related stages;
  * `Phase.Matches` and `Plan.Matches`: the same but for matching hooks;
  * `Respects.register` and `Respects.install`: the operations of a registry simulate each other.
-/
import TraitCatalog.Proofs.Registry.Exec

namespace TraitCatalog

variable {η η' ω ω' α γ : Type}

/-! ## Work -/

/-- Some work keeps a property of stages. -/
def Run.Keeps (P : Stage η ω → Prop) (x : Run η ω α) : Prop :=
  ∀ s, P s → P (x.exec s).2

theorem Run.Keeps.bind {P : Stage η ω → Prop} {x : Run η ω α} {k : α → Run η ω γ} (hx : x.Keeps P)
    (hk : ∀ a, (k a).Keeps P) : (x >>= k).Keeps P := by
  intro s hs
  have ht := hx s hs
  rw [Run.exec_bind]
  rcases he : x.exec s with ⟨f | a, t⟩ <;> rw [he] at ht
  · exact ht
  · exact hk a t ht

/-- From related stages, two pieces of work end in the same way, on related stages, unless the
    second breaks off. -/
structure Run.Simulates (R : Stage η ω → Stage η' ω' → Prop) (B : Stage η' ω' → Prop)
    (x : Run η ω α) (y : Run η' ω' α) : Prop where
  keeps : y.Keeps B
  follows : ∀ s t, R s t →
    B (y.exec t).2 ∨ (x.exec s).1 = (y.exec t).1 ∧ R (x.exec s).2 (y.exec t).2

namespace Run.Simulates

variable {R : Stage η ω → Stage η' ω' → Prop} {B : Stage η' ω' → Prop}

/-- Work that never breaks off. -/
theorem never_iff {x : Run η ω α} {y : Run η' ω' α} : Simulates R (fun _ => False) x y ↔
    ∀ s t, R s t → (x.exec s).1 = (y.exec t).1 ∧ R (x.exec s).2 (y.exec t).2 :=
  ⟨fun h s t hst => (h.follows s t hst).resolve_left id,
    fun h => ⟨fun _ hf => hf, fun s t hst => .inr (h s t hst)⟩⟩

theorem pure (a : α) : Simulates R B (Pure.pure a) (Pure.pure a) :=
  ⟨fun _ hB => hB, fun _ _ h => .inr ⟨rfl, h⟩⟩

theorem throw (f : Failure) : Simulates R B (MonadExcept.throw f : Run η ω α) (MonadExcept.throw f) :=
  ⟨fun _ hB => hB, fun _ _ h => .inr ⟨rfl, h⟩⟩

theorem modifies {f : Stage η ω → Stage η ω} {g : Stage η' ω' → Stage η' ω'}
    (hB : ∀ t, B t → B (g t)) (h : ∀ s t, R s t → R (f s) (g t)) :
    Simulates R B (modify f : Run η ω Unit) (modify g) :=
  ⟨hB, fun s t hst => .inr ⟨rfl, h s t hst⟩⟩

theorem bind {x : Run η ω α} {y : Run η' ω' α} {k : α → Run η ω γ} {l : α → Run η' ω' γ}
    (h : Simulates R B x y) (hk : ∀ a, Simulates R B (k a) (l a)) :
    Simulates R B (x >>= k) (y >>= l) := by
  refine ⟨h.keeps.bind fun a => (hk a).keeps, fun s t hst => ?_⟩
  have hxy := h.follows s t hst
  rw [Run.exec_bind, Run.exec_bind]
  rcases hx : x.exec s with ⟨r, s'⟩
  rcases hy : y.exec t with ⟨r', t'⟩
  rw [hx, hy] at hxy
  obtain hB | ⟨ho, hR⟩ := hxy
  · cases r' with
    | error f => exact .inl hB
    | ok a => exact .inl ((hk a).keeps t' hB)
  · cases ho
    cases r with
    | error f => exact .inr ⟨rfl, hR⟩
    | ok a => exact (hk a).follows s' t' hR

theorem attempt {x : Run η ω α} {y : Run η' ω' α} (h : Simulates R B x y) :
    Simulates R B (Run.attempt x) (Run.attempt y) := by
  refine ⟨fun t hB => h.keeps t hB, fun s t hst => ?_⟩
  rw [Run.exec_attempt, Run.exec_attempt]
  exact (h.follows s t hst).imp id fun ⟨ho, hR⟩ => ⟨congrArg Except.ok ho, hR⟩

end Run.Simulates

/-! ## Matching hooks -/

section
variable (H : η → η' → Prop)

/-- Two states of a registry: matching hooks, or the same maps that wait. -/
inductive Phase.Matches : Phase η → Phase η' → Prop
  | buffering (queue : List ImplementorMap) : Matches (.buffering queue) (.buffering queue)
  | live {h h'} : H h h' → Matches (.live h) (.live h')

/-- Two plans with the same steps, but for matching hooks where they install one. -/
inductive Plan.Matches : Plan η ω → Plan η' ω → Prop
  | done : Matches .done .done
  | fail (f : Failure) : Matches (.fail f) (.fail f)
  | note {p q} (e : LogEvent) : Matches p q → Matches (.note e p) (.note e q)
  | inspect {p q} : (∀ w, Matches (p w) (q w)) → Matches (.inspect p) (.inspect q)
  | update {p q} (f : ω → ω) : Matches p q → Matches (.update f p) (.update f q)
  | register {p q} (m : ImplementorMap) : (∀ r, Matches (p r) (q r)) →
      Matches (.register m p) (.register m q)
  | install {h h' p q} : H h h' → (∀ r, Matches (p r) (q r)) → Matches (.install h p) (.install h' q)

end

/-- Matching states are of one kind. -/
theorem Phase.Matches.sameKind {H : η → η' → Prop} {p : Phase η} {q : Phase η'} (h : p.Matches H q) :
    (∃ queue, p = .buffering queue ∧ q = .buffering queue) ∨
      ∃ k k', p = .live k ∧ q = .live k' ∧ H k k' := by
  cases h with
  | buffering queue => exact .inl ⟨queue, rfl, rfl⟩
  | live hk => exact .inr ⟨_, _, rfl, rfl, hk⟩

theorem Phase.matches_eq_iff {p q : Phase η} : p.Matches Eq q ↔ p = q := by
  constructor
  · rintro (queue | rfl)
    · rfl
    · rfl
  · rintro rfl
    cases p with
    | buffering queue => exact .buffering queue
    | live h => exact .live rfl

/-! ## What a registry keeps -/

/-- A property of stages that notes, deliveries and changes of the registry's state keep. -/
structure Stage.Lasting (B : Stage η ω → Prop) : Prop where
  withPhase : ∀ {s} p, B s → B (s.withPhase p)
  withDelivery : ∀ {s} d, B s → B (s.withDelivery d)
  withNote : ∀ {s} e, B s → B (s.withNote e)

theorem Stage.lasting_never : Stage.Lasting fun _ : Stage η ω => False :=
  ⟨fun _ h => h, fun _ h => h, fun _ h => h⟩

namespace Stage.Lasting

open Run

variable {B : Stage η ω → Prop} {invoke : Invoke η ω} (hB : Stage.Lasting B)
  (hi : ∀ h m, (invoke h m).Keeps B)
include hB hi

theorem deliver (route : Route) (h : η) (m : ImplementorMap) : (deliver invoke route h m).Keeps B :=
  (hi h m).bind fun _ _ hs => hB.withDelivery _ hs

theorem register (m : ImplementorMap) : (register invoke m).Keeps B := by
  intro s hs
  rcases hp : s.registry.phase with queue | h
  · rw [exec_register_buffering _ _ _ hp]
    exact hB.withNote _ (hB.withPhase _ hs)
  · rw [exec_register_live _ _ _ _ hp]
    exact hB.deliver hi .direct h m s hs

theorem drain (h : η) : ∀ queue, (drain invoke h queue).Keeps B
  | [] => fun _ hs => hs
  | m :: rest => by
    intro s hs
    have ht := hB.deliver hi .drain h m s hs
    rw [exec_drain_cons]
    rcases hd : exec (TraitCatalog.deliver invoke .drain h m) s with ⟨f | _, t⟩ <;> rw [hd] at ht
    · exact hB.withPhase _ ht
    · exact drain h rest t ht

theorem install (h : η) : (install invoke h).Keeps B := by
  intro s hs
  rcases hp : s.registry.phase with queue | k
  · have ht := hB.drain hi h queue _ (hB.withPhase (.live h) hs)
    rw [exec_install_buffering _ _ _ hp]
    rcases hd : exec (TraitCatalog.drain invoke h queue) (s.withPhase (.live h)) with ⟨f | _, t⟩ <;>
      rw [hd] at ht
    · exact ht
    · exact hB.withNote _ ht
  · rw [exec_install_live _ _ _ hp]
    exact hB.withPhase _ (hB.withNote _ hs)

end Stage.Lasting

/-! ## Operations of a registry -/

/-- A relation of stages that notes, deliveries and changes of the registry's state keep, as long as
    the hooks match. -/
structure Respects (H : η → η' → Prop) (R : Stage η ω → Stage η' ω' → Prop) (B : Stage η' ω' → Prop) :
    Prop where
  phase : ∀ {s t}, R s t → s.registry.phase.Matches H t.registry.phase
  withPhase : ∀ {s t p q}, R s t → p.Matches H q → R (s.withPhase p) (t.withPhase q)
  withDelivery : ∀ {s t h h'} route m, R s t → H h h' →
    R (s.withDelivery ⟨h, m, route⟩) (t.withDelivery ⟨h', m, route⟩)
  withNote : ∀ {s t} e, R s t → R (s.withNote e) (t.withNote e)
  /-- A registry that has broken off does not come back. -/
  lasting : Stage.Lasting B

/-- Calls of matching hooks simulate each other. -/
structure Invoke.Simulates (H : η → η' → Prop) (R : Stage η ω → Stage η' ω' → Prop)
    (B : Stage η' ω' → Prop) (invoke : Invoke η ω) (invoke' : Invoke η' ω') : Prop where
  keeps : ∀ h m, (invoke' h m).Keeps B
  calls : ∀ h h' m, H h h' → Run.Simulates R B (invoke h m) (invoke' h' m)

/-- Calls of the same hook that never break off. -/
theorem Invoke.Simulates.never {R : Stage η ω → Stage η ω' → Prop} {invoke : Invoke η ω}
    {invoke' : Invoke η ω'}
    (hi : ∀ h m, Run.Simulates R (fun _ => False) (invoke h m) (invoke' h m)) :
    Simulates Eq R (fun _ => False) invoke invoke' :=
  ⟨fun h m => (hi h m).keeps, fun h _ m he => he ▸ hi h m⟩

namespace Respects

open Run

variable {H : η → η' → Prop} {R : Stage η ω → Stage η' ω' → Prop} {B : Stage η' ω' → Prop}
  {invoke : Invoke η ω} {invoke' : Invoke η' ω'} (hR : Respects H R B)
  (hi : Invoke.Simulates H R B invoke invoke')
include hR

theorem note (e : LogEvent) : Simulates R B (note e) (note e) :=
  .modifies (fun _ hB => hR.lasting.withNote e hB) fun _ _ hst => hR.withNote e hst

theorem setPhase {p : Phase η} {q : Phase η'} (hp : p.Matches H q) :
    Simulates R B (setPhase p) (setPhase q) :=
  .modifies (fun _ hB => hR.lasting.withPhase q hB) fun _ _ hst => hR.withPhase hst hp

include hi

theorem deliver (route : Route) {h : η} {h' : η'} (hh : H h h') (m : ImplementorMap) :
    Simulates R B (deliver invoke route h m) (deliver invoke' route h' m) :=
  (hi.calls h h' m hh).bind fun _ => .modifies (fun _ hB => hR.lasting.withDelivery _ hB)
    fun _ _ hst => hR.withDelivery route m hst hh

theorem register (m : ImplementorMap) : Simulates R B (register invoke m) (register invoke' m) := by
  refine ⟨hR.lasting.register hi.keeps m, fun s t hst => ?_⟩
  rcases (hR.phase hst).sameKind with ⟨queue, hp, hq⟩ | ⟨h, h', hp, hq, hh⟩
  · rw [exec_register_buffering _ _ _ hp, exec_register_buffering _ _ _ hq]
    exact .inr ⟨rfl, hR.withNote _ (hR.withPhase hst (.buffering _))⟩
  · rw [exec_register_live _ _ _ _ hp, exec_register_live _ _ _ _ hq]
    exact (hR.deliver hi .direct hh m).follows s t hst

theorem drain {h : η} {h' : η'} (hh : H h h') :
    ∀ queue, Simulates R B (drain invoke h queue) (drain invoke' h' queue)
  | [] => .pure ()
  | m :: rest => by
    unfold TraitCatalog.drain
    refine (hR.deliver hi .drain hh m).attempt.bind fun r => ?_
    cases r with
    | ok _ => exact drain hh rest
    | error f => exact (hR.setPhase (.buffering _)).bind fun _ => .throw f

theorem install {h : η} {h' : η'} (hh : H h h') :
    Simulates R B (install invoke h) (install invoke' h') := by
  refine ⟨hR.lasting.install hi.keeps h', fun s t hst => ?_⟩
  rcases (hR.phase hst).sameKind with ⟨queue, hp, hq⟩ | ⟨k, k', hp, hq, -⟩
  · have hd := (hR.drain hi hh queue).follows _ _ (hR.withPhase hst (.live hh))
    rw [exec_install_buffering _ _ _ hp, exec_install_buffering _ _ _ hq]
    rcases hx : exec (TraitCatalog.drain invoke h queue) (s.withPhase (.live h)) with ⟨r, s'⟩
    rcases hy : exec (TraitCatalog.drain invoke' h' queue) (t.withPhase (.live h')) with ⟨r', t'⟩
    rw [hx, hy] at hd
    obtain hB | ⟨ho, hs⟩ := hd
    · cases r' with
      | ok _ => exact .inl (hR.lasting.withNote _ hB)
      | error f => exact .inl hB
    · cases ho
      cases r with
      | ok _ => exact .inr ⟨rfl, hR.withNote _ hs⟩
      | error f => exact .inr ⟨rfl, hs⟩
  · rw [exec_install_live _ _ _ hp, exec_install_live _ _ _ hq]
    exact .inr ⟨rfl, hR.withPhase (hR.withNote _ hst) (.live hh)⟩

end Respects

end TraitCatalog
