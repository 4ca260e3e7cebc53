/-
  The time at which a hook is installed.

  A hook that is installed when maps wait already is called as if it had been installed before
  they came.  Two watched runs are compared, one that installs the hook first and one that
  installs it after some of the registrations.

  * `Stage.Alike`: two stages differ at most in the log, in the routes of calls, and in when the
    requests were made.  Work does the same on alike stages (`Agrees`);
  * `Stage.Grows`: sights are added to a stage, and the hook of a live registry stays unless one is
    installed;
  * `exec_drain_alike`: a drain goes as registrations one after the other do on a live registry;
  * `install_time_unobservable`: the comparison of the two runs.
-/
import Mathlib.Data.List.Nodup
import TraitCatalog.Proofs.Registry.Watch
import TraitCatalog.Workshop

namespace TraitCatalog

variable {η β ω α γ : Type}

/-! ## What is compared -/

/-- What can be seen of a hook call, whatever brought it about. -/
inductive CallSight (η : Type) where
  | calling (h : η) (m : ImplementorMap)
  | called (h : η) (m : ImplementorMap) (outcome : Except Failure Unit)
  deriving DecidableEq

/-- How a hook call failed. -/
def CallSight.failure? : CallSight η → Option Failure
  | .called _ _ (.error f) => some f
  | _ => none

/-- The part of a sight that is about a hook call. -/
def Sight.call? : Sight η → Option (CallSight η)
  | .calling _ h m => some (.calling h m)
  | .called _ h m r => some (.called h m r)
  | _ => none

namespace Sighting

/-- The part of a sighting that is about a hook call. -/
def call? (x : Sighting η) : Option (CallSight η) :=
  x.sight.call?

/-- A hook that is about to be installed. -/
def installing? : Sighting η → Option η
  | ⟨_, .installing h⟩ => some h
  | _ => none

end Sighting

open Sighting

/-- All hook calls that were seen returned, and `h` alone was installed, once. -/
structure Undisturbed (h : η) (seen : List (Sighting η)) : Prop where
  returned : (seen.filterMap call?).filterMap CallSight.failure? = []
  installed : seen.filterMap installing? = [h]

/-! ## Alike stages -/

/-- Two stages that agree in all that a hook can notice, and in the hook calls so far. -/
structure Stage.Alike (s t : Stage η (Watched η ω)) : Prop where
  phase : s.registry.phase = t.registry.phase
  world : s.world.world = t.world.world
  calls : s.seen.filterMap call? = t.seen.filterMap call?
  count : s.registry.deliveredCount = t.registry.deliveredCount

namespace Stage.Alike

variable {s t u : Stage η (Watched η ω)} (h : s.Alike t)
include h

theorem sees {x y : Sight η} (hxy : x.call? = y.call?) : (s.sees x).Alike (t.sees y) := by
  have he : call? ⟨s.registry.phase, x⟩ = call? ⟨t.registry.phase, y⟩ := hxy
  refine ⟨h.phase, h.world, ?_, h.count⟩
  rw [seen_sees, seen_sees, List.filterMap_append, List.filterMap_append, h.calls,
    List.filterMap_cons, List.filterMap_cons, he]

theorem sees_right {x : Sight η} (hx : x.call? = none) : s.Alike (t.sees x) := by
  have he : call? ⟨t.registry.phase, x⟩ = none := hx
  refine ⟨h.phase, h.world, ?_, h.count⟩
  rw [seen_sees, List.filterMap_append, h.calls, List.filterMap_cons, he]
  simp

theorem symm : t.Alike s :=
  ⟨h.phase.symm, h.world.symm, h.calls.symm, h.count.symm⟩

theorem trans (h' : t.Alike u) : s.Alike u :=
  ⟨h.phase.trans h'.phase, h.world.trans h'.world, h.calls.trans h'.calls, h.count.trans h'.count⟩

theorem sees_left {x : Sight η} (hx : x.call? = none) : (s.sees x).Alike t :=
  (h.symm.sees_right hx).symm

theorem withPhase (p : Phase η) : (s.withPhase p).Alike (t.withPhase p) :=
  ⟨rfl, h.world, h.calls, h.count⟩

theorem withDelivery (d e : Delivery η) : (s.withDelivery d).Alike (t.withDelivery e) := by
  refine ⟨h.phase, h.world, h.calls, ?_⟩
  have := h.count
  simp only [Registry.deliveredCount] at this ⊢
  simp [this]

theorem withNote (e e' : LogEvent) : (s.withNote e).Alike (t.withNote e') :=
  ⟨h.phase, h.world, h.calls, h.count⟩

end Stage.Alike

/-- Two pieces of work that end in the same way and leave alike stages alike. -/
def Agrees (x y : Run η (Watched η ω) α) : Prop :=
  ∀ s t, s.Alike t → (x.exec s).1 = (y.exec t).1 ∧ (x.exec s).2.Alike (y.exec t).2

namespace Agrees

theorem simulates_iff {x y : Run η (Watched η ω) α} :
    Agrees x y ↔ Run.Simulates Stage.Alike (fun _ => False) x y :=
  Run.Simulates.never_iff.symm

theorem bind {x y : Run η (Watched η ω) α} {k l : α → Run η (Watched η ω) γ} (h : Agrees x y)
    (hk : ∀ a, Agrees (k a) (l a)) : Agrees (x >>= k) (y >>= l) :=
  simulates_iff.2 ((simulates_iff.1 h).bind fun a => simulates_iff.1 (hk a))

theorem attempt {x y : Run η (Watched η ω) α} (h : Agrees x y) :
    Agrees (Run.attempt x) (Run.attempt y) :=
  simulates_iff.2 (simulates_iff.1 h).attempt

theorem respects : Respects Eq (Stage.Alike : Stage η (Watched η ω) → Stage η (Watched η ω) → Prop)
    fun _ => False where
  phase h := Phase.matches_eq_iff.2 h.phase
  withPhase h hpq := Phase.matches_eq_iff.1 hpq ▸ h.withPhase _
  withDelivery _ _ h _ := h.withDelivery _ _
  withNote e h := h.withNote e e
  lasting := Stage.lasting_never

theorem watching {x y : Run η (Watched η ω) α} (h : Agrees x y) {before before' : Sight η}
    {after after' : Bool → Except Failure α → Sight η} (hb : before.call? = before'.call?)
    (ha : ∀ l l' r, (after l r).call? = (after' l' r).call?) :
    Agrees (watching before after x) (watching before' after' y) := by
  intro s t hst
  obtain ⟨ho, hs⟩ := h _ _ (hst.sees hb)
  rw [exec_watching, exec_watching, ho]
  exact ⟨rfl, hs.sees (ha _ _ _)⟩

variable {invoke : Invoke η (Watched η ω)} (hi : ∀ h m, Agrees (invoke h m) (invoke h m))
include hi

theorem invoke_watched (route route' : Route) (h : η) (m : ImplementorMap) :
    Agrees (Invoke.watched invoke route h m) (Invoke.watched invoke route' h m) :=
  watching (hi h m) rfl fun _ _ _ => rfl

theorem deliver (route route' : Route) (h : η) (m : ImplementorMap) :
    Agrees (deliver (Invoke.watched invoke route) route h m)
      (deliver (Invoke.watched invoke route') route' h m) := by
  unfold TraitCatalog.deliver
  exact bind (invoke_watched hi route route' h m) fun _ _ _ hst => ⟨rfl, hst.withDelivery _ _⟩

theorem registerWatched (m : ImplementorMap) :
    Agrees (registerWatched invoke m) (registerWatched invoke m) :=
  watching (simulates_iff.2 (respects.register
    (.never fun h m => simulates_iff.1 (invoke_watched hi .direct .direct h m)) m)) rfl fun _ _ _ => rfl

theorem installWatched (h : η) : Agrees (installWatched invoke h) (installWatched invoke h) :=
  watching (simulates_iff.2 (respects.install
    (.never fun h m => simulates_iff.1 (invoke_watched hi .drain .drain h m)) rfl)) rfl fun _ _ _ => rfl

theorem runWatched (p : Plan η ω) : Agrees (p.runWatched invoke) (p.runWatched invoke) := by
  induction p with
  | done | fail f => exact fun _ _ hst => ⟨rfl, hst⟩
  | note e next ih => exact bind (simulates_iff.2 (respects.note e)) fun _ => ih
  | inspect next ih =>
    intro s t hst
    have := ih s.world.world s t hst
    rw [Plan.runWatched, Run.exec_bind, Run.exec_bind, Run.exec_get, Run.exec_get]
    dsimp only
    rw [← hst.world]
    exact this
  | update f next ih =>
    refine bind (fun s t hst => ⟨rfl, hst.phase, ?_, hst.calls, hst.count⟩) fun _ => ih
    exact congrArg f hst.world
  | register m next ih => exact (registerWatched hi m).attempt.bind ih
  | install h next ih => exact (installWatched hi h).attempt.bind ih

end Agrees

theorem agrees_invokeWatched (act : Behaviour β ω) :
    ∀ room h m, Agrees (invokeWatched act room h m) (invokeWatched act room h m)
  | room + 2, .logged _ inner, m =>
    Agrees.bind (fun _ _ hst => ⟨rfl, hst.phase, hst.world, hst.calls, hst.count⟩)
      fun _ => agrees_invokeWatched act room inner m
  | room + 3, .base b, m => Agrees.runWatched (agrees_invokeWatched act room) (act b m)
  | 0, .logged .., _ | 1, .logged .., _ | 0, .base _, _ | 1, .base _, _ | 2, .base _, _ =>
    fun _ _ hst => ⟨rfl, hst⟩

/-! ## Growing stages -/

/-- Sights are added, and the hook of a live registry stays unless one is installed. -/
structure Stage.Grows (s t : Stage η (Watched η ω)) : Prop where
  seen : s.seen <+: t.seen
  hook : ∀ h, s.registry.phase = .live h →
    t.seen.filterMap installing? = s.seen.filterMap installing? → t.registry.phase = .live h

namespace Stage.Grows

variable {s t u : Stage η (Watched η ω)}

theorem of_eq (hp : t.registry.phase = s.registry.phase) (hs : s.seen <+: t.seen) : s.Grows t :=
  ⟨hs, fun _ h _ => hp.trans h⟩

theorem trans (h : s.Grows t) (h' : t.Grows u) : s.Grows u := by
  refine ⟨h.seen.trans h'.seen, fun k hk he => ?_⟩
  -- What was installed up to `t` lies between what was up to `s` and up to `u`.
  have hst := h.seen.filterMap installing?
  have htu := h'.seen.filterMap installing?
  rw [he] at htu
  have ht := htu.eq_of_length_le hst.length_le
  exact h'.hook k (h.hook k hk ht) (he.trans ht.symm)

theorem sees (s : Stage η (Watched η ω)) (x : Sight η) : s.Grows (s.sees x) :=
  of_eq rfl (List.prefix_append _ _)

end Stage.Grows

/-- Work under which stages grow. -/
def Growing (x : Run η (Watched η ω) α) : Prop :=
  ∀ s : Stage η (Watched η ω), s.Grows (x.exec s).2

namespace Growing

theorem bind {x : Run η (Watched η ω) α} {k : α → Run η (Watched η ω) γ} (h : Growing x)
    (hk : ∀ a, Growing (k a)) : Growing (x >>= k) := by
  intro s
  have hs := h s
  rw [Run.exec_bind]
  rcases hx : x.exec s with ⟨f | a, t⟩ <;> rw [hx] at hs
  · exact hs
  · exact hs.trans (hk a t)

theorem watching {x : Run η (Watched η ω) α} (h : Growing x) (before : Sight η)
    (after : Bool → Except Failure α → Sight η) : Growing (watching before after x) := by
  intro s
  rw [exec_watching]
  exact ((Stage.Grows.sees s before).trans (h _)).trans (.sees _ _)

variable {invoke : Invoke η (Watched η ω)} (hi : ∀ h m, Growing (invoke h m))
include hi

theorem deliver (route : Route) (h : η) (m : ImplementorMap) :
    Growing (deliver (Invoke.watched invoke route) route h m) := by
  unfold TraitCatalog.deliver
  exact bind ((hi h m).watching _ _) fun _ _ => .of_eq rfl List.prefix_rfl

theorem registerWatched (m : ImplementorMap) : Growing (registerWatched invoke m) := by
  refine watching (fun s => ?_) _ _
  rcases hp : s.registry.phase with queue | h
  · rw [exec_register_buffering _ s _ hp]
    refine ⟨List.prefix_rfl, fun h hl => ?_⟩
    rw [hp] at hl
    cases hl
  · rw [exec_register_live _ s _ _ hp]
    exact deliver hi .direct h m s

theorem seen_drain (h : η) : ∀ queue s,
    s.seen <+: ((drain (Invoke.watched invoke .drain) h queue).exec s).2.seen
  | [], _ => List.prefix_rfl
  | m :: rest, s => by
    have hd := (deliver hi .drain h m s).seen
    rw [exec_drain_cons]
    rcases hx : (TraitCatalog.deliver (Invoke.watched invoke .drain) .drain h m).exec s with
      ⟨f | _, t⟩ <;> rw [hx] at hd
    · exact hd
    · exact hd.trans (seen_drain h rest t)

theorem seen_install (h : η) (s : Stage η (Watched η ω)) :
    s.seen <+: ((install (Invoke.watched invoke .drain) h).exec s).2.seen := by
  rcases hp : s.registry.phase with queue | h'
  · have hd := seen_drain hi h queue (s.withPhase (.live h))
    rw [exec_install_buffering _ s _ hp]
    rcases hx : (drain (Invoke.watched invoke .drain) h queue).exec (s.withPhase (.live h)) with
      ⟨f | _, t⟩ <;> rw [hx] at hd <;> exact hd
  · rw [exec_install_live _ s _ hp]
    exact List.prefix_rfl

theorem installWatched (h : η) : Growing (installWatched invoke h) := by
  intro s
  -- The installation is itself among the sights, so nothing is said of the hook after it.
  have hs : s.seen ++ [⟨s.registry.phase, .installing h⟩] <+:
      ((TraitCatalog.installWatched invoke h).exec s).2.seen := by
    rw [TraitCatalog.installWatched, exec_watching]
    exact (seen_install hi h (s.sees (.installing h))).trans (List.prefix_append _ _)
  refine ⟨(List.prefix_append _ _).trans hs, fun k _ he => ?_⟩
  have hlen := (hs.filterMap installing?).length_le
  have hone : [(⟨s.registry.phase, .installing h⟩ : Sighting η)].filterMap installing? = [h] := rfl
  rw [he, List.filterMap_append, hone, List.length_append, List.length_singleton] at hlen
  omega

theorem runWatched (p : Plan η ω) : Growing (p.runWatched invoke) := fun s =>
  Run.Keeps.runWatched (P := s.Grows) (fun m t ht => ht.trans (registerWatched hi m t))
    (fun h t ht => ht.trans (installWatched hi h t))
    (fun _ _ ht => ht.trans (.of_eq rfl List.prefix_rfl))
    (fun _ _ ht => ht.trans (.of_eq rfl List.prefix_rfl)) p s (.of_eq rfl List.prefix_rfl)

end Growing

theorem growing_invokeWatched (act : Behaviour β ω) :
    ∀ room h m, Growing (invokeWatched act room h m)
  | room + 2, .logged enabled inner, m => fun s =>
    let announced := s.withNotes (if enabled then m.announcements else [])
    have hnoted : s.Grows announced := .of_eq rfl List.prefix_rfl
    hnoted.trans (growing_invokeWatched act room inner m announced)
  | room + 3, .base b, m => Growing.runWatched (growing_invokeWatched act room) (act b m)
  | 0, .logged .., _ | 1, .logged .., _ | 0, .base _, _ | 1, .base _, _ | 2, .base _, _ =>
    fun _ => .of_eq rfl List.prefix_rfl

/-! ## Draining and registering -/

/-- What was seen at an earlier moment was undisturbed too, if it was after the installation. -/
theorem Undisturbed.earlier {h : η} {seen seen' seen'' : List (Sighting η)} (hu : Undisturbed h seen'')
    (hs : seen.filterMap installing? = [h]) (h₁ : seen <+: seen') (h₂ : seen' <+: seen'') :
    Undisturbed h seen' := by
  have hf := (h₂.filterMap call?).filterMap CallSight.failure?
  have hi₁ := h₁.filterMap installing?
  have hi₂ := h₂.filterMap installing?
  rw [hu.returned, List.prefix_nil] at hf
  rw [hs] at hi₁
  rw [hu.installed] at hi₂
  exact ⟨hf, hi₂.eq_of_length_le hi₁.length_le⟩

/-- A stage after maps have been registered one after the other. -/
def registerAllWatched (invoke : Invoke η (Watched η ω)) (s : Stage η (Watched η ω))
    (ms : List ImplementorMap) : Stage η (Watched η ω) :=
  (ms.map Request.register).foldl (Request.performWatched invoke) s

section
variable {invoke : Invoke η (Watched η ω)} (ha : ∀ h m, Agrees (invoke h m) (invoke h m))
  (hg : ∀ h m, Growing (invoke h m))

include ha in
theorem Stage.Alike.registerAll : ∀ (ms : List ImplementorMap) {s t : Stage η (Watched η ω)},
    s.Alike t → (registerAllWatched invoke s ms).Alike (registerAllWatched invoke t ms)
  | [], _, _, hst => hst
  | m :: ms, _, _, hst =>
    Stage.Alike.registerAll ms (Agrees.registerWatched ha m _ _ hst).2

include hg in
theorem grows_registerAll : ∀ (ms : List ImplementorMap) (s : Stage η (Watched η ω)),
    s.Grows (registerAllWatched invoke s ms)
  | [], _ => .of_eq rfl List.prefix_rfl
  | m :: ms, s => (Growing.registerWatched hg m s).trans (grows_registerAll ms _)

theorem failure_of_deliver {route : Route} {h : η} {m : ImplementorMap} {s t : Stage η (Watched η ω)}
    {f : Failure} (he : (deliver (Invoke.watched invoke route) route h m).exec s = (.error f, t)) :
    f ∈ (t.seen.filterMap call?).filterMap CallSight.failure? := by
  rw [exec_deliver, Invoke.watched, exec_watching] at he
  rcases hx : (invoke h m).exec (s.sees (.calling route h m)) with ⟨g | _, u⟩ <;> rw [hx] at he
  · cases he
    simp [call?, Sight.call?, CallSight.failure?]
  · cases he

include ha in
theorem deliver_alike_register {h : η} (m : ImplementorMap) {s t : Stage η (Watched η ω)}
    (hst : s.Alike t) (hp : t.registry.phase = .live h) :
    ((deliver (Invoke.watched invoke .drain) .drain h m).exec s).1 =
        ((registerWatched invoke m).exec t).1 ∧
      ((deliver (Invoke.watched invoke .drain) .drain h m).exec s).2.Alike
        ((registerWatched invoke m).exec t).2 := by
  have hst' : s.Alike (t.sees (.registering m)) := hst.sees_right rfl
  obtain ⟨ho, hs⟩ := Agrees.deliver ha .drain .direct h m _ _ hst'
  rw [registerWatched, exec_watching, exec_register_live _ (t.sees (.registering m)) h _ hp]
  exact ⟨ho, hs.sees_right rfl⟩

include ha hg in
theorem exec_drain_alike (h : η) : ∀ (queue : List ImplementorMap) {s t : Stage η (Watched η ω)},
    s.Alike t → t.registry.phase = .live h → t.seen.filterMap installing? = [h] →
    Undisturbed h (registerAllWatched invoke t queue).seen →
    ∃ s', (drain (Invoke.watched invoke .drain) h queue).exec s = (.ok (), s') ∧
      s'.Alike (registerAllWatched invoke t queue)
  | [], s, _, hst, _, _, _ => ⟨s, rfl, hst⟩
  | m :: rest, s, t, hst, hp, hi, hu => by
    -- The registration on the other stage is part of a run that nothing disturbs, so the hook
    -- stays and the induction goes on.
    have hstep := Growing.registerWatched hg m t
    have hrest := grows_registerAll hg rest ((registerWatched invoke m).exec t).2
    have hu' := hu.earlier hi hstep.seen hrest.seen
    have hp' := hstep.hook h hp (hu'.installed.trans hi.symm)
    have hs := (deliver_alike_register ha m hst hp).2
    rcases hx : (deliver (Invoke.watched invoke .drain) .drain h m).exec s with ⟨f | _, s'⟩ <;>
      rw [hx] at hs
    · -- The hook did not fail on the other stage, where the same calls were seen.
      have hf := failure_of_deliver hx
      rw [hs.calls, hu'.returned] at hf
      cases hf
    · rw [exec_drain_cons, hx]
      exact exec_drain_alike h rest hs hp' hu'.installed hu

end

/-! ## The time of an installation -/

theorem registerAllWatched_append (invoke : Invoke η (Watched η ω)) (s : Stage η (Watched η ω))
    (ms ns : List ImplementorMap) : registerAllWatched invoke s (ms ++ ns) =
      registerAllWatched invoke (registerAllWatched invoke s ms) ns := by
  rw [registerAllWatched, List.map_append, List.foldl_append]
  rfl

theorem register_buffering_alike (invoke : Invoke η (Watched η ω)) (m : ImplementorMap)
    {s : Stage η (Watched η ω)} {queue : List ImplementorMap}
    (hp : s.registry.phase = .buffering queue) :
    ((registerWatched invoke m).exec s).2.registry.phase = .buffering (queue ++ [m]) ∧
      ∀ h, (((registerWatched invoke m).exec s).2.withPhase (.live h)).Alike (s.withPhase (.live h)) := by
  rw [registerWatched, exec_watching, exec_register_buffering _ (s.sees (.registering m)) _ hp]
  refine ⟨rfl, fun h => ⟨rfl, rfl, ?_, rfl⟩⟩
  simp [call?, Sight.call?]

theorem registerAll_buffering (invoke : Invoke η (Watched η ω)) : ∀ (ms : List ImplementorMap)
    {s : Stage η (Watched η ω)} {queue : List ImplementorMap}, s.registry.phase = .buffering queue →
    (registerAllWatched invoke s ms).registry.phase = .buffering (queue ++ ms) ∧
      ∀ h, ((registerAllWatched invoke s ms).withPhase (.live h)).Alike (s.withPhase (.live h))
  | [], s, queue, hp => by
    rw [List.append_nil]
    exact ⟨hp, fun h => ⟨rfl, rfl, rfl, rfl⟩⟩
  | m :: ms, s, queue, hp => by
    obtain ⟨hq, hs⟩ := register_buffering_alike invoke m hp
    obtain ⟨hq', hs'⟩ := registerAll_buffering invoke ms hq
    rw [List.append_assoc] at hq'
    exact ⟨hq', fun h => (hs' h).trans (hs h)⟩

section
variable {invoke : Invoke η (Watched η ω)} (ha : ∀ h m, Agrees (invoke h m) (invoke h m))
  (hg : ∀ h m, Growing (invoke h m))
include ha hg

/-- An installation on waiting maps goes as their registration does on a stage that is alike but
    for the hook being installed already. -/
theorem installWatched_alike {h : η} {queue : List ImplementorMap} {s t : Stage η (Watched η ω)}
    (hp : s.registry.phase = .buffering queue) (hst : (s.withPhase (.live h)).Alike t)
    (hi : t.seen.filterMap installing? = [h]) (hu : Undisturbed h (registerAllWatched invoke t queue).seen) :
    ((installWatched invoke h).exec s).1 = .ok queue.length ∧
      ((installWatched invoke h).exec s).2.Alike (registerAllWatched invoke t queue) := by
  have hst' : ((s.sees (.installing h)).withPhase (.live h)).Alike t := by
    refine ⟨hst.phase, hst.world, ?_, hst.count⟩
    rw [← hst.calls]
    simp [call?, Sight.call?]
  obtain ⟨s', hs', ha'⟩ := exec_drain_alike ha hg h queue hst' hst.phase.symm hi hu
  rw [installWatched, exec_watching, exec_install_buffering _ (s.sees (.installing h)) _ hp, hs']
  have hn : (s'.withNote (.hookInstalled queue.length)).Alike (registerAllWatched invoke t queue) :=
    ⟨ha'.phase, ha'.world, ha'.calls, ha'.count⟩
  exact ⟨rfl, hn.sees_left rfl⟩

end

/-- The run that installs the hook first and the run that installs it after `k` maps end on alike
    stages, and the later installation drains `k` maps. -/
theorem performWatched_alike (act : Behaviour β ω) (room : Nat) (w : ω) (h : Hook β)
    (ms : List ImplementorMap) (k : Nat)
    (hu : Undisturbed h (performWatched act room w (.install h :: ms.map .register)).seen) :
    let early := performWatched act room w (.install h :: ms.map .register)
    let waiting := performWatched act room w ((ms.take k).map .register)
    (performWatched act room w ((ms.take k).map .register ++ .install h :: (ms.drop k).map .register)).Alike
        early ∧
      early.registry.phase = .live h ∧
      ((installWatched (invokeWatched act room) h).exec waiting).1 = .ok (ms.take k).length := by
  intro early waiting
  have ha := agrees_invokeWatched act room
  have hg := growing_invokeWatched act room
  let i := invokeWatched act room
  let start : Stage (Hook β) (Watched (Hook β) ω) := .fresh ⟨w, []⟩
  let early₀ := ((installWatched i h).exec start).2
  let early₁ := registerAllWatched i early₀ (ms.take k)
  have hearly : early = registerAllWatched i early₁ (ms.drop k) := by
    rw [← registerAllWatched_append, List.take_append_drop]
    rfl
  have hlate : performWatched act room w
      ((ms.take k).map .register ++ .install h :: (ms.drop k).map .register) =
        registerAllWatched i ((installWatched i h).exec waiting).2 (ms.drop k) := by
    rw [performWatched, List.foldl_append]
    rfl
  -- The first run, with a break after `k` maps.
  have hgrows₀ : early₀.Grows early₁ := grows_registerAll hg _ _
  have hgrows : early₁.Grows early := by
    rw [hearly]
    exact grows_registerAll hg _ _
  have hu₁ : Undisturbed h early₁.seen := hu.earlier rfl hgrows₀.seen hgrows.seen
  have hlive : early.registry.phase = .live h :=
    (hgrows₀.trans hgrows).hook h rfl (hu.installed.trans rfl)
  -- The second run up to the installation leaves nothing to be noticed but the maps that wait.
  obtain ⟨hp, hs⟩ := registerAll_buffering i (ms.take k) (s := start) rfl
  rw [List.nil_append] at hp
  have hwaiting : (waiting.withPhase (.live h)).Alike early₀ := (hs h).trans ⟨rfl, rfl, rfl, rfl⟩
  obtain ⟨ho, hst⟩ := installWatched_alike ha hg hp hwaiting rfl hu₁
  refine ⟨?_, hlive, ho⟩
  rw [hearly, hlate]
  exact Stage.Alike.registerAll ha (ms.drop k) hst

/-- **The time at which a hook is installed cannot be noticed**, if all its calls return and nothing
    else is ever installed.  Maps are registered on a fresh registry, and the hook is installed
    before the first of them or after `k` of them.  The hook is called for the same maps in the
    same order, calls inside calls included; its world, the number of deliveries and the state of
    the registry are the same in the end; and the installation drains `k` maps.  The run that
    installs the hook first is undisturbed for every hook whose calls return and that calls the
    registry only to register maps. -/
theorem install_time_unobservable (act : Behaviour β ω) (room : Nat) (w : ω) (h : Hook β)
    (ms : List ImplementorMap) (k : Nat) (hk : k ≤ ms.length)
    (hu : Undisturbed h (performWatched act room w (.install h :: ms.map .register)).seen) :
    let early := .install h :: ms.map .register
    let late := (ms.take k).map .register ++ .install h :: (ms.drop k).map .register
    (∀ rs, (performWatched act room w rs).unwatched = perform act room w rs) ∧
    (performWatched act room w late).seen.filterMap call? =
      (performWatched act room w early).seen.filterMap call? ∧
    (perform act room w late).world = (perform act room w early).world ∧
    (perform act room w late).registry.deliveredCount =
      (perform act room w early).registry.deliveredCount ∧
    (perform act room w early).registry.phase = .live h ∧
    (perform act room w late).registry.phase = .live h ∧
    (perform act room w late).registry.pending = [] ∧
    ((install (invoke act room) h).exec (perform act room w ((ms.take k).map .register))).1 = .ok k := by
  intro early late
  obtain ⟨hall, hlive, hdrain⟩ := performWatched_alike act room w h ms k hu
  have hun := performWatched_unwatched act room w
  have hlive' : (perform act room w late).registry.phase = .live h := by
    rw [← hun late]
    exact hall.phase.trans hlive
  -- What an installation gives does not depend on its being watched.
  have hmirror := Mirrors.installWatched (mirrors_invokeWatched act room) h
    (performWatched act room w ((ms.take k).map .register))
  rw [hun, hdrain, List.length_take, Nat.min_eq_left hk] at hmirror
  refine ⟨hun, hall.calls, ?_, ?_, ?_, hlive', ?_, congrArg Prod.fst hmirror⟩
  · rw [← hun late, ← hun early]
    exact hall.world
  · rw [← hun late, ← hun early]
    exact hall.count
  · rw [← hun early]
    exact hlive
  · rw [Registry.pending, hlive']

open Text (lit)

/-- A workshop with a consumer that registers a map of `N`, once, when it is handed one of `A`. -/
def echoWorkshop : Workshop :=
  { Workshop.empty with
    consumers := [.script ⟨lit "echo", some (lit "A"), some 1, [.register (.single (lit "N") [])]⟩] }

theorem install_time_unobservable_echo :
    let a : ImplementorMap := .single (lit "A") [lit "x"]
    let b : ImplementorMap := .single (lit "B") []
    let n : ImplementorMap := .single (lit "N") []
    let h : Hook Nat := .logged true (.base 0)
    let late := [.register a, .install h, .register b]
    Undisturbed h (performWatched Workshop.act 10 echoWorkshop
      [.install h, .register a, .register b]).seen ∧
    (performWatched Workshop.act 10 echoWorkshop late).seen.filterMap call? =
      [.calling h a, .calling h n, .called h n (.ok ()), .called h a (.ok ()), .calling h b,
        .called h b (.ok ())] ∧
    (perform Workshop.act 10 echoWorkshop late).registry.deliveredCount = 3 ∧
    ((install (invoke Workshop.act 10) h).exec
      (perform Workshop.act 10 echoWorkshop [.register a])).1 = .ok 1 := by
  intro a b n h late
  have hu : Undisturbed h (performWatched Workshop.act 10 echoWorkshop
      [.install h, .register a, .register b]).seen := ⟨by decide +kernel, by decide +kernel⟩
  obtain ⟨-, hcalls, -, hcount, -, -, -, hdrain⟩ :=
    install_time_unobservable Workshop.act 10 echoWorkshop h [a, b] 1 (by decide) hu
  refine ⟨hu, hcalls.trans ?_, hcount.trans ?_, hdrain⟩
  · decide +kernel
  · decide +kernel

end TraitCatalog
