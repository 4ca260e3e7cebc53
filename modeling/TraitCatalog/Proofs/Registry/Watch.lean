/-
  Runs of a registry that are watched.

  An observer stands where a registry is entered and where it calls a hook, and notes what
  goes in, how it ends, and in which state of the registry that is (`Sighting`).  Calls that a
  hook makes on the registry are entries like any other, so they are seen too, inside the
  hook call that makes them.  The notes are kept beside the world of the hooks, which cannot
  see them.

  * `Run.Keeps.runWatched`, `Run.Keeps.performWatched`: a hook and a run of requests keep what every
    call on the registry keeps;
  * `performWatched_unwatched`: a watched run is the run itself, with the notes beside it.
-/
import TraitCatalog.Proofs.Registry.Simulation

namespace TraitCatalog

variable {η β ω α γ : Type}

/-! ## What is seen -/

/-- What can be seen of a registry. -/
inductive Sight (η : Type) where
  /-- A map is about to be registered. -/
  | registering (m : ImplementorMap)
  /-- A registration has ended; it had found the registry live or not. -/
  | registered (m : ImplementorMap) (live : Bool) (outcome : Except Failure Unit)
  /-- A hook is about to be installed. -/
  | installing (h : η)
  /-- An installation has ended; it had found the registry live or not. -/
  | installed (h : η) (live : Bool) (outcome : Except Failure Nat)
  /-- The registry is about to call a hook. -/
  | calling (route : Route) (h : η) (m : ImplementorMap)
  /-- A hook call has ended. -/
  | called (route : Route) (h : η) (m : ImplementorMap) (outcome : Except Failure Unit)

/-- What is seen, and the state of the registry at that moment. -/
structure Sighting (η : Type) where
  phase : Phase η
  sight : Sight η

/-- The world of some hooks, and what has been seen so far, oldest first. -/
structure Watched (η ω : Type) where
  world : ω
  seen : List (Sighting η)

namespace Stage

/-- What has been seen on a stage. -/
def seen (s : Stage η (Watched η ω)) : List (Sighting η) :=
  s.world.seen

/-- The stage without what has been seen. -/
def unwatched (s : Stage η (Watched η ω)) : Stage η ω :=
  ⟨s.registry, s.world.world, s.log⟩

/-- The stage after one more sight. -/
def sees (s : Stage η (Watched η ω)) (x : Sight η) : Stage η (Watched η ω) :=
  { s with world := { s.world with seen := s.world.seen ++ [⟨s.registry.phase, x⟩] } }

@[simp] theorem unwatched_sees (s : Stage η (Watched η ω)) (x : Sight η) :
    (s.sees x).unwatched = s.unwatched := rfl

@[simp] theorem registry_sees (s : Stage η (Watched η ω)) (x : Sight η) :
    (s.sees x).registry = s.registry := rfl

@[simp] theorem seen_sees (s : Stage η (Watched η ω)) (x : Sight η) :
    (s.sees x).seen = s.seen ++ [⟨s.registry.phase, x⟩] := rfl

@[simp] theorem seen_withPhase (s : Stage η (Watched η ω)) (p : Phase η) :
    (s.withPhase p).seen = s.seen := rfl

@[simp] theorem seen_withDelivery (s : Stage η (Watched η ω)) (d : Delivery η) :
    (s.withDelivery d).seen = s.seen := rfl

@[simp] theorem seen_withNote (s : Stage η (Watched η ω)) (e : LogEvent) :
    (s.withNote e).seen = s.seen := rfl

end Stage

/-! ## Watching -/

/-- Some work, with what is seen before it and after it.  The second sight is told whether the
    registry was live at the beginning, and how the work ended. -/
def watching (before : Sight η) (after : Bool → Except Failure α → Sight η)
    (x : Run η (Watched η ω) α) : Run η (Watched η ω) α := do
  let live := (← get).registry.isLive
  modify (Stage.sees · before)
  let r ← Run.attempt x
  modify (Stage.sees · (after live r))
  ExceptT.mk (pure r)

/-- Hook calls under observation. -/
def Invoke.watched (invoke : Invoke η (Watched η ω)) (route : Route) : Invoke η (Watched η ω) :=
  fun h m => watching (.calling route h m) (fun _ r => .called route h m r) (invoke h m)

/-- A registration under observation. -/
def registerWatched (invoke : Invoke η (Watched η ω)) (m : ImplementorMap) :
    Run η (Watched η ω) Unit :=
  watching (.registering m) (.registered m) (register (Invoke.watched invoke .direct) m)

/-- An installation under observation. -/
def installWatched (invoke : Invoke η (Watched η ω)) (h : η) : Run η (Watched η ω) Nat :=
  watching (.installing h) (.installed h) (install (Invoke.watched invoke .drain) h)

/-- Carries out a plan whose calls on the registry are under observation. -/
def Plan.runWatched (invoke : Invoke η (Watched η ω)) : Plan η ω → Run η (Watched η ω) Unit
  | .done => pure ()
  | .fail f => throw f
  | .note e next => do
    Run.note e
    next.runWatched invoke
  | .inspect next => do
    let s ← get
    (next s.world.world).runWatched invoke
  | .update f next => do
    modify fun s => { s with world := { s.world with world := f s.world.world } }
    next.runWatched invoke
  | .register m next => do
    let r ← Run.attempt (registerWatched invoke m)
    (next r).runWatched invoke
  | .install h next => do
    let r ← Run.attempt (installWatched invoke h)
    (next r).runWatched invoke

/-- Calls a hook whose calls on the registry are under observation. -/
def invokeWatched (act : Behaviour β ω) : (room : Nat) → Invoke (Hook β) (Watched (Hook β) ω)
  | room + 2, .logged enabled inner, m => do
    Run.noteAll (if enabled then m.announcements else [])
    invokeWatched act room inner m
  | room + 3, .base b, m => (act b m).runWatched (invokeWatched act room)
  | _, _, _ => throw .tooDeep

/-! ## Runs -/

/-- A call on a registry from outside. -/
inductive Request (η : Type) where
  | register (m : ImplementorMap)
  | install (h : η)

/-- The stage after one request; whether it failed does not matter to the next. -/
def Request.perform (invoke : Invoke η ω) (s : Stage η ω) : Request η → Stage η ω
  | register m => ((TraitCatalog.register invoke m).exec s).2
  | install h => ((TraitCatalog.install invoke h).exec s).2

/-- The stage after one request under observation. -/
def Request.performWatched (invoke : Invoke η (Watched η ω)) (s : Stage η (Watched η ω)) :
    Request η → Stage η (Watched η ω)
  | register m => ((registerWatched invoke m).exec s).2
  | install h => ((installWatched invoke h).exec s).2

/-- The stage after some requests to a fresh registry. -/
def perform (act : Behaviour β ω) (room : Nat) (w : ω) (rs : List (Request (Hook β))) :
    Stage (Hook β) ω :=
  rs.foldl (Request.perform (invoke act room)) (.fresh w)

/-- The stage after some requests to a fresh registry under observation. -/
def performWatched (act : Behaviour β ω) (room : Nat) (w : ω) (rs : List (Request (Hook β))) :
    Stage (Hook β) (Watched (Hook β) ω) :=
  rs.foldl (Request.performWatched (invokeWatched act room)) (.fresh ⟨w, []⟩)

/-! ## What runs keep -/

namespace Run.Keeps

variable {P : Stage η (Watched η ω) → Prop} {invoke : Invoke η (Watched η ω)}
  (hr : ∀ m, (registerWatched invoke m).Keeps P) (hi : ∀ h, (installWatched invoke h).Keeps P)
include hr hi

/-- A hook keeps what its calls on the registry keep, if that is not about the log or the world. -/
theorem runWatched (hlog : ∀ s e, P s → P (s.withNote e))
    (hworld : ∀ s w, P s → P { s with world := { s.world with world := w } }) (p : Plan η ω) :
    (p.runWatched invoke).Keeps P := by
  induction p with
  | done | fail f => exact fun _ hs => hs
  | note e next ih => exact bind (fun s hs => hlog s e hs) fun _ => ih
  | inspect next ih => exact fun s hs => ih s.world.world s hs
  | update f next ih => exact bind (fun s hs => hworld s _ hs) fun _ => ih
  | register m next ih => exact bind (fun s hs => hr m s hs) ih
  | install h next ih => exact bind (fun s hs => hi h s hs) ih

/-- Requests keep what each of them keeps. -/
theorem performWatched (rs : List (Request η)) {s : Stage η (Watched η ω)} (hs : P s) :
    P (rs.foldl (Request.performWatched invoke) s) := by
  induction rs generalizing s with
  | nil => exact hs
  | cons r rs ih =>
    cases r with
    | register m => exact ih (hr m s hs)
    | install h => exact ih (hi h s hs)

end Run.Keeps

/-! ## Nothing changes under observation -/

/-- Some work under observation goes as the same work does. -/
def Mirrors (x : Run η (Watched η ω) α) (y : Run η ω α) : Prop :=
  ∀ s, y.exec s.unwatched = ((x.exec s).1, (x.exec s).2.unwatched)

theorem exec_watching (before : Sight η) (after : Bool → Except Failure α → Sight η)
    (x : Run η (Watched η ω) α) (s : Stage η (Watched η ω)) :
    (watching before after x).exec s = ((x.exec (s.sees before)).1,
      (x.exec (s.sees before)).2.sees (after s.registry.isLive (x.exec (s.sees before)).1)) := by
  simp only [watching, Run.exec_bind, Run.exec_get, Run.exec_modify, Run.exec_attempt]
  rfl

namespace Mirrors

/-- Work under observation simulates the work itself. -/
theorem simulates_iff {x : Run η (Watched η ω) α} {y : Run η ω α} :
    Mirrors x y ↔ Run.Simulates (fun s t => t = s.unwatched) (fun _ => False) x y := by
  rw [Run.Simulates.never_iff]
  constructor
  · rintro h s _ rfl
    rw [h s]
    exact ⟨rfl, rfl⟩
  · intro h s
    obtain ⟨ho, ht⟩ := h s s.unwatched rfl
    exact Prod.ext ho.symm ht

theorem bind {x : Run η (Watched η ω) α} {y : Run η ω α} {k : α → Run η (Watched η ω) γ}
    {l : α → Run η ω γ} (h : Mirrors x y) (hk : ∀ a, Mirrors (k a) (l a)) :
    Mirrors (x >>= k) (y >>= l) :=
  simulates_iff.2 ((simulates_iff.1 h).bind fun a => simulates_iff.1 (hk a))

theorem attempt {x : Run η (Watched η ω) α} {y : Run η ω α} (h : Mirrors x y) :
    Mirrors (Run.attempt x) (Run.attempt y) :=
  simulates_iff.2 (simulates_iff.1 h).attempt

theorem watching {x : Run η (Watched η ω) α} {y : Run η ω α} (h : Mirrors x y) (before : Sight η)
    (after : Bool → Except Failure α → Sight η) : Mirrors (watching before after x) y := by
  intro s
  rw [exec_watching]
  exact h (s.sees before)

theorem respects : Respects Eq (fun (s : Stage η (Watched η ω)) t => t = s.unwatched)
    fun _ => False where
  phase := by
    rintro s _ rfl
    exact Phase.matches_eq_iff.2 rfl
  withPhase := by
    rintro s _ p q rfl hpq
    rw [Phase.matches_eq_iff.1 hpq]
    rfl
  withDelivery := by
    rintro s _ h _ route m rfl rfl
    rfl
  withNote := by
    rintro s _ e rfl
    rfl
  lasting := Stage.lasting_never

variable {invoke' : Invoke η (Watched η ω)} {invoke : Invoke η ω}
  (hi : ∀ h m, Mirrors (invoke' h m) (invoke h m))
include hi

theorem simulates_invoke :
    Invoke.Simulates Eq (fun s t => t = s.unwatched) (fun _ => False) invoke' invoke :=
  .never fun h m => simulates_iff.1 (hi h m)

theorem invoke_watched (route : Route) (h : η) (m : ImplementorMap) :
    Mirrors (Invoke.watched invoke' route h m) (invoke h m) :=
  (hi h m).watching _ _

theorem register (m : ImplementorMap) : Mirrors (register invoke' m) (register invoke m) :=
  simulates_iff.2 (respects.register (simulates_invoke hi) m)

theorem install (h : η) : Mirrors (install invoke' h) (install invoke h) :=
  simulates_iff.2 (respects.install (simulates_invoke hi) rfl)

theorem registerWatched (m : ImplementorMap) : Mirrors (registerWatched invoke' m)
    (TraitCatalog.register invoke m) :=
  (register (invoke_watched hi .direct) m).watching _ _

theorem installWatched (h : η) : Mirrors (installWatched invoke' h)
    (TraitCatalog.install invoke h) :=
  (install (invoke_watched hi .drain) h).watching _ _

theorem runWatched (p : Plan η ω) : Mirrors (p.runWatched invoke') (p.run invoke) := by
  induction p with
  | done | fail f => exact fun _ => rfl
  | note e next ih => exact bind (fun _ => rfl) fun _ => ih
  | inspect next ih => exact fun s => ih s.world.world s
  | update f next ih => exact bind (fun _ => rfl) fun _ => ih
  | register m next ih => exact (registerWatched hi m).attempt.bind ih
  | install h next ih => exact (installWatched hi h).attempt.bind ih

end Mirrors

theorem mirrors_invokeWatched (act : Behaviour β ω) :
    ∀ room h m, Mirrors (invokeWatched act room h m) (invoke act room h m)
  | room + 2, .logged _ inner, m =>
    Mirrors.bind (fun _ => rfl) fun _ => mirrors_invokeWatched act room inner m
  | room + 3, .base b, m => Mirrors.runWatched (mirrors_invokeWatched act room) (act b m)
  | 0, .logged .., _ | 1, .logged .., _ | 0, .base _, _ | 1, .base _, _ | 2, .base _, _ => fun _ => rfl

/-- **A watched run is the run itself**, with the notes beside it. -/
theorem performWatched_unwatched (act : Behaviour β ω) (room : Nat) (w : ω)
    (rs : List (Request (Hook β))) :
    (performWatched act room w rs).unwatched = perform act room w rs := by
  have step : ∀ (r : Request (Hook β)) s, (r.performWatched (invokeWatched act room) s).unwatched =
      r.perform (invoke act room) s.unwatched := by
    intro r s
    cases r with
    | register m =>
      exact (congrArg Prod.snd (Mirrors.registerWatched (mirrors_invokeWatched act room) m s)).symm
    | install h =>
      exact (congrArg Prod.snd (Mirrors.installWatched (mirrors_invokeWatched act room) h s)).symm
  have run : ∀ (rs : List (Request (Hook β))) s,
      (rs.foldl (Request.performWatched (invokeWatched act room)) s).unwatched =
        rs.foldl (Request.perform (invoke act room)) s.unwatched := by
    intro rs
    induction rs with
    | nil => intro s; rfl
    | cons r rs ih => intro s; rw [List.foldl_cons, List.foldl_cons, ih, step]
  exact run rs _

end TraitCatalog
