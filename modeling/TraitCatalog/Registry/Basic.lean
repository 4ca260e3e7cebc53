/-
  The registry of implementor maps.

  Until a hook is installed the registry is *buffering*: maps wait in a queue.  Installing
  a hook makes it *live* and hands it the waiting maps in order of arrival; from then on a
  map is handed over when it is registered.

  * A drain keeps to the hook that is being installed, also when that hook installs
    another one meanwhile.
  * When the hook fails during a drain the registry is buffering again, with the map that
    failed and all maps behind it.  When it fails on a registration the map is lost.
  * Installing on a live registry replaces the hook and hands over nothing.

  `register` and `install` take the way in which a hook is called as an argument;
  `invoke` ties the knot.  Calls inside calls, and wrappers inside wrappers, take up a stack
  that is limited.
-/
import TraitCatalog.Registry.Plan

namespace TraitCatalog

variable {η β ω : Type}

/-! ## State -/

/-- The two states of a registry. -/
inductive Phase (η : Type) where
  | buffering (queue : List ImplementorMap)
  | live (hook : η)
  deriving DecidableEq

/-- How a map came to be handed over. -/
inductive Route where
  /-- It waited in the queue. -/
  | drain
  /-- It was registered while the registry was live. -/
  | direct
  deriving DecidableEq, Repr

/-- A hook call that returned. -/
structure Delivery (η : Type) where
  hook : η
  map : ImplementorMap
  route : Route
  deriving DecidableEq

/-- A registry: its state, and the hook calls that have returned, oldest first. -/
structure Registry (η : Type) where
  phase : Phase η
  deliveries : List (Delivery η)
  deriving DecidableEq

namespace Registry

/-- A registry that nothing has happened to. -/
def fresh : Registry η :=
  ⟨.buffering [], []⟩

/-- A hook is installed. -/
def isLive (r : Registry η) : Bool :=
  match r.phase with
  | .live _ => true
  | .buffering _ => false

/-- The maps that wait for a hook. -/
def pending (r : Registry η) : List ImplementorMap :=
  match r.phase with
  | .live _ => []
  | .buffering queue => queue

/-- The number of hook calls that have returned. -/
def deliveredCount (r : Registry η) : Nat :=
  r.deliveries.length

end Registry

/-- A registry together with the world of its hooks and the log, oldest event first. -/
structure Stage (η ω : Type) where
  registry : Registry η
  world : ω
  log : List LogEvent

/-- Work on a stage, which may fail; what was done before stays done. -/
abbrev Run (η ω α : Type) := ExceptT Failure (StateM (Stage η ω)) α

namespace Stage

/-- A stage with a fresh registry. -/
def fresh (world : ω) : Stage η ω :=
  ⟨.fresh, world, []⟩

end Stage

namespace Run

/-- Notes an event. -/
def note (e : LogEvent) : Run η ω Unit :=
  modify fun s => { s with log := s.log ++ [e] }

/-- Notes events in order. -/
def noteAll (es : List LogEvent) : Run η ω Unit :=
  modify fun s => { s with log := s.log ++ es }

/-- The state of the registry. -/
def phase : Run η ω (Phase η) := do
  return (← get).registry.phase

/-- Changes the state of the registry. -/
def setPhase (p : Phase η) : Run η ω Unit :=
  modify fun s => { s with registry := { s.registry with phase := p } }

/-- Does some work and looks at how it ended. -/
def attempt {α : Type} (x : Run η ω α) : Run η ω (Except Failure α) :=
  ExceptT.mk (do
    let r ← x.run
    return .ok r)

end Run

/-! ## Registering and installing -/

/-- A way of calling hooks. -/
abbrev Invoke (η ω : Type) := η → ImplementorMap → Run η ω Unit

/-- Hands a map to a hook, and counts the call once it has returned. -/
def deliver (invoke : Invoke η ω) (route : Route) (h : η) (m : ImplementorMap) : Run η ω Unit := do
  invoke h m
  modify fun s =>
    { s with registry := { s.registry with deliveries := s.registry.deliveries ++ [⟨h, m, route⟩] } }

/-- Registers a map: it is handed over if a hook is installed, and waits if not. -/
def register (invoke : Invoke η ω) (m : ImplementorMap) : Run η ω Unit := do
  match ← Run.phase with
  | .live h => deliver invoke .direct h m
  | .buffering queue =>
    Run.setPhase (.buffering (queue ++ [m]))
    Run.note (.queued m.size (queue.length + 1))

/-- Hands waiting maps to a hook in order.  If the hook fails, the maps from the failing one
    on wait again. -/
def drain (invoke : Invoke η ω) (h : η) : List ImplementorMap → Run η ω Unit
  | [] => pure ()
  | m :: rest => do
    match ← Run.attempt (deliver invoke .drain h m) with
    | .ok () => drain invoke h rest
    | .error f =>
      Run.setPhase (.buffering (m :: rest))
      throw f

/-- Installs a hook, and gives the number of maps drained by this call. -/
def install (invoke : Invoke η ω) (h : η) : Run η ω Nat := do
  match ← Run.phase with
  | .live _ =>
    Run.note .hookReplaced
    Run.setPhase (.live h)
    return 0
  | .buffering queue =>
    Run.setPhase (.live h)
    drain invoke h queue
    Run.note (.hookInstalled queue.length)
    return queue.length

/-! ## Calling hooks -/

/-- Carries out a plan; calls on the registry call hooks by `invoke`. -/
def Plan.run (invoke : Invoke η ω) : Plan η ω → Run η ω Unit
  | .done => pure ()
  | .fail f => throw f
  | .note e next => do
    Run.note e
    next.run invoke
  | .inspect next => do
    let s ← get
    (next s.world).run invoke
  | .update f next => do
    modify fun s => { s with world := f s.world }
    next.run invoke
  | .register m next => do
    let r ← Run.attempt (TraitCatalog.register invoke m)
    (next r).run invoke
  | .install h next => do
    let r ← Run.attempt (TraitCatalog.install invoke h)
    (next r).run invoke

/-- Calls a hook, with `room` left on the stack.  A wrapper takes two frames, and announces the map
    if it is enabled; a base hook takes three with the call on the registry that leads to it. -/
def invoke (act : Behaviour β ω) : (room : Nat) → Invoke (Hook β) ω
  | room + 2, .logged enabled inner, m => do
    Run.noteAll (if enabled then m.announcements else [])
    invoke act room inner m
  | room + 3, .base b, m => (act b m).run (invoke act room)
  | _, _, _ => throw .tooDeep

/-- The room on the stack for hook calls.  The number is nominal: it differs by what is on the stack
    already.  The theorems hold for any number with room for the hook of a catalog. -/
def callLimit : Nat := 960

/-- Calls a hook. -/
def call (act : Behaviour β ω) : Invoke (Hook β) ω :=
  invoke act callLimit

/-! ## Reports -/

/-- What became of a registered map. -/
structure RegisterReport where
  delivered : Bool
  pending : Nat
  deriving DecidableEq, Repr

/-- What installing a hook did. -/
structure InstallReport where
  drained : Nat
  replaced : Bool
  deriving DecidableEq, Repr

/-- Registers a map and reports what became of it. -/
def registerReporting (invoke : Invoke η ω) (m : ImplementorMap) : Run η ω RegisterReport := do
  let before ← get
  register invoke m
  let after ← get
  return ⟨before.registry.isLive, after.registry.pending.length⟩

/-- Installs a hook and reports what that did. -/
def installReporting (invoke : Invoke η ω) (h : η) : Run η ω InstallReport := do
  let before ← get
  let drained ← install invoke h
  return ⟨drained, before.registry.isLive⟩

end TraitCatalog
