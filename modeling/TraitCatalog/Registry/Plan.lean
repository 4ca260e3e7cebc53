/-
  Hooks and what they do.

  A hook is handed one implementor map at a time.  What it does then is a `Plan`: a tree
  of steps in which every call that the hook makes on the registry is followed by a
  continuation that knows how the call ended.  A hook may therefore register and install
  again while it is being called, go on after a call that failed, keep state in the world
  `ω`, and give up at any point.

  * `Behaviour β ω` says what each base hook does;
  * `Hook β` is a base hook or one wrapped so that deliveries are logged first.
-/
import TraitCatalog.Failure
import TraitCatalog.Log.Event

namespace TraitCatalog

/-- What a hook does with a map. -/
inductive Plan (η ω : Type) where
  /-- The hook returns. -/
  | done
  /-- The hook gives up. -/
  | fail (f : Failure)
  /-- The hook notes an event. -/
  | note (e : LogEvent) (next : Plan η ω)
  /-- The hook looks at the world. -/
  | inspect (next : ω → Plan η ω)
  /-- The hook changes the world. -/
  | update (f : ω → ω) (next : Plan η ω)
  /-- The hook registers a map, and goes on with the outcome. -/
  | register (m : ImplementorMap) (next : Except Failure Unit → Plan η ω)
  /-- The hook installs a hook, and goes on with the outcome. -/
  | install (h : η) (next : Except Failure Nat → Plan η ω)

/-- A base hook, or a hook whose deliveries are logged when `enabled`. -/
inductive Hook (β : Type) where
  | base (b : β)
  | logged (enabled : Bool) (inner : Hook β)
  deriving DecidableEq, Repr

/-- What base hooks do with a map. -/
abbrev Behaviour (β ω : Type) := β → ImplementorMap → Plan (Hook β) ω

variable {β ω : Type}

/-- The events that announce a map: one for each trait. -/
def ImplementorMap.announcements (m : ImplementorMap) : List LogEvent :=
  m.entries.map fun (t, ds) => .delivering ds.length t

end TraitCatalog
