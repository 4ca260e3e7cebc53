/-
  How work on a stage goes.

  `Run.exec x s` is the outcome of `x` on the stage `s` and the stage after it.  There is one
  lemma for each way of putting work together, and one for each operation of a registry in
  each of its two states, so that nothing else has to open the monad.
-/
import TraitCatalog.Registry.Basic

namespace TraitCatalog

variable {η β ω α γ : Type}

/-- The outcome of some work on a stage, and the stage after it. -/
def Run.exec (x : Run η ω α) (s : Stage η ω) : Except Failure α × Stage η ω :=
  x.run.run s

namespace Stage

/-- The stage with another state of the registry. -/
def withPhase (s : Stage η ω) (p : Phase η) : Stage η ω :=
  { s with registry := { s.registry with phase := p } }

/-- The stage after a hook call that returned. -/
def withDelivery (s : Stage η ω) (d : Delivery η) : Stage η ω :=
  { s with registry := { s.registry with deliveries := s.registry.deliveries ++ [d] } }

/-- The stage with one more event in the log. -/
def withNote (s : Stage η ω) (e : LogEvent) : Stage η ω :=
  { s with log := s.log ++ [e] }

/-- The stage with more events in the log. -/
def withNotes (s : Stage η ω) (es : List LogEvent) : Stage η ω :=
  { s with log := s.log ++ es }

/-- The stage with another world. -/
def withWorld (s : Stage η ω) (w : ω) : Stage η ω :=
  { s with world := w }

@[simp] theorem phase_withPhase (s : Stage η ω) (p : Phase η) :
    (s.withPhase p).registry.phase = p := rfl

@[simp] theorem deliveries_withPhase (s : Stage η ω) (p : Phase η) :
    (s.withPhase p).registry.deliveries = s.registry.deliveries := rfl

@[simp] theorem world_withPhase (s : Stage η ω) (p : Phase η) : (s.withPhase p).world = s.world := rfl

@[simp] theorem phase_withDelivery (s : Stage η ω) (d : Delivery η) :
    (s.withDelivery d).registry.phase = s.registry.phase := rfl

@[simp] theorem deliveries_withDelivery (s : Stage η ω) (d : Delivery η) :
    (s.withDelivery d).registry.deliveries = s.registry.deliveries ++ [d] := rfl

@[simp] theorem world_withDelivery (s : Stage η ω) (d : Delivery η) :
    (s.withDelivery d).world = s.world := rfl

@[simp] theorem registry_withNote (s : Stage η ω) (e : LogEvent) :
    (s.withNote e).registry = s.registry := rfl

@[simp] theorem world_withNote (s : Stage η ω) (e : LogEvent) : (s.withNote e).world = s.world := rfl

@[simp] theorem registry_withNotes (s : Stage η ω) (es : List LogEvent) :
    (s.withNotes es).registry = s.registry := rfl

@[simp] theorem world_withNotes (s : Stage η ω) (es : List LogEvent) :
    (s.withNotes es).world = s.world := rfl

@[simp] theorem withNotes_nil (s : Stage η ω) : s.withNotes [] = s := by
  rw [withNotes, List.append_nil]

theorem withNotes_withNotes (s : Stage η ω) (es es' : List LogEvent) :
    (s.withNotes es).withNotes es' = s.withNotes (es ++ es') := by
  simp only [withNotes, List.append_assoc]

@[simp] theorem registry_withWorld (s : Stage η ω) (w : ω) : (s.withWorld w).registry = s.registry := rfl

@[simp] theorem world_withWorld (s : Stage η ω) (w : ω) : (s.withWorld w).world = w := rfl

end Stage

namespace Run

/-! ## Putting work together -/

@[simp] theorem exec_pure (a : α) (s : Stage η ω) : exec (pure a) s = (.ok a, s) := rfl

@[simp] theorem exec_throw (f : Failure) (s : Stage η ω) :
    exec (throw f : Run η ω α) s = (.error f, s) := rfl

theorem exec_bind (x : Run η ω α) (k : α → Run η ω γ) (s : Stage η ω) :
    exec (x >>= k) s = match exec x s with
      | (.ok a, t) => exec (k a) t
      | (.error f, t) => (.error f, t) := by
  have h : exec (x >>= k) s = match exec x s with
      | (r, t) => StateT.run (ExceptT.bindCont k r) t := rfl
  rw [h]
  rcases exec x s with ⟨_ | a, t⟩ <;> rfl

@[simp] theorem exec_get (s : Stage η ω) : exec (get : Run η ω (Stage η ω)) s = (.ok s, s) := rfl

@[simp] theorem exec_modify (f : Stage η ω → Stage η ω) (s : Stage η ω) :
    exec (modify f : Run η ω Unit) s = (.ok (), f s) := rfl

@[simp] theorem exec_note (e : LogEvent) (s : Stage η ω) :
    exec (note e) s = (.ok (), s.withNote e) := rfl

@[simp] theorem exec_noteAll (es : List LogEvent) (s : Stage η ω) :
    exec (noteAll es) s = (.ok (), s.withNotes es) := rfl

@[simp] theorem exec_phase (s : Stage η ω) : exec phase s = (.ok s.registry.phase, s) := rfl

@[simp] theorem exec_setPhase (p : Phase η) (s : Stage η ω) :
    exec (setPhase p) s = (.ok (), s.withPhase p) := rfl

@[simp] theorem exec_attempt (x : Run η ω α) (s : Stage η ω) :
    exec (attempt x) s = (.ok (exec x s).1, (exec x s).2) := rfl

end Run

/-! ## Operations of a registry -/

open Run

variable (invoke : Invoke η ω) (s : Stage η ω) (h : η) (m : ImplementorMap)

theorem exec_deliver (route : Route) : exec (deliver invoke route h m) s =
    match exec (invoke h m) s with
    | (.ok (), t) => (.ok (), t.withDelivery ⟨h, m, route⟩)
    | (.error f, t) => (.error f, t) := by
  rw [deliver, exec_bind]
  rcases exec (invoke h m) s with ⟨_ | _, t⟩ <;> rfl

theorem exec_register_live (hs : s.registry.phase = .live h) :
    exec (register invoke m) s = exec (deliver invoke .direct h m) s := by
  rw [register, exec_bind, exec_phase, hs]

theorem exec_register_buffering {queue : List ImplementorMap}
    (hs : s.registry.phase = .buffering queue) : exec (register invoke m) s =
      (.ok (), (s.withPhase (.buffering (queue ++ [m]))).withNote (.queued m.size (queue.length + 1))) := by
  rw [register, exec_bind, exec_phase, hs]
  rfl

theorem exec_drain_cons (rest : List ImplementorMap) : exec (drain invoke h (m :: rest)) s =
    match exec (deliver invoke .drain h m) s with
    | (.ok (), t) => exec (drain invoke h rest) t
    | (.error f, t) => (.error f, t.withPhase (.buffering (m :: rest))) := by
  rw [drain, exec_bind, exec_attempt]
  rcases exec (deliver invoke .drain h m) s with ⟨_ | _, t⟩ <;> rfl

theorem exec_install_live {h' : η} (hs : s.registry.phase = .live h') :
    exec (install invoke h) s = (.ok 0, (s.withNote .hookReplaced).withPhase (.live h)) := by
  rw [install, exec_bind, exec_phase, hs]
  rfl

theorem exec_install_buffering {queue : List ImplementorMap}
    (hs : s.registry.phase = .buffering queue) : exec (install invoke h) s =
      match exec (drain invoke h queue) (s.withPhase (.live h)) with
      | (.ok (), t) => (.ok queue.length, t.withNote (.hookInstalled queue.length))
      | (.error f, t) => (.error f, t) := by
  rw [install, exec_bind, exec_phase, hs]
  simp only [exec_bind, exec_setPhase]
  rcases exec (drain invoke h queue) (s.withPhase (.live h)) with ⟨_ | _, t⟩ <;> rfl

/-! ## Hook calls -/

/-- The room that a call of a hook takes on the stack. -/
def Hook.frames : Hook β → Nat
  | base _ => 3
  | logged _ inner => inner.frames + 2

theorem Hook.frames_pos (h : Hook β) : 0 < h.frames := by
  cases h <;> exact Nat.succ_pos _

end TraitCatalog
