/-
  The timeline of a run: what is noted in the log, and where in between hooks are at work.

  The log of a run does not show when a hook begins or ends.  A timed run keeps a timeline beside
  the world of the hooks, which cannot see it: the events of the log in their order, and between
  them a mark where the core of a hook begins with a map, behind all that its wrappers announce, one
  where it ends, and one where a call is refused because there is no room for it on the stack.

  * `exec_invokeTimed`: if there is room, a hook announces the map once for each of its enabled
    wrappers, and then does what its core does; `refused_invokeTimed`: if not, the call is refused;
  * `history`: the answers to requests, and the stages after them;
  * `history_times`: a timed run is the run itself, and without its marks its timeline is the log.
-/
import Mathlib.Data.List.Forall2
import TraitCatalog.Proofs.Registry.Watch

namespace TraitCatalog

variable {η η' β ω ω' : Type}

/-! ## Wrappers -/

namespace Hook

/-- The wrappers of a hook, the outermost first; each is enabled or not. -/
def layers : Hook β → List Bool
  | base _ => []
  | logged enabled inner => enabled :: inner.layers

/-- The hook inside all wrappers. -/
def core : Hook β → β
  | base b => b
  | logged _ inner => inner.core

/-- A hook with more wrappers around it, the outermost first. -/
def wrapped (layers : List Bool) (h : Hook β) : Hook β :=
  layers.foldr logged h

@[simp] theorem layers_wrapped (ls : List Bool) (h : Hook β) :
    (h.wrapped ls).layers = ls ++ h.layers := by
  induction ls with
  | nil => rfl
  | cons l ls ih => exact congrArg (l :: ·) ih

@[simp] theorem core_wrapped (ls : List Bool) (h : Hook β) : (h.wrapped ls).core = h.core := by
  induction ls with
  | nil => rfl
  | cons l ls ih => exact ih

theorem frames_le_wrapped (h : Hook β) (ls : List Bool) : h.frames ≤ (h.wrapped ls).frames := by
  induction ls with
  | nil => exact Nat.le_refl _
  | cons l ls ih => exact Nat.le_add_right_of_le ih

end Hook

/-- What wrappers note before a hook begins with a map: each that is enabled announces it. -/
def announcedBy (layers : List Bool) (m : ImplementorMap) : List LogEvent :=
  layers.flatMap fun enabled => if enabled then m.announcements else []

theorem announcedBy_append (ls ls' : List Bool) (m : ImplementorMap) :
    announcedBy (ls ++ ls') m = announcedBy ls m ++ announcedBy ls' m :=
  List.flatMap_append

theorem level_of_mem_announcedBy {ls : List Bool} {m : ImplementorMap} {e : LogEvent}
    (h : e ∈ announcedBy ls m) : e.level = .debug := by
  obtain ⟨enabled, -, he⟩ := List.mem_flatMap.1 h
  split_ifs at he
  · obtain ⟨x, -, rfl⟩ := List.mem_map.1 he
    rfl
  · cases he

/-! ## Timelines -/

/-- Something that happens in a run. -/
inductive Moment (β : Type) where
  | noted (e : LogEvent)
  /-- The core of a hook begins with a map. -/
  | entered (b : β) (m : ImplementorMap)
  /-- The core of a hook has ended. -/
  | left (b : β) (m : ImplementorMap) (outcome : Except Failure Unit)
  /-- A call finds no room on the stack. -/
  | refused
  deriving DecidableEq

/-- The event of a moment, if it is in the log. -/
def Moment.noted? : Moment β → Option LogEvent
  | noted e => some e
  | _ => none

@[simp] theorem Moment.filterMap_noted (es : List LogEvent) :
    (es.map (noted : LogEvent → Moment β)).filterMap noted? = es := by
  rw [List.filterMap_map]
  exact List.filterMap_some

/-- The world of some hooks, and what has happened up to the last mark. -/
structure Timed (β ω : Type) where
  world : ω
  past : List (Moment β)

namespace Stage

variable (s : Stage η (Timed β ω))

/-- What has happened on a stage: all up to the last mark, and what the log has got since. -/
def timeline : List (Moment β) :=
  s.world.past ++ (s.log.drop (s.world.past.filterMap Moment.noted?).length).map .noted

/-- The stage without its timeline. -/
def untimed : Stage η ω :=
  ⟨s.registry, s.world.world, s.log⟩

/-- The stage after one more mark. -/
def marked (x : Moment β) : Stage η (Timed β ω) :=
  { s with world := { s.world with past := s.timeline ++ [x] } }

/-- The stage with another world of the hooks. -/
def withInner (w : ω) : Stage η (Timed β ω) :=
  { s with world := { s.world with world := w } }

/-- Without its marks, the timeline is the log. -/
def Timely : Prop :=
  s.timeline.filterMap Moment.noted? = s.log

/-- A call has been refused. -/
def Refused : Prop :=
  .refused ∈ s.timeline

instance [DecidableEq β] : Decidable s.Refused :=
  inferInstanceAs (Decidable (.refused ∈ s.timeline))

variable {s}

theorem refused_iff : s.Refused ↔ .refused ∈ s.world.past := by
  refine ⟨fun h => (List.mem_append.1 h).resolve_right fun hm => ?_, List.mem_append_left _⟩
  obtain ⟨e, -, he⟩ := List.mem_map.1 hm
  cases he

theorem Refused.of_past {t : Stage η (Timed β ω)} (h : s.Refused) (hp : t.world.past = s.world.past) :
    t.Refused :=
  refused_iff.2 (hp ▸ refused_iff.1 h)

theorem Refused.marked (h : s.Refused) (x : Moment β) : (s.marked x).Refused :=
  refused_iff.2 (List.mem_append_left _ h)

theorem refused_marked (s : Stage η (Timed β ω)) : (s.marked .refused).Refused :=
  refused_iff.2 List.mem_concat_self

theorem lasting_refused : Stage.Lasting (Stage.Refused : Stage η (Timed β ω) → Prop) where
  withPhase _ h := h.of_past rfl
  withDelivery _ h := h.of_past rfl
  withNote _ h := h.of_past rfl

end Stage

namespace Stage.Timely

variable {s : Stage η (Timed β ω)} (h : s.Timely)
include h

theorem past_le : (s.world.past.filterMap Moment.noted?).length ≤ s.log.length := by
  have := congrArg List.length h
  rw [timeline, List.filterMap_append, Moment.filterMap_noted, List.length_append,
    List.length_drop] at this
  omega

theorem timeline_withNotes (es : List LogEvent) :
    (s.withNotes es).timeline = s.timeline ++ es.map .noted := by
  rw [timeline, timeline, Stage.withNotes, List.drop_append_of_le_length h.past_le, List.map_append,
    List.append_assoc]

theorem withNotes (es : List LogEvent) : (s.withNotes es).Timely := by
  rw [Timely, h.timeline_withNotes, List.filterMap_append, Moment.filterMap_noted, h]
  rfl

theorem timeline_marked {x : Moment β} (hx : x.noted? = none) :
    (s.marked x).timeline = s.timeline ++ [x] := by
  have hpast : (s.timeline ++ [x]).filterMap Moment.noted? = s.log := by
    rw [List.filterMap_append, h]
    simp [hx]
  have hdrop : s.log.drop s.log.length = [] := List.drop_length
  rw [timeline, marked, hpast, hdrop, List.map_nil, List.append_nil]

theorem marked {x : Moment β} (hx : x.noted? = none) : (s.marked x).Timely := by
  rw [Timely, h.timeline_marked hx, List.filterMap_append, h]
  simp [hx, Stage.marked]

end Stage.Timely

/-! ## Timed runs -/

/-- A plan for a world with a timeline, of which the hook does not know. -/
def Plan.timed : Plan η ω → Plan η (Timed β ω)
  | .done => .done
  | .fail f => .fail f
  | .note e next => .note e next.timed
  | .inspect next => .inspect fun w => (next w.world).timed
  | .update f next => .update (fun w => { w with world := f w.world }) next.timed
  | .register m next => .register m fun r => (next r).timed
  | .install h next => .install h fun r => (next r).timed

/-- Puts a mark on the timeline. -/
def Run.mark (x : Moment β) : Run η (Timed β ω) Unit :=
  modify (Stage.marked · x)

/-- Calls a hook, with marks where its core begins and ends, and where there is no room. -/
def invokeTimed (act : Behaviour β ω) : (room : Nat) → Invoke (Hook β) (Timed β ω)
  | room + 2, .logged enabled inner, m => do
    Run.noteAll (if enabled then m.announcements else [])
    invokeTimed act room inner m
  | room + 3, .base b, m => do
    Run.mark (.entered b m)
    let r ← Run.attempt ((act b m).timed.run (invokeTimed act room))
    Run.mark (.left b m r)
    ExceptT.mk (pure r)
  | _, _, _ => do
    Run.mark .refused
    throw .tooDeep

section
variable (act : Behaviour β ω) (room : Nat) (m : ImplementorMap) (s : Stage (Hook β) (Timed β ω))

theorem exec_invokeTimed_logged (enabled : Bool) (inner : Hook β) :
    (invokeTimed act (room + 2) (.logged enabled inner) m).exec s =
      (invokeTimed act room inner m).exec (s.withNotes (announcedBy [enabled] m)) := by
  rw [announcedBy, List.flatMap_singleton]
  rfl

theorem exec_invokeTimed_base (b : β) :
    let r := ((act b m).timed.run (invokeTimed act room)).exec (s.marked (.entered b m))
    (invokeTimed act (room + 3) (.base b) m).exec s = (r.1, r.2.marked (.left b m r.1)) := by
  simp only [invokeTimed, Run.mark, Run.exec_bind, Run.exec_modify, Run.exec_attempt]
  rfl

/-- A hook for which there is room. -/
theorem exec_invokeTimed (h : Hook β) :
    let t := (s.withNotes (announcedBy h.layers m)).marked (.entered h.core m)
    let r := ((act h.core m).timed.run (invokeTimed act room)).exec t
    (invokeTimed act (room + h.frames) h m).exec s = (r.1, r.2.marked (.left h.core m r.1)) := by
  induction h generalizing s with
  | base b =>
    have hs : s.withNotes (announcedBy (Hook.base b).layers m) = s := Stage.withNotes_nil s
    rw [hs]
    exact exec_invokeTimed_base act room m s b
  | logged enabled inner ih =>
    have hs : (s.withNotes (announcedBy [enabled] m)).withNotes (announcedBy inner.layers m) =
        s.withNotes (announcedBy (Hook.logged enabled inner).layers m) := by
      rw [Stage.withNotes_withNotes, ← announcedBy_append]
      rfl
    have hinner := ih (s.withNotes (announcedBy [enabled] m))
    rw [hs] at hinner
    exact (exec_invokeTimed_logged act (room + inner.frames) m s enabled inner).trans hinner

end

/-- A hook for which there is no room. -/
theorem refused_invokeTimed (act : Behaviour β ω) (m : ImplementorMap) : ∀ {room : Nat} {h : Hook β}
    (s : Stage (Hook β) (Timed β ω)), room < h.frames → ((invokeTimed act room h m).exec s).2.Refused
  | room + 2, .logged enabled inner, s, hlt => by
    rw [exec_invokeTimed_logged]
    exact refused_invokeTimed act m _ (Nat.lt_of_add_lt_add_right hlt)
  | 0, .logged .., s, _ | 1, .logged .., s, _ => Stage.refused_marked s
  | 0, .base _, s, _ | 1, .base _, s, _ | 2, .base _, s, _ => Stage.refused_marked s

theorem Plan.keeps_refused {invoke : Invoke η (Timed β ω)}
    (hi : ∀ h m, (invoke h m).Keeps Stage.Refused) (p : Plan η ω) :
    (p.timed.run invoke).Keeps Stage.Refused := by
  induction p with
  | done | fail f => exact fun _ hs => hs
  | note e next ih => exact .bind (fun _ hs => Stage.lasting_refused.withNote e hs) fun _ => ih
  | inspect next ih => exact fun s hs => ih s.world.world s hs
  | update f next ih =>
    exact .bind (fun _ hs => hs.of_past rfl) fun _ => ih
  | register m next ih =>
    exact .bind (fun s hs => Stage.lasting_refused.register hi m s hs) ih
  | install h next ih =>
    exact .bind (fun s hs => Stage.lasting_refused.install hi h s hs) ih

/-- What has been refused stays on the timeline. -/
theorem keeps_invokeTimed (act : Behaviour β ω) : ∀ room (h : Hook β) m,
    (invokeTimed act room h m).Keeps Stage.Refused
  | room + 2, .logged _ inner, m =>
    .bind (fun _ hs => hs.of_past rfl) fun _ => keeps_invokeTimed act room inner m
  | room + 3, .base b, m => by
    intro s hs
    rw [exec_invokeTimed_base]
    exact (Plan.keeps_refused (keeps_invokeTimed act room) (act b m) _ (hs.marked _)).marked _
  | 0, .logged .., _ | 1, .logged .., _ | 0, .base _, _ | 1, .base _, _ | 2, .base _, _ =>
    fun s _ => Stage.refused_marked s

/-! ## Histories -/

/-- How a request ended. -/
inductive Reply where
  | registered (outcome : Except Failure Unit)
  | installed (outcome : Except Failure Nat)
  deriving DecidableEq

/-- How a request ends on a stage. -/
def Request.reply (invoke : Invoke η ω) (s : Stage η ω) : Request η → Reply
  | register m => .registered ((TraitCatalog.register invoke m).exec s).1
  | install h => .installed ((TraitCatalog.install invoke h).exec s).1

/-- How each of some requests ends, and the stage after it. -/
def history (invoke : Invoke η ω) : Stage η ω → List (Request η) → List (Reply × Stage η ω)
  | _, [] => []
  | s, r :: rs => (r.reply invoke s, r.perform invoke s) :: history invoke (r.perform invoke s) rs

/-- The same request, but for a matching hook to be installed. -/
inductive Request.Matches (H : η → η' → Prop) : Request η → Request η' → Prop
  | register (m : ImplementorMap) : Matches H (.register m) (.register m)
  | install {h h'} : H h h' → Matches H (.install h) (.install h')

/-- Requests that match end in the same way, and on related stages, unless the second registry has
    broken off. -/
theorem Respects.history {H : η → η' → Prop} {R : Stage η ω → Stage η' ω' → Prop}
    {B : Stage η' ω' → Prop} {invoke : Invoke η ω} {invoke' : Invoke η' ω'} (hR : Respects H R B)
    (hi : Invoke.Simulates H R B invoke invoke') {rs : List (Request η)} {rs' : List (Request η')}
    (hrs : List.Forall₂ (Request.Matches H) rs rs') {s : Stage η ω} {t : Stage η' ω'}
    (hst : B t ∨ R s t) : List.Forall₂ (fun x y => B y.2 ∨ x.1 = y.1 ∧ R x.2 y.2)
      (history invoke s rs) (history invoke' t rs') := by
  induction hrs generalizing s t with
  | nil => exact .nil
  | @cons r r' _ _ hr _ ih =>
    have hstep : B (r'.perform invoke' t) ∨
        r.reply invoke s = r'.reply invoke' t ∧ R (r.perform invoke s) (r'.perform invoke' t) := by
      cases hr with
      | register m =>
        refine hst.elim (fun hB => .inl (hR.lasting.register hi.keeps m t hB)) fun hst => ?_
        exact ((hR.register hi m).follows s t hst).imp id
          fun ⟨ho, hst'⟩ => ⟨congrArg Reply.registered ho, hst'⟩
      | @install h h' hh =>
        refine hst.elim (fun hB => .inl (hR.lasting.install hi.keeps h' t hB)) fun hst => ?_
        exact ((hR.install hi hh).follows s t hst).imp id
          fun ⟨ho, hst'⟩ => ⟨congrArg Reply.installed ho, hst'⟩
    exact .cons hstep (ih (hstep.imp id And.right))

/-! ## Nothing changes with a timeline -/

/-- A timed stage, and the same stage without its timeline. -/
structure Stage.Times (s : Stage η (Timed β ω)) (t : Stage η ω) : Prop where
  timely : s.Timely
  eq : t = s.untimed

theorem respects_times :
    Respects Eq (Stage.Times : Stage η (Timed β ω) → Stage η ω → Prop) fun _ => False where
  phase := by
    rintro s _ ⟨-, rfl⟩
    exact Phase.matches_eq_iff.2 rfl
  withPhase := by
    rintro s _ p q ⟨hs, rfl⟩ hpq
    rw [Phase.matches_eq_iff.1 hpq]
    exact ⟨hs, rfl⟩
  withDelivery := by
    rintro s _ h _ route m ⟨hs, rfl⟩ rfl
    exact ⟨hs, rfl⟩
  withNote := by
    rintro s _ e ⟨hs, rfl⟩
    exact ⟨hs.withNotes [e], rfl⟩
  lasting := Stage.lasting_never

theorem Plan.simulates_timed {invoke : Invoke η (Timed β ω)} {invoke' : Invoke η ω}
    (hi : ∀ h m, Run.Simulates Stage.Times (fun _ => False) (invoke h m) (invoke' h m)) (p : Plan η ω) :
    Run.Simulates Stage.Times (fun _ => False) (p.timed.run invoke) (p.run invoke') := by
  induction p with
  | done => exact .pure ()
  | fail f => exact .throw f
  | note e next ih => exact (respects_times.note e).bind fun _ => ih
  | inspect next ih =>
    refine Run.Simulates.never_iff.2 ?_
    rintro s _ ⟨hs, rfl⟩
    exact Run.Simulates.never_iff.1 (ih s.world.world) s _ ⟨hs, rfl⟩
  | update f next ih =>
    refine .bind (.modifies (fun _ hf => hf) ?_) fun _ => ih
    rintro s _ ⟨hs, rfl⟩
    exact ⟨hs, rfl⟩
  | register m next ih => exact (respects_times.register (.never hi) m).attempt.bind ih
  | install h next ih => exact (respects_times.install (.never hi) rfl).attempt.bind ih

theorem simulates_invokeTimed (act : Behaviour β ω) : ∀ room h m,
    Run.Simulates Stage.Times (fun _ => False) (invokeTimed act room h m) (invoke act room h m)
  | room + 2, .logged _ inner, m => by
    refine .bind (.modifies (fun _ hf => hf) ?_) fun _ => simulates_invokeTimed act room inner m
    rintro s _ ⟨hs, rfl⟩
    exact ⟨hs.withNotes _, rfl⟩
  | room + 3, .base b, m => by
    refine Run.Simulates.never_iff.2 ?_
    rintro s _ ⟨hs, rfl⟩
    have hplan := Run.Simulates.never_iff.1 (Plan.simulates_timed (simulates_invokeTimed act room) (act b m))
    obtain ⟨ho, hend⟩ := hplan (s.marked (.entered b m)) s.untimed ⟨hs.marked rfl, rfl⟩
    rw [exec_invokeTimed_base]
    exact ⟨ho, hend.timely.marked rfl, hend.eq⟩
  | 0, .logged .., _ | 1, .logged .., _ | 0, .base _, _ | 1, .base _, _ | 2, .base _, _ => by
    refine Run.Simulates.never_iff.2 ?_
    rintro s _ ⟨hs, rfl⟩
    exact ⟨rfl, hs.marked rfl, rfl⟩

/-- A stage with a fresh registry and an empty timeline. -/
def Stage.freshTimed (w : ω) : Stage η (Timed β ω) :=
  .fresh ⟨w, []⟩

theorem times_fresh (w : ω) : Stage.Times (Stage.freshTimed w : Stage η (Timed β ω)) (.fresh w) :=
  ⟨rfl, rfl⟩

/-- **A timed run is the run itself**, with a timeline beside it that is its log but for the marks. -/
theorem history_times (act : Behaviour β ω) (room : Nat) (w : ω) (rs : List (Request (Hook β))) :
    List.Forall₂ (fun x y => x.1 = y.1 ∧ x.2.Times y.2)
      (history (invokeTimed act room) (.freshTimed w) rs)
      (history (invoke act room) (.fresh w) rs) := by
  have hrs : List.Forall₂ (Request.Matches Eq) rs rs := by
    refine List.forall₂_same.2 fun r _ => ?_
    cases r with
    | register m => exact .register m
    | install h => exact .install rfl
  have hsame := respects_times.history (.never (simulates_invokeTimed act room)) hrs
    (.inr (times_fresh w))
  exact hsame.imp fun x y h => h.resolve_left id

end TraitCatalog
