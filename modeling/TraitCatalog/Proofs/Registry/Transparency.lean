/-
  Wrappers that log cannot be noticed but in the log.

  Two runs are compared.  Where one installs a hook, from outside or out of another hook, the other
  installs the same hook with more wrappers around it.

  * `Announced`: how the timelines of the two runs differ: where a hook begins with a map in the
    one, it does in the other behind what its wrappers announce;
  * `Stage.Quieter`: two stages that differ in nothing but that, and in the wrappers of the hook;
  * `simulates_wrapped`: a hook and the hook with more wrappers go alike from such stages, unless a
    call is refused because the wrappers take up the room on the stack;
  * `logging_transparent`: so do the two runs, request for request.
-/
import TraitCatalog.Proofs.Registry.Timeline

namespace TraitCatalog

variable {β ω : Type}

/-! ## What is compared -/

/-- The second hook is the first with more wrappers, or with none. -/
def Hook.Wraps (h h' : Hook β) : Prop :=
  ∃ layers, h' = h.wrapped layers

/-- The second timeline is the first for hooks with more wrappers.  Each time that the core of a hook
    begins, its new wrappers have announced the map before those that it has in the first, and
    nothing else is different. -/
inductive Announced : List (Moment β) → List (Moment β) → Prop
  | nil : Announced [] []
  | noted {s t} (e : LogEvent) : Announced s t → Announced (.noted e :: s) (.noted e :: t)
  | entered {s t} (layers own : List Bool) (b : β) (m : ImplementorMap) : Announced s t →
      Announced ((announcedBy own m).map .noted ++ .entered b m :: s)
        ((announcedBy layers m ++ announcedBy own m).map .noted ++ .entered b m :: t)
  | left {s t} (b : β) (m : ImplementorMap) (r : Except Failure Unit) :
      Announced s t → Announced (.left b m r :: s) (.left b m r :: t)

theorem Announced.append {s s' t t' : List (Moment β)} (h : Announced s t) (h' : Announced s' t') :
    Announced (s ++ s') (t ++ t') := by
  induction h with
  | nil => exact h'
  | noted e _ ih => exact .noted e ih
  | entered layers own b m _ ih =>
    rw [List.append_assoc, List.append_assoc]
    exact .entered layers own b m ih
  | left b m r _ ih => exact .left b m r ih

/-- Two stages that differ at most in the wrappers of hooks and in what these announced. -/
structure Stage.Quieter (s t : Stage (Hook β) (Timed β ω)) : Prop where
  timely : s.Timely ∧ t.Timely
  phase : s.registry.phase.Matches Hook.Wraps t.registry.phase
  count : s.registry.deliveredCount = t.registry.deliveredCount
  world : s.world.world = t.world.world
  timeline : Announced s.timeline t.timeline

namespace Stage.Quieter

variable {s t : Stage (Hook β) (Timed β ω)} (h : s.Quieter t)
include h

theorem withInner {w w' : ω} (hw : w = w') : (s.withInner w).Quieter (t.withInner w') :=
  ⟨h.timely, h.phase, h.count, hw, h.timeline⟩

/-- A hook begins with a map on both stages, with more wrappers on the second. -/
theorem enter (layers : List Bool) (k : Hook β) (m : ImplementorMap) :
    ((s.withNotes (announcedBy k.layers m)).marked (.entered k.core m)).Quieter
      ((t.withNotes (announcedBy (k.wrapped layers).layers m)).marked (.entered k.core m)) := by
  obtain ⟨hs, ht⟩ := h.timely
  refine ⟨⟨(hs.withNotes _).marked rfl, (ht.withNotes _).marked rfl⟩, h.phase, h.count, h.world, ?_⟩
  rw [(hs.withNotes _).timeline_marked rfl, (ht.withNotes _).timeline_marked rfl,
    hs.timeline_withNotes, ht.timeline_withNotes, Hook.layers_wrapped, announcedBy_append,
    List.append_assoc, List.append_assoc]
  exact h.timeline.append (.entered layers k.layers k.core m .nil)

theorem leave (b : β) (m : ImplementorMap) (r : Except Failure Unit) :
    (s.marked (.left b m r)).Quieter (t.marked (.left b m r)) := by
  obtain ⟨hs, ht⟩ := h.timely
  refine ⟨⟨hs.marked rfl, ht.marked rfl⟩, h.phase, h.count, h.world, ?_⟩
  rw [hs.timeline_marked rfl, ht.timeline_marked rfl]
  exact h.timeline.append (.left b m r .nil)

theorem pending : s.registry.pending = t.registry.pending := by
  unfold Registry.pending
  rcases h.phase.sameKind with ⟨queue, hp, hq⟩ | ⟨k, k', hp, hq, -⟩
  · rw [hp, hq]
  · rw [hp, hq]

theorem isLive : s.registry.isLive = t.registry.isLive := by
  unfold Registry.isLive
  rcases h.phase.sameKind with ⟨queue, hp, hq⟩ | ⟨k, k', hp, hq, -⟩
  · rw [hp, hq]
  · rw [hp, hq]

end Stage.Quieter

theorem respects_quieter : Respects Hook.Wraps
    (Stage.Quieter : Stage (Hook β) (Timed β ω) → Stage (Hook β) (Timed β ω) → Prop)
    Stage.Refused where
  phase h := h.phase
  withPhase h hpq := ⟨h.timely, hpq, h.count, h.world, h.timeline⟩
  withDelivery {s t} _ _ _ _ h _ := by
    have hcount : s.registry.deliveries.length = t.registry.deliveries.length := h.count
    refine ⟨h.timely, h.phase, ?_, h.world, h.timeline⟩
    simp [Registry.deliveredCount, hcount]
  withNote {s t} e h := by
    obtain ⟨hs, ht⟩ := h.timely
    refine ⟨⟨hs.withNotes [e], ht.withNotes [e]⟩, h.phase, h.count, h.world, ?_⟩
    have hsn : (s.withNote e).timeline = s.timeline ++ [.noted e] := hs.timeline_withNotes [e]
    have htn : (t.withNote e).timeline = t.timeline ++ [.noted e] := ht.timeline_withNotes [e]
    rw [hsn, htn]
    exact h.timeline.append (.noted e .nil)
  lasting := Stage.lasting_refused

/-! ## Hooks with more wrappers -/

theorem Plan.Matches.simulates {invoke invoke' : Invoke (Hook β) (Timed β ω)}
    (hi : Invoke.Simulates Hook.Wraps Stage.Quieter Stage.Refused invoke invoke')
    {p q : Plan (Hook β) ω} (hpq : p.Matches Hook.Wraps q) :
    Run.Simulates Stage.Quieter Stage.Refused (p.timed.run invoke) (q.timed.run invoke') := by
  induction hpq with
  | done => exact .pure ()
  | fail f => exact .throw f
  | note e _ ih => exact (respects_quieter.note e).bind fun _ => ih
  | @inspect p q _ ih =>
    refine ⟨fun t ht => (ih t.world.world).keeps t ht, fun s t hst => ?_⟩
    have hstep := (ih s.world.world).follows s t hst
    have hq : (q t.world.world).timed.run invoke' = (q s.world.world).timed.run invoke' := by
      rw [hst.world]
    rw [← hq] at hstep
    exact hstep
  | update f _ ih =>
    exact .bind (.modifies (fun _ ht => ht.of_past rfl)
      fun s t hst => hst.withInner (congrArg f hst.world)) fun _ => ih
  | register m _ ih => exact (respects_quieter.register hi m).attempt.bind ih
  | install hh _ ih => exact (respects_quieter.install hi hh).attempt.bind ih

/-- A hook that is called with more wrappers does the same behind what they announce, if there is
    room for it. -/
theorem simulates_wrapped {act act' : Behaviour β ω}
    (ha : ∀ b m, (act b m).Matches Hook.Wraps (act' b m)) {room room' : Nat} (hroom : room' ≤ room) :
    Invoke.Simulates Hook.Wraps Stage.Quieter Stage.Refused (invokeTimed act room)
      (invokeTimed act' room') := by
  induction room' using Nat.strongRecOn generalizing room with
  | _ room' ih =>
    refine ⟨keeps_invokeTimed act' room', ?_⟩
    rintro h _ m ⟨layers, rfl⟩
    refine ⟨keeps_invokeTimed act' room' _ m, fun s t hst => ?_⟩
    rcases Nat.lt_or_ge room' (h.wrapped layers).frames with hlt | hle
    · exact .inl (refused_invokeTimed act' m t hlt)
    · have hpos := h.frames_pos
      have hless := h.frames_le_wrapped layers
      have hmore : h.frames ≤ room := Nat.le_trans hless (Nat.le_trans hle hroom)
      -- What is left for the calls that the hook makes itself, in the two runs.
      obtain ⟨left', rfl⟩ := Nat.exists_eq_add_of_le' hle
      obtain ⟨left, rfl⟩ := Nat.exists_eq_add_of_le' hmore
      have hcore := (ha h.core m).simulates
        (ih left' (by omega) (show left' ≤ left by omega))
      rw [exec_invokeTimed, exec_invokeTimed, Hook.core_wrapped]
      refine (hcore.follows _ _ (hst.enter layers h m)).imp (fun hr => hr.marked _) fun ⟨ho, hend⟩ => ?_
      rw [← ho]
      exact ⟨rfl, hend.leave h.core m _⟩

/-! ## Runs with more wrappers -/

/-- Two replies and the stages after them, which differ in nothing but what wrappers announced. -/
structure SameButAnnounced (x y : Reply × Stage (Hook β) (Timed β ω)) : Prop where
  reply : x.1 = y.1
  isLive : x.2.registry.isLive = y.2.registry.isLive
  pending : x.2.registry.pending = y.2.registry.pending
  deliveredCount : x.2.registry.deliveredCount = y.2.registry.deliveredCount
  world : x.2.world.world = y.2.world.world
  timeline : Announced x.2.timeline y.2.timeline

theorem Stage.Quieter.sameButAnnounced {x y : Reply × Stage (Hook β) (Timed β ω)} (hr : x.1 = y.1)
    (h : x.2.Quieter y.2) : SameButAnnounced x y :=
  ⟨hr, h.isLive, h.pending, h.count, h.world, h.timeline⟩

theorem quieter_fresh (w : ω) :
    (Stage.freshTimed w : Stage (Hook β) (Timed β ω)).Quieter (.freshTimed w) :=
  ⟨⟨rfl, rfl⟩, .buffering [], rfl, rfl, .nil⟩

/-- **Wrappers that log cannot be noticed but in the log**, as long as there is room for them on the
    stack.  Two runs make the same requests of a fresh registry, but where the first installs a hook,
    the second installs it with any wrappers around it; and so do the hooks themselves while they are
    called, for all else they may do.  Up to the first call that is refused in the second run, every
    request ends in the same way in both, and leaves a registry in the same kind of state, with the
    same maps waiting and the same number of deliveries, and the same world of the hooks.  The
    timelines show the same hooks at work on the same maps in the same order and the same events;
    only, before a hook begins, each of its new wrappers that is enabled has noted one event at the
    lowest level for each trait of the map. -/
theorem logging_transparent {act act' : Behaviour β ω}
    (ha : ∀ b m, (act b m).Matches Hook.Wraps (act' b m)) {rs rs' : List (Request (Hook β))}
    (hrs : List.Forall₂ (Request.Matches Hook.Wraps) rs rs') (room : Nat) (w : ω) :
    let plain := history (invokeTimed act room) (.freshTimed w) rs
    let wrapped := history (invokeTimed act' room) (.freshTimed w) rs'
    List.Forall₂ (fun x y => y.2.Refused ∨ SameButAnnounced x y) plain wrapped ∧
      List.Forall₂ (fun x y => x.1 = y.1 ∧ x.2.Times y.2) plain
        (history (invoke act room) (.fresh w) rs) ∧
      List.Forall₂ (fun x y => x.1 = y.1 ∧ x.2.Times y.2) wrapped
        (history (invoke act' room) (.fresh w) rs') ∧
      ∀ layers m, ∀ e ∈ announcedBy layers m, e.level = .debug := by
  intro plain wrapped
  refine ⟨?_, history_times act room w rs, history_times act' room w rs',
    fun layers m e he => level_of_mem_announcedBy he⟩
  have hsame := respects_quieter.history (simulates_wrapped ha (Nat.le_refl room)) hrs
    (.inr (quieter_fresh w))
  exact hsame.imp fun x y h => h.imp id fun ⟨hr, hst⟩ => hst.sameButAnnounced hr

open Text (lit)

/-- A hook that fails when it is called first, and later puts its successor in its place. -/
def relay (successor : Hook Bool) : Behaviour Bool Nat
  | false, _ => .update (· + 1) <| .inspect fun calls =>
    if calls = 1 then .fail (.hook (lit "not yet")) else .install successor fun _ => .done
  | true, _ => .done

theorem relay_matches (successor : Hook Bool) (layers : List Bool) (b : Bool) (m : ImplementorMap) :
    (relay successor b m).Matches Hook.Wraps (relay (successor.wrapped layers) b m) := by
  cases b with
  | true => exact .done
  | false =>
    refine .update _ (.inspect fun calls => ?_)
    split_ifs
    · exact .fail _
    · exact .install ⟨layers, rfl⟩ fun _ => .done

theorem logging_transparent_relay :
    let m : ImplementorMap := .single (lit "A") [lit "x"]
    let n : ImplementorMap := .single (lit "B") []
    let first : Hook Bool := .base false
    let second : Hook Bool := .base true
    let rs := [.register m, .install first, .install first, .register n]
    let rs' := [.register m, .install (first.wrapped [true]),
      .install (first.wrapped [false, true]), .register n]
    let wrapped :=
      history (invokeTimed (relay (second.wrapped [true])) 7) (.freshTimed 0) rs'
    List.Forall₂ (Request.Matches Hook.Wraps) rs rs' ∧
    (∀ y ∈ wrapped, ¬ y.2.Refused) ∧
    wrapped.map Prod.fst = [.registered (.ok ()), .installed (.error (.hook (lit "not yet"))),
      .installed (.ok 1), .registered (.ok ())] ∧
    wrapped.getLast?.map (fun x => x.2.timeline) = some [.noted (.queued 1 1),
      .noted (.delivering 1 (lit "A")), .entered false m,
      .left false m (.error (.hook (lit "not yet"))),
      .noted (.delivering 1 (lit "A")), .entered false m,
      .noted .hookReplaced, .left false m (.ok ()), .noted (.hookInstalled 1),
      .noted (.delivering 0 (lit "B")), .entered true n, .left true n (.ok ())] := by
  intro m n first second rs rs' wrapped
  have hrs : List.Forall₂ (Request.Matches Hook.Wraps) rs rs' :=
    .cons (.register m) <| .cons (.install ⟨[true], rfl⟩) <|
      .cons (.install ⟨[false, true], rfl⟩) <| .cons (.register n) .nil
  obtain ⟨hsame, -⟩ := logging_transparent (relay_matches second [true]) hrs 7 0
  have hnone : ∀ y ∈ wrapped, ¬ y.2.Refused := by decide +kernel
  have hreplies : List.Forall₂ Eq (wrapped.map Prod.fst) _ :=
    List.forall₂_map_left_iff.2 <| List.forall₂_map_right_iff.2 <|
      ((List.forall₂_and_left _ _).2 ⟨hnone, hsame.flip⟩).imp fun y x ⟨hy, h⟩ =>
        (h.resolve_left hy).reply.symm
  rw [List.forall₂_eq_eq_eq] at hreplies
  refine ⟨hrs, hnone, hreplies.trans ?_, ?_⟩
  · decide +kernel
  · decide +kernel

/-- Wrappers that take up the whole stack are noticed: the map is delivered without them, and
    refused with them. -/
theorem wrappers_fill_stack :
    let act : Behaviour Unit Unit := fun _ _ => .done
    let m : ImplementorMap := .single (lit "A") []
    let h : Hook Unit := .base ()
    let plain := history (call act) (.fresh ()) [.install h, .register m]
    let wrapped :=
      history (call act) (.fresh ()) [.install (h.wrapped (List.replicate 500 false)), .register m]
    plain.map (fun x => (x.1, x.2.registry.deliveredCount)) =
        [(.installed (.ok 0), 0), (.registered (.ok ()), 1)] ∧
      wrapped.map (fun x => (x.1, x.2.registry.deliveredCount)) =
        [(.installed (.ok 0), 0), (.registered (.error .tooDeep), 0)] := by
  decide +kernel

end TraitCatalog
