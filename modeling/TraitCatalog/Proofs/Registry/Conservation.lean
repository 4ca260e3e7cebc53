/-
  No map is lost, doubled or reordered.

  What has been seen of a registry is read in several ways (`Sighting.buffered?` and those
  after it).  `Account queue opened ds seen` ties the readings together at any moment of a run,
  also in the middle of a hook call: `queue` are the maps that still wait, in the state or in
  a drain that is under way, and `opened` are the live registrations that have not ended.
  Whatever a hook does while the registry is live keeps every account (`Steady`), so a drain
  can be followed map by map (`settled_drain`).

  `run_conserves_maps` is the account of a whole run.
-/
import TraitCatalog.Proofs.Registry.Watch

namespace TraitCatalog

variable {η β ω α γ : Type}

/-! ## Readings -/

namespace Sighting

/-- A map whose registration began while the registry was buffering. -/
def buffered? (x : Sighting η) : Option ImplementorMap :=
  match x.sight, x.phase with
  | .registering m, .buffering _ => some m
  | _, _ => none

/-- A map whose registration began while the registry was live. -/
def live? (x : Sighting η) : Option ImplementorMap :=
  match x.sight, x.phase with
  | .registering m, .live _ => some m
  | _, _ => none

/-- A map whose registration began. -/
def registration? : Sighting η → Option ImplementorMap
  | ⟨_, .registering m⟩ => some m
  | _ => none

/-- The end of a registration that had found the registry live. -/
def liveEnd? : Sighting η → Option (ImplementorMap × Except Failure Unit)
  | ⟨_, .registered m true r⟩ => some (m, r)
  | _ => none

/-- A map whose registration had found the registry live, and failed. -/
def lost? : Sighting η → Option ImplementorMap
  | ⟨_, .registered m true (.error _)⟩ => some m
  | _ => none

/-- The end of a hook call that a registration made. -/
def directEnd? : Sighting η → Option (ImplementorMap × Except Failure Unit)
  | ⟨_, .called .direct _ m r⟩ => some (m, r)
  | _ => none

/-- A map for which a hook call in a drain returned. -/
def drained? : Sighting η → Option ImplementorMap
  | ⟨_, .called .drain _ m (.ok _)⟩ => some m
  | _ => none

/-- A hook call that returned. -/
def delivery? : Sighting η → Option (Delivery η)
  | ⟨_, .called route h m (.ok _)⟩ => some ⟨h, m, route⟩
  | _ => none

/-- The registry was live. -/
def isLive (x : Sighting η) : Prop :=
  ∃ h, x.phase = .live h

end Sighting

open Sighting
open scoped List

/-! ## Accounts -/

/-- What has been seen adds up, with maps that wait and live registrations under way. -/
structure Account (queue opened : List ImplementorMap) (ds : List (Delivery η))
    (seen : List (Sighting η)) : Prop where
  fifo : seen.filterMap drained? ++ queue = seen.filterMap buffered?
  direct : seen.filterMap directEnd? = seen.filterMap liveEnd?
  counted : ds = seen.filterMap delivery?
  opened : (seen.filterMap live?).Perm (opened ++ (seen.filterMap liveEnd?).map Prod.fst)
  settled : ∀ x ∈ seen, (liveEnd? x).isSome → x.isLive

namespace Account

variable {queue opened : List ImplementorMap} {ds : List (Delivery η)} {seen : List (Sighting η)}
  {h k : η} {m : ImplementorMap} {p : Phase η}

theorem nil : Account [] [] ([] : List (Delivery η)) [] :=
  ⟨rfl, rfl, rfl, .nil, by simp⟩

theorem settled_concat (h : ∀ x ∈ seen, (liveEnd? x).isSome → x.isLive) {x : Sighting η}
    (hx : (liveEnd? x).isSome → x.isLive) : ∀ y ∈ seen ++ [x], (liveEnd? y).isSome → y.isLive := by
  intro y hy hl
  rcases List.mem_append.1 hy with hy | hy
  · exact h y hy hl
  · rw [List.mem_singleton.1 hy] at hl ⊢
    exact hx hl

/-- Sights that no reading picks up change no account. -/
theorem skip (ha : Account queue opened ds seen) {x : Sighting η} (h₁ : buffered? x = none)
    (h₂ : live? x = none) (h₃ : liveEnd? x = none) (h₄ : directEnd? x = none)
    (h₅ : delivery? x = none) (h₆ : drained? x = none) : Account queue opened ds (seen ++ [x]) := by
  refine ⟨?_, ?_, ?_, ?_, ?_⟩
  · simpa [h₁, h₆] using ha.fifo
  · simpa [h₃, h₄] using ha.direct
  · simpa [h₅] using ha.counted
  · simpa [h₂, h₃] using ha.opened
  · refine settled_concat ha.settled fun hl => ?_
    rw [h₃] at hl
    cases hl

/-- A live registration begins. -/
theorem open_ (ha : Account queue opened ds seen) :
    Account queue (m :: opened) ds (seen ++ [⟨.live h, .registering m⟩]) := by
  refine ⟨?_, ?_, ?_, ?_, ?_⟩
  · simpa [List.filterMap_cons, drained?, buffered?] using ha.fifo
  · simpa [List.filterMap_cons, directEnd?, liveEnd?] using ha.direct
  · simpa [List.filterMap_cons, delivery?] using ha.counted
  · have := ha.opened.cons m
    simp only [List.filterMap_append, List.filterMap_cons, List.filterMap_nil, live?, liveEnd?,
      List.append_nil, List.cons_append]
    exact (List.perm_append_singleton m _).trans this
  · exact settled_concat ha.settled fun hl => by cases hl

/-- A live registration ends as its hook call does. -/
theorem close (ha : Account queue (m :: opened) ds seen) (r : Except Failure Unit) :
    Account queue opened (match r with | .ok _ => ds ++ [⟨h, m, .direct⟩] | .error _ => ds)
      (seen ++ [⟨p, .called .direct h m r⟩] ++ [⟨.live k, .registered m true r⟩]) := by
  refine ⟨?_, ?_, ?_, ?_, ?_⟩
  · simpa [List.filterMap_cons, drained?, buffered?] using ha.fifo
  · simpa [List.filterMap_cons, directEnd?, liveEnd?] using ha.direct
  · cases r with
    | ok u => simpa [List.filterMap_cons, delivery?] using ha.counted
    | error f => simpa [List.filterMap_cons, delivery?] using ha.counted
  · have := ha.opened
    simp only [List.filterMap_append, List.filterMap_cons, List.filterMap_nil, live?, liveEnd?,
      List.append_nil, List.map_append, List.map_cons, List.map_nil]
    refine this.trans ?_
    rw [List.cons_append, ← List.append_assoc]
    exact (List.perm_append_singleton m _).symm
  · have hs := settled_concat (x := ⟨p, .called .direct h m r⟩) ha.settled fun hl => by cases hl
    exact settled_concat hs fun _ => ⟨k, rfl⟩

/-- A hook call in a drain returns. -/
theorem deliver (ha : Account (m :: queue) opened ds seen) :
    Account queue opened (ds ++ [⟨h, m, .drain⟩]) (seen ++ [⟨p, .called .drain h m (.ok ())⟩]) := by
  refine ⟨?_, ?_, ?_, ?_, ?_⟩
  · simpa [List.filterMap_cons, drained?, buffered?] using ha.fifo
  · simpa [List.filterMap_cons, directEnd?, liveEnd?] using ha.direct
  · simpa [List.filterMap_cons, delivery?] using ha.counted
  · simpa [List.filterMap_cons, live?, liveEnd?] using ha.opened
  · exact settled_concat ha.settled fun hl => by cases hl

/-- A map is registered while the registry is buffering. -/
theorem buffer (ha : Account queue opened ds seen) {q : List ImplementorMap}
    (r : Except Failure Unit) : Account (queue ++ [m]) opened ds
      (seen ++ [⟨.buffering q, .registering m⟩] ++ [⟨p, .registered m false r⟩]) := by
  refine ⟨?_, ?_, ?_, ?_, ?_⟩
  · simpa [List.filterMap_cons, drained?, buffered?, ← List.append_assoc] using ha.fifo
  · simpa [List.filterMap_cons, directEnd?, liveEnd?] using ha.direct
  · simpa [List.filterMap_cons, delivery?] using ha.counted
  · simpa [List.filterMap_cons, live?, liveEnd?] using ha.opened
  · have hs := settled_concat (x := ⟨.buffering q, .registering m⟩) ha.settled fun hl => by cases hl
    exact settled_concat hs fun hl => by cases hl

end Account

/-! ## While the registry is live -/

/-- The registry is live, and what has been seen adds up. -/
structure Stage.LiveWith (queue opened : List ImplementorMap) (s : Stage η (Watched η ω)) :
    Prop where
  live : ∃ h, s.registry.phase = .live h
  account : Account queue opened s.registry.deliveries s.seen

/-- Work that, begun on a live registry, leaves it live and keeps every account. -/
def Steady (x : Run η (Watched η ω) α) : Prop :=
  ∀ queue opened s, s.LiveWith queue opened → (x.exec s).2.LiveWith queue opened

theorem Stage.LiveWith.sees {queue opened : List ImplementorMap} {s : Stage η (Watched η ω)}
    (hs : s.LiveWith queue opened) (x : Sight η)
    (hx : ∀ h, Account queue opened s.registry.deliveries (s.seen ++ [⟨.live h, x⟩])) :
    (s.sees x).LiveWith queue opened := by
  obtain ⟨h, hp⟩ := hs.live
  refine ⟨⟨h, hp⟩, ?_⟩
  rw [Stage.seen_sees, hp]
  exact hx h

namespace Steady

variable {invoke : Invoke η (Watched η ω)} (hi : ∀ h m, Steady (invoke h m))
include hi

/-- A registration on a live registry opens and closes its own entry; what the hook does in
    between keeps the account with that entry open. -/
theorem registerWatched (m : ImplementorMap) : Steady (registerWatched invoke m) := by
  intro queue opened s hs
  obtain ⟨h, hp⟩ := hs.live
  have hopen : (s.sees (.registering m)).LiveWith queue (m :: opened) := by
    refine ⟨⟨h, hp⟩, ?_⟩
    rw [Stage.seen_sees, hp]
    exact hs.account.open_
  have hcalling := hopen.sees (.calling .direct h m)
    fun _ => hopen.account.skip rfl rfl rfl rfl rfl rfl
  have hcalled := hi h m _ _ _ hcalling
  have hl : s.registry.isLive = true := by simp [Registry.isLive, hp]
  rw [TraitCatalog.registerWatched, exec_watching, hl,
    exec_register_live _ (s.sees (.registering m)) h _ hp, exec_deliver, Invoke.watched,
    exec_watching]
  rcases he : (invoke h m).exec ((s.sees (.registering m)).sees (.calling .direct h m)) with ⟨r, t⟩
  rw [he] at hcalled
  obtain ⟨h', hp'⟩ := hcalled.live
  have hclosed := hcalled.account.close (h := h) (k := h') (p := t.registry.phase) r
  rw [← hp'] at hclosed
  cases r with
  | ok u => exact ⟨⟨h', hp'⟩, hclosed⟩
  | error f => exact ⟨⟨h', hp'⟩, hclosed⟩

omit hi in
/-- An installation on a live registry replaces the hook, and that is all. -/
theorem installWatched (h : η) : Steady (installWatched invoke h) := by
  intro queue opened s hs
  obtain ⟨h', hp⟩ := hs.live
  rw [TraitCatalog.installWatched, exec_watching, exec_install_live _ (s.sees (.installing h)) _ hp]
  refine ⟨⟨h, rfl⟩, ?_⟩
  exact (hs.account.skip rfl rfl rfl rfl rfl rfl).skip rfl rfl rfl rfl rfl rfl

theorem runWatched (p : Plan η ω) : Steady (p.runWatched invoke) := fun queue opened =>
  Run.Keeps.runWatched (fun m => registerWatched hi m queue opened)
    (fun h => installWatched h queue opened) (fun _ _ hs => ⟨hs.live, hs.account⟩)
    (fun _ _ hs => ⟨hs.live, hs.account⟩) p

end Steady

theorem steady_invokeWatched (act : Behaviour β ω) :
    ∀ room h m, Steady (invokeWatched act room h m)
  | room + 2, .logged _ inner, m => fun queue opened =>
    Run.Keeps.bind (fun _ hs => ⟨hs.live, hs.account⟩)
      fun _ => steady_invokeWatched act room inner m queue opened
  | room + 3, .base b, m => Steady.runWatched (steady_invokeWatched act room) (act b m)
  | 0, .logged .., _ | 1, .logged .., _ | 0, .base _, _ | 1, .base _, _ | 2, .base _, _ =>
    fun _ _ _ hs => hs

/-! ## Between requests -/

namespace Stage

/-- What has been seen adds up with the maps that wait; no registration is under way. -/
def Settled (s : Stage η (Watched η ω)) : Prop :=
  Account s.registry.pending [] s.registry.deliveries s.seen

theorem LiveWith.settled {s : Stage η (Watched η ω)} (hs : s.LiveWith [] []) : s.Settled := by
  obtain ⟨h, hp⟩ := hs.live
  have : s.registry.pending = [] := by simp [Registry.pending, hp]
  rw [Settled, this]
  exact hs.account

theorem Settled.liveWith {s : Stage η (Watched η ω)} (hs : s.Settled) {h : η}
    (hp : s.registry.phase = .live h) : s.LiveWith [] [] := by
  have : s.registry.pending = [] := by simp [Registry.pending, hp]
  rw [Settled, this] at hs
  exact ⟨⟨h, hp⟩, hs⟩

end Stage

section
variable {invoke : Invoke η (Watched η ω)} (hi : ∀ h m, Steady (invoke h m))
include hi

/-- A drain takes the account from the maps it was given to the maps that wait after it: none
    if it ends, and those from the failing one on if the hook fails. -/
theorem settled_drain (h : η) : ∀ queue s, s.LiveWith queue [] →
    ((drain (Invoke.watched invoke .drain) h queue).exec s).2.Settled
  | [], s, hs => hs.settled
  | m :: rest, s, hs => by
    have hcalling := hs.sees (.calling .drain h m) fun _ =>
      hs.account.skip rfl rfl rfl rfl rfl rfl
    have hcalled := hi h m _ _ _ hcalling
    rw [exec_drain_cons, exec_deliver, Invoke.watched, exec_watching]
    rcases he : (invoke h m).exec (s.sees (.calling .drain h m)) with ⟨f | u, t⟩ <;>
      rw [he] at hcalled
    · exact hcalled.account.skip rfl rfl rfl rfl rfl rfl
    · exact settled_drain h rest _ ⟨hcalled.live, hcalled.account.deliver⟩

theorem settled_registerWatched (m : ImplementorMap) {s : Stage η (Watched η ω)}
    (hs : s.Settled) : ((registerWatched invoke m).exec s).2.Settled := by
  rcases hp : s.registry.phase with queue | h
  · have hq : s.registry.pending = queue := by simp [Registry.pending, hp]
    have hl : s.registry.isLive = false := by simp [Registry.isLive, hp]
    rw [Stage.Settled, hq] at hs
    rw [registerWatched, exec_watching, hl, exec_register_buffering _ (s.sees (.registering m)) _ hp]
    have := hs.buffer (m := m) (q := queue) (p := .buffering (queue ++ [m])) (.ok ())
    rw [← hp] at this
    exact this
  · exact (Steady.registerWatched hi m [] [] s (hs.liveWith hp)).settled

theorem settled_installWatched (h : η) {s : Stage η (Watched η ω)} (hs : s.Settled) :
    ((installWatched invoke h).exec s).2.Settled := by
  rcases hp : s.registry.phase with queue | h'
  · have hq : s.registry.pending = queue := by simp [Registry.pending, hp]
    rw [Stage.Settled, hq] at hs
    have hd := settled_drain hi h queue ((s.sees (.installing h)).withPhase (.live h))
      ⟨⟨h, rfl⟩, hs.skip rfl rfl rfl rfl rfl rfl⟩
    rw [installWatched, exec_watching, exec_install_buffering _ (s.sees (.installing h)) _ hp]
    rcases he : (drain (Invoke.watched invoke .drain) h queue).exec
      ((s.sees (.installing h)).withPhase (.live h)) with ⟨f | _, t⟩ <;> rw [he] at hd
    · exact hd.skip rfl rfl rfl rfl rfl rfl
    · exact hd.skip rfl rfl rfl rfl rfl rfl
  · exact (Steady.installWatched h [] [] s (hs.liveWith hp)).settled

end

/-- Between requests everything adds up, whatever the hooks do. -/
theorem settled_performWatched (act : Behaviour β ω) (room : Nat) (w : ω)
    (rs : List (Request (Hook β))) : (performWatched act room w rs).Settled := by
  have hi := steady_invokeWatched act room
  exact Run.Keeps.performWatched (fun m _ => settled_registerWatched hi m)
    (fun h _ => settled_installWatched hi h) rs Account.nil

/-! ## The account of a run -/

/-- What becomes of maps: `r` is a registry that no call is in progress on, and `seen` is what
    has been seen of it. -/
structure Conserved (r : Registry η) (seen : List (Sighting η)) : Prop where
  /-- The maps handed over in drains, then those that wait, are the maps that were registered
      while the registry was buffering, in the order of registration. -/
  fifo : seen.filterMap drained? ++ r.pending = seen.filterMap buffered?
  /-- A registration that found the registry live made one hook call, with its own map, and
      ended as that call did; there were no other hook calls outside drains. -/
  direct : seen.filterMap directEnd? = seen.filterMap liveEnd?
  /-- All registrations that found the registry live have ended. -/
  ended : (seen.filterMap live?).Perm ((seen.filterMap liveEnd?).map Prod.fst)
  /-- The registry was still live when they ended. -/
  live : ∀ x ∈ seen, (liveEnd? x).isSome → x.isLive
  /-- The hook calls that returned are counted. -/
  counted : r.deliveredCount = (seen.filterMap delivery?).length
  /-- Every map is handed over, waits, or had found the registry live and failed. -/
  total : (seen.filterMap registration?).Perm
    ((seen.filterMap delivery?).map Delivery.map ++ r.pending ++ seen.filterMap lost?)

/-- A reading that splits into two others, which never both apply. -/
theorem perm_filterMap_append {f g k : α → Option γ}
    (split : ∀ x, g x = none ∧ f x = k x ∨ k x = none ∧ f x = g x) (l : List α) :
    (l.filterMap f).Perm (l.filterMap g ++ l.filterMap k) := by
  induction l with
  | nil => exact .nil
  | cons x l ih =>
    simp only [List.filterMap_cons]
    rcases split x with ⟨hg, hf⟩ | ⟨hk, hf⟩
    · rw [hg, hf]
      rcases k x with _ | c
      · exact ih
      · exact (ih.cons c).trans List.perm_middle.symm
    · rw [hk, hf]
      rcases g x with _ | c
      · exact ih
      · exact ih.cons c

/-- The map of a call that returned. -/
def returned? : ImplementorMap × Except Failure Unit → Option ImplementorMap
  | (m, .ok _) => some m
  | (_, .error _) => none

theorem perm_registrations (seen : List (Sighting η)) : (seen.filterMap registration?).Perm
    (seen.filterMap buffered? ++ seen.filterMap live?) := by
  refine perm_filterMap_append ?_ seen
  rintro ⟨_ | _, _ | _ | _ | _ | _ | _⟩ <;> simp [registration?, buffered?, live?]

theorem perm_liveEnds (seen : List (Sighting η)) : ((seen.filterMap liveEnd?).map Prod.fst).Perm
    ((seen.filterMap liveEnd?).filterMap returned? ++ seen.filterMap lost?) := by
  rw [List.map_filterMap, List.filterMap_filterMap]
  refine perm_filterMap_append ?_ seen
  rintro ⟨_, _ | ⟨_, _ | _, _ | _⟩ | _ | _ | _ | _⟩ <;> simp [liveEnd?, returned?, lost?]

theorem perm_deliveries (seen : List (Sighting η)) :
    ((seen.filterMap delivery?).map Delivery.map).Perm
      (seen.filterMap drained? ++ (seen.filterMap directEnd?).filterMap returned?) := by
  rw [List.map_filterMap, List.filterMap_filterMap]
  refine perm_filterMap_append ?_ seen
  rintro ⟨_, _ | _ | _ | _ | _ | ⟨_ | _, _, _, _ | _⟩⟩ <;>
    simp [delivery?, drained?, directEnd?, returned?]

theorem Stage.Settled.conserved {s : Stage η (Watched η ω)} (hs : s.Settled) :
    Conserved s.registry s.seen := by
  refine ⟨hs.fifo, hs.direct, hs.opened, hs.settled, congrArg List.length hs.counted, ?_⟩
  have hp := perm_deliveries s.seen
  rw [hs.direct] at hp
  calc s.seen.filterMap registration?
    _ ~ s.seen.filterMap buffered? ++ s.seen.filterMap live? := perm_registrations s.seen
    _ = s.seen.filterMap drained? ++ s.registry.pending ++ s.seen.filterMap live? := by rw [hs.fifo]
    _ ~ s.seen.filterMap drained? ++ s.registry.pending ++
          ((s.seen.filterMap liveEnd?).filterMap returned? ++ s.seen.filterMap lost?) :=
      (hs.opened.trans (perm_liveEnds s.seen)).append_left _
    _ ~ s.seen.filterMap drained? ++ (s.seen.filterMap liveEnd?).filterMap returned? ++
          s.registry.pending ++ s.seen.filterMap lost? := by
      simp only [List.append_assoc]
      refine List.Perm.append_left _ ?_
      rw [← List.append_assoc, ← List.append_assoc]
      exact List.perm_append_comm.append_right _
    _ ~ _ := ((hp.symm.append_right _).append_right _)

/-- **No map is lost, doubled or reordered**, whatever the hooks do: the account of any run of
    requests to a fresh registry.  The run is watched, which changes nothing in it. -/
theorem run_conserves_maps (act : Behaviour β ω) (room : Nat) (w : ω)
    (rs : List (Request (Hook β))) :
    (performWatched act room w rs).unwatched = perform act room w rs ∧
    Conserved (perform act room w rs).registry (performWatched act room w rs).seen := by
  have h := performWatched_unwatched act room w rs
  refine ⟨h, ?_⟩
  rw [← h]
  exact (settled_performWatched act room w rs).conserved

end TraitCatalog
