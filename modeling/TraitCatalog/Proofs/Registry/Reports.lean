/-
  What the entry points of a registry report.

  `registerReporting` looks at the registry before a registration and after it, `installReporting`
  before an installation, and in between hooks may do what they like.  A report is `Truthful` if it
  agrees with what was seen of the call in a watched run.

  * `exec_registerReporting`, `exec_installReporting`: a report comes with the call itself;
  * `seen_registerWatched_live`: all that is seen of a registration on a live registry lies between
    the call of its hook and the end of that call;
  * `prefix_drained`: an installation that returns has handed over all maps that waited;
  * `entry_points_truthful`: after any run of requests the reports are truthful.
-/
import TraitCatalog.Proofs.Registry.Routing

namespace TraitCatalog

open Run Sighting

variable {η β ω : Type}

/-! ## Reports -/

section
variable (invoke : Invoke η ω) (s : Stage η ω)

theorem exec_registerReporting (m : ImplementorMap) : exec (registerReporting invoke m) s =
    match exec (register invoke m) s with
    | (.ok (), t) => (.ok ⟨s.registry.isLive, t.registry.pending.length⟩, t)
    | (.error f, t) => (.error f, t) := by
  rw [registerReporting, exec_bind, exec_get]
  dsimp only
  rw [exec_bind]
  rcases exec (register invoke m) s with ⟨_ | _, t⟩ <;> rfl

theorem exec_installReporting (h : η) : exec (installReporting invoke h) s =
    match exec (install invoke h) s with
    | (.ok n, t) => (.ok ⟨n, s.registry.isLive⟩, t)
    | (.error f, t) => (.error f, t) := by
  rw [installReporting, exec_bind, exec_get]
  dsimp only
  rw [exec_bind]
  rcases exec (install invoke h) s with ⟨_ | _, t⟩ <;> rfl

end

/-- The report on a registration of `m` agrees with the registry before it and with what was seen
    of it. -/
structure RegisterReport.Truthful (r : RegisterReport) (before : Registry η) (m : ImplementorMap)
    (seen : List (Sighting η)) : Prop where
  delivered : r.delivered = before.isLive
  /-- On a live registry the map was handed to the hook, and this call returned; the registry was
      still live then. -/
  live : ∀ h, before.phase = .live h → r.pending = 0 ∧ ∃ k inner,
    seen = ⟨.live h, .registering m⟩ :: ⟨.live h, .calling .direct h m⟩ :: inner ++
      [⟨.live k, .called .direct h m (.ok ())⟩, ⟨.live k, .registered m true (.ok ())⟩]
  /-- Otherwise one map more waits, and no hook was called. -/
  buffering : before.isLive = false →
    r.pending = before.pending.length + 1 ∧ seen.filterMap call? = []

/-- The report on an installation agrees with the registry before and after it and with what was
    seen of it. -/
structure InstallReport.Truthful (r : InstallReport) (before after : Registry η)
    (seen : List (Sighting η)) : Prop where
  drained : r.drained = before.pending.length
  replaced : r.replaced = before.isLive
  /-- On a live registry nothing was drained, and no hook was called. -/
  live : before.isLive = true → r.drained = 0 ∧ seen.filterMap call? = []
  /-- All maps that waited were handed over, in their order. -/
  handed : before.pending <+: seen.filterMap drained?
  counted : before.deliveredCount + r.drained ≤ after.deliveredCount

/-! ## What is seen of a call -/

section
variable {invoke : Invoke η (Watched η ω)} {s : Stage η (Watched η ω)}

variable (invoke) in
theorem seen_registerWatched_buffering {queue : List ImplementorMap} (m : ImplementorMap)
    (hp : s.registry.phase = .buffering queue) :
    let t := ((registerWatched invoke m).exec s).2
    t.registry.pending.length = queue.length + 1 ∧
      t.seen = s.seen ++ [⟨.buffering queue, .registering m⟩,
        ⟨.buffering (queue ++ [m]), .registered m false (.ok ())⟩] := by
  have hl : s.registry.isLive = false := by simp [Registry.isLive, hp]
  rw [registerWatched, exec_watching, hl, exec_register_buffering _ (s.sees (.registering m)) _ hp]
  constructor
  · simp [Registry.pending]
  · simp [hp]

/-- Hooks add to what has been seen, and leave the registry live, so that what is seen of a live
    registration lies between its hook call and the end of it. -/
theorem seen_registerWatched_live {d : Option η} {n : Nat} {h : η} (m : ImplementorMap)
    (hl : ∀ h m, Level (invoke h m)) (hg : ∀ h m, Growing (invoke h m)) (hs : s.LiveIn d n)
    (hp : s.registry.phase = .live h) :
    let r := ((registerWatched invoke m).exec s).1
    ∃ k inner, ((registerWatched invoke m).exec s).2.seen = s.seen ++
      (⟨.live h, .registering m⟩ :: ⟨.live h, .calling .direct h m⟩ :: inner ++
        [⟨.live k, .called .direct h m r⟩, ⟨.live k, .registered m true r⟩]) := by
  have hopen : (s.sees (.registering m)).LiveIn d (n + 1) := hs.sees fun k => .registering d k n m
  have hcalling : ((s.sees (.registering m)).sees (.calling .direct h m)).LiveIn d (n + 2) := by
    obtain ⟨k, hk, hc⟩ := hopen
    obtain rfl : h = k := Phase.live.inj (hp.symm.trans hk)
    refine ⟨h, hp, ?_⟩
    rw [Stage.seen_sees, Stage.registry_sees, hp]
    exact hc.next (.calling d h (n + 1) m)
  have hcalled := hl h m _ _ _ hcalling
  have hgrown := (hg h m ((s.sees (.registering m)).sees (.calling .direct h m))).seen
  have hlive : s.registry.isLive = true := by simp [Registry.isLive, hp]
  rw [registerWatched, exec_watching, hlive, exec_register_live _ (s.sees (.registering m)) h _ hp,
    exec_deliver, Invoke.watched, exec_watching]
  rcases he : (invoke h m).exec ((s.sees (.registering m)).sees (.calling .direct h m)) with ⟨r, t⟩
  rw [he] at hcalled hgrown
  obtain ⟨k, hk, -⟩ := hcalled
  have hphase : t.registry.phase = .live k := hk
  obtain ⟨inner, hinner⟩ := hgrown
  have hseen : t.seen = s.seen ++ (⟨.live h, .registering m⟩ :: ⟨.live h, .calling .direct h m⟩ ::
      inner) := by
    rw [← hinner]
    simp [hp]
  refine ⟨k, inner, ?_⟩
  cases r with
  | ok u => simp [hseen, hphase]
  | error f => simp [hseen, hphase]

variable (invoke) in
theorem seen_installWatched_live (h : η) {k : η} (hp : s.registry.phase = .live k) :
    ((installWatched invoke h).exec s).1 = .ok 0 ∧
      ((installWatched invoke h).exec s).2.seen = s.seen ++
        [⟨.live k, .installing h⟩, ⟨.live h, .installed h true (.ok 0)⟩] := by
  have hl : s.registry.isLive = true := by simp [Registry.isLive, hp]
  rw [installWatched, exec_watching, hl, exec_install_live _ (s.sees (.installing h)) _ hp]
  exact ⟨rfl, by simp [hp]⟩

/-- An installation that returns gives the number of maps that waited. -/
theorem installWatched_eq_ok {h : η} {n : Nat}
    (hn : ((installWatched invoke h).exec s).1 = .ok n) : n = s.registry.pending.length := by
  rcases hp : s.registry.phase with queue | k
  · rw [installWatched, exec_watching, exec_install_buffering _ (s.sees (.installing h)) _ hp] at hn
    rcases hd : (drain (Invoke.watched invoke .drain) h queue).exec
        ((s.sees (.installing h)).withPhase (.live h)) with ⟨f | _, t⟩ <;> rw [hd] at hn
    · cases hn
    · cases hn
      rw [Registry.pending, hp]
  · rw [(seen_installWatched_live invoke h hp).1] at hn
    cases hn
    rw [Registry.pending, hp]
    rfl

end

/-! ## Maps that waited -/

/-- Between two stages where everything adds up, the maps that waited on the first have been handed
    over, if none wait on the second. -/
theorem prefix_drained {s t : Stage η (Watched η ω)} {new : List (Sighting η)} (hs : s.Settled)
    (ht : t.Settled) (hseen : t.seen = s.seen ++ new) (hp : t.registry.pending = []) :
    s.registry.pending <+: new.filterMap drained? := by
  have hfifo := ht.fifo
  rw [hp, List.append_nil, hseen, List.filterMap_append, List.filterMap_append, ← hs.fifo,
    List.append_assoc] at hfifo
  exact ⟨_, (List.append_cancel_left hfifo).symm⟩

theorem length_drained_le (seen : List (Sighting η)) :
    (seen.filterMap drained?).length ≤ (seen.filterMap delivery?).length := by
  have hmap := (perm_deliveries seen).length_eq
  rw [List.length_map, List.length_append] at hmap
  omega

/-- The hook calls that were seen to return since an earlier stage have been counted. -/
theorem deliveredCount_eq {s t : Stage η (Watched η ω)} {new : List (Sighting η)} (hs : s.Settled)
    (ht : t.Settled) (hseen : t.seen = s.seen ++ new) : t.registry.deliveredCount =
      s.registry.deliveredCount + (new.filterMap delivery?).length := by
  rw [Registry.deliveredCount, ht.counted, hseen, List.filterMap_append, List.length_append,
    ← hs.counted]
  rfl

/-! ## After a run -/

section
variable (act : Behaviour β ω) (room : Nat) (w : ω) (rs : List (Request (Hook β)))

theorem exec_register_perform (m : ImplementorMap) :
    (register (invoke act room) m).exec (perform act room w rs) =
      (((registerWatched (invokeWatched act room) m).exec (performWatched act room w rs)).1,
        perform act room w (rs ++ [.register m])) := by
  have hm := Mirrors.registerWatched (mirrors_invokeWatched act room) m (performWatched act room w rs)
  rw [performWatched_unwatched] at hm
  have hresult := congrArg Prod.fst hm
  have hperform : perform act room w (rs ++ [.register m]) =
      ((register (invoke act room) m).exec (perform act room w rs)).2 := by
    rw [perform, List.foldl_append]
    rfl
  rw [hperform]
  exact Prod.ext hresult rfl

theorem exec_install_perform (h : Hook β) :
    (install (invoke act room) h).exec (perform act room w rs) =
      (((installWatched (invokeWatched act room) h).exec (performWatched act room w rs)).1,
        perform act room w (rs ++ [.install h])) := by
  have hm := Mirrors.installWatched (mirrors_invokeWatched act room) h (performWatched act room w rs)
  rw [performWatched_unwatched] at hm
  have hresult := congrArg Prod.fst hm
  have hperform : perform act room w (rs ++ [.install h]) =
      ((install (invoke act room) h).exec (perform act room w rs)).2 := by
    rw [perform, List.foldl_append]
    rfl
  rw [hperform]
  exact Prod.ext hresult rfl

theorem performWatched_concat (r : Request (Hook β)) : performWatched act room w (rs ++ [r]) =
    r.performWatched (invokeWatched act room) (performWatched act room w rs) := by
  rw [performWatched, List.foldl_append]
  rfl

theorem registry_performWatched :
    (performWatched act room w rs).registry = (perform act room w rs).registry := by
  rw [← performWatched_unwatched]
  rfl

/-- A registration that returns on a live registry leaves it live, and nothing waits. -/
theorem register_truthful_live {m : ImplementorMap} {h : Hook β}
    (hp : (performWatched act room w rs).registry.phase = .live h)
    (hr : ((registerWatched (invokeWatched act room) m).exec (performWatched act room w rs)).1 =
      .ok ()) : ∃ new, (performWatched act room w (rs ++ [.register m])).seen =
        (performWatched act room w rs).seen ++ new ∧
      (RegisterReport.mk true
        (perform act room w (rs ++ [.register m])).registry.pending.length).Truthful
        (performWatched act room w rs).registry m new := by
  have hi := level_invokeWatched act room
  have hlive : (performWatched act room w rs).LiveIn none 0 := by
    obtain ⟨⟨queue, hq⟩, -⟩ | hl := rests_performWatched act room w rs
    · rw [hp] at hq
      cases hq
    · exact hl
  obtain ⟨k, inner, hseen⟩ :=
    seen_registerWatched_live m hi (growing_invokeWatched act room) hlive hp
  have hafter : (performWatched act room w (rs ++ [.register m])).LiveIn none 0 := by
    rw [performWatched_concat]
    exact Level.registerWatched hi m _ _ _ hlive
  obtain ⟨k', hk', -⟩ := hafter
  rw [hr] at hseen
  refine ⟨_, by rw [performWatched_concat]; exact hseen, ?_, fun h' hp' => ?_, fun hl => ?_⟩
  · simp [Registry.isLive, hp]
  · obtain rfl : h = h' := Phase.live.inj (hp.symm.trans hp')
    refine ⟨?_, k, inner, rfl⟩
    rw [← registry_performWatched, Registry.pending, hk']
    rfl
  · simp [Registry.isLive, hp] at hl

theorem register_truthful_buffering {m : ImplementorMap} {queue : List ImplementorMap}
    (hp : (performWatched act room w rs).registry.phase = .buffering queue) :
    ∃ new, (performWatched act room w (rs ++ [.register m])).seen =
        (performWatched act room w rs).seen ++ new ∧
      (RegisterReport.mk false
        (perform act room w (rs ++ [.register m])).registry.pending.length).Truthful
        (performWatched act room w rs).registry m new := by
  obtain ⟨hlen, hseen⟩ := seen_registerWatched_buffering (invokeWatched act room) m hp
  refine ⟨_, by rw [performWatched_concat]; exact hseen, ?_, fun h hp' => ?_, fun _ => ⟨?_, ?_⟩⟩
  · simp [Registry.isLive, hp]
  · rw [hp] at hp'
    cases hp'
  · have hpending : (performWatched act room w rs).registry.pending = queue := by
      simp [Registry.pending, hp]
    rw [← registry_performWatched, performWatched_concat, hpending]
    exact hlen
  · simp [call?, Sight.call?]

theorem install_truthful {h : Hook β} {n : Nat}
    (hn : ((installWatched (invokeWatched act room) h).exec (performWatched act room w rs)).1 =
      .ok n) : ∃ new, (performWatched act room w (rs ++ [.install h])).seen =
        (performWatched act room w rs).seen ++ new ∧
      (InstallReport.mk n (performWatched act room w rs).registry.isLive).Truthful
        (performWatched act room w rs).registry
        (performWatched act room w (rs ++ [.install h])).registry new := by
  have hi := level_invokeWatched act room
  obtain ⟨new, hnew⟩ := seen_performWatched_append act room w rs [.install h]
  have hdrained := installWatched_eq_ok hn
  have hs := settled_performWatched act room w rs
  have ht := settled_performWatched act room w (rs ++ [.install h])
  have hpending : (performWatched act room w (rs ++ [.install h])).registry.pending = [] := by
    rw [performWatched_concat]
    obtain ⟨k, hk, -⟩ := (rests_installWatched hi h (rests_performWatched act room w rs)).2 n hn
    exact congrArg (fun p => Registry.pending ⟨p, []⟩) hk
  have hhanded := prefix_drained hs ht hnew.symm hpending
  refine ⟨new, hnew.symm, hdrained, rfl, fun hl => ?_, hhanded, ?_⟩
  · rcases hp : (performWatched act room w rs).registry.phase with queue | k
    · simp [Registry.isLive, hp] at hl
    · have hseen := (seen_installWatched_live (invokeWatched act room) h hp).2
      rw [performWatched_concat] at hnew
      obtain rfl := List.append_cancel_left (hnew.trans hseen)
      refine ⟨?_, by simp [call?, Sight.call?]⟩
      rw [hdrained, Registry.pending, hp]
      rfl
  · rw [deliveredCount_eq hs ht hnew.symm, hdrained]
    have hle := hhanded.length_le
    have hle' := length_drained_le new
    dsimp only
    omega

/-- **The entry points report what happened**, whatever the hooks do.  After any run of requests to a
    fresh registry, a registration that returns, or an installation that does, leaves the stage of
    the same request without a report, and its report agrees with what is seen of that request.
    The run is watched, which changes nothing in it. -/
theorem entry_points_truthful :
    (∀ rs, (performWatched act room w rs).unwatched = perform act room w rs) ∧
    (∀ m report t,
      exec (registerReporting (invoke act room) m) (perform act room w rs) = (.ok report, t) →
      t = perform act room w (rs ++ [.register m]) ∧
      ∃ new, (performWatched act room w (rs ++ [.register m])).seen =
          (performWatched act room w rs).seen ++ new ∧
        report.Truthful (perform act room w rs).registry m new) ∧
    (∀ h report t,
      exec (installReporting (invoke act room) h) (perform act room w rs) = (.ok report, t) →
      t = perform act room w (rs ++ [.install h]) ∧
      ∃ new, (performWatched act room w (rs ++ [.install h])).seen =
          (performWatched act room w rs).seen ++ new ∧
        report.Truthful (perform act room w rs).registry t.registry new) := by
  refine ⟨performWatched_unwatched act room w, fun m report t h => ?register,
    fun k report t h => ?install⟩
  case register =>
    rw [exec_registerReporting, exec_register_perform] at h
    rcases hr : ((registerWatched (invokeWatched act room) m).exec (performWatched act room w rs)).1
      with f | _ <;> rw [hr] at h <;> cases h
    refine ⟨rfl, ?_⟩
    rw [← registry_performWatched act room w rs]
    rcases hp : (performWatched act room w rs).registry.phase with queue | k
    · have hl : (performWatched act room w rs).registry.isLive = false := by simp [Registry.isLive, hp]
      rw [hl]
      exact register_truthful_buffering act room w rs hp
    · have hl : (performWatched act room w rs).registry.isLive = true := by simp [Registry.isLive, hp]
      rw [hl]
      exact register_truthful_live act room w rs hp hr
  case install =>
    rw [exec_installReporting, exec_install_perform] at h
    rcases hn : ((installWatched (invokeWatched act room) k).exec (performWatched act room w rs)).1
      with f | n <;> rw [hn] at h <;> cases h
    refine ⟨rfl, ?_⟩
    rw [← registry_performWatched act room w rs, ← registry_performWatched]
    exact install_truthful act room w rs hn

end

open Text (lit)

/-- A registry whose first hook is replaced by its own doing while two maps are drained. -/
theorem entry_points_truthful_successor :
    let a : ImplementorMap := .single (lit "A") []
    let b : ImplementorMap := .single (lit "B") []
    let first : Hook Nat := .base 0
    let waiting := [.register a, .register b]
    let live := [.register a, .register b, .install first]
    let s := perform Workshop.act 6 successorWorkshop waiting
    let t := perform Workshop.act 6 successorWorkshop live
    (exec (installReporting (invoke Workshop.act 6) first) s).1 = .ok ⟨2, false⟩ ∧
    s.registry.deliveredCount + 2 ≤ t.registry.deliveredCount ∧
    (exec (registerReporting (invoke Workshop.act 6) b) t).1 = .ok ⟨true, 0⟩ ∧
    ∃ new, (performWatched Workshop.act 6 successorWorkshop (live ++ [.register b])).seen =
        (performWatched Workshop.act 6 successorWorkshop live).seen ++ new ∧
      (RegisterReport.mk true 0).Truthful t.registry b new := by
  intro a b first waiting live s t
  let installed := exec (installReporting (invoke Workshop.act 6) first) s
  let registered := exec (registerReporting (invoke Workshop.act 6) b) t
  have hinstall : installed.1 = .ok ⟨2, false⟩ := by decide +kernel
  have hregister : registered.1 = .ok ⟨true, 0⟩ := by decide +kernel
  have hi : installed = (.ok ⟨2, false⟩, installed.2) := by rw [← hinstall]
  have hr : registered = (.ok ⟨true, 0⟩, registered.2) := by rw [← hregister]
  obtain ⟨-, -, hreports⟩ := entry_points_truthful Workshop.act 6 successorWorkshop waiting
  obtain ⟨ht, new, -, hinstalled⟩ := hreports first _ _ hi
  obtain ⟨-, hreports, -⟩ := entry_points_truthful Workshop.act 6 successorWorkshop live
  obtain ⟨-, hregistered⟩ := hreports b _ _ hr
  have hcounted := hinstalled.counted
  rw [ht] at hcounted
  exact ⟨hinstall, hcounted, hregister, hregistered⟩

end TraitCatalog
