/-
  Catalogs in use.

  Files are loaded, maps are registered and the index is installed, in any order and any number of
  times, whatever the files are at each step and however the steps end.  Which maps a step
  registers does not depend on the state of the registry (`CatalogStep.maps`).

  * `Catalog.Holds`: the state of a catalog that maps have been registered with.  Either all of
    them wait, or the index has taken in all of them;
  * `Catalog.Holds.after`: a step adds its maps;
  * `catalog_run_accounts`: the state after any steps.
-/
import TraitCatalog.Proofs.Loader
import TraitCatalog.Proofs.TraitIndex

namespace TraitCatalog

open Run

/-! ## Steps -/

/-- A call on a catalog.  The files are those of the tree at that moment. -/
inductive CatalogStep where
  | loadFile (tree : FileTree) (path : Text)
  | loadAll (tree : FileTree) (strict : Bool)
  /-- Loads all files, then installs the index. -/
  | loadIndex (tree : FileTree) (strict : Bool)
  | installIndex
  | register (m : ImplementorMap)

namespace CatalogStep

/-- The stage after a step; whether it failed does not matter to the next. -/
def after (c : Catalog) (s : Stage (Hook Unit) TraitIndex) :
    CatalogStep → Stage (Hook Unit) TraitIndex
  | loadFile tree path => ((TraitCatalog.loadFile (call collect) (c.store.source tree) path).exec s).2
  | loadAll tree strict => ((TraitCatalog.loadAll (call collect) (c.store.source tree) strict).exec s).2
  | loadIndex tree strict => ((c.loadIndex (call collect) tree () strict).exec s).2
  | installIndex => ((c.installIndex (call collect) ()).exec s).2
  | register m => ((TraitCatalog.register (call collect) m).exec s).2

/-- The maps that a step registers. -/
def maps (c : Catalog) : CatalogStep → List ImplementorMap
  | loadFile tree path => ((c.store.source tree).verdict path).maps
  | loadAll tree strict => (c.store.source tree).maps strict
  | loadIndex tree strict => (c.store.source tree).maps (strict || c.rules.files.strict)
  | installIndex => []
  | register m => [m]

/-- The step comes to an installation of the index. -/
def installs (c : Catalog) : CatalogStep → Bool
  | loadIndex tree strict => ((c.store.source tree).ending (strict || c.rules.files.strict)).isOk
  | installIndex => true
  | loadFile _ _ | loadAll _ _ | register _ => false

end CatalogStep

/-! ## The state of a catalog -/

/-- The registry and the index of a catalog that the maps `ms` have been registered with, while the
    index is not installed and once it is. -/
inductive Catalog.Holds (c : Catalog) :
    (live : Bool) → Stage (Hook Unit) TraitIndex → (ms : List ImplementorMap) → Prop
  | waiting {s ms} (phase : s.registry.phase = .buffering ms) (world : s.world = .empty)
      (deliveries : s.registry.deliveries = []) : Holds c false s ms
  | installed {s ms} (phase : s.registry.phase = .live (c.indexHook ()))
      (world : s.world = ms.foldl TraitIndex.receive .empty)
      (deliveries : s.registry.deliveries.map Delivery.map = ms) : Holds c true s ms

namespace Catalog

variable {c : Catalog} {live : Bool} {s : Stage (Hook Unit) TraitIndex} {ms : List ImplementorMap}

theorem indexHook_frames (c : Catalog) : (c.indexHook ()).frames ≤ callLimit := by
  change 5 ≤ callLimit
  decide

theorem holds_register (h : c.Holds live s ms) (m : ImplementorMap) :
    ∃ t, exec (register (call collect) m) s = (.ok (), t) ∧ c.Holds live t (ms ++ [m]) := by
  cases h with
  | waiting phase world deliveries =>
    rw [exec_register_buffering _ s _ phase]
    exact ⟨_, rfl, .waiting rfl world deliveries⟩
  | installed phase world deliveries =>
    obtain ⟨es, he⟩ := exec_invoke_collect (indexHook_frames c) m s
    rw [exec_register_live _ s _ _ phase, exec_deliver, call, he]
    refine ⟨_, rfl, .installed phase ?_ ?_⟩
    · rw [List.foldl_append, ← world]
      rfl
    · simp [deliveries]

theorem holds_accepts (c : Catalog) (live : Bool) : Accepts (call collect) (c.Holds live) := by
  refine ⟨fun {s ms} es h => ?_, fun m h => holds_register h m⟩
  cases h with
  | waiting phase world deliveries => exact .waiting phase world deliveries
  | installed phase world deliveries => exact .installed phase world deliveries

theorem holds_install (h : c.Holds live s ms) :
    ∃ t, exec (c.installIndex (call collect) ()) s = (.ok (if live then 0 else ms.length), t) ∧
      c.Holds true t ms := by
  rw [installIndex]
  cases h with
  | waiting phase world deliveries =>
    obtain ⟨t, ht, hp, hd, hw⟩ := exec_drain_collect (indexHook_frames c) ms
      (s.withPhase (.live (c.indexHook ())))
    rw [exec_install_buffering _ s _ phase, ht]
    refine ⟨_, rfl, .installed hp ?_ ?_⟩
    · rw [Stage.world_withNote, hw, Stage.world_withPhase, world]
    · rw [Stage.registry_withNote, hd, Stage.deliveries_withPhase, deliveries]
      rfl
  | installed phase world deliveries =>
    rw [exec_install_live _ s _ phase]
    exact ⟨_, rfl, .installed rfl world deliveries⟩

theorem holds_loadIndex (h : c.Holds live s ms) (tree : FileTree) (strict : Bool) :
    let step := CatalogStep.loadIndex tree strict
    ∃ t, exec (c.loadIndex (call collect) tree () strict) s =
        ((c.store.source tree).ending (strict || c.rules.files.strict), t) ∧
      c.Holds (live || step.installs c) t (ms ++ step.maps c) := by
  intro step
  obtain ⟨t, ht, hl⟩ := (holds_accepts c live).loadAll (c.store.source tree)
    (strict || c.rules.files.strict) h
  rw [loadIndex, loadThenInstall, exec_bind, ht]
  have hi : step.installs c = ((c.store.source tree).ending (strict || c.rules.files.strict)).isOk := rfl
  rw [hi]
  -- The index is installed if the load came to its end, whatever the registry was like.
  rcases (c.store.source tree).ending (strict || c.rules.files.strict) with f | report
  · refine ⟨t, rfl, ?_⟩
    rw [Except.isOk, Except.toBool, Bool.or_false]
    exact hl
  · obtain ⟨u, hu, hl'⟩ := holds_install hl
    refine ⟨u, ?_, ?_⟩
    · dsimp only
      rw [exec_bind]
      rw [installIndex] at hu
      rw [hu]
      rfl
    · rw [Except.isOk, Except.toBool, Bool.or_true]
      exact hl'

/-- A step adds its maps to those that were registered. -/
theorem Holds.after (h : c.Holds live s ms) (step : CatalogStep) :
    c.Holds (live || step.installs c) (step.after c s) (ms ++ step.maps c) := by
  cases step with
  | loadFile tree path =>
    obtain ⟨t, ht, hl⟩ := (holds_accepts c live).loadFile (c.store.source tree) path h
    rw [CatalogStep.after, ht, CatalogStep.installs, Bool.or_false]
    exact hl
  | loadAll tree strict =>
    obtain ⟨t, ht, hl⟩ := (holds_accepts c live).loadAll (c.store.source tree) strict h
    rw [CatalogStep.after, ht, CatalogStep.installs, Bool.or_false]
    exact hl
  | loadIndex tree strict =>
    obtain ⟨t, ht, hl⟩ := holds_loadIndex h tree strict
    rw [CatalogStep.after, ht]
    exact hl
  | installIndex =>
    obtain ⟨t, ht, hl⟩ := holds_install h
    rw [CatalogStep.after, ht, CatalogStep.installs, Bool.or_true, CatalogStep.maps, List.append_nil]
    exact hl
  | register m =>
    obtain ⟨t, ht, hl⟩ := holds_register h m
    rw [CatalogStep.after, ht, CatalogStep.installs, Bool.or_false]
    exact hl

theorem Holds.run : ∀ (steps : List CatalogStep) {live : Bool} {s : Stage (Hook Unit) TraitIndex}
    {ms : List ImplementorMap}, c.Holds live s ms →
    c.Holds (live || steps.any (·.installs c)) (steps.foldl (CatalogStep.after c) s)
      (ms ++ steps.flatMap (·.maps c))
  | [], live, s, ms, h => by
    rw [List.any_nil, Bool.or_false, List.flatMap_nil, List.append_nil]
    exact h
  | step :: steps, live, s, ms, h => by
    have hr := Holds.run steps (h.after step)
    rw [Bool.or_assoc, List.append_assoc] at hr
    exact hr

/-! ## What can be seen of the state -/

theorem Holds.isLive (h : c.Holds live s ms) : s.registry.isLive = live := by
  cases h with
  | waiting phase => rw [Registry.isLive, phase]
  | installed phase => rw [Registry.isLive, phase]

theorem Holds.waiting_accounts (h : c.Holds false s ms) : s.world = .empty ∧ s.registry.pending = ms ∧
    s.registry.deliveredCount = 0 := by
  cases h with
  | waiting phase world deliveries =>
    refine ⟨world, ?_, ?_⟩
    · rw [Registry.pending, phase]
    · rw [Registry.deliveredCount, deliveries]
      rfl

theorem Holds.installed_accounts (h : c.Holds true s ms) : s.registry.pending = [] ∧
    s.registry.deliveries.map Delivery.map = ms ∧ s.world.deliveries = ms.length ∧
    ∀ t, s.world.implementorsOf t = ms.flatMap (·.descriptorsOf t) := by
  cases h with
  | installed phase world deliveries =>
    refine ⟨?_, deliveries, ?_, fun t => ?_⟩
    · rw [Registry.pending, phase]
    · rw [world, TraitIndex.deliveries_foldl_receive]
      exact Nat.zero_add _
    · rw [world, TraitIndex.implementorsOf_foldl_receive]
      rfl

end Catalog

/-- **The registry and the index of a catalog agree with the maps that have been registered**, after
    any steps.  The registry is live once a step came to an installation.  Until then all maps wait
    and the index is empty; afterwards no map waits, the index has taken in every map once, and a
    trait has the descriptors of all maps, in the order of registration.  In particular a load that
    fails before the first installation leaves the maps of its earlier files waiting, and the next
    installation hands over exactly the maps that wait. -/
theorem catalog_run_accounts (c : Catalog) (steps : List CatalogStep) :
    let s := steps.foldl (CatalogStep.after c) (.fresh .empty)
    let ms := steps.flatMap (·.maps c)
    s.registry.isLive = steps.any (·.installs c) ∧
    (s.registry.isLive = false →
      s.world = .empty ∧ s.registry.pending = ms ∧ s.registry.deliveredCount = 0) ∧
    (s.registry.isLive = true →
      s.registry.pending = [] ∧ s.registry.deliveries.map Delivery.map = ms ∧
      s.registry.deliveredCount = ms.length ∧ s.world.deliveries = ms.length ∧
      ∀ t, s.world.implementorsOf t = ms.flatMap (·.descriptorsOf t)) ∧
    ∀ tree strict f, s.registry.isLive = false →
      ((c.loadIndex (call collect) tree () strict).exec s).1 = .error f →
      let u := ((c.loadIndex (call collect) tree () strict).exec s).2
      let waiting := ms ++ (CatalogStep.loadIndex tree strict).maps c
      let v := (c.installIndex (call collect) ()).exec u
      u.registry.isLive = false ∧ u.world = .empty ∧ u.registry.pending = waiting ∧
      v.1 = .ok waiting.length ∧ v.2.registry.isLive = true ∧
      v.2.registry.deliveries.map Delivery.map = waiting := by
  intro s ms
  have hstart : c.Holds false (.fresh .empty) [] := .waiting rfl rfl rfl
  have hs : c.Holds (steps.any (·.installs c)) s ms := hstart.run steps
  rw [hs.isLive]
  refine ⟨rfl, fun hl => ?_, fun hl => ?_, fun tree strict f hl hf => ?_⟩ <;> rw [hl] at hs
  · exact hs.waiting_accounts
  · obtain ⟨hp, hd, hw, ht⟩ := hs.installed_accounts
    refine ⟨hp, hd, ?_, hw, ht⟩
    rw [Registry.deliveredCount, ← hd, List.length_map]
  · obtain ⟨t, ht, hu⟩ := Catalog.holds_loadIndex hs tree strict
    rw [ht] at hf ⊢
    dsimp only at hf ⊢
    rw [CatalogStep.installs, hf] at hu
    obtain ⟨hw, hp, -⟩ := hu.waiting_accounts
    obtain ⟨v, hv, hv'⟩ := Catalog.holds_install hu
    rw [hv]
    exact ⟨hu.isLive, hw, hp, rfl, hv'.isLive, hv'.installed_accounts.2.1⟩

end TraitCatalog
