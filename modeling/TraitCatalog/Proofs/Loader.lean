/-
  Loading files without faults.

  When every listed file can be read and has no faults, loading registers all of them, in the
  order of the list, and the index then takes in their maps in the same order.  Maps of different
  traits stand in the index side by side (`entries_foldl_receive`).

  * `exec_loadThenInstall_of_ending`: loading on a fresh stage, then installing the index;
  * `exec_loadThenInstall`: the whole of it, when no file has faults.
-/
import TraitCatalog.Proofs.LoadOutcome
import TraitCatalog.Proofs.OrderedMap

namespace TraitCatalog

open Run

variable {η β ω : Type}

/-! ## Buffering -/

/-- A file at a path that is read as the data file `d`. -/
def Source.Reads (source : Source) (path : Text) (d : DataFile) : Prop :=
  ∃ text, source.read path = .ok text ∧ DataFile.readAt text path = .ok (.ok d)

namespace Source

variable {source : Source}

theorem Reads.verdict {path : Text} {d : DataFile} (h : source.Reads path d) :
    source.verdict path = .taken d := by
  obtain ⟨text, ht, hd⟩ := h
  rw [Source.verdict, ht]
  dsimp only
  rw [hd]

theorem report_reads (strict : Bool) : ∀ {files : List (Text × DataFile)} (r : LoadReport),
    (∀ f ∈ files, source.Reads f.1 f.2) → source.report strict r (files.map Prod.fst) =
      .ok ⟨r.registered ++ files.map Prod.fst, r.failures⟩
  | [], r, _ => by
    rw [List.map_nil, List.append_nil]
    rfl
  | f :: files, r, h => by
    obtain ⟨hf, hfs⟩ := List.forall_mem_cons.1 h
    rw [List.map_cons, report, hf.verdict]
    dsimp only
    rw [report_reads strict _ hfs, List.append_assoc]
    rfl

theorem taken_reads (strict : Bool) : ∀ {files : List (Text × DataFile)},
    (∀ f ∈ files, source.Reads f.1 f.2) →
    source.taken strict (files.map Prod.fst) = files.map Prod.snd
  | [], _ => rfl
  | f :: files, h => by
    obtain ⟨hf, hfs⟩ := List.forall_mem_cons.1 h
    rw [List.map_cons, taken, hf.verdict]
    dsimp only
    rw [taken_reads strict hfs]
    rfl

end Source

/-- A stage with a registry that is buffering; the world stays as it is. -/
def Stage.Waiting (queue : List ImplementorMap) (w : ω) (s : Stage η ω) (ms : List ImplementorMap) :
    Prop :=
  s.registry.phase = .buffering (queue ++ ms) ∧ s.world = w

theorem Stage.waiting_accepts (invoke : Invoke η ω) (queue : List ImplementorMap) (w : ω) :
    Accepts invoke (Stage.Waiting queue w) := by
  refine ⟨fun _ h => h, fun {s ms} m h => ?_⟩
  rw [exec_register_buffering invoke s m h.1]
  refine ⟨_, rfl, ?_, h.2⟩
  rw [Stage.registry_withNote, Stage.phase_withPhase, List.append_assoc]

/-! ## The index -/

/-- The hook of a catalog, wrapped or not, hands a map to the index, and may note that before. -/
theorem exec_invoke_collect {room : Nat} {h : Hook Unit} (hroom : h.frames ≤ room)
    (m : ImplementorMap) (s : Stage (Hook Unit) TraitIndex) :
    ∃ es, exec (invoke collect room h m) s =
      (.ok (), (s.withNotes es).withWorld (s.world.receive m)) := by
  obtain ⟨left, rfl⟩ := Nat.exists_eq_add_of_le' hroom
  clear hroom
  induction h generalizing s with
  | base b =>
    refine ⟨[], ?_⟩
    rw [Stage.withNotes_nil]
    rfl
  | logged enabled inner ih =>
    obtain ⟨es, he⟩ := ih (s.withNotes (if enabled then m.announcements else []))
    rw [Stage.withNotes_withNotes] at he
    exact ⟨_, he⟩

/-- A drain into the index ends, and the index has taken in all maps in order. -/
theorem exec_drain_collect {h : Hook Unit} (hroom : h.frames ≤ callLimit) :
    ∀ (queue : List ImplementorMap) (s : Stage (Hook Unit) TraitIndex),
    ∃ t, exec (drain (call collect) h queue) s = (.ok (), t) ∧
      t.registry.phase = s.registry.phase ∧
      t.registry.deliveries.map Delivery.map = s.registry.deliveries.map Delivery.map ++ queue ∧
      t.world = queue.foldl TraitIndex.receive s.world
  | [], s => ⟨s, rfl, rfl, by rw [List.append_nil], rfl⟩
  | m :: rest, s => by
    obtain ⟨es, he⟩ := exec_invoke_collect hroom m s
    obtain ⟨t, ht, hp, hd, hw⟩ := exec_drain_collect hroom rest
      (((s.withNotes es).withWorld (s.world.receive m)).withDelivery ⟨h, m, .drain⟩)
    refine ⟨t, ?_, hp, ?_, hw⟩
    · rw [exec_drain_cons, exec_deliver, call, he]
      exact ht
    · rw [hd]
      simp

/-- Maps of new traits are added to an index one after the other. -/
theorem entries_foldl_receive : ∀ {ds : List DataFile} {ix : TraitIndex},
    (ix.index.keys ++ ds.map DataFile.traitPath).Nodup →
    ((ds.map DataFile.toMap).foldl TraitIndex.receive ix).index.entries =
      ix.index.entries ++ ds.map fun d => (d.traitPath, d.descriptors)
  | [], ix, _ => by simp
  | d :: ds, ix, h => by
    have hk : d.traitPath ∉ ix.index.keys := by
      intro hm
      rw [List.map_cons, List.nodup_append] at h
      exact h.2.2 _ hm _ (List.mem_cons_self ..) rfl
    have hget : ix.index.get? d.traitPath = none := OrderedMap.lookup_eq_none hk
    have hr : (ix.receive d.toMap).index.entries =
        ix.index.entries ++ [(d.traitPath, d.descriptors)] := by
      change (TraitIndex.extend ix.index d.traitPath d.descriptors).entries = _
      rw [TraitIndex.extend, OrderedMap.entries_put hk, hget]
      rfl
    have hkeys : (ix.receive d.toMap).index.keys = ix.index.keys ++ [d.traitPath] := by
      rw [OrderedMap.keys, hr, List.map_append]
      rfl
    rw [List.map_cons, List.foldl_cons, entries_foldl_receive, hr, List.append_assoc]
    · rfl
    · rw [hkeys, List.append_assoc]
      exact h

/-! ## Loading, then installing -/

/-- When a load ends with a report, the index has taken in the maps of all files that were
    registered, in order. -/
theorem exec_loadThenInstall_of_ending {source : Source} {strict : Bool} {r : LoadReport}
    {h : Hook Unit} (hroom : h.frames ≤ callLimit) (he : source.ending strict = .ok r) :
    ∃ t, exec (loadThenInstall (call collect) source strict h) (.fresh .empty) = (.ok r, t) ∧
      t.world = (source.maps strict).foldl TraitIndex.receive .empty := by
  have hempty : Stage.Waiting [] .empty (.fresh .empty : Stage (Hook Unit) TraitIndex) [] := ⟨rfl, rfl⟩
  obtain ⟨t, ht, hp, hworld⟩ := (Stage.waiting_accepts (call collect) [] .empty).loadAll source strict
    hempty
  rw [he] at ht
  rw [List.nil_append, List.nil_append] at hp
  obtain ⟨u, hu, -, -, hw⟩ := exec_drain_collect hroom (source.maps strict) (t.withPhase (.live h))
  refine ⟨u.withNote (.hookInstalled (source.maps strict).length), ?_, ?_⟩
  · rw [loadThenInstall, exec_bind, ht]
    dsimp only
    rw [exec_bind, exec_install_buffering _ t _ hp, hu]
    rfl
  · rw [Stage.world_withNote, hw, Stage.world_withPhase, hworld]

/-- A catalog whose files can all be read and have no faults, on a fresh stage. -/
theorem exec_loadThenInstall {source : Source} (strict enabled : Bool)
    {files : List (Text × DataFile)} {events : List LogEvent}
    (hl : source.list = .ok (files.map Prod.fst, events)) (h : ∀ f ∈ files, source.Reads f.1 f.2) :
    ∃ t, exec (loadThenInstall (call collect) source strict (.logged enabled (.base ())))
        (.fresh .empty) = (.ok ⟨files.map Prod.fst, []⟩, t) ∧
      t.world = (files.map (·.2.toMap)).foldl TraitIndex.receive .empty := by
  have hending : source.ending strict = .ok ⟨files.map Prod.fst, []⟩ := by
    rw [Source.ending, hl]
    exact Source.report_reads strict ⟨[], []⟩ h
  have hmaps : source.maps strict = files.map (·.2.toMap) := by
    rw [Source.maps, hl]
    dsimp only
    rw [Source.taken_reads strict h, List.map_map]
    rfl
  rw [← hmaps]
  exact exec_loadThenInstall_of_ending (h := .logged enabled (.base ())) (by decide +revert) hending

end TraitCatalog
