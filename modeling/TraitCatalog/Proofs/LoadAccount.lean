/-
  What a load registers and reports.

  A load that is not strict accounts for every listed file once.  A file that is taken is
  registered by one call, with its own map; a file that is skipped is reported with its faults,
  and nothing is registered for it.

  * `Source.Judges`: a file that a load takes or skips;
  * `Stage.Registers`: the maps that were registered between two stages, one call for each;
  * `Invoke.Quiet`: hooks that return and do not touch the registry;
  * `load_accounts`: the account of a load of all files.
-/
import Mathlib.Data.List.Basic
import Mathlib.Data.List.Forall2
import TraitCatalog.Proofs.Loader

namespace TraitCatalog

open Run
open Text (lit)

variable {β η ω : Type}

/-! ## Files that are taken or skipped -/

namespace Source

/-- The file at a path is read and judged, or its reading is refused. -/
inductive Judges (source : Source) (path : Text) : Prop
  | read {text : Text} {outcome : Except (List Fault) DataFile}
      (read : source.read path = .ok text) (judged : DataFile.readAt text path = .ok outcome)
  | refused {f : FileFault} (read : source.read path = .error f) (rejection : f.isRejection = true)

/-- The faults for which the file at a path is skipped: that of a refusal, or those that are found
    in the text. -/
inductive Skips (source : Source) (path : Text) : List Fault → Prop
  | refused {f : FileFault} (read : source.read path = .error f) (rejection : f.isRejection = true) :
      Skips source path [.unreadable (f.message?.getD [])]
  | faulty {text : Text} {faults : List Fault} (read : source.read path = .ok text)
      (judged : DataFile.readAt text path = .ok (.error faults)) : Skips source path faults

/-- The file at a path is taken. -/
def takes (source : Source) (path : Text) : Bool :=
  match source.verdict path with
  | .taken _ => true
  | .skipped _ | .stopped _ => false

/-- What is reported of the file at a path if it is skipped. -/
def failure? (source : Source) (path : Text) : Option LoadFailure :=
  match source.verdict path with
  | .skipped faults => some ⟨path, faults⟩
  | .taken _ | .stopped _ => none

variable {source : Source} {path : Text}

theorem Judges.verdict (h : source.Judges path) :
    (∃ d, source.verdict path = .taken d) ∨ ∃ faults, source.verdict path = .skipped faults := by
  rw [Source.verdict]
  rcases h with ⟨hr, hj⟩ | ⟨hr, hf⟩
  · rename_i outcome
    rw [hr]
    dsimp only
    rw [hj]
    rcases outcome with faults | d
    · exact .inr ⟨faults, rfl⟩
    · exact .inl ⟨d, rfl⟩
  · rw [hr]
    dsimp only
    rw [if_pos hf]
    exact .inr ⟨_, rfl⟩

theorem reads_of_verdict {d : DataFile} (h : source.verdict path = .taken d) : source.Reads path d := by
  unfold Source.verdict at h
  split at h
  · split_ifs at h
  · next text hr =>
    split at h
    · cases h
    · cases h
    · next hd =>
      cases h
      exact ⟨text, hr, hd⟩

theorem skips_of_verdict {faults : List Fault} (h : source.verdict path = .skipped faults) :
    source.Skips path faults := by
  unfold Source.verdict at h
  split at h
  · next f hr =>
    split_ifs at h with hf
    cases h
    exact .refused hr hf
  · next text hr =>
    split at h
    · cases h
    · next hd =>
      cases h
      exact .faulty hr hd
    · cases h

theorem Reads.judges {d : DataFile} (h : source.Reads path d) : source.Judges path := by
  obtain ⟨text, hr, hd⟩ := h
  exact .read hr hd

theorem Skips.judges {faults : List Fault} (h : source.Skips path faults) : source.Judges path := by
  cases h with
  | refused hr hf => exact .refused hr hf
  | faulty hr hd => exact .read hr hd

theorem Skips.faults_ne_nil {faults : List Fault} (h : source.Skips path faults) : faults ≠ [] := by
  cases h with
  | refused => exact List.cons_ne_nil _ _
  | faulty _ hj =>
    unfold DataFile.readAt at hj
    split at hj
    · cases hj
      exact List.cons_ne_nil _ _
    · exact DataFile.faults_ne_nil hj

/-- The report of a load that is not strict: the files that are taken and the failures of the
    others, each in the order of the list. -/
theorem report_judged : ∀ {paths : List Text} {r : LoadReport}, (∀ p ∈ paths, source.Judges p) →
    source.report false r paths =
      .ok ⟨r.registered ++ paths.filter source.takes, r.failures ++ paths.filterMap source.failure?⟩
  | [], r, _ => by
    rw [List.filter_nil, List.filterMap_nil, List.append_nil, List.append_nil]
    rfl
  | path :: rest, r, h => by
    obtain ⟨hp, hrest⟩ := List.forall_mem_cons.1 h
    rw [report, List.filter_cons, List.filterMap_cons, takes, failure?]
    rcases hp.verdict with ⟨d, hv⟩ | ⟨faults, hv⟩
    · rw [hv]
      dsimp only
      rw [report_judged hrest, if_pos rfl, List.append_assoc]
      rfl
    · rw [hv]
      dsimp only
      rw [if_neg Bool.false_ne_true, report_judged hrest, if_neg Bool.false_ne_true, List.append_assoc]
      rfl

/-- The files that are taken are read as the data files that a load registers. -/
theorem reads_taken : ∀ {paths : List Text}, (∀ p ∈ paths, source.Judges p) →
    List.Forall₂ source.Reads (paths.filter source.takes) (source.taken false paths)
  | [], _ => .nil
  | path :: rest, h => by
    obtain ⟨hp, hrest⟩ := List.forall_mem_cons.1 h
    rw [taken, List.filter_cons, takes]
    rcases hp.verdict with ⟨d, hv⟩ | ⟨faults, hv⟩
    · rw [hv]
      exact .cons (reads_of_verdict hv) (reads_taken hrest)
    · rw [hv]
      exact reads_taken hrest

theorem path_failures : ∀ {paths : List Text}, (∀ p ∈ paths, source.Judges p) →
    (paths.filterMap source.failure?).map LoadFailure.path = paths.filter (!source.takes ·)
  | [], _ => rfl
  | path :: rest, h => by
    obtain ⟨hp, hrest⟩ := List.forall_mem_cons.1 h
    rw [List.filter_cons, List.filterMap_cons, takes, failure?]
    rcases hp.verdict with ⟨d, hv⟩ | ⟨faults, hv⟩
    · rw [hv]
      exact path_failures hrest
    · rw [hv]
      exact congrArg (path :: ·) (path_failures hrest)

theorem takes_iff : source.takes path = true ↔ ∃ d, source.verdict path = .taken d := by
  rw [takes]
  rcases source.verdict path with d | faults | f <;> simp

theorem failure?_eq_some {failure : LoadFailure} : source.failure? path = some failure ↔
    failure.path = path ∧ source.verdict path = .skipped failure.faults := by
  rw [failure?]
  rcases source.verdict path with d | faults | f
  · simp
  · rcases failure with ⟨path', faults'⟩
    simp [eq_comm]
  · simp

theorem Judges.takes (h : source.Judges path) (hf : source.failure? path = none) :
    source.takes path = true := by
  rw [takes_iff]
  refine h.verdict.resolve_right ?_
  rintro ⟨faults, hv⟩
  rw [(@failure?_eq_some _ _ ⟨path, faults⟩).2 ⟨rfl, hv⟩] at hf
  cases hf

end Source

/-! ## Registrations between two stages -/

/-- The stage `t` comes from `s` by registering the maps one after the other.  Every registration
    returned, and besides them nothing was done but to note events. -/
inductive Stage.Registers (invoke : Invoke η ω) (s : Stage η ω) :
    (ms : List ImplementorMap) → (t : Stage η ω) → Prop
  | none : Registers invoke s [] s
  | notes {ms : List ImplementorMap} {t : Stage η ω} (es : List LogEvent) :
      Registers invoke s ms t → Registers invoke s ms (t.withNotes es)
  | one {ms : List ImplementorMap} {t u : Stage η ω} {m : ImplementorMap} :
      Registers invoke s ms t → exec (register invoke m) t = (.ok (), u) →
      Registers invoke s (ms ++ [m]) u

/-- The registry with more maps registered, by a hook that does nothing to the registry. -/
def Registry.taking (r : Registry η) (ms : List ImplementorMap) : Registry η :=
  match r.phase with
  | .buffering queue => ⟨.buffering (queue ++ ms), r.deliveries⟩
  | .live h => ⟨.live h, r.deliveries ++ ms.map fun m => ⟨h, m, .direct⟩⟩

theorem Registry.taking_nil (r : Registry η) : r.taking [] = r := by
  rcases r with ⟨_ | _, _⟩ <;> simp [taking]

/-- What is accepted is accepted together with the account of what has been registered. -/
theorem Accepts.registers {invoke : Invoke η ω} {P : Stage η ω → List ImplementorMap → Prop}
    (hP : Accepts invoke P) (s : Stage η ω) :
    Accepts invoke fun t ms => s.Registers invoke ms t ∧ P t ms := by
  refine ⟨fun es h => ⟨h.1.notes es, hP.notes es h.2⟩, fun {t ms} m ⟨hr, ht⟩ => ?_⟩
  obtain ⟨u, hu, hu'⟩ := hP.register m ht
  exact ⟨u, hu, hr.one hu, hu'⟩

/-- The hook `h` returns from every call while it is installed, and leaves the registry alone. -/
def Invoke.Quiet (invoke : Invoke η ω) (h : η) : Prop :=
  ∀ m s, s.registry.phase = .live h →
    ∃ t, exec (invoke h m) s = (.ok (), t) ∧ t.registry = s.registry

theorem Invoke.Quiet.accepts {invoke : Invoke η ω} {s : Stage η ω}
    (hq : ∀ h, s.registry.phase = .live h → invoke.Quiet h) :
    Accepts invoke fun t ms => t.registry = s.registry.taking ms := by
  refine ⟨fun _ h => h, fun {t ms} m ht => ?_⟩
  rcases hp : s.registry.phase with queue | h <;> simp only [Registry.taking, hp] at ht ⊢
  · have hp' : t.registry.phase = .buffering (queue ++ ms) := by rw [ht]
    refine ⟨_, exec_register_buffering invoke t m hp', ?_⟩
    simp [Stage.withNote, Stage.withPhase, ht]
  · have hp' : t.registry.phase = .live h := by rw [ht]
    obtain ⟨u, hu, hu'⟩ := hq h hp m t hp'
    have he := exec_register_live invoke t h m hp'
    rw [exec_deliver, hu] at he
    refine ⟨_, he, ?_⟩
    simp [Stage.withDelivery, hu', ht]

/-- The index leaves the registry alone, wrapped or not. -/
theorem quiet_collect {h : Hook Unit} (hroom : h.frames ≤ callLimit) : (call collect).Quiet h := by
  intro m s _
  obtain ⟨es, he⟩ := exec_invoke_collect hroom m s
  exact ⟨_, he, rfl⟩

/-! ## The account of a load -/

/-- A report on some files, with the maps that were registered for them. -/
structure Accounted (source : Source) (paths : List Text) (r : LoadReport)
    (ms : List ImplementorMap) : Prop where
  /-- The files that were taken and those that were not, each in the order of the list. -/
  registered : r.registered = paths.filter source.takes
  failed : r.failures.map LoadFailure.path = paths.filter (!source.takes ·)
  total : r.total = paths.length
  success : r.success = true ↔ r.failures = []
  /-- One map for each file that was taken: its trait, with the descriptors of all crates. -/
  maps : List.Forall₂ (fun path m => ∃ d traitPath, source.Reads path d ∧
    traitPathAt path = .ok traitPath ∧ m = .single traitPath d.crates.values.flatten) r.registered ms
  /-- The fault of a refusal, or the faults in the text, of which there is at least one. -/
  faults : ∀ failure ∈ r.failures, source.Skips failure.path failure.faults ∧ failure.faults ≠ []

namespace Source

variable {source : Source} {paths : List Text}

theorem Reads.traitPathAt {path : Text} {d : DataFile} (h : source.Reads path d) :
    traitPathAt path = .ok d.traitPath := by
  obtain ⟨text, -, hd⟩ := h
  unfold DataFile.readAt at hd
  split at hd
  · cases hd
  · next traitPath hp => rw [hp, (DataFile.read_eq_ok_iff.1 hd).1]

theorem accounted (hj : ∀ p ∈ paths, source.Judges p) : Accounted source paths
    ⟨paths.filter source.takes, paths.filterMap source.failure?⟩
    ((source.taken false paths).map DataFile.toMap) := by
  have hfailed := path_failures hj
  refine ⟨rfl, hfailed, ?_, List.isEmpty_iff, ?_, fun failure hf => ?_⟩
  · have hlen := congrArg List.length hfailed
    rw [List.length_map] at hlen
    rw [LoadReport.total, hlen]
    exact (List.length_eq_length_filter_add source.takes).symm
  · rw [List.forall₂_map_right_iff]
    exact (reads_taken hj).imp fun _ d h => ⟨d, d.traitPath, h, h.traitPathAt, rfl⟩
  · obtain ⟨path, -, hp⟩ := List.mem_filterMap.1 hf
    obtain ⟨rfl, hv⟩ := failure?_eq_some.1 hp
    have hs := skips_of_verdict hv
    exact ⟨hs, hs.faults_ne_nil⟩

end Source

/-- **A load that is not strict accounts for every listed file once**, whether maps wait or the
    installed hook is quiet.  It ends with a report in which the files that were taken and those
    that were skipped stand in the order of the list; for each file that was taken there was one
    registration, with its map, and for the others there was none. -/
theorem load_accounts (invoke : Invoke η ω) (source : Source) (s : Stage η ω) (paths : List Text)
    (events : List LogEvent) (hl : source.list = .ok (paths, events))
    (hj : ∀ p ∈ paths, source.Judges p)
    (hq : ∀ h, s.registry.phase = .live h → invoke.Quiet h) :
    ∃ r t ms, exec (loadAll invoke source false) s = (.ok r, t) ∧ Accounted source paths r ms ∧
      s.Registers invoke ms t ∧ t.registry = s.registry.taking ms := by
  obtain ⟨t, ht, hreg, htaking⟩ := ((Invoke.Quiet.accepts hq).registers s).loadAll source false
    ⟨.none, s.registry.taking_nil.symm⟩
  have hending : source.ending false =
      .ok ⟨paths.filter source.takes, paths.filterMap source.failure?⟩ := by
    rw [Source.ending, hl]
    exact Source.report_judged hj
  have hmaps : source.maps false = (source.taken false paths).map DataFile.toMap := by
    rw [Source.maps, hl]
  rw [hending] at ht
  rw [hmaps, List.nil_append] at hreg htaking
  exact ⟨_, t, _, ht, Source.accounted hj, hreg, htaking⟩

/-- The data file of a trait that one crate implements twice. -/
def mulFile : DataFile :=
  ⟨lit "core::Mul", .single (lit "num") [lit "impl Mul for u8", lit "impl Mul for u16"]⟩

/-- A source that lists a data file twice, with a file that is refused and one with faults. -/
def mixedSource : Source :=
  .ofRows [⟨lit "core/trait.Mul.js", .ok mulFile.write⟩, ⟨lit "trait.A.js", .error (lit "denied")⟩,
    ⟨lit "trait.B.js", .ok []⟩, ⟨lit "core/trait.Mul.js", .ok []⟩]

theorem verdict_mulFile : mixedSource.verdict (lit "core/trait.Mul.js") = .taken mulFile := by
  decide +kernel

theorem judges_mixed : ∀ p ∈ [lit "core/trait.Mul.js", lit "trait.A.js", lit "trait.B.js",
    lit "core/trait.Mul.js"], mixedSource.Judges p := by
  have hmul := (Source.reads_of_verdict verdict_mulFile).judges
  refine List.forall_mem_cons.2 ⟨hmul, List.forall_mem_cons.2 ⟨?refused, List.forall_mem_cons.2
    ⟨?faulty, List.forall_mem_singleton.2 hmul⟩⟩⟩
  case refused =>
    exact (@Source.skips_of_verdict _ _ [.unreadable (lit "denied")] (by decide +kernel)).judges
  case faulty =>
    exact (@Source.skips_of_verdict _ _ [.missingPreamble, .missingRegistration]
      (by decide +kernel)).judges

theorem load_accounts_mixed :
    let s : Stage (Hook Unit) TraitIndex := Stage.withPhase (.fresh .empty) (.live (.base ()))
    (call collect).Quiet (.base ()) ∧
    ∃ r t, exec (loadAll (call collect) mixedSource false) s = (.ok r, t) ∧
      r.registered = [lit "core/trait.Mul.js", lit "core/trait.Mul.js"] ∧
      r.failures.map LoadFailure.path = [lit "trait.A.js", lit "trait.B.js"] ∧
      t.registry.pending = [] ∧ t.registry.deliveredCount = 2 := by
  intro s
  have hquiet : (call collect).Quiet (.base ()) := quiet_collect (by decide)
  have hq : ∀ h, s.registry.phase = .live h → (call collect).Quiet h := by
    intro h hp
    cases hp
    exact hquiet
  obtain ⟨r, t, ms, ht, ha, -, hr⟩ :=
    load_accounts (call collect) mixedSource s _ [] rfl judges_mixed hq
  have hmul : mixedSource.takes (lit "core/trait.Mul.js") = true :=
    Source.takes_iff.2 ⟨_, verdict_mulFile⟩
  have hrefused : mixedSource.takes (lit "trait.A.js") = false := by decide +kernel
  have hfaulty : mixedSource.takes (lit "trait.B.js") = false := by decide +kernel
  have htaken : r.registered = [lit "core/trait.Mul.js", lit "core/trait.Mul.js"] := by
    simp [ha.registered, hmul, hrefused, hfaulty]
  have hfailed : r.failures.map LoadFailure.path = [lit "trait.A.js", lit "trait.B.js"] := by
    simp [ha.failed, hmul, hrefused, hfaulty]
  have hlen : ms.length = 2 := by rw [← ha.maps.length_eq, htaken]; rfl
  refine ⟨hquiet, r, t, ht, htaken, hfailed, ?_, ?_⟩
  · rw [hr]
    rfl
  · rw [hr]
    change (List.map _ ms).length = 2
    rw [List.length_map, hlen]

end TraitCatalog
