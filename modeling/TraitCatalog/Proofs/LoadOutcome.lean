/-
  How loads end.

  A file of a source is taken, skipped, or stops the load (`Source.verdict`), whatever the
  registry is like.  The verdicts decide how a load ends (`Source.report`) and which data files
  it registers (`Source.taken`); the hooks only decide what the registrations do.

  * `Accepts`: a property of a stage and of the maps registered so far, which registrations keep
    and do not fail under;
  * `Accepts.loadFiles`: such a property follows a load through its files;
  * `load_ends_iff`: a load that is not strict ends unless a file of it stops it.
-/
import TraitCatalog.Catalog
import TraitCatalog.Proofs.DataFile.Verdict
import TraitCatalog.Proofs.Registry.Exec

namespace TraitCatalog

open Run
open Text (lit)

variable {η ω : Type}

/-! ## Verdicts -/

/-- What becomes of a file. -/
inductive Verdict where
  /-- It is a data file, which is registered. -/
  | taken (d : DataFile)
  | skipped (faults : List Fault)
  /-- It can be neither read nor skipped. -/
  | stopped (f : Failure)
  deriving DecidableEq

namespace Verdict

/-- How loading a single file ends. -/
def ending (path : Text) : Verdict → Except Failure (Option LoadFailure)
  | taken _ => .ok none
  | skipped faults => .ok (some ⟨path, faults⟩)
  | stopped f => .error f

/-- The maps that a file adds to a registry. -/
def maps : Verdict → List ImplementorMap
  | taken d => [d.toMap]
  | skipped _ | stopped _ => []

end Verdict

namespace Source

/-- The verdict on the file at a path. -/
def verdict (source : Source) (path : Text) : Verdict :=
  match source.read path with
  | .error f =>
    if f.isRejection then .skipped [.unreadable (f.message?.getD [])] else .stopped (.file f)
  | .ok text =>
    match DataFile.readAt text path with
    | .error a => .stopped (.reading a)
    | .ok (.error faults) => .skipped faults
    | .ok (.ok d) => .taken d

/-- How a load of some files ends that had come to the report `r`. -/
def report (source : Source) (strict : Bool) (r : LoadReport) : List Text → Except Failure LoadReport
  | [] => .ok r
  | path :: rest =>
    match source.verdict path with
    | .taken _ => source.report strict { r with registered := r.registered ++ [path] } rest
    | .skipped faults =>
      if strict then .error (.strictLoad path faults)
      else source.report strict { r with failures := r.failures ++ [⟨path, faults⟩] } rest
    | .stopped f => .error f

/-- The data files that a load registers before it ends. -/
def taken (source : Source) (strict : Bool) : List Text → List DataFile
  | [] => []
  | path :: rest =>
    match source.verdict path with
    | .taken d => d :: source.taken strict rest
    | .skipped _ => if strict then [] else source.taken strict rest
    | .stopped _ => []

/-- How a load of all files ends. -/
def ending (source : Source) (strict : Bool) : Except Failure LoadReport :=
  match source.list with
  | .error f => .error (.file f)
  | .ok (paths, _) => source.report strict ⟨[], []⟩ paths

/-- The maps that a load of all files adds to a registry. -/
def maps (source : Source) (strict : Bool) : List ImplementorMap :=
  match source.list with
  | .error _ => []
  | .ok (paths, _) => (source.taken strict paths).map DataFile.toMap

/-- A file stops a load if it is there but cannot be read, for a reason other than its path or its
    bytes, or if its text overflows. -/
inductive Stops (source : Source) (path : Text) : Prop where
  | unread {f : FileFault} (read : source.read path = .error f) (rejection : f.isRejection = false)
  | overflow {text traitPath : Text} (read : source.read path = .ok text)
      (place : traitPathAt path = .ok traitPath) (overflows : DataFile.Overflows text)

variable {source : Source} {path : Text}

theorem stops_iff : source.Stops path ↔ ∃ f, source.verdict path = .stopped f := by
  constructor
  · rintro (⟨hr, hf⟩ | ⟨hr, hp, ho⟩)
    · rename_i f
      refine ⟨.file f, ?_⟩
      simp [verdict, hr, hf]
    · rename_i text traitPath
      obtain ⟨a, ha⟩ := (@DataFile.read_error_iff text traitPath).2 ho
      refine ⟨.reading a, ?_⟩
      simp [verdict, hr, DataFile.readAt, hp, ha]
  · rintro ⟨f, hv⟩
    unfold verdict at hv
    split at hv
    · next g hr =>
      split_ifs at hv with hg
      exact .unread hr (by simpa using hg)
    · next text hr =>
      split at hv
      · next a ha =>
        unfold DataFile.readAt at ha
        split at ha
        · cases ha
        · next traitPath hp =>
          exact .overflow hr hp (DataFile.read_error_iff.1 ⟨a, ha⟩)
      · cases hv
      · cases hv

theorem not_stops {faults : List Fault} (h : source.verdict path = .skipped faults) :
    ¬ source.Stops path := by
  rw [stops_iff, h]
  rintro ⟨f, hf⟩
  cases hf

theorem verdict_ofRows {text traitPath : Text} {rows : List SourceRow} {a : DataFile.ReadAbort}
    (hp : traitPathAt path = .ok traitPath) (h : DataFile.read text traitPath = .error a) :
    (Source.ofRows (⟨path, .ok text⟩ :: rows)).verdict path = .stopped (.reading a) := by
  have hr : (Source.ofRows (⟨path, .ok text⟩ :: rows)).read path = .ok text := by
    simp [ofRows]
  rw [verdict, hr]
  simp only [DataFile.readAt, hp, h]

/-- A load that is not strict ends with a report unless a file stops it. -/
theorem report_ends_iff : ∀ {paths : List Text} {r : LoadReport},
    (∃ r', source.report false r paths = .ok r') ↔ ∀ p ∈ paths, ¬ source.Stops p
  | [], r => by simp [report]
  | path :: rest, r => by
    -- Only a file that stops the load decides; after the others it goes on with another report.
    rw [List.forall_mem_cons, stops_iff, report]
    rcases source.verdict path with d | faults | f
    · simp [report_ends_iff]
    · simp [report_ends_iff]
    · simp

theorem report_covers {strict : Bool} {r' : LoadReport} : ∀ {paths : List Text} {r : LoadReport},
    source.report strict r paths = .ok r' → (r'.registered ++ r'.failures.map LoadFailure.path).Perm
      (r.registered ++ r.failures.map LoadFailure.path ++ paths)
  | [], r, h => by
    cases h
    rw [List.append_nil]
  | path :: rest, r, h => by
    rw [report] at h
    split at h
    · refine (report_covers h).trans ?_
      simp only [List.append_assoc]
      refine List.Perm.append_left _ ?_
      exact (@List.perm_middle _ path (r.failures.map LoadFailure.path) rest).symm
    · next faults =>
      split_ifs at h
      refine (report_covers h).trans ?_
      simp
    · cases h

end Source

/-! ## Loads -/

section
variable (invoke : Invoke η ω) {source : Source} (s : Stage η ω) {path : Text}

theorem exec_loadFile_taken {d : DataFile} (h : source.verdict path = .taken d) :
    exec (loadFile invoke source path) s = match exec (register invoke d.toMap) s with
      | (.ok (), t) => (.ok none, t.withNote (.registered d.traitPath d.count))
      | (.error f, t) => (.error f, t) := by
  unfold Source.verdict at h
  split at h
  · split_ifs at h
  · next text hr =>
    split at h
    · cases h
    · cases h
    · next d' hd =>
      cases h
      rw [loadFile, hr]
      dsimp only
      rw [hd]
      dsimp only
      rw [exec_bind]
      rcases exec (register invoke d.toMap) s with ⟨_ | _, t⟩ <;> rfl

theorem exec_loadFile_skipped {faults : List Fault} (h : source.verdict path = .skipped faults) :
    ∃ e, exec (loadFile invoke source path) s = (.ok (some ⟨path, faults⟩), s.withNote e) := by
  unfold Source.verdict at h
  split at h
  · next f hr =>
    split_ifs at h with hf
    cases h
    refine ⟨.unreadable path f, ?_⟩
    rw [loadFile, hr]
    dsimp only
    rw [if_pos hf]
    rfl
  · next text hr =>
    split at h
    · cases h
    · next hd =>
      cases h
      refine ⟨.faulty path (faults.map Fault.message), ?_⟩
      rw [loadFile, hr]
      dsimp only
      rw [hd]
      rfl
    · cases h

theorem exec_loadFile_stopped {f : Failure} (h : source.verdict path = .stopped f) :
    exec (loadFile invoke source path) s = (.error f, s) := by
  unfold Source.verdict at h
  split at h
  · next g hr =>
    split_ifs at h with hg
    cases h
    rw [loadFile, hr]
    dsimp only
    rw [if_neg hg]
    rfl
  · next text hr =>
    split at h
    · next a ha =>
      cases h
      rw [loadFile, hr]
      dsimp only
      rw [ha]
      rfl
    · cases h
    · cases h

theorem exec_loadAll_stopped (strict : Bool) {rest : List Text} {events : List LogEvent} {f : Failure}
    (hl : source.list = .ok (path :: rest, events)) (h : source.verdict path = .stopped f) :
    (exec (loadAll invoke source strict) s).1 = .error f := by
  rw [loadAll, hl]
  dsimp only
  rw [exec_bind, exec_noteAll]
  dsimp only
  rw [exec_bind, loadFiles, exec_bind, exec_loadFile_stopped invoke _ h]

end

/-- A property of a stage and of the maps that have been registered.  It does not depend on the
    log, and under it a registration returns and keeps it. -/
structure Accepts (invoke : Invoke η ω) (P : Stage η ω → List ImplementorMap → Prop) : Prop where
  notes : ∀ {s ms} (es : List LogEvent), P s ms → P (s.withNotes es) ms
  register : ∀ {s ms} (m : ImplementorMap), P s ms →
    ∃ t, exec (register invoke m) s = (.ok (), t) ∧ P t (ms ++ [m])

namespace Accepts

variable {invoke : Invoke η ω} {P : Stage η ω → List ImplementorMap → Prop} (hP : Accepts invoke P)
  (source : Source) {s : Stage η ω} {ms : List ImplementorMap}
include hP

theorem note (e : LogEvent) (hs : P s ms) : P (s.withNote e) ms :=
  hP.notes [e] hs

theorem loadFile (path : Text) (hs : P s ms) :
    ∃ t, exec (loadFile invoke source path) s = ((source.verdict path).ending path, t) ∧
      P t (ms ++ (source.verdict path).maps) := by
  rcases hv : source.verdict path with d | faults | f
  · obtain ⟨t, ht, hp⟩ := hP.register d.toMap hs
    refine ⟨t.withNote (.registered d.traitPath d.count), ?_, hP.note _ hp⟩
    rw [exec_loadFile_taken invoke s hv, ht]
    rfl
  · obtain ⟨e, he⟩ := exec_loadFile_skipped invoke s hv
    refine ⟨s.withNote e, he, ?_⟩
    rw [Verdict.maps, List.append_nil]
    exact hP.note e hs
  · refine ⟨s, exec_loadFile_stopped invoke s hv, ?_⟩
    rw [Verdict.maps, List.append_nil]
    exact hs

theorem loadFiles (strict : Bool) : ∀ (paths : List Text) (r : LoadReport) {s ms}, P s ms →
    ∃ t, exec (loadFiles invoke source strict r paths) s = (source.report strict r paths, t) ∧
      P t (ms ++ (source.taken strict paths).map DataFile.toMap)
  | [], r, s, ms, hs => by
    refine ⟨s, rfl, ?_⟩
    rw [Source.taken, List.map_nil, List.append_nil]
    exact hs
  | path :: rest, r, s, ms, hs => by
    obtain ⟨t, ht, hp⟩ := hP.loadFile source path hs
    rw [TraitCatalog.loadFiles, Source.report, Source.taken, exec_bind, ht]
    generalize source.verdict path = verdict at hp
    rcases verdict with d | faults | f
    · obtain ⟨u, hu, hp'⟩ := loadFiles strict rest { r with registered := r.registered ++ [path] } hp
      refine ⟨u, hu, ?_⟩
      rw [List.append_assoc] at hp'
      exact hp'
    · rw [Verdict.maps, List.append_nil] at hp
      cases strict with
      | true =>
        refine ⟨t, rfl, ?_⟩
        rw [if_pos rfl, List.map_nil, List.append_nil]
        exact hp
      | false =>
        exact loadFiles false rest { r with failures := r.failures ++ [⟨path, faults⟩] } hp
    · refine ⟨t, rfl, ?_⟩
      exact hp

theorem loadAll (strict : Bool) (hs : P s ms) :
    ∃ t, exec (loadAll invoke source strict) s = (source.ending strict, t) ∧
      P t (ms ++ source.maps strict) := by
  rw [TraitCatalog.loadAll, Source.ending, Source.maps]
  rcases source.list with f | ⟨paths, events⟩
  · refine ⟨s, rfl, ?_⟩
    rw [List.append_nil]
    exact hs
  · obtain ⟨t, ht, hp⟩ := hP.loadFiles source strict paths ⟨[], []⟩ (hP.notes events hs)
    dsimp only
    rw [exec_bind, exec_noteAll]
    dsimp only
    rw [exec_bind, ht]
    rcases source.report strict ⟨[], []⟩ paths with f | r
    · exact ⟨t, rfl, hp⟩
    · exact ⟨t.withNote (.loaded r.registered.length r.failures.length), rfl, hP.note _ hp⟩

end Accepts

/-! ## Hooks that return -/

/-- The hook of a live registry is one of those in `calm`. -/
def Stage.HookAmong (s : Stage η ω) (calm : η → Prop) : Prop :=
  ∀ h, s.registry.phase = .live h → calm h

/-- The hooks in `calm` return from every call while they are installed, and if another hook is
    installed after the call, it is in `calm` too. -/
def Invoke.Calm (invoke : Invoke η ω) (calm : η → Prop) : Prop :=
  ∀ h m s, calm h → s.registry.phase = .live h →
    ∃ t, exec (invoke h m) s = (.ok (), t) ∧ t.HookAmong calm

theorem Invoke.Calm.accepts {invoke : Invoke η ω} {calm : η → Prop} (hc : invoke.Calm calm) :
    Accepts invoke fun s _ => s.HookAmong calm := by
  refine ⟨fun _ h => h, fun {s _} m hs => ?_⟩
  rcases hp : s.registry.phase with queue | h
  · exact ⟨_, exec_register_buffering invoke s m hp, nofun⟩
  · obtain ⟨t, ht, ht'⟩ := hc h m s (hs h hp) hp
    rw [exec_register_live invoke s h m hp, exec_deliver, ht]
    exact ⟨_, rfl, ht'⟩

/-- While no hook is installed, no hook can fail. -/
theorem Invoke.calm_never (invoke : Invoke η ω) : invoke.Calm fun _ => False :=
  fun _ _ _ h => h.elim

/-- **A text is judged unless it overflows, and files that overflow are the only malformed files
    that end a load which is not strict.**  Such a load ends with a report of all files if no file
    of it stops it, as long as the hooks that are installed return. -/
theorem load_ends_iff (source : Source) :
    (∀ text traitPath, DataFile.Judged (DataFile.read text traitPath) ↔ ¬ DataFile.Overflows text) ∧
    ∀ (invoke : Invoke η ω) (calm : η → Prop) (s : Stage η ω) (paths : List Text)
      (events : List LogEvent),
      invoke.Calm calm → s.HookAmong calm → source.list = .ok (paths, events) →
      ((∃ r, (exec (loadAll invoke source false) s).1 = .ok r ∧
          (r.registered ++ r.failures.map LoadFailure.path).Perm paths) ↔
        ∀ p ∈ paths, ¬ source.Stops p) := by
  refine ⟨fun _ _ => DataFile.judged_iff, fun invoke calm s paths events hi hs hl => ?_⟩
  obtain ⟨t, ht, -⟩ := @Accepts.loadAll _ _ _ _ hi.accepts source s [] false hs
  have he : source.ending false = source.report false ⟨[], []⟩ paths := by rw [Source.ending, hl]
  rw [ht, he, ← Source.report_ends_iff (r := ⟨[], []⟩)]
  constructor
  · rintro ⟨r, hr, -⟩
    exact ⟨r, hr⟩
  · rintro ⟨r, hr⟩
    exact ⟨r, hr, Source.report_covers hr⟩

/-- A source with a file that is refused, a data file with an integer in its list, and a file that
    is no data file. -/
def faultySource : Source :=
  .ofRows [⟨lit "trait.A.js", .error (lit "denied")⟩,
    ⟨lit "trait.B.js", .ok (DataFile.listFile (DataFile.ones 3))⟩, ⟨lit "notes.txt", .ok []⟩]

theorem load_ends_faulty : ∃ r,
    (exec (loadAll (call collect) faultySource false) (.fresh .empty)).1 = .ok r ∧
      (r.registered ++ r.failures.map LoadFailure.path).Perm
        [lit "trait.A.js", lit "trait.B.js", lit "notes.txt"] := by
  refine ((load_ends_iff faultySource).2 (call collect) _ (.fresh .empty) _ []
    (Invoke.calm_never _) nofun rfl).2 ?_
  refine List.forall_mem_cons.2 ⟨?refused, List.forall_mem_cons.2 ⟨?data, ?other⟩⟩
  case refused => exact @Source.not_stops _ _ [.unreadable (lit "denied")] (by decide +kernel)
  case data => exact @Source.not_stops _ _ [.notStringList 2] (by decide +kernel)
  case other =>
    refine List.forall_mem_singleton.2 ?_
    exact @Source.not_stops _ _ [.fileName (lit "notes.txt")] (by decide +kernel)

/-- The source of one file whose list is one integer with a digit too many. -/
def longSource : Source :=
  .ofRows [⟨lit "trait.X.js", .ok (DataFile.listFile (DataFile.ones 4301))⟩]

theorem long_integer_ends_load :
    ¬ DataFile.Judged (DataFile.read (DataFile.listFile (DataFile.ones 4301)) (lit "X")) ∧
    (exec (loadAll (call collect) longSource false) (.fresh .empty)).1 =
      .error (.reading (.longInteger 4301)) := by
  have hread := @DataFile.read_longInteger 4301 (by decide) (lit "X")
  constructor
  · rw [hread]
    rintro (⟨d, h⟩ | ⟨faults, -, h⟩)
    · cases h
    · cases h
  · refine exec_loadAll_stopped (call collect) (.fresh .empty) false rfl ?_
    exact Source.verdict_ofRows (by decide) hread

end TraitCatalog
