/-
  What `load` and `show` print of the same files.

  Both commands load a fresh catalog, so what they print depends on the listed files alone.  Where the
  files cannot be listed, nothing is printed at all.

  * `Source.registered`: the files that are taken, with their data;
  * `Balanced`: a summary that agrees with the files, each of which is counted or reported;
  * `exec_loadThenInstall_registered`, `exec_loadThenInstall_ended`: a load that comes to its end,
    strict or not, and one that does not;
  * `answer_unlisted`: what ends a listing ends every command;
  * `answers_agree`: the two commands, compared with the files and with each other;
  * `load_ends_at_link`: a folder below which `load` prints no summary.
-/
import TraitCatalog.Command.Run
import TraitCatalog.Proofs.Catalog
import TraitCatalog.Proofs.Files.Discovery
import TraitCatalog.Proofs.Json.Document
import TraitCatalog.Proofs.LoadOrder

namespace TraitCatalog

open Run
open Text (lit)

/-! ## Files that are registered -/

namespace Source

/-- The files that are taken, with their data, in the order of the list. -/
def registered (source : Source) (paths : List Text) : List (Text × DataFile) :=
  paths.filterMap fun p => (source.taken? p).map (p, ·)

variable {source : Source} {paths : List Text}

theorem reads_registered {f : Text × DataFile} (h : f ∈ source.registered paths) :
    source.Reads f.1 f.2 := by
  obtain ⟨p, -, hp⟩ := List.mem_filterMap.1 h
  obtain ⟨d, hd, rfl⟩ := Option.map_eq_some_iff.1 hp
  exact reads_of_verdict (taken?_eq_some.1 hd)

theorem map_fst_registered (source : Source) (paths : List Text) :
    (source.registered paths).map Prod.fst = paths.filter source.takes := by
  induction paths with
  | nil => rfl
  | cons p paths ih =>
    rw [registered, List.filterMap_cons, List.filter_cons, taken?, takes]
    cases source.verdict p with
    | taken d => exact congrArg (p :: ·) ih
    | skipped _ => exact ih
    | stopped _ => exact ih

theorem map_snd_registered (hj : ∀ p ∈ paths, source.Judges p) :
    (source.registered paths).map Prod.snd = source.taken false paths := by
  rw [taken_eq_filterMap hj, registered, List.map_filterMap]
  refine List.filterMap_congr fun p _ => ?_
  rw [Option.map_map]
  exact Option.map_id'

/-- A strict load ends at a file that is skipped. -/
theorem report_skipped (hj : ∀ p ∈ paths, source.Judges p)
    (hs : ∃ p ∈ paths, source.takes p = false) (r : LoadReport) :
    ∃ path faults, source.report true r paths = .error (.strictLoad path faults) := by
  induction paths generalizing r with
  | nil => simp at hs
  | cons p paths ih =>
    obtain ⟨hp, hpaths⟩ := List.forall_mem_cons.1 hj
    rw [report]
    rcases hp.verdict with ⟨d, hv⟩ | ⟨faults, hv⟩
    · rw [hv]
      refine ih hpaths ?_ _
      have htakes : source.takes p = true := takes_iff.2 ⟨d, hv⟩
      simpa [htakes] using hs
    · rw [hv]
      exact ⟨p, faults, rfl⟩

end Source

section
variable {source : Source} {paths : List Text} {events : List LogEvent} {strict : Bool}

/-- A load that no file ends: all files are taken or it is not strict. -/
theorem exec_loadThenInstall_registered (enabled : Bool) (hl : source.list = .ok (paths, events))
    (hj : ∀ p ∈ paths, source.Judges p) (hs : strict = false ∨ ∀ p ∈ paths, source.takes p = true) :
    ∃ t, exec (loadThenInstall (call collect) source strict (.logged enabled (.base ())))
        (.fresh .empty) =
          (.ok ⟨(source.registered paths).map Prod.fst, paths.filterMap source.failure?⟩, t) ∧
      t.world = ((source.registered paths).map (·.2.toMap)).foldl TraitIndex.receive .empty := by
  rcases hs with rfl | htaken
  · have hroom : (Hook.logged enabled (.base ())).frames ≤ callLimit := by decide +revert
    obtain ⟨t, ht, hw⟩ := exec_loadThenInstall_judged hroom hl hj
    rw [← Source.map_snd_registered hj, List.map_map] at hw
    rw [← Source.map_fst_registered] at ht
    exact ⟨t, ht, hw⟩
  · have hpaths : (source.registered paths).map Prod.fst = paths := by
      rw [Source.map_fst_registered, List.filter_eq_self.2 htaken]
    have hnone : paths.filterMap source.failure? = [] := by
      refine List.filterMap_eq_nil_iff.2 fun p hp => ?_
      obtain ⟨d, hd⟩ := Source.takes_iff.1 (htaken p hp)
      rw [Source.failure?, hd]
    rw [hnone]
    exact exec_loadThenInstall strict enabled (hpaths.symm ▸ hl) fun f hf => Source.reads_registered hf

/-- A load that ends early: nothing is installed. -/
theorem exec_loadThenInstall_ended (h : Hook Unit) {f : Failure} (he : source.ending strict = .error f) :
    (exec (loadThenInstall (call collect) source strict h) (.fresh .empty)).1 = .error f := by
  obtain ⟨t, ht, -⟩ := @Accepts.loadAll _ _ _ _ (Invoke.calm_never (call collect)).accepts source
    (.fresh .empty) [] strict nofun
  rw [loadThenInstall, exec_bind, ht, he]

end

/-! ## Summaries -/

/-- A summary of a load. -/
structure Summary where
  files : Nat
  /-- The paths of the files that were skipped, with the codes of their faults. -/
  failures : List (Text × List Text)
  /-- The traits, with the numbers of their descriptors. -/
  traits : List (Text × Nat)

/-- A summary as it is printed. -/
def Summary.text (s : Summary) : Text :=
  (Json.Document.object [
    (lit "files", .number s.files),
    (lit "failures", .list (s.failures.map fun f =>
      .object [(lit "path", .text f.1), (lit "errors", .list (f.2.map .text))])),
    (lit "traits", .object (s.traits.map fun e => (e.1, .number e.2)))]).render 0 ++ lit "\n"

/-- The summary agrees with the files: each of them is counted or reported, and the traits are those of
    the files that are counted, with as many descriptors. -/
structure Balanced (source : Source) (paths : List Text) (s : Summary) : Prop where
  files : s.files = (source.registered paths).length
  total : s.files + s.failures.length = paths.length
  failures : s.failures.map Prod.fst = paths.filter (!source.takes ·)
  codes : ∀ f ∈ s.failures, ∃ faults,
    source.Skips f.1 faults ∧ faults ≠ [] ∧ f.2 = faults.map Fault.code
  reads : ∀ f ∈ source.registered paths, source.Reads f.1 f.2 ∧ traitPathAt f.1 = .ok f.2.traitPath
  ascending : (s.traits.map Prod.fst).Pairwise Text.Before
  traits : ∀ t, t ∈ s.traits.map Prod.fst ↔ ∃ f ∈ source.registered paths, f.2.traitPath = t
  counts : s.traits.foldl (fun n e => n + e.2) 0 =
    (source.registered paths).foldl (fun n f => n + f.2.count) 0

/-- The summary of a report, with the index after it. -/
def LoadReport.summary (r : LoadReport) (ix : TraitIndex) : Summary :=
  ⟨r.registered.length, r.failures.map fun f => (f.path, f.faults.map Fault.code), ix.summary⟩

theorem loadAnswer_eq (r : LoadReport) (ix : TraitIndex) :
    loadAnswer r ix = ⟨if (r.summary ix).failures.isEmpty then 0 else 1, (r.summary ix).text, []⟩ := by
  rw [loadAnswer, summaryDocument, LoadReport.success, Summary.text, LoadReport.summary]
  simp [List.map_map, Function.comp_def]

/-- The counts of data files add up to the number of all their descriptors. -/
theorem foldl_count : ∀ (files : List (Text × DataFile)) (k : Nat),
    files.foldl (fun n f => n + f.2.count) k = k + (files.flatMap (·.2.descriptors)).length
  | [], _ => rfl
  | f :: files, k => by
    rw [List.foldl_cons, foldl_count files, List.flatMap_cons, List.length_append, DataFile.count]
    omega

section
variable (source : Source) (paths : List Text)

/-- The index after a load that no file ends. -/
def Source.indexOf : TraitIndex :=
  ((source.registered paths).map (·.2.toMap)).foldl TraitIndex.receive .empty

/-- The summary of a load that no file ends. -/
def Source.summaryOf : Summary :=
  LoadReport.summary ⟨(source.registered paths).map Prod.fst, paths.filterMap source.failure?⟩
    (source.indexOf paths)

theorem mem_keys_indexOf (t : Text) :
    t ∈ (source.indexOf paths).index.keys ↔ ∃ f ∈ source.registered paths, f.2.traitPath = t := by
  have hkeys : (source.indexOf paths).index.keys =
      (((source.registered paths).map (·.2.toMap)).flatMap OrderedMap.keys).eraseDups :=
    @TraitIndex.keys_foldl_receive _ .empty [] rfl
  rw [hkeys, List.mem_eraseDups, List.flatMap_map, List.mem_flatMap]
  refine exists_congr fun f => and_congr_right fun _ => ?_
  show t ∈ [f.2.traitPath] ↔ _
  rw [List.mem_singleton, eq_comm]

/-- A trait has the descriptors of its own files, in the order of the list. -/
theorem implementorsOf_indexOf (t : Text) : (source.indexOf paths).implementorsOf t =
    ((source.registered paths).filter (·.2.traitPath = t)).flatMap (·.2.descriptors) := by
  have hfiles := flatMap_descriptorsOf_toMap t ((source.registered paths).map Prod.snd)
  rw [List.map_map, List.filter_map, List.flatMap_map, List.flatMap_map] at hfiles
  rw [Source.indexOf, TraitIndex.implementorsOf_foldl_receive]
  show [] ++ _ = _
  rw [List.nil_append, List.flatMap_map]
  exact hfiles

/-- The summary has a trait with a positive number if and only if the trait has as many descriptors. -/
theorem mem_traits_summaryOf {t : Text} {n : Nat} (hn : 0 < n) :
    (t, n) ∈ (source.summaryOf paths).traits ↔
      ((source.indexOf paths).implementorsOf t).length = n := by
  have hsummary : (t, n) ∈ (source.summaryOf paths).traits ↔
      t ∈ (source.indexOf paths).index.keys ∧ n = ((source.indexOf paths).implementorsOf t).length :=
    TraitIndex.mem_summary
  rw [hsummary, eq_comm, and_iff_right_iff_imp, mem_keys_indexOf]
  -- A trait that has descriptors has them from one of the files.
  intro hlength
  rw [implementorsOf_indexOf] at hlength
  obtain ⟨d, hd⟩ := List.exists_mem_of_length_pos (hlength.symm ▸ hn)
  obtain ⟨f, hf, -⟩ := List.mem_flatMap.1 hd
  obtain ⟨hregistered, htrait⟩ := List.mem_filter.1 hf
  exact ⟨f, hregistered, of_decide_eq_true htrait⟩

theorem summary_counts :
    (source.summaryOf paths).traits.foldl (fun n e => n + e.2) 0 =
      (source.registered paths).foldl (fun n f => n + f.2.count) 0 := by
  have hperm := TraitIndex.descriptors_foldl_receive ((source.registered paths).map (·.2.toMap)) .empty
  have htraits : (source.summaryOf paths).traits = (source.indexOf paths).summary := rfl
  rw [htraits, TraitIndex.sum_summary, Source.indexOf, hperm.length_eq, foldl_count, Nat.zero_add]
  show (List.flatMap ImplementorMap.descriptors _).length = _
  rw [List.flatMap_map]
  refine congrArg List.length (List.flatMap_congr fun f _ => ?_)
  exact List.flatten_singleton

variable {source paths}

theorem balanced_summaryOf (hj : ∀ p ∈ paths, source.Judges p) :
    Balanced source paths (source.summaryOf paths) := by
  have haccount := Source.accounted hj
  have hfailures : (source.summaryOf paths).failures.map Prod.fst = paths.filter (!source.takes ·) := by
    rw [← haccount.failed]
    simp [Source.summaryOf, LoadReport.summary]
  refine ⟨?_, ?_, hfailures, fun f hf => ?_, fun f hf => ?_, ?_, fun t => ?_,
    summary_counts source paths⟩
  · exact List.length_map _
  · have htotal := haccount.total
    rw [← Source.map_fst_registered, LoadReport.total] at htotal
    rw [← htotal]
    simp [Source.summaryOf, LoadReport.summary]
  · obtain ⟨failure, hfailure, rfl⟩ := List.mem_map.1 hf
    obtain ⟨hskips, hne⟩ := haccount.faults failure hfailure
    exact ⟨failure.faults, hskips, hne, rfl⟩
  · have hreads := Source.reads_registered hf
    exact ⟨hreads, hreads.traitPathAt⟩
  · exact TraitIndex.pairwise_summary _
  · rw [← mem_keys_indexOf, Source.summaryOf, LoadReport.summary, List.mem_map]
    constructor
    · rintro ⟨e, he, rfl⟩
      exact (TraitIndex.mem_summary.1 he).1
    · intro ht
      exact ⟨(t, _), TraitIndex.mem_summary.2 ⟨ht, rfl⟩, rfl⟩

end

/-! ## Answers -/

/-- What `load` answers: a summary, with exit code 0 if and only if nothing failed, or nothing and exit
    code 1. -/
inductive LoadAnswer : Except CommandFault Answer → Option Summary → Prop
  | summary (s : Summary) : LoadAnswer (.ok ⟨if s.failures.isEmpty then 0 else 1, s.text, []⟩) (some s)
  | nothing (events : List LogEvent) : LoadAnswer (.ok ⟨1, [], events⟩) none

/-- What `show` answers: descriptors, each on a line, with exit code 0, or nothing and exit code 1. -/
inductive ShowAnswer : Except CommandFault Answer → List Text → Prop
  | descriptors {ds : List Text} : ds ≠ [] →
      ShowAnswer (.ok ⟨0, ds.flatMap (· ++ lit "\n"), []⟩) ds
  | nothing (events : List LogEvent) : ShowAnswer (.ok ⟨1, [], events⟩) []

section
variable (c : Catalog) (tree : FileTree)

theorem answer_fst (command : Command) (strict : Bool) :
    (c.answer tree command strict).1 =
      answerLoad command (c.loadFresh tree strict).2.world (c.loadFresh tree strict).1 := by
  rw [Catalog.answer]
  dsimp only
  cases answerLoad command (c.loadFresh tree strict).2.world (c.loadFresh tree strict).1 <;> rfl

end

theorem list_source {s : Store} {tree : FileTree} {paths : List Text} (hl : s.list tree = .ok paths) :
    (s.source tree).list = .ok (paths, [.found paths.length s.root.render]) := by
  change (s.list tree >>= _) = _
  rw [hl]
  rfl

theorem showAnswer_answers (t : Text) (ix : TraitIndex) :
    ShowAnswer (.ok (showAnswer t ix)) (ix.implementorsOf t) := by
  rw [showAnswer]
  cases hd : ix.implementorsOf t with
  | nil => exact .nothing _
  | cons d ds => exact .descriptors (List.cons_ne_nil d ds)

theorem Summary.scalar_text (s : Summary) : s.text.Scalar :=
  (Json.Document.scalar_render 0 _).append (.lit _)

/-- Descriptors without surrogates are printed without any. -/
theorem ShowAnswer.scalar_text {ds : List Text} {answered : Except CommandFault Answer} {a : Answer}
    (h : ShowAnswer answered ds) (hds : ∀ d ∈ ds, d.Scalar) (ha : answered = .ok a) :
    a.text.Scalar := by
  cases h with
  | descriptors _ =>
    cases ha
    exact .flatMap fun d hd => (hds d hd).append (.lit _)
  | nothing events =>
    cases ha
    exact List.forall_mem_nil _

section
variable {c : Catalog} {tree : FileTree} {strict : Bool} {paths : List Text}

/-- A fresh catalog in which no file ends the load. -/
theorem loadFresh_registered (hl : c.store.list tree = .ok paths)
    (hj : ∀ p ∈ paths, (c.store.source tree).Judges p)
    (hs : (strict || c.rules.files.strict) = false ∨
      ∀ p ∈ paths, (c.store.source tree).takes p = true) :
    (c.loadFresh tree strict).1 = .ok ⟨((c.store.source tree).registered paths).map Prod.fst,
        paths.filterMap (c.store.source tree).failure?⟩ ∧
      (c.loadFresh tree strict).2.world = (c.store.source tree).indexOf paths := by
  obtain ⟨t, ht, hw⟩ := exec_loadThenInstall_registered c.rules.registry.logDeliveries
    (list_source hl) hj hs
  have hloaded : c.loadFresh tree strict = (.ok _, t) := ht
  rw [hloaded]
  exact ⟨rfl, hw⟩

/-- A fresh catalog whose load ends early. -/
theorem loadFresh_ended {f : Failure}
    (he : (c.store.source tree).ending (strict || c.rules.files.strict) = .error f) :
    (c.loadFresh tree strict).1 = .error f :=
  exec_loadThenInstall_ended (c.indexHook ()) he

/-- If no file ends the load, `load` prints the summary and `show` what the index has. -/
theorem answers_registered (hl : c.store.list tree = .ok paths)
    (hj : ∀ p ∈ paths, (c.store.source tree).Judges p)
    (hs : (strict || c.rules.files.strict) = false ∨
      ∀ p ∈ paths, (c.store.source tree).takes p = true) :
    LoadAnswer (c.answer tree .load strict).1 (some ((c.store.source tree).summaryOf paths)) ∧
      ∀ t, ShowAnswer (c.answer tree (.showTrait (.text t)) strict).1
        (((c.store.source tree).indexOf paths).implementorsOf t) := by
  obtain ⟨hreport, hindex⟩ := loadFresh_registered hl hj hs
  constructor
  · rw [answer_fst, hreport, hindex]
    show LoadAnswer (.ok (loadAnswer _ _)) _
    rw [loadAnswer_eq]
    exact .summary _
  · intro t
    rw [answer_fst, hreport, hindex]
    exact showAnswer_answers t _

/-- If a file ends the load, nothing is printed. -/
theorem answers_skipped (hl : c.store.list tree = .ok paths)
    (hj : ∀ p ∈ paths, (c.store.source tree).Judges p)
    (hs : (strict || c.rules.files.strict) = true)
    (hskipped : ∃ p ∈ paths, (c.store.source tree).takes p = false) :
    LoadAnswer (c.answer tree .load strict).1 none ∧
      ∀ t, ShowAnswer (c.answer tree (.showTrait (.text t)) strict).1 [] := by
  obtain ⟨path, faults, hreport⟩ := Source.report_skipped hj hskipped ⟨[], []⟩
  have hended : (c.loadFresh tree strict).1 = .error (.strictLoad path faults) := by
    refine loadFresh_ended ?_
    rw [Source.ending, list_source hl, hs]
    exact hreport
  constructor
  · rw [answer_fst, hended]
    exact .nothing _
  · intro t
    rw [answer_fst, hended]
    exact .nothing _

/-- If the files cannot be listed, every command ends with the reason, unless that is a missing file
    or folder. -/
theorem answer_unlisted {f : FileFault} (hl : c.store.list tree = .error f)
    (hf : f.isAbsence = false) (command : Command) :
    (c.answer tree command strict).1 = .error (.work (.file f)) := by
  have hended : (c.loadFresh tree strict).1 = .error (.file f) := by
    refine loadFresh_ended ?_
    have hsource : (c.store.source tree).list = .error f := by
      change (c.store.list tree >>= _) = _
      rw [hl]
      rfl
    rw [Source.ending, hsource]
  have hanswered : (Failure.file f).isAnswered = false := hf
  rw [answer_fst, hended]
  cases command with
  | load => rw [answerLoad, hanswered, if_neg Bool.false_ne_true]
  | showTrait asked => rw [answerLoad, hanswered, if_neg Bool.false_ne_true]

end

/-- What the two commands print of the files that are listed: with `s?`, the summary that `load`
    prints, if it prints one. -/
structure AnswersAgree (c : Catalog) (tree : FileTree) (strict : Bool) (paths : List Text)
    (s? : Option Summary) : Prop where
  load : LoadAnswer (c.answer tree .load strict).1 s?
  /-- Nothing is printed if the load is strict and a file is skipped. -/
  nothing : s? = none ↔ (strict || c.rules.files.strict) = true ∧
    ∃ p ∈ paths, (c.store.source tree).takes p = false
  balanced : ∀ s ∈ s?, Balanced (c.store.source tree) paths s ∧ s.text.Scalar
  /-- The descriptors of a trait are as many as the summary says, and those of the trait's files. -/
  shows : ∀ t, ∃ ds, ShowAnswer (c.answer tree (.showTrait (.text t)) strict).1 ds ∧
    (∀ n, 0 < n → (ds.length = n ↔ ∃ s ∈ s?, (t, n) ∈ s.traits)) ∧
    (∀ s ∈ s?, ds = (((c.store.source tree).registered paths).filter (·.2.traitPath = t)).flatMap
      (·.2.descriptors)) ∧
    ((∀ f ∈ (c.store.source tree).registered paths, ∀ d ∈ f.2.descriptors, d.Scalar) →
      ∀ a, (c.answer tree (.showTrait (.text t)) strict).1 = .ok a → a.text.Scalar)

section
variable {c : Catalog} {tree : FileTree} {strict : Bool} {paths : List Text}

theorem answersAgree_listed (hl : c.store.list tree = .ok paths)
    (hj : ∀ p ∈ paths, (c.store.source tree).Judges p) : ∃ s?, AnswersAgree c tree strict paths s? := by
  by_cases hs : (strict || c.rules.files.strict) = true ∧
    ∃ p ∈ paths, (c.store.source tree).takes p = false
  case pos =>
    obtain ⟨hload, hshow⟩ := answers_skipped hl hj hs.1 hs.2
    have hnone : ∀ s : Summary, s ∉ (none : Option Summary) := Option.not_mem_none
    refine ⟨none, hload, iff_of_true rfl hs, fun s h => absurd h (hnone s), fun t => ?_⟩
    refine ⟨[], hshow t, fun n hn => ?_, fun s h => absurd h (hnone s), fun _ a ha => ?_⟩
    · exact iff_of_false (Nat.ne_of_lt hn) fun ⟨s, h, _⟩ => hnone s h
    · exact (hshow t).scalar_text (List.forall_mem_nil _) ha
  case neg =>
    have htaken : (strict || c.rules.files.strict) = false ∨
        ∀ p ∈ paths, (c.store.source tree).takes p = true := by
      refine or_iff_not_imp_left.2 fun hstrict p hp => ?_
      rw [Bool.not_eq_false] at hstrict
      rw [← Bool.not_eq_false]
      exact fun hskipped => hs ⟨hstrict, p, hp, hskipped⟩
    obtain ⟨hload, hshow⟩ := answers_registered hl hj htaken
    refine ⟨some ((c.store.source tree).summaryOf paths), hload,
      iff_of_false (Option.some_ne_none _) hs, ?_, fun t => ?_⟩
    · rintro s ⟨⟩
      exact ⟨balanced_summaryOf hj, Summary.scalar_text _⟩
    · refine ⟨_, hshow t, fun n hn => ?_, fun _ _ => implementorsOf_indexOf _ paths t, ?_⟩
      · rw [← mem_traits_summaryOf _ paths hn]
        exact ⟨fun h => ⟨_, rfl, h⟩, fun ⟨_, rfl, h⟩ => h⟩
      · intro hscalar a
        refine (hshow t).scalar_text fun d hd => ?_
        rw [implementorsOf_indexOf] at hd
        obtain ⟨f, hf, hd⟩ := List.mem_flatMap.1 hd
        exact hscalar f (List.mem_filter.1 hf).1 d hd

end

/-- Why the files below a folder that is there are not listed: the pattern cannot be used, a path is
    too long, or folders are nested too deeply. -/
inductive ListingStops (s : Store) : FileFault → Prop
  | pattern {g : PatternFault} : Pattern.parse s.pattern = .error g → ListingStops s (.pattern g)
  | tooLong : ListingStops s (.system (.walk .tooLong))
  | tooDeep : ListingStops s (.system .tooDeep)

/-- **`load` and `show` agree with the files and with each other.**  The base is a folder.

    If its files are listed, and each of them is judged or its reading is refused, each command loads
    them into a catalog of its own, strictly or not.  `load` prints a summary, and its exit code is 0 if
    and only if nothing failed, unless the load is strict and a file is skipped: then it prints nothing
    and its exit code is 1.  The summary agrees with the files.  For every trait, `show` prints
    descriptors with exit code 0, or nothing with exit code 1.  It prints `n` of them, for a positive
    `n`, if and only if `load` prints a summary in which the trait has `n`; then they are those of the
    trait's files, in the order of the list.  What is printed can be encoded, as long as the descriptors
    can.

    If its files are not listed, every command ends with the reason and prints nothing. -/
theorem answers_agree (c : Catalog) (tree : FileTree) (strict : Bool)
    (hroot : tree.isFolder c.store.base = .ok true) :
    (∀ paths, c.store.list tree = .ok paths → (∀ p ∈ paths, (c.store.source tree).Judges p) →
      ∃ s?, AnswersAgree c tree strict paths s?) ∧
    ∀ f, c.store.list tree = .error f → ListingStops c.store f ∧
      ∀ command, (c.answer tree command strict).1 = .error (.work (.file f)) := by
  refine ⟨fun paths hl hj => answersAgree_listed hl hj, fun f hl => ?_⟩
  have hstops : ListingStops c.store f ∧ f.isAbsence = false := by
    rcases Store.list_refused hroot hl with ⟨g, hg, rfl⟩ | ⟨e, rfl | rfl, rfl⟩
    · exact ⟨.pattern hg, rfl⟩
    · exact ⟨.tooLong, rfl⟩
    · exact ⟨.tooDeep, rfl⟩
  exact ⟨hstops.1, answer_unlisted hl hstops.2⟩

/-- A catalog over the folder `docs`. -/
def docsCatalog : Catalog :=
  ⟨⟨.top, [lit "docs"], Store.defaultPattern, Store.defaultEncoding, fun _ => none⟩, sampleRules⟩

/-- A tree with a data file and an empty file that has the name of one. -/
def docsTree : FileTree :=
  ⟨[([lit "docs"], .folder), ([lit "docs", lit "core"], .folder),
    ([lit "docs", lit "core", lit "trait.Mul.js"], .file (mulFile.write.map (·.toNat.toUInt8))),
    ([lit "docs", lit "trait.A.js"], .file [])]⟩

theorem list_docs :
    docsCatalog.store.list docsTree = .ok [lit "core/trait.Mul.js", lit "trait.A.js"] := by
  have hselected : Pattern.select docsTree docsCatalog.store.base
      ⟨[.anyDepth, .wild Wildcard.dataFile], false⟩ =
        .ok [[lit "trait.A.js"], [lit "core", lit "trait.Mul.js"]] := by decide +kernel
  have hfound : [[lit "trait.A.js"], [lit "core", lit "trait.Mul.js"]].filterM (fun path => do
      return (← docsTree.fileAt? (docsCatalog.store.base ++ path)).isSome : _ → Except WalkFault Bool) =
        .ok [[lit "trait.A.js"], [lit "core", lit "trait.Mul.js"]] := by decide +kernel
  have hsorted : Text.sort [lit "trait.A.js", lit "core/trait.Mul.js"] =
      [lit "core/trait.Mul.js", lit "trait.A.js"] :=
    Text.sort_eq (.swap ..) (by decide +kernel)
  rw [Store.list_parsed parse_defaultPattern (by decide +kernel), hselected, ← hsorted]
  simp only [FileFault.ofWalk, Except.mapError, ok_bind, hfound]
  rfl

theorem answers_agree_docs : ∃ s,
    LoadAnswer (docsCatalog.answer docsTree .load false).1 (some s) ∧
      s.files = 1 ∧ s.failures.map Prod.fst = [lit "trait.A.js"] ∧ (lit "core::Mul", 2) ∈ s.traits ∧
      ShowAnswer (docsCatalog.answer docsTree (.showTrait (.text (lit "core::Mul"))) false).1
        [lit "impl Mul for u8", lit "impl Mul for u16"] := by
  have hmul : (docsCatalog.store.source docsTree).verdict (lit "core/trait.Mul.js") =
      .taken mulFile := by decide +kernel
  have hfaulty : (docsCatalog.store.source docsTree).verdict (lit "trait.A.js") =
      .skipped [.missingPreamble, .missingRegistration] := by decide +kernel
  have hj : ∀ p ∈ [lit "core/trait.Mul.js", lit "trait.A.js"],
      (docsCatalog.store.source docsTree).Judges p :=
    List.forall_mem_cons.2 ⟨(Source.reads_of_verdict hmul).judges,
      List.forall_mem_singleton.2 (Source.skips_of_verdict hfaulty).judges⟩
  obtain ⟨s?, hload, hnone, hbalanced, hshow⟩ :=
    (answers_agree docsCatalog docsTree false (by decide +kernel)).1 _ list_docs hj
  have hregistered : (docsCatalog.store.source docsTree).registered
      [lit "core/trait.Mul.js", lit "trait.A.js"] = [(lit "core/trait.Mul.js", mulFile)] := by
    rw [Source.registered, List.filterMap_cons, List.filterMap_cons, Source.taken?, Source.taken?, hmul,
      hfaulty]
    rfl
  have hsome : s? ≠ none := fun h => by cases (hnone.1 h).1
  obtain ⟨s, rfl⟩ := Option.ne_none_iff_exists'.1 hsome
  have hagrees := (hbalanced s rfl).1
  obtain ⟨ds, hds, hcount, hlisted, -⟩ := hshow (lit "core::Mul")
  have hdescriptors : ds = [lit "impl Mul for u8", lit "impl Mul for u16"] := by
    rw [hlisted s rfl, hregistered]
    rfl
  subst hdescriptors
  obtain ⟨_, ⟨⟩, htrait⟩ := (hcount 2 (by decide)).1 rfl
  refine ⟨s, hload, ?_, ?_, htrait, hds⟩
  · rw [hagrees.files, hregistered]
    rfl
  · rw [hagrees.failures]
    simp [Source.takes, hmul, hfaulty]

/-- A catalog over the folder `root`. -/
def rootCatalog : Catalog :=
  ⟨Store.rootStore, sampleRules⟩

theorem load_ends_at_link :
    Store.longLinkTree.isFolder rootCatalog.store.base = .ok true ∧
      (∀ paths, rootCatalog.store.list Store.longLinkTree = .ok paths →
        ∀ p ∈ paths, (rootCatalog.store.source Store.longLinkTree).Judges p) ∧
      ∀ s?, ¬ LoadAnswer (rootCatalog.answer Store.longLinkTree .load false).1 s? := by
  have hlist : rootCatalog.store.list Store.longLinkTree = .error (.system (.walk .tooLong)) := by
    decide +kernel
  refine ⟨by decide +kernel, fun paths hl => ?_, fun s? h => ?_⟩
  · rw [hlist] at hl
    cases hl
  · rw [answer_unlisted hlist rfl] at h
    cases h

end TraitCatalog
