/-
  Loads in another order.

  Two sources list the same files, each in its own order, and give the same texts for them.  Loading
  them makes the same indexes, but for the order in which descriptors of one trait arrive.

  * `TraitIndex.summary_perm` and `TraitIndex.implementorsOf_perm`: what an index keeps when maps come
    in another order;
  * `Source.taken_perm`: the verdict on a file does not depend on where it is listed, so that both
    loads register the same data files;
  * `implementorsOf_once`: the files of a trait with one path arrive in one order only;
  * `load_order_irrelevant`: the two loads compared.
-/
import TraitCatalog.Proofs.LoadAccount
import TraitCatalog.Proofs.TraitIndex

namespace TraitCatalog

open Run
open Text (lit)

/-! ## Maps in another order -/

namespace TraitIndex

variable {ms ms' : List ImplementorMap}

theorem keys_perm (h : ms.Perm ms') :
    (ms.foldl receive .empty).index.keys.Perm (ms'.foldl receive .empty).index.keys := by
  have hnodup : ∀ ix : TraitIndex, ix.index.keys.Nodup := fun ix => ix.index.nodup
  rw [List.perm_ext_iff_of_nodup (hnodup _) (hnodup _)]
  intro t
  rw [@keys_foldl_receive ms .empty [] rfl, @keys_foldl_receive ms' .empty [] rfl,
    List.mem_eraseDups, List.mem_eraseDups]
  exact (h.flatMap_right OrderedMap.keys).mem_iff

/-- The descriptors of a trait are the same, in some order. -/
theorem implementorsOf_perm (h : ms.Perm ms') (t : Text) :
    ((ms.foldl receive .empty).implementorsOf t).Perm
      ((ms'.foldl receive .empty).implementorsOf t) := by
  rw [implementorsOf_foldl_receive, implementorsOf_foldl_receive]
  exact (h.flatMap_right (·.descriptorsOf t)).append_left _

/-- The summary is the same. -/
theorem summary_perm (h : ms.Perm ms') :
    (ms.foldl receive .empty).summary = (ms'.foldl receive .empty).summary := by
  rw [summary, summary, Text.sort_congr (keys_perm h)]
  refine List.map_congr_left fun t _ => ?_
  rw [(implementorsOf_perm h t).length_eq]

end TraitIndex

/-! ## Files in another order -/

namespace Source

variable {source source' : Source} {paths paths' : List Text} {path : Text}

/-- The data file at a path, if it is taken. -/
def taken? (source : Source) (path : Text) : Option DataFile :=
  match source.verdict path with
  | .taken d => some d
  | .skipped _ | .stopped _ => none

theorem taken?_eq_some {d : DataFile} :
    source.taken? path = some d ↔ source.verdict path = .taken d := by
  rw [taken?]
  rcases source.verdict path with d' | faults | f <;> simp

theorem taken_eq_filterMap : ∀ {paths : List Text}, (∀ p ∈ paths, source.Judges p) →
    source.taken false paths = paths.filterMap source.taken?
  | [], _ => rfl
  | path :: rest, h => by
    obtain ⟨hp, hrest⟩ := List.forall_mem_cons.1 h
    have ih := taken_eq_filterMap hrest
    rw [taken, List.filterMap_cons, taken?]
    rcases hp.verdict with ⟨d, hv⟩ | ⟨faults, hv⟩
    · rw [hv]
      exact congrArg (d :: ·) ih
    · rw [hv]
      exact ih

theorem verdict_congr (h : source'.read path = source.read path) :
    source'.verdict path = source.verdict path := by
  rw [verdict, verdict, h]

theorem Judges.congr (hj : source.Judges path) (h : source'.read path = source.read path) :
    source'.Judges path := by
  rcases hj with ⟨hr, ho⟩ | ⟨hr, hf⟩
  · exact .read (h.trans hr) ho
  · exact .refused (h.trans hr) hf

section
variable (hp : paths.Perm paths') (hread : ∀ p ∈ paths, source'.read p = source.read p)
include hp hread

theorem verdict_perm {p : Text} (hm : p ∈ paths') : source'.verdict p = source.verdict p :=
  verdict_congr (hread p (hp.mem_iff.2 hm))

theorem takes_perm : (paths.filter source.takes).Perm (paths'.filter source'.takes) := by
  have heq : paths'.filter source'.takes = paths'.filter source.takes := by
    refine List.filter_congr fun p hm => ?_
    rw [takes, takes, verdict_perm hp hread hm]
  rw [heq]
  exact hp.filter _

/-- What is picked by the verdicts is the same, in some order. -/
theorem filterMap_perm {β : Type} (pick : Source → Text → Option β)
    (hpick : ∀ p, source'.verdict p = source.verdict p → pick source' p = pick source p) :
    (paths.filterMap (pick source)).Perm (paths'.filterMap (pick source')) := by
  have heq : paths'.filterMap (pick source') = paths'.filterMap (pick source) :=
    List.filterMap_congr fun p hm => hpick p (verdict_perm hp hread hm)
  rw [heq]
  exact hp.filterMap _

theorem failure?_perm :
    (paths.filterMap source.failure?).Perm (paths'.filterMap source'.failure?) := by
  refine filterMap_perm hp hread failure? fun p hv => ?_
  rw [failure?, failure?, hv]

/-- Both loads register the same data files. -/
theorem taken_perm (hj : ∀ p ∈ paths, source.Judges p) (hj' : ∀ p ∈ paths', source'.Judges p) :
    (source.taken false paths).Perm (source'.taken false paths') := by
  rw [taken_eq_filterMap hj, taken_eq_filterMap hj']
  refine filterMap_perm hp hread taken? fun p hv => ?_
  rw [taken?, taken?, hv]

end

theorem exists_of_mem_taken (hj : ∀ p ∈ paths, source.Judges p) {d : DataFile}
    (hd : d ∈ source.taken false paths) :
    ∃ p ∈ paths.filter source.takes, source.verdict p = .taken d := by
  rw [taken_eq_filterMap hj] at hd
  obtain ⟨p, hp, hv⟩ := List.mem_filterMap.1 hd
  have hv := taken?_eq_some.1 hv
  exact ⟨p, List.mem_filter.2 ⟨hp, takes_iff.2 ⟨d, hv⟩⟩, hv⟩

/-- If the files that are taken have different trait paths, those of a trait are all the same one. -/
theorem taken_unique (hj : ∀ p ∈ paths, source.Judges p)
    (hone : ∀ p ∈ paths.filter source.takes, ∀ q ∈ paths.filter source.takes,
      traitPathAt p = traitPathAt q → p = q) {d d' : DataFile} (hd : d ∈ source.taken false paths)
    (hd' : d' ∈ source.taken false paths) (h : d.traitPath = d'.traitPath) : d = d' := by
  obtain ⟨p, hp, hv⟩ := exists_of_mem_taken hj hd
  obtain ⟨q, hq, hv'⟩ := exists_of_mem_taken hj hd'
  have htrait : traitPathAt p = traitPathAt q := by
    rw [(reads_of_verdict hv).traitPathAt, (reads_of_verdict hv').traitPathAt, h]
  rw [hone p hp q hq htrait, hv'] at hv
  exact (Verdict.taken.inj hv).symm

end Source

theorem descriptorsOf_toMap (d : DataFile) (t : Text) :
    d.toMap.descriptorsOf t = if d.traitPath = t then d.descriptors else [] := by
  have hget : d.toMap.get? t = [(d.traitPath, d.descriptors)].lookup t := rfl
  rw [ImplementorMap.descriptorsOf, hget, List.lookup_cons, List.lookup_nil]
  by_cases h : d.traitPath = t
  · rw [if_pos h, h, beq_self_eq_true]
    rfl
  · rw [if_neg h, beq_false_of_ne (Ne.symm h)]
    rfl

/-- A trait gets its descriptors from its own data files. -/
theorem flatMap_descriptorsOf_toMap (t : Text) (ds : List DataFile) :
    (ds.map DataFile.toMap).flatMap (·.descriptorsOf t) =
      (ds.filter (·.traitPath = t)).flatMap DataFile.descriptors := by
  induction ds with
  | nil => rfl
  | cons d ds ih =>
    rw [List.map_cons, List.flatMap_cons, ih, descriptorsOf_toMap, List.filter_cons]
    by_cases h : d.traitPath = t <;> simp [h]

/-- If the data files of every trait are all the same one, their order does not show. -/
theorem implementorsOf_once {ds ds' : List DataFile} (hp : ds.Perm ds')
    (hone : ∀ d ∈ ds, ∀ d' ∈ ds, d.traitPath = d'.traitPath → d = d') (t : Text) :
    ((ds.map DataFile.toMap).foldl TraitIndex.receive .empty).implementorsOf t =
      ((ds'.map DataFile.toMap).foldl TraitIndex.receive .empty).implementorsOf t := by
  -- Lists of one data file, repeated, are equal if they are permutations of each other.
  have hsame : ds.filter (·.traitPath = t) = ds'.filter (·.traitPath = t) := by
    refine (hp.filter _).eq_of_pairwise (fun d d' hd hd' _ _ => ?_)
      (List.pairwise_of_forall fun _ _ => trivial) (List.pairwise_of_forall fun _ _ => trivial)
    rw [← (hp.filter _).mem_iff, List.mem_filter] at hd'
    rw [List.mem_filter] at hd
    obtain ⟨hm, ht⟩ := hd
    obtain ⟨hm', ht'⟩ := hd'
    rw [decide_eq_true_eq] at ht ht'
    exact hone d hm d' hm' (ht.trans ht'.symm)
  rw [TraitIndex.implementorsOf_foldl_receive, TraitIndex.implementorsOf_foldl_receive,
    flatMap_descriptorsOf_toMap, flatMap_descriptorsOf_toMap, hsame]

/-! ## Loads -/

/-- A load of files that are all taken or skipped, into a fresh registry on which the index is
    installed afterwards. -/
theorem exec_loadThenInstall_judged {source : Source} {paths : List Text} {events : List LogEvent}
    {h : Hook Unit} (hroom : h.frames ≤ callLimit) (hl : source.list = .ok (paths, events))
    (hj : ∀ p ∈ paths, source.Judges p) :
    ∃ t, exec (loadThenInstall (call collect) source false h) (.fresh .empty) =
        (.ok ⟨paths.filter source.takes, paths.filterMap source.failure?⟩, t) ∧
      t.world = ((source.taken false paths).map DataFile.toMap).foldl TraitIndex.receive .empty := by
  have hending : source.ending false =
      .ok ⟨paths.filter source.takes, paths.filterMap source.failure?⟩ := by
    rw [Source.ending, hl]
    exact Source.report_judged hj
  have hmaps : source.maps false = (source.taken false paths).map DataFile.toMap := by
    rw [Source.maps, hl]
  rw [← hmaps]
  exact exec_loadThenInstall_of_ending hroom hending

/-- **The order in which files are listed does not matter.**  Two sources list the same files and
    give the same texts for them, and every file is judged or refused.  Loading each into a fresh
    registry and installing a fresh index ends with a report.  There may be wrappers around the
    index, as long as a call of them all has room on the stack, as that of the bare index has.  The
    summaries of the two indexes are equal; the reports have the same files and failures, and the
    indexes have the same descriptors under every trait, up to order; and under every trait they are
    in the same order, unless two files that were registered have one trait path. -/
theorem load_order_irrelevant (source source' : Source) (h : Hook Unit)
    (hroom : h.frames ≤ callLimit) (paths paths' : List Text) (events events' : List LogEvent)
    (hl : source.list = .ok (paths, events)) (hl' : source'.list = .ok (paths', events'))
    (hp : paths.Perm paths')
    (hread : ∀ p ∈ paths, source'.read p = source.read p) (hj : ∀ p ∈ paths, source.Judges p) :
    ∃ r t r' t',
      exec (loadThenInstall (call collect) source false h) (.fresh .empty) = (.ok r, t) ∧
      exec (loadThenInstall (call collect) source' false h) (.fresh .empty) = (.ok r', t') ∧
      t.world.summary = t'.world.summary ∧
      r.registered.Perm r'.registered ∧ r.failures.Perm r'.failures ∧
      (∀ trait_, (t.world.implementorsOf trait_).Perm (t'.world.implementorsOf trait_)) ∧
      ((∀ p ∈ r.registered, ∀ q ∈ r.registered, traitPathAt p = traitPathAt q → p = q) →
        ∀ trait_, t.world.implementorsOf trait_ = t'.world.implementorsOf trait_) := by
  have hj' : ∀ p ∈ paths', source'.Judges p := by
    intro p hm
    have hm := hp.mem_iff.2 hm
    exact (hj p hm).congr (hread p hm)
  have htaken := Source.taken_perm hp hread hj hj'
  have hmaps := htaken.map DataFile.toMap
  obtain ⟨t, ht, hw⟩ := exec_loadThenInstall_judged hroom hl hj
  obtain ⟨t', ht', hw'⟩ := exec_loadThenInstall_judged hroom hl' hj'
  refine ⟨_, t, _, t', ht, ht', ?_, Source.takes_perm hp hread, Source.failure?_perm hp hread, ?_, ?_⟩
  · rw [hw, hw']
    exact TraitIndex.summary_perm hmaps
  · intro trait_
    rw [hw, hw']
    exact TraitIndex.implementorsOf_perm hmaps trait_
  · intro hone trait_
    rw [hw, hw']
    exact implementorsOf_once htaken (fun d hd d' hd' => Source.taken_unique hj hone hd hd') trait_

/-- The rows of `mixedSource` in another order. -/
def shuffledSource : Source :=
  .ofRows [⟨lit "trait.B.js", .ok []⟩, ⟨lit "core/trait.Mul.js", .ok mulFile.write⟩,
    ⟨lit "core/trait.Mul.js", .ok []⟩, ⟨lit "trait.A.js", .error (lit "denied")⟩]

theorem load_order_irrelevant_shuffled : ∃ r t r' t',
    exec (loadThenInstall (call collect) mixedSource false (.base ())) (.fresh .empty) = (.ok r, t) ∧
    exec (loadThenInstall (call collect) shuffledSource false (.base ())) (.fresh .empty) =
      (.ok r', t') ∧
    r.registered = [lit "core/trait.Mul.js", lit "core/trait.Mul.js"] ∧
    r.failures.map LoadFailure.path = [lit "trait.A.js", lit "trait.B.js"] ∧
    r.failures.Perm r'.failures ∧ t.world.summary = t'.world.summary ∧
    t.world.implementorsOf (lit "core::Mul") = t'.world.implementorsOf (lit "core::Mul") := by
  have hread : ∀ p ∈ [lit "core/trait.Mul.js", lit "trait.A.js", lit "trait.B.js",
      lit "core/trait.Mul.js"], shuffledSource.read p = mixedSource.read p := by
    refine List.forall_mem_cons.2 ⟨rfl, List.forall_mem_cons.2 ⟨rfl, List.forall_mem_cons.2
      ⟨rfl, List.forall_mem_singleton.2 rfl⟩⟩⟩
  obtain ⟨r, t, r', t', ht, ht', hsummary, -, hfailures, -, hsame⟩ :=
    load_order_irrelevant mixedSource shuffledSource (.base ()) (by decide) _
      [lit "trait.B.js", lit "core/trait.Mul.js", lit "core/trait.Mul.js", lit "trait.A.js"] [] []
      rfl rfl (by decide +kernel) hread judges_mixed
  have hreport : (exec (loadThenInstall (call collect) mixedSource false (.base ()))
      (.fresh .empty)).1.toOption.map (fun r => (r.registered, r.failures.map LoadFailure.path)) =
        some ([lit "core/trait.Mul.js", lit "core/trait.Mul.js"],
          [lit "trait.A.js", lit "trait.B.js"]) := by decide +kernel
  rw [ht] at hreport
  obtain ⟨hregistered, hfailed⟩ := Prod.mk.inj (Option.some.inj hreport)
  have hone : ∀ p ∈ r.registered, ∀ q ∈ r.registered, traitPathAt p = traitPathAt q → p = q := by
    rw [hregistered]
    intro p hp q hq _
    simp only [List.mem_cons, List.not_mem_nil, or_false, or_self] at hp hq
    rw [hp, hq]
  exact ⟨r, t, r', t', ht, ht', hregistered, hfailed, hfailures, hsummary, hsame hone _⟩

end TraitCatalog
