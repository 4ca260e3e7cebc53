/-
  Strict loads.

  A strict load and one that is not strict do the same as long as files are taken.  At the first
  file that is skipped the strict load ends, and leaves what it has done until then.

  * `exec_loadFiles_append`: a load goes through some files, then through the others;
  * `exec_loadFiles_taken`: both kinds of load go in the same way through files that are taken;
  * `report_of_loadFiles`: the report of a load that is not strict, whatever the hooks do;
  * `StrictEnd`: how and where a strict load ends early;
  * `strict_load_agrees`: the two loads compared.
-/
import TraitCatalog.Proofs.LoadAccount

namespace TraitCatalog

open Run
open Text (lit)

variable {η ω : Type}

/-! ## Loading some files, then others -/

section
variable (invoke : Invoke η ω) (source : Source)

theorem exec_loadFiles_append (strict : Bool) (ys : List Text) : ∀ (xs : List Text) (r : LoadReport)
    (s : Stage η ω), exec (loadFiles invoke source strict r (xs ++ ys)) s =
      match exec (loadFiles invoke source strict r xs) s with
      | (.ok r, t) => exec (loadFiles invoke source strict r ys) t
      | (.error f, t) => (.error f, t)
  | [], r, s => rfl
  | x :: xs, r, s => by
    rw [List.cons_append, loadFiles, loadFiles, exec_bind, exec_bind]
    rcases exec (loadFile invoke source x) s with ⟨f | failure?, t⟩
    · rfl
    · rcases failure? with _ | failure
      · exact exec_loadFiles_append strict ys xs _ t
      · cases strict with
        | false => exact exec_loadFiles_append false ys xs _ t
        | true => rfl

/-- Through files that are taken a load goes in the same way whether it is strict or not. -/
theorem exec_loadFiles_taken : ∀ {xs : List Text} (r : LoadReport) (s : Stage η ω),
    (∀ p ∈ xs, source.takes p = true) →
    exec (loadFiles invoke source true r xs) s = exec (loadFiles invoke source false r xs) s
  | [], _, _, _ => rfl
  | x :: xs, r, s, h => by
    obtain ⟨hx, hxs⟩ := List.forall_mem_cons.1 h
    obtain ⟨d, hd⟩ := Source.takes_iff.1 hx
    rw [loadFiles, loadFiles, exec_bind, exec_bind, exec_loadFile_taken invoke s hd]
    rcases exec (register invoke d.toMap) s with ⟨f | _, t⟩
    · rfl
    · exact exec_loadFiles_taken _ _ hxs

/-- A strict load ends at the first file that is skipped. -/
theorem exec_loadFiles_skipped {before : List Text} {path : Text} {faults : List Fault}
    {r r' : LoadReport} {s t : Stage η ω} (htaken : ∀ p ∈ before, source.takes p = true)
    (hskip : source.verdict path = .skipped faults)
    (ht : exec (loadFiles invoke source false r before) s = (.ok r', t)) :
    ∃ e, ∀ rest, exec (loadFiles invoke source true r (before ++ path :: rest)) s =
      (.error (.strictLoad path faults), t.withNote e) := by
  obtain ⟨e, he⟩ := exec_loadFile_skipped invoke t hskip
  refine ⟨e, fun rest => ?_⟩
  rw [exec_loadFiles_append, exec_loadFiles_taken invoke source r s htaken, ht]
  dsimp only
  rw [loadFiles, exec_bind, he]
  rfl

/-- A load that is not strict and ends gives the report of its files, whatever the hooks do. -/
theorem report_of_loadFiles : ∀ {xs : List Text} {r r' : LoadReport} {s t : Stage η ω},
    (∀ p ∈ xs, source.Judges p) → exec (loadFiles invoke source false r xs) s = (.ok r', t) →
    r' = ⟨r.registered ++ xs.filter source.takes, r.failures ++ xs.filterMap source.failure?⟩
  | [], r, r', s, t, _, ht => by
    cases ht
    simp
  | x :: xs, r, r', s, t, h, ht => by
    obtain ⟨hx, hxs⟩ := List.forall_mem_cons.1 h
    rw [loadFiles, exec_bind] at ht
    rw [List.filter_cons, List.filterMap_cons, Source.takes, Source.failure?]
    rcases hx.verdict with ⟨d, hv⟩ | ⟨faults, hv⟩
    · rw [exec_loadFile_taken invoke s hv] at ht
      rcases he : exec (register invoke d.toMap) s with ⟨f | _, u⟩ <;> rw [he] at ht
      · cases ht
      · rw [report_of_loadFiles hxs ht, hv]
        simp
    · obtain ⟨e, he⟩ := exec_loadFile_skipped invoke s hv
      rw [he] at ht
      rw [report_of_loadFiles hxs ht, hv]
      simp

variable {source' : Source}

theorem loadFiles_congr (strict : Bool) : ∀ {xs : List Text} (r : LoadReport),
    (∀ p ∈ xs, source'.read p = source.read p) →
    loadFiles invoke source' strict r xs = loadFiles invoke source strict r xs
  | [], _, _ => rfl
  | x :: xs, r, h => by
    obtain ⟨hx, hxs⟩ := List.forall_mem_cons.1 h
    have hfile : loadFile invoke source' x = loadFile invoke source x := by
      rw [loadFile, loadFile, hx]
    rw [loadFiles, loadFiles, hfile]
    congr 1
    funext failure?
    rcases failure? with _ | failure
    · exact loadFiles_congr strict _ hxs
    · cases strict with
      | false => exact loadFiles_congr false _ hxs
      | true => rfl

/-- A load of all files goes through the files of the list, between two notes. -/
theorem exec_loadAll (strict : Bool) (s : Stage η ω) {paths : List Text} {events : List LogEvent}
    (hl : source.list = .ok (paths, events)) : exec (loadAll invoke source strict) s =
      match exec (loadFiles invoke source strict ⟨[], []⟩ paths) (s.withNotes events) with
      | (.ok r, t) => (.ok r, t.withNote (.loaded r.registered.length r.failures.length))
      | (.error f, t) => (.error f, t) := by
  rw [loadAll, hl]
  dsimp only
  rw [exec_bind, exec_noteAll]
  dsimp only
  rw [exec_bind]
  rcases exec (loadFiles invoke source strict ⟨[], []⟩ paths) (s.withNotes events) with ⟨_ | _, t⟩ <;>
    rfl

end

/-! ## The end of a strict load -/

/-- The source with another list. -/
def Source.listing (source : Source) (paths : List Text) (events : List LogEvent) : Source :=
  { source with list := .ok (paths, events) }

/-- A strict load of `paths` ends early, at the first file that is skipped.  `u` is the stage after
    it, and `v` the stage after a load of the files before that one. -/
structure StrictEnd (invoke : Invoke η ω) (source : Source) (s : Stage η ω) (paths : List Text)
    (events : List LogEvent) (failure : LoadFailure) (before rest : List Text) (u v : Stage η ω) :
    Prop where
  split : paths = before ++ failure.path :: rest
  taken : ∀ p ∈ before, source.takes p = true
  ends : exec (loadAll invoke source true) s =
    (.error (.strictLoad failure.path failure.faults), u)
  /-- The files before are loaded without the others. -/
  upTo : exec (loadAll invoke (source.listing before events) false) s = (.ok ⟨before, []⟩, v)
  /-- The two stages differ in the log at most. -/
  registry : u.registry = v.registry
  world : u.world = v.world
  /-- It does not matter what is listed after the file, nor how that would be read. -/
  unread : ∀ (source' : Source) rest', source'.list = .ok (before ++ failure.path :: rest', events) →
    (∀ p ∈ before ++ [failure.path], source'.read p = source.read p) →
    exec (loadAll invoke source' true) s = exec (loadAll invoke source true) s

section
variable {invoke : Invoke η ω} {source : Source} {s t : Stage η ω} {events : List LogEvent}
  {failure : LoadFailure} {before rest : List Text}

/-- The first file that is skipped is where a strict load ends, if the files before it can be
    loaded. -/
theorem exists_strictEnd (hl : source.list = .ok (before ++ failure.path :: rest, events))
    (htaken : ∀ p ∈ before, source.takes p = true)
    (hskip : source.verdict failure.path = .skipped failure.faults)
    (ht : exec (loadFiles invoke source false ⟨[], []⟩ before) (s.withNotes events) =
      (.ok ⟨before, []⟩, t)) :
    ∃ u v, StrictEnd invoke source s (before ++ failure.path :: rest) events failure before rest u v := by
  have hupTo : exec (loadAll invoke (source.listing before events) false) s =
      (.ok ⟨before, []⟩, t.withNote (.loaded before.length 0)) := by
    have hsame : loadFiles invoke (source.listing before events) false ⟨[], []⟩ before =
        loadFiles invoke source false ⟨[], []⟩ before :=
      loadFiles_congr invoke source false _ fun _ _ => rfl
    rw [exec_loadAll invoke _ false s rfl, hsame, ht]
    rfl
  obtain ⟨e, he⟩ := exec_loadFiles_skipped invoke source htaken hskip ht
  have hends : exec (loadAll invoke source true) s =
      (.error (.strictLoad failure.path failure.faults), t.withNote e) := by
    rw [exec_loadAll invoke source true s hl, he]
  refine ⟨t.withNote e, _, rfl, htaken, hends, hupTo, rfl, rfl, fun source' rest' hl' hread => ?_⟩
  have hsplit : before ++ failure.path :: rest' = before ++ [failure.path] ++ rest' := by simp
  have hone := he []
  rw [← loadFiles_congr invoke source true _ hread] at hone
  rw [hends, exec_loadAll invoke source' true s hl', hsplit, exec_loadFiles_append, hone]

end

/-- **A strict load agrees with one that is not strict up to the first file that is skipped.**  With
    hooks that return, the load that is not strict ends with a report.  Whenever it does, and
    nothing failed, the strict load from the same stage is the same; and if something failed, the
    strict load fails with the first failure of the report, and leaves the registry and the hooks
    as a load of the files before it does. -/
theorem strict_load_agrees (invoke : Invoke η ω) (source : Source) (s : Stage η ω)
    (paths : List Text) (events : List LogEvent) (hl : source.list = .ok (paths, events))
    (hj : ∀ p ∈ paths, source.Judges p) :
    (∀ calm, invoke.Calm calm → s.HookAmong calm →
      ∃ r t, exec (loadAll invoke source false) s = (.ok r, t)) ∧
    ∀ r t, exec (loadAll invoke source false) s = (.ok r, t) →
      (r.failures = [] → exec (loadAll invoke source true) s = (.ok r, t)) ∧
      ∀ failure more, r.failures = failure :: more → ∃ before rest u v,
        StrictEnd invoke source s paths events failure before rest u v := by
  refine ⟨fun calm hc hs => ?_, fun r t ht => ?_⟩
  · obtain ⟨t, ht, -⟩ := @Accepts.loadAll _ _ _ _ hc.accepts source s [] false hs
    rw [Source.ending, hl] at ht
    exact ⟨_, t, ht.trans (congrArg (·, t) (Source.report_judged hj))⟩
  have hall := exec_loadAll invoke source false s hl
  rw [ht] at hall
  rcases hfiles : exec (loadFiles invoke source false ⟨[], []⟩ paths) (s.withNotes events) with
    ⟨f | r', t'⟩ <;> rw [hfiles] at hall <;> cases hall
  obtain rfl := report_of_loadFiles invoke source hj hfiles
  refine ⟨fun hnone => ?_, fun failure more hfirst => ?_⟩
  · have htaken : ∀ p ∈ paths, source.takes p = true :=
      fun p hp => (hj p hp).takes (List.filterMap_eq_nil_iff.1 hnone p hp)
    rw [exec_loadAll invoke source true s hl, exec_loadFiles_taken invoke source _ _ htaken,
      ← exec_loadAll invoke source false s hl]
    exact ht
  · obtain ⟨before, path, rest, rfl, hbefore, hpath, -⟩ := List.filterMap_eq_cons_iff.1 hfirst
    obtain ⟨rfl, hskip⟩ := Source.failure?_eq_some.1 hpath
    have hj' : ∀ p ∈ before, source.Judges p := fun p hp => hj p (List.mem_append_left _ hp)
    have htaken : ∀ p ∈ before, source.takes p = true := fun p hp => (hj' p hp).takes (hbefore p hp)
    -- The load went through the files before the failure, and found nothing to report.
    rw [exec_loadFiles_append] at hfiles
    rcases hx : exec (loadFiles invoke source false ⟨[], []⟩ before) (s.withNotes events) with
      ⟨f | r', u⟩ <;> rw [hx] at hfiles
    · cases hfiles
    · obtain rfl := report_of_loadFiles invoke source hj' hx
      rw [List.filter_eq_self.2 htaken, List.filterMap_eq_nil_iff.2 hbefore] at hx
      obtain ⟨u, v, hu⟩ := exists_strictEnd hl htaken hskip hx
      exact ⟨before, rest, u, v, hu⟩

/-- A hook that registers a map of `N` for every other map. -/
def echo : Behaviour Unit Unit := fun _ m =>
  if m.contains (lit "N") then .done else .register (.single (lit "N") []) fun _ => .done

theorem calm_echo : (call echo).Calm (· = .base ()) := by
  rintro _ m s rfl hp
  by_cases hn : m.contains (lit "N")
  · refine ⟨s, ?_, fun h hh => ?_⟩
    · change exec ((echo () m).run (invoke echo 957)) s = _
      rw [echo, if_pos hn]
      rfl
    · rw [hp] at hh
      exact (Phase.live.inj hh).symm
  · refine ⟨s.withDelivery ⟨.base (), .single (lit "N") [], .direct⟩, ?_, fun h hh => ?_⟩
    · change exec ((echo () m).run (invoke echo 957)) s = _
      rw [echo, if_neg hn, Plan.run, exec_bind, exec_attempt, exec_register_live _ _ _ _ hp]
      rfl
    · rw [Stage.phase_withDelivery, hp] at hh
      exact (Phase.live.inj hh).symm

theorem strict_load_agrees_mixed :
    let s : Stage (Hook Unit) Unit := Stage.withPhase (.fresh ()) (.live (.base ()))
    (call echo).Calm (· = .base ()) ∧
    ∃ u, exec (loadAll (call echo) mixedSource true) s =
        (.error (.strictLoad (lit "trait.A.js") [.unreadable (lit "denied")]), u) ∧
      u.registry.deliveries.map Delivery.map = [.single (lit "N") [], mulFile.toMap] := by
  intro s
  obtain ⟨hreturns, hagrees⟩ := strict_load_agrees (call echo) mixedSource s _ [] rfl judges_mixed
  obtain ⟨r, t, ht⟩ := hreturns _ calm_echo fun _ hh => (Phase.live.inj hh).symm
  have hreport : (exec (loadAll (call echo) mixedSource false) s).1.toOption.map LoadReport.failures =
      some [⟨lit "trait.A.js", [.unreadable (lit "denied")]⟩,
        ⟨lit "trait.B.js", [.missingPreamble, .missingRegistration]⟩] := by decide +kernel
  rw [ht] at hreport
  obtain ⟨before, rest, u, v, hu⟩ := (hagrees r t ht).2 _ _ (Option.some.inj hreport)
  refine ⟨calm_echo, u, hu.ends, ?_⟩
  have hmaps : (exec (loadAll (call echo) mixedSource true) s).2.registry.deliveries.map Delivery.map =
      [.single (lit "N") [], mulFile.toMap] := by decide +kernel
  rw [hu.ends] at hmaps
  exact hmaps

end TraitCatalog
