/-
  What a store reads lies at or below its base, unless links lead back to themselves.

  A store judges a path by what it resolves to and opens that afterwards, so the two have to
  agree.  They do when the resolution comes to its end: no link that can be read is on the location
  (`resolve_settled`), and a walk along such a location ends there (`eq_of_walk_settled`).  A
  resolution that runs into a link cycle leaves the rest of the path unseen and only tidies it, and
  then a link on the tidied path leads on when the file is opened.

  * `Store.ReadsWithin`: whatever is read by a path lies at or below the base;
  * `Store.CycleEscape`: how a path leads out of the base by way of a link cycle;
  * `readsWithin_iff_no_cycleEscape`: a path is read within the base exactly if it is not such a
    path.
-/
import TraitCatalog.Proofs.Files.Resolve

namespace TraitCatalog

open Text (lit)

theorem plainName_of_tests {part : Text} (hstay : ¬ (part.isEmpty || part == lit ".") = true)
    (hup : ¬ (part == lit "..") = true) : PlainName part := by
  simp only [Bool.or_eq_true, List.isEmpty_iff, beq_iff_eq, not_or] at hstay hup
  exact ⟨hstay.1, hstay.2, hup⟩

namespace Location

theorem plainName_plainStep {l : Location} (hl : ∀ p ∈ l, PlainName p) (part : Text) :
    ∀ p ∈ plainStep l part, PlainName p := by
  intro p hp
  unfold plainStep at hp
  split_ifs at hp with hstay hup
  · exact hl p hp
  · exact hl p (List.dropLast_subset l hp)
  · rcases List.mem_append.1 hp with hp | hp
    · exact hl p hp
    · rw [List.mem_singleton.1 hp]
      exact plainName_of_tests hstay hup

theorem plainName_tidy (parts : List Text) : ∀ p ∈ tidy parts, PlainName p := by
  have step : ∀ (parts : List Text) (l : Location), (∀ p ∈ l, PlainName p) →
      ∀ p ∈ parts.foldl plainStep l, PlainName p := by
    intro parts
    induction parts with
    | nil => exact fun l hl => hl
    | cons part rest ih => exact fun l hl => ih _ (plainName_plainStep hl part)
  exact step parts [] (by simp)

end Location

namespace FileTree

variable {t : FileTree}

/-! ## Locations without links -/

/-- The names of a location are plain, and `P` holds of the location and of all above it. -/
structure Along (P : Location → Prop) (l : Location) : Prop where
  names : ∀ p ∈ l, PlainName p
  each : ∀ p, p <+: l → P p

namespace Along

variable {P Q : Location → Prop} {l : Location}

theorem top (h : P []) : Along P [] := by
  refine ⟨by simp, fun p hp => ?_⟩
  rw [List.prefix_nil.1 hp]
  exact h

theorem higher {p : Location} (h : Along P l) (hp : p <+: l) : Along P p :=
  ⟨fun q hq => h.names q (hp.subset hq), fun q hq => h.each q (hq.trans hp)⟩

theorem snoc {n : Text} (h : Along P l) (hn : PlainName n) (hl : P (l ++ [n])) :
    Along P (l ++ [n]) := by
  refine ⟨fun p hp => ?_, fun p hp => ?_⟩
  · rcases List.mem_append.1 hp with hp | hp
    · exact h.names p hp
    · rw [List.mem_singleton.1 hp]
      exact hn
  · rcases List.prefix_concat_iff.1 hp with rfl | hp
    · exact hl
    · exact h.each p hp

theorem imp (h : Along P l) (hPQ : ∀ p, P p → Q p) : Along Q l :=
  ⟨h.names, fun p hp => hPQ p (h.each p hp)⟩

theorem linkStart (h : Along P l) (target : Text) : Along P (linkStart l target) := by
  rw [FileTree.linkStart]
  split
  · exact h
  · exact top (h.each [] List.nil_prefix)

end Along

/-- There is no link on the way to a location or at it. -/
abbrev LinkFree (t : FileTree) : Location → Prop :=
  Along t.NoLink

/-- There is no link on the way to a location or at it that can be read. -/
abbrev Settled (t : FileTree) : Location → Prop :=
  Along fun l => t.readableLink? l = none

theorem noLink_top : t.NoLink [] := by
  intro target h
  cases h

theorem LinkFree.settled {l : Location} (h : t.LinkFree l) : t.Settled l :=
  h.imp fun _ => NoLink.readableLink?

/-- On a location that the system accepts, every link could be read. -/
theorem Settled.linkFree {l : Location} (h : t.Settled l) (hl : FitPath l) : t.LinkFree l := by
  refine ⟨h.names, fun p hp target he => ?_⟩
  obtain ⟨up, n, rfl⟩ : ∃ up n, p = up ++ [n] := by
    refine (List.eq_nil_or_concat' p).resolve_left ?_
    rintro rfl
    cases he
  have hnone := h.each _ hp
  obtain ⟨rest, rfl⟩ := hp
  rw [readableLink?_eq he (hl.names n (by simp)).short hl.left.short] at hnone
  cases hnone

/-- A path of plain names that is not too long, and on which no link can be read, leads to the location
    of these names. -/
theorem Walks.eq_append {via : List Location} {here l : Location} {parts : List Text}
    (h : Walks t via here parts l) : (∀ p ∈ parts, PlainName p) →
    (∀ p, p <+: parts → t.readableLink? (here ++ p) = none) →
    pathLength (here ++ parts) ≤ pathLimit → l = here ++ parts := by
  induction h with
  | stop => exact fun _ _ _ => (List.append_nil _).symm
  | stay _ hp _ _ =>
    intro hn _ _
    rw [(hn _ (List.mem_cons_self ..)).not_stay] at hp
    cases hp
  | up _ _ _ => exact fun hn _ _ => absurd rfl (hn _ (List.mem_cons_self ..)).ne_up
  | @enter _ here _ part rest _ _ _ _ _ _ _ ih =>
    intro hn hl hshort
    have hsplit : here ++ part :: rest = here ++ [part] ++ rest := by simp
    have hrest : ∀ p, p <+: rest → t.readableLink? (here ++ [part] ++ p) = none := by
      intro p hp
      rw [List.append_assoc, List.singleton_append]
      exact hl (part :: p) (List.cons_prefix_cons.2 ⟨rfl, hp⟩)
    rw [hsplit] at hshort ⊢
    exact ih (fun p hp => hn p (List.mem_cons_of_mem _ hp)) hrest hshort
  | @follow _ here _ part target rest _ _ hs he _ _ =>
    intro _ hl hshort
    -- The link would have been read.
    have hsplit : here ++ part :: rest = here ++ [part] ++ rest := by simp
    rw [hsplit, pathLength_append] at hshort
    have hnone := hl [part] ⟨rest, rfl⟩
    rw [readableLink?_eq he hs (by omega)] at hnone
    cases hnone

theorem eq_of_walk_settled {l place : Location} (hw : t.walk l = .ok place) (hl : t.Settled l) :
    place = l := by
  obtain ⟨⟨-, hshort⟩, via, -, hwalks⟩ := walk_eq_ok_iff.1 hw
  exact hwalks.eq_append hl.names hl.each hshort

/-! ## Resolving -/

/-- A resolution that ends has followed every link that can be read, if it does so for the targets of
    links. -/
theorem resolveWith_settled {active : List Location}
    {descend : Location → Location → List Text → Resolution}
    (hd : ∀ link start parts l, t.Settled start → descend link start parts = .done l →
      t.Settled l) : ∀ {parts : List Text} {here l : Location}, t.Settled here →
    resolveWith t active descend here parts = .done l → t.Settled l
  | [], here, l, hh, h => by
    rw [resolveWith, Resolution.done.injEq] at h
    rw [← h]
    exact hh
  | part :: rest, here, l, hh, h => by
    rw [resolveWith] at h
    by_cases hstay : (part.isEmpty || part == lit ".") = true
    · rw [if_pos hstay] at h
      exact resolveWith_settled hd hh h
    rw [if_neg hstay] at h
    by_cases hup : (part == lit "..") = true
    · rw [if_pos hup] at h
      exact resolveWith_settled hd (hh.higher (List.dropLast_prefix here)) h
    rw [if_neg hup] at h
    have hn : PlainName part := plainName_of_tests hstay hup
    dsimp only at h
    split at h
    · cases h
    rcases hr : t.readableLink? (here ++ [part]) with _ | target <;> rw [hr] at h <;> dsimp only at h
    · exact resolveWith_settled hd (hh.snoc hn hr) h
    · split at h
      · cases h
      · split at h
        · next hm => exact resolveWith_settled hd (hd _ _ _ _ (hh.linkStart target) hm) h
        · cases h
        · cases h

theorem resolveFrom_settled : ∀ {depth : Nat} {active : List Location} {here l : Location}
    {parts : List Text}, t.Settled here → t.resolveFrom depth active here parts = .done l →
    t.Settled l := by
  intro depth
  induction depth with
  | zero =>
    intro active here l parts hh h
    exact resolveWith_settled (fun _ _ _ _ _ h => by cases h) hh h
  | succ depth ih =>
    intro active here l parts hh h
    exact resolveWith_settled (fun _ _ _ _ hs h => ih hs h) hh h

/-- Resolving a path meets a link while it resolves the target of that same link.  The text is the
    path of the link, joined with all that was to come after it. -/
def RunsIntoCycle (t : FileTree) (parts : List Text) (text : Text) : Prop :=
  t.resolveFrom folderLimit [] [] parts = .stuck text

/-- The path name that a text is tidied to without looking at a tree. -/
def tidied (text : Text) : PathName :=
  ⟨PathName.anchorOf text, Location.tidy (Text.splitOn (.scalar '/') text)⟩

theorem resolve_of_cycle {parts : List Text} {text : Text} (h : t.RunsIntoCycle parts text) :
    t.resolve parts = .ok (tidied text) := by
  rw [resolve, h]
  rfl

/-- **A path resolves to a location without links that can be read, or runs into a link cycle.** -/
theorem resolve_settled {parts : List Text} {p : PathName} (h : t.resolve parts = .ok p) :
    t.Settled p.parts ∨ ∃ text, t.RunsIntoCycle parts text ∧ p = tidied text := by
  rw [resolve] at h
  rcases hr : t.resolveFrom folderLimit [] [] parts with l | text | f <;> rw [hr] at h
  · left
    rw [← Except.ok.inj h]
    exact resolveFrom_settled (Along.top noLink_top.readableLink?) hr
  · exact .inr ⟨text, hr, (Except.ok.inj h).symm⟩
  · cases h

/-! ## Names of paths -/

theorem locate_eq_ok {here : Location} {path : Text} {p : PathName} : t.locate here path = .ok p ↔
    t.resolve ((PathName.parse path).partsFrom here) = .ok p ∧
      t.walk p.parts ≠ .error .unnameable ∧ t.walk p.parts ≠ .error .tooManyLinks := by
  rw [locate]
  rcases hr : t.resolve ((PathName.parse path).partsFrom here) with f | q
  · cases f <;> simp
  · dsimp only
    rw [Except.ok.injEq]
    constructor
    · intro h
      split at h
      · cases h
      · cases h
      · next hu hl =>
        obtain rfl := Except.ok.inj h
        exact ⟨rfl, hu, hl⟩
    · rintro ⟨rfl, hu, hl⟩
      split
      · next hw => exact absurd hw hu
      · next hw => exact absurd hw hl
      · rfl

end FileTree

/-! ## Reading -/

namespace Store

open FileTree (tidied)

variable {s : Store} {t : FileTree} {path text : Text}

/-- The location that a path name stands for is at or below the base. -/
def Holds (s : Store) (p : PathName) : Prop :=
  p.anchor = s.anchor ∧ s.base <+: p.parts

/-- A path from the base opens what is at `place`, after all links. -/
def Opens (s : Store) (t : FileTree) (path : Text) (place : Location) : Prop :=
  ∃ l, s.target t path = .ok l ∧ t.walk l = .ok place

/-- Whatever is read by a path is the content of a file at or below the base: the file stands at
    a place that is reached without links. -/
def ReadsWithin (s : Store) (t : FileTree) (path : Text) : Prop :=
  ∀ text, s.read t path = .ok text → ∃ place content, s.Opens t path place ∧ t.Sound place ∧
    t.lookup place = some (.file content) ∧ readText s.codecs s.encoding content = .ok text ∧
    s.base <+: place

/-- A path that leads out of the base by way of a link cycle. -/
structure CycleEscape (s : Store) (t : FileTree) (path joined : Text) (place : Location) : Prop where
  /-- The path runs into a link cycle. -/
  cycle : t.RunsIntoCycle ((PathName.parse path).partsFrom s.base) joined
  /-- By its name, what the path is tidied to is at or below the base. -/
  named : s.Holds (tidied joined)
  /-- There is a link on it. -/
  detour : ∃ p target, p <+: (tidied joined).parts ∧ t.lookup p = some (.link target)
  /-- It leads to a file outside the base that can be read. -/
  leads : t.walk (tidied joined).parts = .ok place
  readable : ∃ content text, t.lookup place = some (.file content) ∧
    readText s.codecs s.encoding content = .ok text
  outside : ¬ s.base <+: place

theorem Opens.unique {place place' : Location} (h : s.Opens t path place)
    (h' : s.Opens t path place') : place = place' := by
  obtain ⟨l, hl, hw⟩ := h
  obtain ⟨l', hl', hw'⟩ := h'
  rw [hl, Except.ok.injEq] at hl'
  rw [← hl', hw, Except.ok.injEq] at hw'
  exact hw'

theorem target_eq_ok {l : Location} : s.target t path = .ok l ↔
    ∃ p, t.locate s.base path = .ok p ∧ s.Holds p ∧ p.parts = l := by
  rw [target]
  rcases t.locate s.base path with f | p
  · simp [bind, Except.bind]
  · have hin : s.Holds p ↔ p.anchor = s.anchor ∧ s.base.isPrefixOf p.parts = true := by
      rw [Holds, List.isPrefixOf_iff_prefix]
    simp only [bind, Except.bind, Except.ok.injEq]
    by_cases h : p.anchor = s.anchor ∧ s.base.isPrefixOf p.parts = true
    · rw [if_pos h]
      constructor
      · exact fun hl => ⟨p, rfl, hin.2 h, Except.ok.inj hl⟩
      · rintro ⟨q, rfl, -, rfl⟩
        rfl
    · rw [if_neg h]
      constructor
      · intro hl
        cases hl
      · rintro ⟨q, rfl, hq, -⟩
        exact absurd (hin.1 hq) h

theorem target_escapes {p : PathName} (hloc : t.locate s.base path = .ok p) (hout : ¬ s.Holds p) :
    s.target t path = .error (.escapes path) := by
  have hno : ¬ (p.anchor = s.anchor ∧ s.base.isPrefixOf p.parts = true) :=
    fun h => hout ⟨h.1, List.isPrefixOf_iff_prefix.1 h.2⟩
  rw [target, hloc]
  simp only [bind, Except.bind, if_neg hno]
  rfl

/-- What is read by a path is the text of the file that its target opens. -/
theorem read_eq_ok : s.read t path = .ok text ↔ ∃ l place content, s.target t path = .ok l ∧
    t.walk l = .ok place ∧ t.lookup place = some (.file content) ∧
    readText s.codecs s.encoding content = .ok text := by
  constructor
  · intro h
    rw [read] at h
    rcases hl : s.target t path with f | l <;> rw [hl] at h
    · cases h
    rcases hf : t.fileAt? l with f | _ | content
    all_goals
      change (FileFault.ofWalk (t.fileAt? l) >>= _) = _ at h
      rw [hf] at h
    · cases h
    · cases h
    · obtain ⟨place, hw, he⟩ := FileTree.fileAt?_eq_some.1 hf
      exact ⟨l, place, content, rfl, hw, he, h⟩
  · rintro ⟨l, place, content, hl, hw, he, ht⟩
    have hf : t.fileAt? l = .ok (some content) := FileTree.fileAt?_eq_some.2 ⟨place, hw, he⟩
    rw [read, hl]
    change (FileFault.ofWalk (t.fileAt? l) >>= _) = _
    rw [hf]
    exact ht

/-- What a path opens lies at or below the base, unless the path runs into a link cycle and a
    link is on what it is tidied to. -/
theorem prefix_or_cycle {p : PathName} {place : Location} (hloc : t.locate s.base path = .ok p)
    (hin : s.Holds p) (hw : t.walk p.parts = .ok place) : s.base <+: place ∨ ∃ joined,
      t.RunsIntoCycle ((PathName.parse path).partsFrom s.base) joined ∧ p = tidied joined ∧
      ∃ q target, q <+: p.parts ∧ t.lookup q = some (.link target) := by
  have within : t.Settled p.parts → s.base <+: place := by
    intro hfree
    rw [FileTree.eq_of_walk_settled hw hfree]
    exact hin.2
  rcases FileTree.resolve_settled (FileTree.locate_eq_ok.1 hloc).1 with hfree | ⟨joined, hc, rfl⟩
  · exact .inl (within hfree)
  · by_cases hlink : ∃ q target, q <+: (tidied joined).parts ∧ t.lookup q = some (.link target)
    · exact .inr ⟨joined, hc, rfl, hlink⟩
    · have hfree : t.LinkFree (tidied joined).parts :=
        ⟨Location.plainName_tidy _, fun q hq target he => hlink ⟨q, target, hq, he⟩⟩
      exact .inl (within hfree.settled)

theorem CycleEscape.target_eq {joined : Text} {place : Location}
    (h : s.CycleEscape t path joined place) : s.target t path = .ok (tidied joined).parts := by
  refine target_eq_ok.2 ⟨_, FileTree.locate_eq_ok.2 ⟨?_, ?_, ?_⟩, h.named, rfl⟩
  · exact FileTree.resolve_of_cycle h.cycle
  · rw [h.leads]
    exact nofun
  · rw [h.leads]
    exact nofun

/-- **What a path reads lies at or below the base exactly if the path does not lead out by way of
    a link cycle.** -/
theorem readsWithin_iff_no_cycleEscape (s : Store) (t : FileTree) (path : Text) :
    s.ReadsWithin t path ↔ ∀ joined place, ¬ s.CycleEscape t path joined place := by
  constructor
  · intro hr joined place he
    obtain ⟨content, text, hc, ht⟩ := he.readable
    have hread : s.read t path = .ok text :=
      read_eq_ok.2 ⟨_, place, content, he.target_eq, he.leads, hc, ht⟩
    obtain ⟨place', -, hopens, -, -, -, hbase⟩ := hr text hread
    rw [hopens.unique ⟨_, he.target_eq, he.leads⟩] at hbase
    exact he.outside hbase
  · intro hno text h
    obtain ⟨l, place, content, hl, hw, hc, ht⟩ := read_eq_ok.1 h
    obtain ⟨via, hwalks⟩ := FileTree.walks_of_walk hw
    refine ⟨place, content, ⟨l, hl, hw⟩, hwalks.sound FileTree.Sound.top, hc, ht, ?_⟩
    by_contra hout
    obtain ⟨p, hloc, hin, rfl⟩ := target_eq_ok.1 hl
    rcases prefix_or_cycle hloc hin hw with hwithin | ⟨joined, hcyc, rfl, hlink⟩
    · exact hout hwithin
    · exact hno joined place ⟨hcyc, hin, hlink, hw, ⟨content, text, hc, ht⟩, hout⟩

/-- A root with a link to itself, a link to a file outside, and a link whose text goes on from the top
    after the link to itself. -/
def cycleTree : FileTree :=
  ⟨[([lit "outside.js"], .file [0x6F, 0x75, 0x74]),
    ([lit "root"], .folder),
    ([lit "root", lit "jump"], .link (lit "loop//root/trait.Out.js")),
    ([lit "root", lit "loop"], .link (lit "loop")),
    ([lit "root", lit "trait.Out.js"], .link (lit "../outside.js"))]⟩

/-- The link to the outside is refused by its own name, and read by way of the cycle. -/
theorem read_leaves_base_by_cycle :
    ∃ s, Store.atRoot cycleTree [] (fun _ => none) (lit "/root") Store.defaultPattern
        Store.defaultEncoding = .ok s ∧
      s.read cycleTree (lit "trait.Out.js") = .error (.escapes (lit "trait.Out.js")) ∧
      s.read cycleTree (lit "jump") = .ok (lit "out") ∧
      s.read cycleTree (lit "loop/../trait.Out.js") = .ok (lit "out") ∧
      s.Opens cycleTree (lit "loop/../trait.Out.js") [lit "outside.js"] ∧
      ¬ s.ReadsWithin cycleTree (lit "loop/../trait.Out.js") := by
  let s : Store :=
    ⟨.top, [lit "root"], Store.defaultPattern, Store.defaultEncoding, fun _ => none⟩
  have hread : s.read cycleTree (lit "loop/../trait.Out.js") = .ok (lit "out") := by decide +kernel
  have hopens : s.Opens cycleTree (lit "loop/../trait.Out.js") [lit "outside.js"] :=
    ⟨[lit "root", lit "trait.Out.js"], by decide +kernel, by decide +kernel⟩
  refine ⟨s, rfl, by decide +kernel, by decide +kernel, hread, hopens, fun hr => ?_⟩
  obtain ⟨place, -, hopens', -, -, -, hbase⟩ := hr _ hread
  rw [hopens'.unique hopens] at hbase
  exact absurd hbase (by decide)

end Store

end TraitCatalog
