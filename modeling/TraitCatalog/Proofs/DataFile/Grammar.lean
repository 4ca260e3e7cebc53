/-
  The grammar of data files.

  The reader works in stages: it cuts a line at fixed places, trims the list body,
  removes one comma, and hands the rest to a reader of JSON arrays.  The grammar says
  in one piece what passes:

  * `Phrase.Spells`: the declaration and the registration call, with their blanks;
  * `EntryLine line crate ds`: a line that assigns the descriptors `ds` to `crate`, made
    of a literal for the crate and a `ListBody`;
  * `Spelled text es`: a text with both phrases whose entry lines assign the entries
    `es`, in order and to distinct crates.

  `read_eq_ok_iff` and `reads_exactly_grammar` say that the reader accepts exactly these texts.
-/
import Mathlib.Data.List.Forall2
import TraitCatalog.DataFile.Reader
import TraitCatalog.Proofs.Json.StringList
import TraitCatalog.Proofs.OrderedMap
import TraitCatalog.Proofs.Text.Cuts

namespace TraitCatalog

open Text (lit Blanks Sharp)

/-! ## Phrases -/

namespace Phrase

/-- The texts that spell a phrase. -/
inductive Spells : Phrase → Text → Prop
  | nil : Spells [] []
  | word {w ps t} : Spells ps t → Spells (.word w :: ps) (w ++ t)
  | blanks {a ps t} : Blanks a → Spells ps t → Spells (.blanks :: ps) (a ++ t)
  | someBlanks {a ps t} : a ≠ [] → Blanks a → Spells ps t → Spells (.someBlanks :: ps) (a ++ t)

/-- A phrase that begins with a word, and the word with no blank. -/
def beginsSharp : Phrase → Bool
  | .word (c :: _) :: _ => !c.isBlank
  | _ => false

/-- Blanks are always followed by a word that begins with no blank. -/
def definite : Phrase → Bool
  | [] => true
  | .word _ :: ps => definite ps
  | .blanks :: ps | .someBlanks :: ps => beginsSharp ps && definite ps

theorem spells_of_isAtFront : ∀ {p : Phrase} {t : Text}, p.isAtFront t = true →
    ∃ u r, p.Spells u ∧ t = u ++ r
  | [], t, _ => ⟨[], t, .nil, rfl⟩
  | .word w :: ps, t, h => by
    rw [isAtFront] at h
    split at h
    · rename_i r hr
      obtain ⟨u, z, hu, rfl⟩ := spells_of_isAtFront h
      exact ⟨w ++ u, z, .word hu, by rw [Text.dropLead?_eq_some.1 hr, List.append_assoc]⟩
    · simp at h
  | .blanks :: ps, t, h => by
    obtain ⟨u, z, hu, he⟩ := spells_of_isAtFront (p := ps) h
    obtain ⟨a, ha, ht⟩ := Text.skipBlanks_spec t
    exact ⟨a ++ u, z, .blanks ha hu, by rw [ht, he, List.append_assoc]⟩
  | .someBlanks :: ps, t, h => by
    rcases t with _ | ⟨c, t⟩
    · simp [isAtFront] at h
    simp only [isAtFront, Bool.and_eq_true] at h
    obtain ⟨hc, h⟩ := h
    obtain ⟨u, z, hu, he⟩ := spells_of_isAtFront h
    obtain ⟨a, ha, ht⟩ := Text.skipBlanks_spec t
    refine ⟨c :: a ++ u, z, .someBlanks (by simp) ?_ hu, by rw [ht, he]; simp⟩
    intro d hd
    rcases List.mem_cons.1 hd with rfl | hd
    exacts [hc, ha d hd]

theorem Spells.sharp {p : Phrase} {u : Text} (hu : p.Spells u) (hp : beginsSharp p = true)
    (r : Text) : Sharp (u ++ r) := by
  cases hu with
  | nil | blanks | someBlanks => cases hp
  | @word w ps t _ =>
    rcases w with _ | ⟨c, w⟩
    · cases hp
    · exact Text.sharp_cons (by simpa [beginsSharp] using hp) _

theorem isAtFront_of_spells {p : Phrase} {u : Text} (hu : p.Spells u) :
    definite p = true → ∀ r, p.isAtFront (u ++ r) = true := by
  induction hu with
  | nil => intro _ r; rfl
  | word _ ih =>
    intro hd r
    rw [isAtFront, List.append_assoc, Text.dropLead?_append]
    exact ih hd r
  | blanks ha ht ih =>
    intro hd r
    obtain ⟨hs, hd⟩ := Bool.and_eq_true_iff.1 hd
    rw [isAtFront, List.append_assoc, Text.skipBlanks_append ha (ht.sharp hs r)]
    exact ih hd r
  | @someBlanks a ps t hne ha ht ih =>
    intro hd r
    obtain ⟨hs, hd⟩ := Bool.and_eq_true_iff.1 hd
    obtain ⟨c, a, rfl⟩ := List.exists_cons_of_ne_nil hne
    have ha' : Blanks a := fun d h => ha d (List.mem_cons_of_mem c h)
    rw [List.append_assoc, List.cons_append, isAtFront, Text.skipBlanks_append ha' (ht.sharp hs r),
      ih hd r, ha c (by simp)]
    rfl

/-- **A definite phrase occurs in a text exactly if some part of the text spells it.** -/
theorem occursIn_iff {p : Phrase} (hp : definite p = true) : ∀ {t : Text},
    p.occursIn t = true ↔ ∃ a u z, t = a ++ u ++ z ∧ p.Spells u
  | [] => by
    constructor
    · intro h
      obtain ⟨u, r, hu, he⟩ := spells_of_isAtFront h
      exact ⟨[], u, r, by simpa using he, hu⟩
    · rintro ⟨a, u, z, he, hu⟩
      have := isAtFront_of_spells hu hp z
      simp only [List.nil_eq, List.append_eq_nil_iff] at he
      obtain ⟨⟨-, rfl⟩, rfl⟩ := he
      exact this
  | c :: t => by
    rw [occursIn, Bool.or_eq_true, occursIn_iff hp]
    constructor
    · rintro (h | ⟨a, u, z, rfl, hu⟩)
      · obtain ⟨u, r, hu, he⟩ := spells_of_isAtFront h
        exact ⟨[], u, r, by simpa using he, hu⟩
      · exact ⟨c :: a, u, z, rfl, hu⟩
    · rintro ⟨a, u, z, he, hu⟩
      rcases a with _ | ⟨d, a⟩
      · rw [he]
        exact Or.inl (isAtFront_of_spells hu hp z)
      · simp only [List.cons_append, List.cons.injEq] at he
        exact Or.inr ⟨a, u, z, he.2, hu⟩

end Phrase

namespace DataFile

/-! ## List bodies -/

/-- What stands between the blanks at the ends of a list body. -/
inductive ListCore : Text → List Text → Prop
  | nothing : ListCore [] []
  | comma : ListCore (lit ",") []
  | items {t ds} : Json.Items t ds → ListCore t ds
  | itemsComma {t ds a} : Json.Items t ds → Json.Spaces a → ListCore (t ++ a ++ lit ",") ds

/-- The body of a list of descriptors: blanks at the ends, literals with single commas
    between them, and at most one further comma.  Beside a comma only the spaces of JSON can
    stand, and of these a line holds spaces, tabs and carriage returns. -/
inductive ListBody : Text → List Text → Prop
  | mk {a t ds z} : Blanks a → ListCore t ds → Blanks z → ListBody (a ++ t ++ z) ds

theorem mapM_id_eq_some : ∀ {items : List (Option Text)} {ds : List Text},
    items.mapM id = some ds ↔ items = ds.map some
  | [], ds => by
    cases ds <;> simp
  | none :: items, ds => by
    cases ds <;> simp
  | some v :: items, ds => by
    simp only [List.mapM_cons, id_eq, bind, Option.bind_some, Option.bind_eq_some_iff,
      mapM_id_eq_some, pure, Option.some.injEq]
    constructor
    · rintro ⟨es, rfl, rfl⟩
      rfl
    · intro h
      rcases ds with _ | ⟨d, ds⟩
      · simp at h
      · simp only [List.map_cons, List.cons.injEq, Option.some.injEq] at h
        exact ⟨ds, h.2, by rw [h.1]⟩

/-- What the array reader is given of a list body. -/
def inside (body : Text) : Text :=
  (Text.dropTail? (lit ",") (Text.trim body)).getD (Text.trim body)

theorem readBody_eq_ok {body : Text} {ds : List Text} :
    readBody body = .ok (some ds) ↔ Json.ArrayInside (inside body) ds := by
  rw [← Json.readItems_iff]
  unfold readBody
  dsimp only
  split
  · rename_i items hi
    have hi' : Json.readItems (inside body ++ [.scalar ']']) = .ok items := hi
    rw [hi', Except.ok.injEq, Except.ok.injEq, mapM_id_eq_some]
  all_goals
    rename_i hi
    have hi' : Json.readItems (inside body ++ [.scalar ']']) = .error _ := hi
    simp [hi']

theorem isBlank_of_isSpace {c : CodePoint} (h : Json.isSpace c = true) : c.isBlank = true := by
  cases c with
  | surrogate n => cases h
  | scalar ch =>
    have hch : ch ∈ [' ', '\t', '\n', '\r'] := List.contains_iff_mem.1 h
    simp only [List.mem_cons, List.not_mem_nil, or_false] at hch
    rcases hch with rfl | rfl | rfl | rfl
    · rfl
    · rfl
    · rfl
    · rfl

theorem blanks_of_spaces {a : Text} (h : Json.Spaces a) : Blanks a :=
  fun c hc => isBlank_of_isSpace (h c hc)

theorem ListCore.sharp {t : Text} {ds : List Text} (h : ListCore t ds) :
    Sharp t ∧ Sharp t.reverse := by
  cases h with
  | nothing => exact ⟨Text.sharp_nil, Text.sharp_nil⟩
  | comma => exact ⟨Text.sharp_cons (by decide) _, Text.sharp_cons (by decide) _⟩
  | items hi =>
    refine ⟨?_, ?_⟩
    · obtain ⟨u, rfl⟩ := hi.eq_cons
      exact Text.sharp_cons (by decide) _
    · obtain ⟨u, rfl⟩ := hi.eq_concat
      rw [List.reverse_append]
      exact Text.sharp_cons (by decide) _
  | itemsComma hi _ =>
    refine ⟨?_, ?_⟩
    · obtain ⟨u, rfl⟩ := hi.eq_cons
      exact Text.sharp_cons (by decide) _
    · rw [List.reverse_append]
      exact Text.sharp_cons (by decide) _

/-- A comma at the end is cut off, a literal is not. -/
theorem ListCore.inside_eq {t : Text} {ds : List Text} (h : ListCore t ds) :
    Json.ArrayInside ((Text.dropTail? (lit ",") t).getD t) ds := by
  have single : ∀ {u : Text}, Json.Items u ds → Json.ArrayInside u ds := by
    intro u hu
    have := Json.ArrayInside.items Json.spaces_nil hu Json.spaces_nil
    simpa using this
  cases h with
  | nothing => exact .empty Json.spaces_nil
  | comma => exact .empty Json.spaces_nil
  | items hi =>
    have hn : Text.dropTail? (lit ",") t = none := by
      rw [Option.eq_none_iff_forall_ne_some]
      intro r hr
      obtain ⟨u, rfl⟩ := hi.eq_concat
      have := (List.append_inj' (Text.dropTail?_eq_some.1 hr) rfl).2
      exact absurd this (by decide)
    rw [hn]
    exact single hi
  | itemsComma hi ha =>
    rw [Text.dropTail?_append]
    have := Json.ArrayInside.items Json.spaces_nil hi ha
    simpa using this

theorem inside_append {a t z : Text} {ds : List Text} (ha : Blanks a) (ht : ListCore t ds)
    (hz : Blanks z) : Json.ArrayInside (inside (a ++ t ++ z)) ds := by
  rw [inside, Text.trim_append ha ht.sharp.1 ht.sharp.2 hz]
  exact ht.inside_eq

theorem listCore_of_inside {t : Text} {ds : List Text} (ht : Sharp t) (ht' : Sharp t.reverse)
    (h : Json.ArrayInside ((Text.dropTail? (lit ",") t).getD t) ds) : ListCore t ds := by
  rcases hd : Text.dropTail? (lit ",") t with _ | r
  · rw [hd, Option.getD_none] at h
    cases h with
    | empty ha =>
      rw [← List.append_nil t] at ht
      rw [Text.nil_of_blanks (blanks_of_spaces ha) ht]
      exact .nothing
    | @items a u _ b ha hu hb =>
      rw [List.append_assoc] at ht
      have hb' : Blanks b.reverse := fun c hc => blanks_of_spaces hb c (List.mem_reverse.1 hc)
      rw [List.reverse_append] at ht'
      have hbn := List.reverse_eq_nil_iff.1 (Text.nil_of_blanks hb' ht')
      rw [Text.nil_of_blanks (blanks_of_spaces ha) ht, hbn, List.nil_append, List.append_nil]
      exact .items hu
  · rw [hd, Option.getD_some] at h
    obtain rfl := Text.dropTail?_eq_some.1 hd
    cases h with
    | empty ha =>
      rw [Text.nil_of_blanks (blanks_of_spaces ha) ht]
      exact .comma
    | @items a u _ b ha hu hb =>
      rw [List.append_assoc, List.append_assoc] at ht
      rw [Text.nil_of_blanks (blanks_of_spaces ha) ht, List.nil_append]
      exact .itemsComma hu hb

/-- **The body reader accepts exactly the bodies of the grammar.** -/
theorem readBody_iff {body : Text} {ds : List Text} :
    readBody body = .ok (some ds) ↔ ListBody body ds := by
  rw [readBody_eq_ok]
  constructor
  · intro h
    obtain ⟨a, z, ha, hz, he⟩ := Text.trim_spec body
    rw [he]
    exact .mk ha (listCore_of_inside (Text.sharp_trim body) (Text.sharp_reverse_trim body) h) hz
  · rintro ⟨ha, ht, hz⟩
    exact inside_append ha ht hz

/-! ## Entry lines -/

/-- A line that assigns a list of descriptors to a crate. -/
inductive EntryLine : Text → Text → List Text → Prop
  | mk {k crate a b body ds z} : Json.Literal k crate → Blanks a → Blanks b → ListBody body ds →
      Blanks z →
      EntryLine (entryLead ++ k ++ lit "]" ++ a ++ lit "=" ++ b ++ lit "[" ++ body ++ lit "];" ++ z)
        crate ds

theorem takeKey_plain {c : CodePoint} (h₁ : c ≠ .scalar '"') (h₂ : c ≠ .scalar '\\') (t : Text) :
    takeKey (c :: t) = (takeKey t).map fun x => (c :: x.1, x.2) := by
  rw [takeKey.eq_def]
  simp only [h₁, h₂, if_false]

theorem takeKey_escape (e : CodePoint) (t : Text) : takeKey (.scalar '\\' :: e :: t) =
    (takeKey t).map fun x => (.scalar '\\' :: e :: x.1, x.2) := by
  rw [takeKey.eq_def]; rfl

/-- What can stand between the quotes of a key: a quote or a backslash only behind a backslash. -/
inductive RawKey : Text → Prop
  | nil : RawKey []
  | plain {c t} : c ≠ .scalar '"' → c ≠ .scalar '\\' → RawKey t → RawKey (c :: t)
  | escape {c t} : RawKey t → RawKey (.scalar '\\' :: c :: t)

theorem RawKey.of_inside {k : Text} {ps : List Json.Piece} (hk : Json.Inside k ps) : RawKey k := by
  induction hk with
  | nil => exact .nil
  | plain h₁ h₂ _ _ ih => exact .plain h₁ h₂ ih
  | letter _ _ ih => exact .escape ih
  | number hn _ ih =>
    have hx := Json.hexNumber?_digits hn
    simp only [List.forall_mem_cons, List.not_mem_nil, false_imp_iff, implies_true, and_true] at hx
    obtain ⟨⟨-, ha⟩, ⟨-, hb⟩, ⟨-, hc⟩, -, hd⟩ := hx
    exact .escape (.plain ha.1 ha.2 (.plain hb.1 hb.2 (.plain hc.1 hc.2 (.plain hd.1 hd.2 ih))))

theorem takeKey_append {k : Text} (hk : RawKey k) (r : Text) :
    takeKey (k ++ .scalar '"' :: r) = some (k, r) := by
  induction hk with
  | nil => rw [List.nil_append, takeKey.eq_def]; rfl
  | plain h₁ h₂ _ ih => rw [List.cons_append, takeKey_plain h₁ h₂, ih]; rfl
  | escape _ ih => rw [List.cons_append, List.cons_append, takeKey_escape, ih]; rfl

theorem rawKey_of_takeKey {t k r : Text} (h : takeKey t = some (k, r)) :
    RawKey k ∧ t = k ++ .scalar '"' :: r := by
  fun_induction takeKey t generalizing k with
  | case1 => cases h
  | case2 t => cases h; exact ⟨.nil, rfl⟩
  | case3 d t h₁ ih =>
    simp only [Option.map_eq_some_iff, Prod.exists, Prod.mk.injEq] at h
    obtain ⟨k', r', hk, rfl, rfl⟩ := h
    obtain ⟨hraw, rfl⟩ := ih hk
    exact ⟨.escape hraw, rfl⟩
  | case4 => cases h
  | case5 c t h₁ h₂ ih =>
    simp only [Option.map_eq_some_iff, Prod.exists, Prod.mk.injEq] at h
    obtain ⟨k', r', hk, rfl, rfl⟩ := h
    obtain ⟨hraw, rfl⟩ := ih hk
    exact ⟨.plain h₁ h₂ hraw, rfl⟩

/-- **A key ends at the first quote without a backslash.** -/
theorem takeKey_iff {t k r : Text} :
    takeKey t = some (k, r) ↔ RawKey k ∧ t = k ++ .scalar '"' :: r := by
  constructor
  · exact rawKey_of_takeKey
  · rintro ⟨hk, rfl⟩
    exact takeKey_append hk r

/-- A line with its places of cutting. -/
def entryText (key a b body z : Text) : Text :=
  entryLead ++ (.scalar '"' :: key ++ [.scalar '"']) ++ lit "]" ++ a ++ lit "=" ++ b ++ lit "[" ++
    body ++ lit "];" ++ z

/-- A line of the shape of an entry, with its key and its list body as they stand there. -/
inductive EntryShape : Text → Text → Text → Prop
  | mk {key a b body z} : RawKey key → Blanks a → Blanks b → Blanks z →
      EntryShape (entryText key a b body z) key body

theorem splitEntry?_entryText {key a b body z : Text} (hk : RawKey key) (ha : Blanks a)
    (hb : Blanks b) (hz : Blanks z) : splitEntry? (entryText key a b body z) = some (key, body) := by
  have hsharp : Sharp (lit "];").reverse := Text.sharp_cons (by decide) _
  have he : entryText key a b body z = entryLead ++ lit "\"" ++ (key ++ .scalar '"' ::
      (lit "]" ++ (a ++ (lit "=" ++ (b ++ (lit "[" ++ (body ++ lit "];" ++ z))))))) := by
    simp [entryText, lit]
  have h₁ : Text.skipBlanks (a ++ (lit "=" ++ (b ++ (lit "[" ++ (body ++ lit "];" ++ z))))) =
      lit "=" ++ (b ++ (lit "[" ++ (body ++ lit "];" ++ z))) :=
    Text.skipBlanks_append ha (Text.sharp_cons (by decide) _)
  have h₂ : Text.skipBlanks (b ++ (lit "[" ++ (body ++ lit "];" ++ z))) =
      lit "[" ++ (body ++ lit "];" ++ z) :=
    Text.skipBlanks_append hb (Text.sharp_cons (by decide) _)
  have h₃ : Text.trimRight (body ++ lit "];" ++ z) = body ++ lit "];" := by
    refine Text.trimRight_append ?_ hz
    rw [List.reverse_append]
    exact hsharp.append (by decide) _
  rw [he, splitEntry?]
  simp only [Text.dropLead?_append, takeKey_append hk, h₁, h₂, h₃, Text.dropTail?_append, bind,
    Option.bind_some, pure]

theorem entryShape_of_splitEntry? {line key body : Text} (h : splitEntry? line = some (key, body)) :
    EntryShape line key body := by
  simp only [ splitEntry?, bind, Option.bind_eq_some_iff, Text.dropLead?_eq_some,
    Text.dropTail?_eq_some, pure, Option.some.injEq, Prod.exists, Prod.mk.injEq] at h
  obtain ⟨r₁, rfl, key, r₂, hk, r₃, rfl, r₄, h₄, r₅, h₅, body, h₆, rfl, rfl⟩ := h
  obtain ⟨hraw, he⟩ := takeKey_iff.1 hk
  obtain ⟨a, ha, ha'⟩ := Text.skipBlanks_spec r₃
  obtain ⟨b, hb, hb'⟩ := Text.skipBlanks_spec r₄
  obtain ⟨z, hz, hz'⟩ := Text.trimRight_spec r₅
  have hline : entryLead ++ lit "\"" ++ r₁ = entryText key a b body z := by
    rw [he, ha', h₄, hb', h₅, hz', h₆]
    simp [entryText, lit]
  rw [hline]
  exact .mk hraw ha hb hz

/-- **A line is cut exactly if it has the shape of an entry.** -/
theorem splitEntry?_iff {line key body : Text} :
    splitEntry? line = some (key, body) ↔ EntryShape line key body := by
  constructor
  · exact entryShape_of_splitEntry?
  · rintro ⟨hk, ha, hb, hz⟩
    exact splitEntry?_entryText hk ha hb hz

theorem readKey?_iff {key crate : Text} :
    readKey? key = some crate ↔ Json.Literal (.scalar '"' :: key ++ [.scalar '"']) crate :=
  Json.unquote?_iff

/-- **The three checks of a line pass exactly on the entry lines.** -/
theorem entryLine_iff {line crate : Text} {ds : List Text} : EntryLine line crate ds ↔
    ∃ key body, splitEntry? line = some (key, body) ∧ readBody body = .ok (some ds) ∧
      readKey? key = some crate := by
  constructor
  · rintro ⟨hk, ha, hb, hbody, hz⟩
    obtain ⟨hi⟩ := hk
    exact ⟨_, _, splitEntry?_entryText (.of_inside hi) ha hb hz, readBody_iff.2 hbody,
      readKey?_iff.2 (.mk hi)⟩
  · rintro ⟨key, body, hs, hbody, hk⟩
    obtain ⟨-, ha, hb, hz⟩ := splitEntry?_iff.1 hs
    exact .mk (readKey?_iff.1 hk) ha hb (readBody_iff.1 hbody) hz

theorem EntryLine.startsWith {line crate : Text} {ds : List Text} (h : EntryLine line crate ds) :
    line.startsWith entryLead = true := by
  cases h
  exact Text.startsWith_iff.2 ⟨_, by simp only [List.append_assoc]; rfl⟩

/-! ## Lines in order -/

/-- The lines that are entry lines by their beginning assign the entries `es`, in order. -/
def EntryLines (ls : List Text) (es : List (Text × List Text)) : Prop :=
  List.Forall₂ (fun line e => EntryLine line e.1 e.2) (ls.filter (·.startsWith entryLead)) es

theorem entryLines_cons_of_entry {line : Text} {ls : List Text} {es : List (Text × List Text)}
    (h : line.startsWith entryLead = true) : EntryLines (line :: ls) es ↔
      List.Forall₂ (fun line e => EntryLine line e.1 e.2)
        (line :: ls.filter (·.startsWith entryLead)) es := by
  rw [EntryLines, List.filter_cons, if_pos h]

theorem entryLines_cons_of_not_entry {line : Text} {ls : List Text} {es : List (Text × List Text)}
    (h : line.startsWith entryLead = false) : EntryLines (line :: ls) es ↔ EntryLines ls es := by
  rw [EntryLines, List.filter_cons, if_neg (by simp [h]), EntryLines]

theorem readLine_of_not_entry {line : Text} (h : line.startsWith entryLead = false) (found : Found)
    (n : Nat) : readLine found n line = .ok found := by
  simp [readLine, h]

theorem readLine_of_entry {line crate : Text} {ds : List Text} (h : EntryLine line crate ds)
    {found : Found} (hc : crate ∉ found.crates.keys) (n : Nat) :
    readLine found n line = .ok { found with crates := found.crates.put crate ds } := by
  obtain ⟨key, body, hs, hb, hk⟩ := entryLine_iff.1 h
  have hf : found.crates.contains crate = false := by
    rw [← Bool.not_eq_true, OrderedMap.contains_iff]
    exact hc
  simp [readLine, h.startsWith, hs, hb, hk, hf]

/-- The line assigns a list of strings to a key, whatever the key spells. -/
def ListsUnder (line key : Text) : Prop :=
  ∃ body ds, EntryShape line key body ∧ ListBody body ds

theorem EntryLine.listsUnder {line crate : Text} {ds : List Text} (h : EntryLine line crate ds) :
    ∃ key, ListsUnder line key ∧ Json.Literal (.scalar '"' :: key ++ [.scalar '"']) crate := by
  obtain ⟨key, body, hs, hb, hk⟩ := entryLine_iff.1 h
  exact ⟨key, ⟨body, ds, splitEntry?_iff.1 hs, readBody_iff.1 hb⟩, readKey?_iff.1 hk⟩

/-- What reading line number `n` does: nothing, one fault, or one entry. -/
inductive LineReading (found : Found) (n : Nat) (line : Text) : Found → Prop
  | skipped : line.startsWith entryLead = false → LineReading found n line found
  | notStringList : line.startsWith entryLead = true → (∀ key, ¬ ListsUnder line key) →
      LineReading found n line { found with faults := found.faults ++ [.notStringList n] }
  | crateName {key} : line.startsWith entryLead = true → ListsUnder line key →
      (∀ crate, ¬ Json.Literal (.scalar '"' :: key ++ [.scalar '"']) crate) →
      LineReading found n line { found with faults := found.faults ++ [.crateName n] }
  | duplicateCrate {crate ds} : EntryLine line crate ds → crate ∈ found.crates.keys →
      LineReading found n line { found with faults := found.faults ++ [.duplicateCrate crate n] }
  | entry {crate ds} : EntryLine line crate ds → crate ∉ found.crates.keys →
      LineReading found n line { found with crates := found.crates.put crate ds }

theorem lineReading_of_readLine {found found' : Found} {n : Nat} {line : Text}
    (h : readLine found n line = .ok found') : LineReading found n line found' := by
  unfold readLine at h
  split_ifs at h with h₁
  · cases h
    exact .skipped (by simpa using h₁)
  have hlead : line.startsWith entryLead = true := by simpa using h₁
  split at h
  · next hs =>
    cases h
    refine .notStringList hlead ?_
    rintro key ⟨body, ds, hshape, -⟩
    rw [splitEntry?_iff.2 hshape] at hs
    cases hs
  next key body hs =>
  split at h
  · cases h
  · next hb =>
    cases h
    refine .notStringList hlead ?_
    rintro key' ⟨body', ds, hshape, hlist⟩
    rw [splitEntry?_iff.2 hshape] at hs
    cases hs
    rw [readBody_iff.2 hlist] at hb
    cases hb
  next ds hb =>
  split at h
  · next hk =>
    cases h
    refine .crateName hlead ⟨body, ds, splitEntry?_iff.1 hs, readBody_iff.1 hb⟩ ?_
    intro crate hcrate
    rw [readKey?_iff.2 hcrate] at hk
    cases hk
  next crate hk =>
  have hline := entryLine_iff.2 ⟨key, body, hs, hb, hk⟩
  split_ifs at h with hc
  · cases h
    exact .duplicateCrate hline (OrderedMap.contains_iff.1 hc)
  · cases h
    rw [OrderedMap.contains_iff] at hc
    exact .entry hline hc

theorem readLines_cons {found found' : Found} {n : Nat} {line : Text} {ls : List Text} :
    readLines found n (line :: ls) = .ok found' ↔
      ∃ f, readLine found n line = .ok f ∧ readLines f (n + 1) ls = .ok found' := by
  rw [readLines]
  cases readLine found n line with
  | ok f => simp
  | error a => simp

/-- Faults that have been found stay. -/
theorem faults_readLines : ∀ {ls : List Text} {found found' : Found} {n : Nat},
    readLines found n ls = .ok found' → found.faults <+: found'.faults
  | [], found, found', n, h => by cases h; exact List.prefix_refl _
  | line :: ls, found, found', n, h => by
    obtain ⟨f, hl, hr⟩ := readLines_cons.1 h
    refine List.IsPrefix.trans ?_ (faults_readLines hr)
    cases lineReading_of_readLine hl with
    | skipped | entry => exact List.prefix_refl _
    | notStringList | crateName | duplicateCrate => exact List.prefix_append _ _

theorem entryLines_of_readLines : ∀ {ls : List Text} {found found' : Found} {n : Nat},
    readLines found n ls = .ok found' → found'.faults = [] →
    ∃ es, EntryLines ls es ∧ found'.crates.entries = found.crates.entries ++ es
  | [], found, found', n, h, _ => by cases h; exact ⟨[], .nil, by simp⟩
  | line :: ls, found, found', n, h, hf => by
    obtain ⟨f, hl, hr⟩ := readLines_cons.1 h
    obtain ⟨es, hes, he⟩ := entryLines_of_readLines hr hf
    have hno := faults_readLines hr
    rw [hf, List.prefix_nil] at hno
    cases lineReading_of_readLine hl with
    | skipped hs =>
      refine ⟨es, ?_, he⟩
      rw [entryLines_cons_of_not_entry hs]
      exact hes
    | notStringList | crateName | duplicateCrate => simp at hno
    | @entry crate ds hline hc =>
      refine ⟨(crate, ds) :: es, ?_, ?_⟩
      · exact entryLines_cons_of_entry hline.startsWith |>.2 (.cons hline hes)
      · rw [he, OrderedMap.entries_put hc]
        simp

theorem readLines_of_entryLines (found : Found) : ∀ (n : Nat) {ls : List Text}
    {es : List (Text × List Text)}, EntryLines ls es →
    ((found.crates.entries ++ es).map Prod.fst).Nodup →
    ∃ m, readLines found n ls = .ok { found with crates := m } ∧
      m.entries = found.crates.entries ++ es := by
  intro n ls
  induction ls generalizing found n with
  | nil =>
    intro es h _
    cases h
    exact ⟨found.crates, rfl, by simp⟩
  | cons line ls ih =>
    intro es h hd
    by_cases hs : line.startsWith entryLead = true
    · rw [entryLines_cons_of_entry hs] at h
      cases h with
      | @cons _ e _ es hline hes =>
        have hc : e.1 ∉ found.crates.keys := by
          intro hm
          rw [List.map_append, List.nodup_append] at hd
          exact hd.2.2 e.1 hm e.1 (by simp) rfl
        have he := OrderedMap.entries_put hc e.2
        obtain ⟨m, hm, hme⟩ := ih { found with crates := found.crates.put e.1 e.2 } (n + 1) hes
          (by simpa [he] using hd)
        refine ⟨m, readLines_cons.2 ⟨_, readLine_of_entry hline hc n, hm⟩, ?_⟩
        rw [hme, he]
        simp
    · rw [Bool.not_eq_true] at hs
      rw [entryLines_cons_of_not_entry hs] at h
      obtain ⟨m, hm, hme⟩ := ih found (n + 1) h hd
      exact ⟨m, readLines_cons.2 ⟨_, readLine_of_not_entry hs found n, hm⟩, hme⟩

/-! ## Files -/

/-- Some part of a text spells a phrase. -/
def Holds (text : Text) (p : Phrase) : Prop :=
  ∃ a u z, text = a ++ u ++ z ∧ p.Spells u

/-- The text of a data file with the given entries. -/
structure Spelled (text : Text) (es : List (Text × List Text)) : Prop where
  declares : Holds text .declaration
  registers : Holds text .registrationCall
  lines : EntryLines (Text.lines text) es
  distinct : (es.map Prod.fst).Nodup

theorem holds_declaration_iff {text : Text} :
    Holds text .declaration ↔ Phrase.declaration.occursIn text = true :=
  (Phrase.occursIn_iff (by decide)).symm

theorem holds_registrationCall_iff {text : Text} :
    Holds text .registrationCall ↔ Phrase.registrationCall.occursIn text = true :=
  (Phrase.occursIn_iff (by decide)).symm

theorem missingParts_eq_nil {text : Text} :
    missingParts text = [] ↔ Holds text .declaration ∧ Holds text .registrationCall := by
  rw [holds_declaration_iff, holds_registrationCall_iff, missingParts, List.append_eq_nil_iff]
  split_ifs <;> simp [*]

theorem spelled_of_read {text traitPath : Text} {d : DataFile}
    (h : read text traitPath = .ok (.ok d)) :
    d.traitPath = traitPath ∧ Spelled text d.crates.entries := by
  unfold read at h
  split at h
  · rename_i hm
    split at h
    · cases h
    rename_i found hr
    split_ifs at h with hf
    · cases h
      rw [List.isEmpty_iff] at hf
      obtain ⟨hd, hc⟩ := missingParts_eq_nil.1 hm
      obtain ⟨es, hes, he⟩ := entryLines_of_readLines hr hf
      rw [OrderedMap.empty, List.nil_append] at he
      rw [← he] at hes
      exact ⟨rfl, hd, hc, hes, found.crates.nodup⟩
    · cases h
  · cases h

theorem read_of_spelled {text : Text} {es : List (Text × List Text)} (h : Spelled text es)
    (traitPath : Text) : ∃ m, m.entries = es ∧ read text traitPath = .ok (.ok ⟨traitPath, m⟩) := by
  obtain ⟨m, hm, he⟩ := readLines_of_entryLines ⟨.empty, []⟩ 1 h.lines h.distinct
  refine ⟨m, he, ?_⟩
  rw [read, missingParts_eq_nil.2 ⟨h.declares, h.registers⟩]
  simp [hm]

/-- Reading gives a data file exactly for its trait path and the spellings of its entries. -/
theorem read_eq_ok_iff {text traitPath : Text} {d : DataFile} :
    read text traitPath = .ok (.ok d) ↔ d.traitPath = traitPath ∧ Spelled text d.crates.entries := by
  constructor
  · exact spelled_of_read
  · rintro ⟨rfl, h⟩
    obtain ⟨m, he, hr⟩ := read_of_spelled h d.traitPath
    rw [hr, OrderedMap.eq_of_entries he]

/-- **The reader accepts exactly the texts of the grammar**, and gives the entries that they
    spell. -/
theorem reads_exactly_grammar (text traitPath : Text) :
    ((∃ d, read text traitPath = .ok (.ok d)) ↔ ∃ es, Spelled text es) ∧
      ∀ d, read text traitPath = .ok (.ok d) ↔
        d.traitPath = traitPath ∧ Spelled text d.crates.entries := by
  refine ⟨?_, fun d => read_eq_ok_iff⟩
  constructor
  · rintro ⟨d, hd⟩
    exact ⟨_, (read_eq_ok_iff.1 hd).2⟩
  · rintro ⟨es, hes⟩
    obtain ⟨m, -, hr⟩ := read_of_spelled hes traitPath
    exact ⟨_, hr⟩

end DataFile

end TraitCatalog
