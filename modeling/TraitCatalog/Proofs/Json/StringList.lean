/-
  The grammar of lists of JSON string literals.

  `Items t vs` says that `t` is made of literals for the texts `vs`, with a comma and
  spaces between neighbours.  The array reader knows all of JSON and goes over tokens,
  so two things are shown: tokens that leave only strings behind are those of `vs`
  (`run_start`), since a value of any other kind leaves a mark that stays; and
  these tokens are spelled as `Items` says.

  * `readItems_iff`: the reader gives the strings `vs` for the inside of an array
    exactly if it is blank or made of `Items`, with spaces around them.
-/
import TraitCatalog.Json.ItemList
import TraitCatalog.Proofs.Json.Literal

namespace TraitCatalog.Json

/-! ## Grammar -/

/-- Spaces between tokens. -/
def Spaces (t : Text) : Prop :=
  ∀ c ∈ t, isSpace c = true

/-- Literals with single commas between them, and the texts that they spell. -/
inductive Items : Text → List Text → Prop
  | one {l v} : Literal l v → Items l [v]
  | more {l v a b t vs} : Literal l v → Spaces a → Spaces b → Items t vs →
      Items (l ++ a ++ .scalar ',' :: b ++ t) (v :: vs)

/-- The inside of an array of strings. -/
inductive ArrayInside : Text → List Text → Prop
  | empty {a} : Spaces a → ArrayInside a []
  | items {a t vs b} : Spaces a → Items t vs → Spaces b → ArrayInside (a ++ t ++ b) vs

theorem spaces_nil : Spaces [] := by simp [Spaces]

theorem Items.ne_nil {t : Text} {vs : List Text} (h : Items t vs) : vs ≠ [] := by
  cases h <;> simp

theorem Items.eq_cons {t : Text} {vs : List Text} (h : Items t vs) : ∃ u, t = .scalar '"' :: u := by
  cases h with
  | one hl => exact hl.eq_cons
  | more hl =>
    obtain ⟨u, rfl⟩ := hl.eq_cons
    exact ⟨_, rfl⟩

theorem Items.eq_concat {t : Text} {vs : List Text} (h : Items t vs) :
    ∃ u, t = u ++ [.scalar '"'] := by
  induction h with
  | one hl => exact hl.eq_concat
  | more _ _ _ _ ih =>
    obtain ⟨u, rfl⟩ := ih
    exact ⟨_, (List.append_assoc _ _ _).symm⟩

/-! ## Tokens -/

/-- The tokens of an array of strings after its opening bracket. -/
def itemTokens : List Text → List Token
  | [] => [.closeArray]
  | [v] => [.text v, .closeArray]
  | v :: w :: vs => .text v :: .comma :: itemTokens (w :: vs)

theorem number?_kind {t r : Text} {k : Token} (h : number? t = some (k, r)) :
    k = .atom ∨ ∃ n, k = .integer n := by
  rcases t with _ | ⟨c, t⟩
  · simp [number?] at h
  · simp only [number?] at h
    split_ifs at h
    all_goals
      cases h
      simp

/-- How the tokens of an array of strings are spelled before the rest `r` of `u`. -/
def Token.Spelled (u r : Text) : Token → Prop
  | .text v => ∃ l, Literal l v ∧ u = l ++ r
  | .comma => u = .scalar ',' :: r
  | .closeArray => u = .scalar ']' :: r
  | _ => True

theorem token?_spelled {u r : Text} {k : Token} (h : token? u = some (k, r)) : k.Spelled u r := by
  rcases u with _ | ⟨c, t⟩
  · simp [token?] at h
  rw [token?.eq_def] at h
  simp only at h
  split at h
  · cases h; trivial
  · cases h; rfl
  · cases h; trivial
  · cases h; trivial
  · cases h; rfl
  · cases h; trivial
  · simp only [Option.map_eq_some_iff, Prod.exists, Prod.mk.injEq] at h
    obtain ⟨v, _, hs, rfl, rfl⟩ := h
    exact scanText_iff.1 hs
  · split at h
    · cases h; trivial
    · have hk : k = .atom ∨ ∃ n, k = .integer n := by
        split_ifs at h <;> exact number?_kind h
      rcases hk with rfl | ⟨n, rfl⟩ <;> trivial

theorem token?_comma (t : Text) : token? (.scalar ',' :: t) = some (.comma, t) := by
  rw [token?]

theorem token?_close (t : Text) : token? (.scalar ']' :: t) = some (.closeArray, t) := by
  rw [token?]

theorem token?_literal {l v : Text} (h : Literal l v) (t : Text) :
    token? (l ++ t) = some (.text v, t) := by
  obtain ⟨u, rfl⟩ := h.eq_cons
  have hs : scanText (u ++ t) = some (v, t) := scanText_iff.2 ⟨_, h, rfl⟩
  rw [List.cons_append, token?, hs]; rfl

theorem take_spaces {a : Text} (ha : Spaces a) (t : Text) :
    ∀ n, Token.take n (a ++ t) = Token.take n t
  | 0 => rfl
  | n + 1 => by rw [Token.take, Token.take, List.dropWhile_append_of_pos ha]

theorem take_token {c : CodePoint} {t r : Text} {k : Token} (hc : isSpace c = false)
    (h : token? (c :: t) = some (k, r)) (n : Nat) :
    Token.take (n + 1) (c :: t) = (k :: (Token.take n r).1, (Token.take n r).2) := by
  rw [Token.take, List.dropWhile_cons_of_neg (by simp [hc])]
  simp only [h]

theorem take_literal {l v : Text} (h : Literal l v) (t : Text) (n : Nat) :
    Token.take (n + 1) (l ++ t) = (.text v :: (Token.take n t).1, (Token.take n t).2) := by
  have ht := token?_literal h t
  obtain ⟨u, rfl⟩ := h.eq_cons
  exact take_token (by decide) ht n

theorem take_close {b : Text} (hb : Spaces b) (n : Nat) :
    Token.take (n + 2) (b ++ [.scalar ']']) = ([.closeArray], true) := by
  rw [take_spaces hb, take_token (by decide) (token?_close [])]; rfl

/-- The tokens of literals in an array. -/
theorem Items.take {t : Text} {vs : List Text} (h : Items t vs) :
    ∀ {b : Text}, Spaces b → ∀ n, (t ++ b).length + 2 ≤ n →
      Token.take n (t ++ b ++ [.scalar ']']) = (itemTokens vs, true) := by
  have pos : ∀ {l v : Text}, Literal l v → 1 ≤ l.length := by
    intro l v hl
    obtain ⟨u, rfl⟩ := hl.eq_cons
    simp
  induction h with
  | one hl =>
    intro b hb n hn
    have := pos hl
    simp only [List.length_append] at hn
    obtain ⟨m, rfl⟩ : ∃ m, n = m + 2 + 1 := ⟨n - 3, by omega⟩
    rw [List.append_assoc, take_literal hl, take_close hb]; rfl
  | @more l v a b t vs hl ha hb hi ih =>
    intro z hz n hn
    have := pos hl
    simp only [List.length_append, List.length_cons] at hn
    obtain ⟨m, rfl⟩ : ∃ m, n = m + 1 + 1 := ⟨n - 2, by omega⟩
    have htail := ih hz m (by simp only [List.length_append]; omega)
    have hcomma : Token.take (m + 1) (a ++ .scalar ',' :: (b ++ (t ++ z ++ [.scalar ']']))) =
        (.comma :: itemTokens vs, true) := by
      rw [take_spaces ha, take_token (by decide) (token?_comma _), take_spaces hb, htail]
    have hassoc : l ++ a ++ .scalar ',' :: b ++ t ++ z ++ [.scalar ']'] =
        l ++ (a ++ .scalar ',' :: (b ++ (t ++ z ++ [.scalar ']']))) := by simp
    rw [hassoc, take_literal hl, hcomma]
    obtain ⟨w, ws, rfl⟩ := List.exists_cons_of_ne_nil hi.ne_nil
    rfl

theorem take_cons {n : Nat} {t : Text} {k : Token} {ks : List Token} {e : Bool}
    (h : Token.take n t = (k :: ks, e)) : ∃ m a u r, Spaces a ∧ t = a ++ u ∧
      token? u = some (k, r) ∧ Token.take m r = (ks, e) := by
  rcases n with _ | n
  · simp [Token.take] at h
  rw [Token.take] at h
  have hs : Spaces (t.takeWhile isSpace) := fun c hc =>
    List.all_eq_true.1 List.all_takeWhile c hc
  split at h
  · simp at h
  · split at h
    · simp at h
    · rename_i k' r hk
      simp only [Prod.mk.injEq, List.cons.injEq] at h
      obtain ⟨⟨rfl, hks⟩, he⟩ := h
      exact ⟨n, _, _, r, hs, List.takeWhile_append_dropWhile.symm, hk, Prod.ext hks he⟩

theorem take_nil {n : Nat} {t : Text} (h : Token.take n t = ([], true)) : Spaces t := by
  rcases n with _ | n
  · simp [Token.take] at h
  rw [Token.take] at h
  split at h
  · rename_i hd
    intro c hc
    rw [← List.takeWhile_append_dropWhile (p := isSpace) (l := t), hd, List.append_nil] at hc
    exact List.all_eq_true.1 List.all_takeWhile c hc
  · split at h <;> simp at h

/-- The tokens of strings in an array are spelled as literals with commas between them. -/
theorem spelled_of_take : ∀ {vs : List Text} {n : Nat} {t : Text}, vs ≠ [] →
    Token.take n t = (itemTokens vs, true) →
    ∃ a u b z, Spaces a ∧ Items u vs ∧ Spaces b ∧ Spaces z ∧ t = a ++ u ++ b ++ .scalar ']' :: z
  | [], _, _, h, _ => absurd rfl h
  | [v], n, t, _, h => by
    obtain ⟨m, a, u, r, ha, rfl, hk, hr⟩ := take_cons h
    obtain ⟨l, hl, rfl⟩ := token?_spelled hk
    obtain ⟨m', b, u', z, hb, rfl, hk', hz⟩ := take_cons hr
    obtain rfl : u' = _ := token?_spelled hk'
    exact ⟨a, l, b, z, ha, .one hl, hb, take_nil hz, by simp⟩
  | v :: w :: vs, n, t, _, h => by
    obtain ⟨m, a, u, r, ha, rfl, hk, hr⟩ := take_cons h
    obtain ⟨l, hl, rfl⟩ := token?_spelled hk
    obtain ⟨m', b, u', r', hb, rfl, hk', hr'⟩ := take_cons hr
    obtain rfl : u' = _ := token?_spelled hk'
    obtain ⟨c, y, d, z, hc, hy, hd, hz, rfl⟩ := spelled_of_take (by simp) hr'
    exact ⟨a, _, d, z, ha, .more hl hb hc hy, hd, hz, by simp⟩

/-! ## The reader -/

namespace Reader

theorem items_enter {r r' : Reader} {f : Frame} (h : r.enter f = .ok r') : r.items <:+ r'.items := by
  unfold enter at h
  split_ifs at h
  cases h
  simp only [addValue]
  split_ifs
  · exact List.suffix_cons _ _
  · exact List.suffix_refl _

theorem items_leave {r r' : Reader} {f : Frame} (h : r.leave f = .ok r') : r.items <:+ r'.items := by
  unfold leave at h
  split at h
  · split_ifs at h
    cases h
    exact List.suffix_refl _
  · cases h

theorem items_addValue (r : Reader) (item : Option Text) : r.items <:+ (r.addValue item).items := by
  simp only [addValue]
  split_ifs
  · exact List.suffix_cons _ _
  · exact List.suffix_refl _

theorem items_value {r r' : Reader} {k : Token} (h : r.value k = .ok r') : r.items <:+ r'.items := by
  cases k with
  | text t => cases h; exact items_addValue r _
  | atom => cases h; exact items_addValue r _
  | integer n =>
    simp only [value] at h
    split_ifs at h
    cases h
    exact items_addValue r _
  | openArray => exact items_enter h
  | openObject => exact items_enter h
  | closeArray | closeObject | comma | colon => cases h

/-- Items that have been read stay. -/
theorem items_step {r r' : Reader} {k : Token} (h : r.step k = .ok r') : r.items <:+ r'.items := by
  unfold step at h
  split at h
  · cases h
  · split at h
    · exact items_leave h
    · exact items_value h
    · exact items_value h
    · exact items_leave h
    · cases h; exact List.suffix_refl _
    · cases h; exact List.suffix_refl _
    · cases h; exact List.suffix_refl _
    · cases h; exact List.suffix_refl _
    · exact items_leave h
    · exact items_leave h
    · cases h

theorem run_cons {r r' : Reader} {k : Token} {ks : List Token} :
    r.run (k :: ks) = .ok r' ↔ ∃ s, r.step k = .ok s ∧ s.run ks = .ok r' := by
  simp only [run, List.foldlM_cons, bind, Except.bind]
  cases r.step k with
  | error f => simp
  | ok s => simp

theorem run_nil {r r' : Reader} : r.run [] = .ok r' ↔ r' = r := by
  simp only [run, List.foldlM_nil, pure, Except.pure, Except.ok.injEq]
  exact eq_comm

theorem items_run : ∀ {ks : List Token} {r r' : Reader}, r.run ks = .ok r' → r.items <:+ r'.items
  | [], r, r', h => by
    obtain rfl := run_nil.1 h
    exact List.suffix_refl _
  | k :: ks, r, r', h => by
    obtain ⟨s, hs, hr⟩ := run_cons.1 h
    exact (items_step hs).trans (items_run hr)

/-- Nothing may follow the end of the outermost array. -/
theorem run_closed {w : Awaits} {items : List (Option Text)} {ks : List Token} {r' : Reader}
    (h : (Reader.mk [] w items).run ks = .ok r') : ks = [] ∧ r' = ⟨[], w, items⟩ := by
  cases ks with
  | nil => exact ⟨rfl, run_nil.1 h⟩
  | cons k ks =>
    obtain ⟨s, hs, -⟩ := run_cons.1 h
    simp [step] at hs

/-- A value that is no string leaves a mark. -/
theorem text_of_value {items : List (Option Text)} {w : Awaits} {k : Token} {s r' : Reader}
    {ks : List Token} (hs : (Reader.mk [.array] w items).value k = .ok s) (hr : s.run ks = .ok r')
    (hn : none ∉ r'.items) : ∃ v, k = .text v ∧ s = ⟨[.array], .commaOrClose, some v :: items⟩ := by
  have hnone : none ∉ s.items := fun h => hn ((items_run hr).subset h)
  cases k with
  | text v => cases hs; exact ⟨v, rfl, rfl⟩
  | atom => cases hs; exact absurd (by simp [addValue]) hnone
  | integer n =>
    simp only [value] at hs
    split_ifs at hs
    cases hs
    exact absurd (by simp [addValue]) hnone
  | openArray | openObject =>
    simp only [value, enter] at hs
    split_ifs at hs
    cases hs
    exact absurd (by simp [addValue]) hnone
  | closeArray | closeObject | comma | colon => cases hs

/-- **Tokens that leave only strings behind are those of strings.** -/
theorem run_value : ∀ {ks : List Token} {items : List (Option Text)} {r' : Reader},
    (Reader.mk [.array] .value items).run ks = .ok r' → r'.open_ = [] → none ∉ r'.items →
    ∃ vs, vs ≠ [] ∧ ks = itemTokens vs ∧ r'.items = (vs.map some).reverse ++ items
  | [], items, r', h, ho, _ => by rw [run_nil.1 h] at ho; simp at ho
  | [k], items, r', h, ho, hn => by
    obtain ⟨s, hs, hr⟩ := run_cons.1 h
    obtain ⟨v, rfl, rfl⟩ := text_of_value hs hr hn
    rw [run_nil.1 hr] at ho
    simp at ho
  | k :: k' :: ks, items, r', h, ho, hn => by
    obtain ⟨s, hs, hr⟩ := run_cons.1 h
    obtain ⟨v, rfl, rfl⟩ := text_of_value hs hr hn
    obtain ⟨s', hs', hr'⟩ := run_cons.1 hr
    cases k' with
    | closeArray =>
      cases hs'
      obtain ⟨rfl, rfl⟩ := run_closed hr'
      exact ⟨[v], by simp, rfl, rfl⟩
    | comma =>
      cases hs'
      obtain ⟨vs, hne, rfl, hi⟩ := run_value hr' ho hn
      obtain ⟨w, ws, rfl⟩ := List.exists_cons_of_ne_nil hne
      exact ⟨v :: w :: ws, by simp, rfl, by simp [hi]⟩
    | closeObject => simp [step, leave] at hs'
    | openArray | openObject | colon | text | integer | atom => simp [step] at hs'

/-- At the start an array may also be closed. -/
theorem run_start {ks : List Token} {r' : Reader} (h : start.run ks = .ok r') (ho : r'.open_ = [])
    (hn : none ∉ r'.items) : ∃ vs, ks = itemTokens vs ∧ r'.items = (vs.map some).reverse := by
  rcases ks with _ | ⟨k, ks⟩
  · rw [run_nil.1 h] at ho
    simp [start] at ho
  obtain ⟨s, hs, hr⟩ := run_cons.1 h
  by_cases hk : k = .closeArray
  · subst hk
    cases hs
    obtain ⟨rfl, rfl⟩ := run_closed hr
    exact ⟨[], rfl, rfl⟩
  · have hs' : (Reader.mk [.array] .value []).step k = .ok s := by
      rw [← hs]
      cases k with
      | closeArray => exact absurd rfl hk
      | _ => rfl
    obtain ⟨vs, -, hk, hi⟩ := run_value (run_cons.2 ⟨s, hs', hr⟩) ho hn
    exact ⟨vs, hk, by simpa using hi⟩

theorem run_itemTokens : ∀ {vs : List Text} (items : List (Option Text)), vs ≠ [] →
    (Reader.mk [.array] .value items).run (itemTokens vs) =
      .ok ⟨[], .commaOrClose, (vs.map some).reverse ++ items⟩
  | [], _, h => absurd rfl h
  | [v], items, _ => rfl
  | v :: w :: vs, items, _ => by
    refine run_cons.2 ⟨⟨[.array], .commaOrClose, some v :: items⟩, rfl, ?_⟩
    refine run_cons.2 ⟨⟨[.array], .value, some v :: items⟩, rfl, ?_⟩
    rw [run_itemTokens _ (by simp)]
    simp

theorem start_run_itemTokens (vs : List Text) :
    start.run (itemTokens vs) = .ok ⟨[], .commaOrClose, (vs.map some).reverse⟩ := by
  rcases vs with _ | ⟨v, vs⟩
  · rfl
  have h : (Reader.mk [.array] .value []).run (itemTokens (v :: vs)) =
      .ok ⟨[], .commaOrClose, ((v :: vs).map some).reverse ++ []⟩ := run_itemTokens [] (by simp)
  rw [List.append_nil] at h
  rw [← h]
  cases vs <;> rfl

end Reader

/-- Only spaces follow the last bracket, so it is the one that was added. -/
theorem eq_of_append_close {t u z : Text} (hz : Spaces z)
    (h : t ++ [.scalar ']'] = u ++ .scalar ']' :: z) : t = u := by
  rcases List.eq_nil_or_concat z with rfl | ⟨y, c, rfl⟩
  · exact List.append_cancel_right h
  · have hlast := congrArg List.getLast? h
    have hc : c = .scalar ']' := by
      simpa [List.getLast?_append, List.getLast?_cons] using hlast.symm
    have := hz c (by simp)
    rw [hc] at this
    exact absurd this (by decide)

theorem arrayInside_of_take {n : Nat} {t : Text} {vs : List Text}
    (h : Token.take n (t ++ [.scalar ']']) = (itemTokens vs, true)) : ArrayInside t vs := by
  by_cases hv : vs = []
  · subst hv
    obtain ⟨m, a, u, z, ha, he, hk, hz⟩ := take_cons h
    obtain rfl : u = _ := token?_spelled hk
    rw [eq_of_append_close (take_nil hz) he]
    exact .empty ha
  · obtain ⟨a, u, b, z, ha, hu, hb, hz, he⟩ := spelled_of_take hv h
    rw [eq_of_append_close hz he]
    exact .items ha hu hb

theorem take_of_arrayInside {t : Text} {vs : List Text} (h : ArrayInside t vs) {n : Nat}
    (hn : t.length + 2 ≤ n) : Token.take n (t ++ [.scalar ']']) = (itemTokens vs, true) := by
  cases h with
  | empty ha =>
    obtain ⟨m, rfl⟩ : ∃ m, n = m + 2 := ⟨n - 2, by omega⟩
    exact take_close ha m
  | @items a t vs b ha ht hb =>
    simp only [List.length_append] at hn
    rw [List.append_assoc, List.append_assoc, take_spaces ha, ← List.append_assoc]
    exact ht.take hb n (by simp only [List.length_append]; omega)

/-- **The reader gives strings for the inside of an array exactly if it is spelled by
    literals with single commas between them.** -/
theorem readItems_iff {t : Text} {vs : List Text} :
    readItems (t ++ [.scalar ']']) = .ok (vs.map some) ↔ ArrayInside t vs := by
  constructor
  · intro h
    rcases ht : Token.all (t ++ [.scalar ']']) with ⟨ks, e⟩
    rcases hr : Reader.start.run ks with f | r
    · simp [readItems, ht, hr, bind, Except.bind] at h
    simp only [readItems, ht, hr, bind, Except.bind] at h
    split_ifs at h with hc
    · simp only [Bool.and_eq_true, List.isEmpty_iff] at hc
      obtain ⟨rfl, ho⟩ := hc
      have hi : r.items.reverse = vs.map some := Except.ok.inj h
      have hn : none ∉ r.items := by
        intro hm
        rw [← List.mem_reverse, hi] at hm
        simp at hm
      obtain ⟨ws, rfl, hw⟩ := Reader.run_start hr ho hn
      rw [hw, List.reverse_reverse] at hi
      rw [← List.map_inj_right (fun a b => Option.some.inj) |>.1 hi]
      exact arrayInside_of_take ht
  · intro h
    have ht : Token.all (t ++ [.scalar ']']) = (itemTokens vs, true) :=
      take_of_arrayInside h (by simp)
    simp [readItems, ht, Reader.start_run_itemTokens, bind, Except.bind, pure, Except.pure]

end TraitCatalog.Json
