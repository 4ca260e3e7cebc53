/-
  Lexemes of two texts that differ in how their lines end.

  Every reader that starts at corresponding places of a text and of the one in which its breaks are
  unified reads the same in both, and ends at corresponding places; or it finds the same fault.  Where
  a reader takes something in every case, less is left after it, so that loops of the two texts end
  together although the bounds on their rounds differ.
-/
import TraitCatalog.Proofs.Yaml.Cursor

namespace TraitCatalog.Yaml

open Cursor
open Text (lit)

variable {ms : List Mark} {k n m : Nat} {c d : Cursor}

theorem readAnchorName_alike (h : Alike ms k c d) (hp : c.AtPoint) :
    Both (SameReading ms (k - 1)) (readAnchorName c) (readAnchorName d) := by
  obtain ⟨name, c₁, d₁, hc, hd, h₁⟩ := ((h.next hp).takeWhile? (p := isNamePoint) (by decide)).split
  rw [readAnchorName, readAnchorName, hc, hd]
  refine .require ?_ fun _ => .ok ⟨rfl, h₁⟩
  rw [h₁.seesGap, h₁.sees (by decide)]

/-! ## Digits -/

theorem foldl_hex_none (t : Text) :
    t.foldl (fun n? c => do return (← n?) * 16 + (← c.hexDigit?)) none = (none : Option Nat) := by
  induction t with
  | nil => rfl
  | cons c t ih => exact ih

theorem hexValue?_eq_none {t : Text} {c : CodePoint} (hc : c ∈ t) (h : c.hexDigit? = none) :
    hexValue? t = none := by
  have hfold : ∀ n? : Option Nat,
      t.foldl (fun n? c => do return (← n?) * 16 + (← c.hexDigit?)) n? = none := by
    induction t with
    | nil => cases hc
    | cons d t ih =>
      intro n?
      rw [List.foldl_cons]
      rcases List.mem_cons.1 hc with rfl | hc
      · rw [h]
        cases n? <;> exact foldl_hex_none t
      · exact ih hc _
  exact hfold _

/-- The first code points of both texts: the same ones, or a break is among them in both. -/
theorem Unified.take {t u : Text} (h : Unified t u) (w : Nat) :
    (t.take w = u.take w ∧ ∀ ch ∈ t.take w, isBreak ch = false) ∨
      (∃ b ∈ t.take w, isBreak b = true) ∧ ∃ b ∈ u.take w, isBreak b = true := by
  induction h generalizing w with
  | nil => exact .inl ⟨rfl, by simp⟩
  | @point c t u hc _ ih =>
    cases w with
    | zero => exact .inl ⟨rfl, by simp⟩
    | succ w =>
      simp only [List.take_succ_cons]
      rcases ih w with ⟨heq, hall⟩ | ⟨⟨b, hb, hbb⟩, b', hb', hbb'⟩
      · exact .inl ⟨by rw [heq], List.forall_mem_cons.2 ⟨hc, hall⟩⟩
      · exact .inr ⟨⟨b, .tail _ hb, hbb⟩, b', .tail _ hb', hbb'⟩
  | separator hb _ _ _ =>
    cases w with
    | zero => exact .inl ⟨rfl, by simp⟩
    | succ w => exact .inr ⟨⟨_, .head _, hb⟩, _, .head _, hb⟩
  | pair _ _ =>
    cases w with
    | zero => exact .inl ⟨rfl, by simp⟩
    | succ w => exact .inr ⟨⟨_, .head _, by decide⟩, _, .head _, by decide⟩
  | single hb _ _ _ =>
    cases w with
    | zero => exact .inl ⟨rfl, by simp⟩
    | succ w => exact .inr ⟨⟨_, .head _, isBreak_of_isOneOf hb⟩, _, .head _, by decide⟩

/-- The digits of an escape: a break among them is a fault in both texts, whether or not there are
    enough code points. -/
theorem Both.digits {α β : Type} {Q : α → β → Prop} {w : Nat} {f : Nat → Except Fault α}
    {g : Nat → Except Fault β} (h : Alike ms k c d)
    (hf : ∀ v, Alike ms (k - w) (c.skip w) (d.skip w) → Both Q (f v) (g v)) :
    Both Q
      (Yaml.require ((c.rest.take w).length == w) >>= fun _ => match hexValue? (c.rest.take w) with
        | none => throw .invalid
        | some v => f v)
      (Yaml.require ((d.rest.take w).length == w) >>= fun _ => match hexValue? (d.rest.take w) with
        | none => throw .invalid
        | some v => g v) := by
  rcases h.rest.take w with ⟨heq, hpoints⟩ | ⟨⟨b, hb, hbb⟩, b', hb', hbb'⟩
  · rw [← heq]
    refine .require rfl fun hw => ?_
    have hskip := h.skip hpoints (List.take_append_drop w c.rest).symm
    rw [beq_iff_eq.1 hw] at hskip
    cases hexValue? (c.rest.take w) with
    | none => exact .error
    | some v => exact hf v hskip
  · have hnone : ∀ {t : Text} {b}, b ∈ t → isBreak b = true → hexValue? t = none := fun hb hbb =>
      hexValue?_eq_none hb (Option.isNone_iff_eq_none.1 (by
        have := of_isBreak (p := fun ch => ch.hexDigit?.isSome) (by decide) _ hbb
        simpa using this))
    rw [hnone hb hbb, hnone hb' hbb']
    have hfail : ∀ {γ : Type} (b : Bool), (Yaml.require b >>= fun _ => throw Fault.invalid) =
        (.error .invalid : Except Fault γ) := by
      intro γ b
      cases b <;> rfl
    rw [hfail, hfail]
    exact .error

/-! ## Tags -/

/-- A round in which an escape stands, before further ones. -/
theorem readEscapedBytes_round (h : Alike ms k c d) (hs : c.seesChar 0 '%' = true)
    (ih : ∀ {c d : Cursor}, Alike ms (k - 1) c d →
      Both (SameReading ms (k - 1)) (readEscapedBytes n c) (readEscapedBytes m d)) :
    Both (SameReading ms (k - 1)) (readEscapedBytes (n + 1) c) (readEscapedBytes (m + 1) d) := by
  rw [readEscapedBytes, readEscapedBytes, if_pos hs, if_pos (by rwa [← h.seesChar (by decide)])]
  have hnext := h.next (atPoint_of_seesChar hs (by decide))
  refine Both.digits hnext fun v hskip => ?_
  refine (ih (hskip.weaken (Nat.sub_le ..))).bind fun hr => ?_
  exact .ok ⟨by rw [hr.same], hr.alike⟩

theorem readEscapedBytes_alike (h : Alike ms k c d) (hn : k < n) (hm : k < m) :
    Both (SameReading ms k) (readEscapedBytes n c) (readEscapedBytes m d) := by
  induction n generalizing m k c d with
  | zero => exact absurd hn (Nat.not_lt_zero k)
  | succ n ih =>
    obtain ⟨m, rfl⟩ := Nat.exists_eq_add_one.2 (Nat.zero_lt_of_lt hm)
    cases hs : c.seesChar 0 '%' with
    | true =>
      have hk := h.pos (atPoint_of_seesChar hs (by decide)).atEnd
      refine (readEscapedBytes_round h hs fun h' => ih h' ?_ ?_).imp fun hr => hr.weaken (Nat.sub_le ..)
      · omega
      · omega
    | false =>
      have hs' : d.seesChar 0 '%' = false := by rw [← h.seesChar (by decide), hs]
      rw [readEscapedBytes, readEscapedBytes, hs, hs']
      exact .ok ⟨rfl, h⟩

/-- Where an escape stands, something is read. -/
theorem readEscapedBytes_pos (h : Alike ms k c d) (hs : c.seesChar 0 '%' = true) :
    Both (SameReading ms (k - 1)) (readEscapedBytes c.bound c) (readEscapedBytes d.bound d) := by
  obtain ⟨n, m, hc, hd, hn, hm⟩ := h.rounds
  have hk := h.tight.pos (atPoint_of_seesChar hs (by decide)).atEnd
  rw [hc, hd]
  refine (readEscapedBytes_round h.tight hs fun h' => readEscapedBytes_alike h' ?_ ?_).imp fun hr =>
    hr.weaken (Nat.sub_le_sub_right h.size 1)
  · omega
  · omega

theorem readTagPieces_alike (h : Alike ms k c d) (hn : k < n) (hm : k < m) :
    Both (SameReading ms k) (readTagPieces n c) (readTagPieces m d) := by
  induction n generalizing m k c d with
  | zero => exact absurd hn (Nat.not_lt_zero k)
  | succ n ih =>
    obtain ⟨m, rfl⟩ := Nat.exists_eq_add_one.2 (Nat.zero_lt_of_lt hm)
    rw [readTagPieces, readTagPieces, ← h.seesChar (by decide), ← h.sees (p := isTagPoint) (by decide)]
    dsimp only
    -- Each piece takes something, so that a round is left for what follows.
    split
    · next hs =>
      have hk := h.pos (atPoint_of_seesChar hs (by decide)).atEnd
      refine (readEscapedBytes_pos h hs).bind fun hr => ?_
      rw [hr.same]
      cases Utf8.decode _ with
      | error => exact .error
      | ok piece =>
        refine (ih hr.alike (by omega) (by omega)).bind fun hmore => .ok ⟨?_, ?_⟩
        · rw [hmore.same]
        · exact hmore.alike.weaken (Nat.sub_le ..)
    · split
      · next hs =>
        have hk := h.pos (atEnd_of_sees hs)
        have hr := h.takeWhile_pos (by decide) hs
        refine (ih hr.alike (by omega) (by omega)).bind fun hmore => .ok ⟨?_, ?_⟩
        · rw [hr.same, hmore.same]
        · exact hmore.alike.weaken (Nat.sub_le ..)
      · exact .ok ⟨rfl, h⟩

theorem readTagBody_alike (h : Alike ms k c d) :
    Both (SameReading ms k) (readTagBody c) (readTagBody d) := by
  rw [readTagBody, readTagBody]
  refine (readTagPieces_alike h.tight h.left h.right).bind fun hr => ?_
  dsimp only
  rw [hr.same]
  exact .require rfl fun _ => .ok ⟨rfl, hr.alike.weaken h.size⟩

theorem readTagHandle_alike (h : Alike ms k c d) :
    Both (SameReading ms (k - 1)) (readTagHandle c) (readTagHandle d) := by
  rw [readTagHandle, readTagHandle]
  refine .require (h.seesChar (by decide)) fun hs => ?_
  have hp := atPoint_of_seesChar hs (by decide)
  rw [← h.seesChar_one hp (by decide)]
  dsimp only
  split
  · exact .ok ⟨rfl, h.next hp⟩
  · have hname := (h.next hp).takeWhile? (p := isNamePoint) (by decide)
    refine .require (hname.alike.seesChar (by decide)) fun hs => ?_
    refine .ok ⟨by rw [hname.same], ?_⟩
    exact (hname.alike.next (atPoint_of_seesChar hs (by decide))).weaken (Nat.sub_le ..)

theorem readTag_alike (h : Alike ms k c d) (hp : c.AtPoint) :
    Both (SameReading ms (k - 1)) (readTag c) (readTag d) := by
  have hnext := h.next hp
  have hend : ∀ {x y : Token × Cursor}, SameReading ms (k - 1) x y →
      Both (SameReading ms (k - 1)) (do require (x.2.seesWordEnd 0); pure (x.1, x.2))
        (do require (y.2.seesWordEnd 0); pure (y.1, y.2)) := fun hr =>
    .require hr.alike.seesWordEnd fun _ => .ok hr
  have hword : (c.rest.drop 1).takeWhile (fun ch => !(ch == .scalar ' ' || isBreak ch)) =
      (d.rest.drop 1).takeWhile fun ch => !(ch == .scalar ' ' || isBreak ch) := by
    rw [List.drop_one, List.drop_one, ← rest_next, ← rest_next]
    exact hnext.rest.takeWhile (of_isBreak (by decide))
  rw [readTag, readTag, ← h.seesChar_one hp (by decide), ← h.seesGap_one hp]
  dsimp only
  rw [← hword]
  split
  · next hs =>
    rw [seesChar_succ] at hs
    have hbody : Alike ms (k - 1) (c.skip 2) (d.skip 2) :=
      (hnext.next (atPoint_of_seesChar hs (by decide))).weaken (Nat.sub_le ..)
    refine (readTagBody_alike hbody).bind fun hr => ?_
    refine .require (hr.alike.seesChar (by decide)) fun hs => ?_
    have hnext := hr.alike.next (atPoint_of_seesChar hs (by decide))
    refine .bind (.ok ⟨?_, hnext.weaken (Nat.sub_le ..)⟩) hend
    rw [hr.same]
  · split
    · exact .bind (.ok ⟨rfl, hnext⟩) hend
    · split
      · refine (readTagHandle_alike h).bind fun hhandle => ?_
        refine (readTagBody_alike hhandle.alike).bind fun hr => ?_
        exact .bind (.ok ⟨by rw [hhandle.same, hr.same], hr.alike⟩) hend
      · refine .bind (P := SameReading ms (k - 1)) (.ok ⟨rfl, hnext⟩) fun hhandle => ?_
        refine (readTagBody_alike hhandle.alike).bind fun hr => ?_
        exact .bind (.ok ⟨by rw [hhandle.same, hr.same], hr.alike⟩) hend

/-! ## Directives -/

theorem readVersionNumber_alike (h : Alike ms k c d) :
    Both (SameReading ms k) (readVersionNumber c) (readVersionNumber d) := by
  have hdigits := h.takeWhile? (p := CodePoint.isDigit) (by decide)
  rw [readVersionNumber, readVersionNumber]
  dsimp only
  rw [hdigits.same]
  refine .require rfl fun _ => ?_
  split
  · exact .error
  · exact .ok ⟨rfl, hdigits.alike⟩

theorem readDirective_alike (h : Alike ms k c d) (hp : c.AtPoint) :
    Both (SameReading ms (k - 1)) (readDirective c) (readDirective d) := by
  have hname := (h.next hp).takeWhile? (p := isNamePoint) (by decide)
  have hend : ∀ {x y : Token × Cursor}, SameReading ms (k - 1) x y →
      Both (SameReading ms (k - 1)) (do return (x.1, ← x.2.skipRestOfLine))
        (do return (y.1, ← y.2.skipRestOfLine)) := fun hr =>
    hr.alike.skipRestOfLine.bind fun hc => .ok ⟨hr.same, hc⟩
  rw [readDirective, readDirective]
  dsimp only
  rw [hname.same, hname.alike.seesWordEnd]
  refine .require rfl fun _ => ?_
  split
  · refine (readVersionNumber_alike hname.alike.skipSpaces).bind fun hmajor => ?_
    refine .require (hmajor.alike.seesChar (by decide)) fun hs => ?_
    have hdot := hmajor.alike.next (atPoint_of_seesChar hs (by decide))
    refine (readVersionNumber_alike (hdot.weaken (Nat.sub_le ..))).bind fun hminor => ?_
    refine .require hminor.alike.seesWordEnd fun _ => ?_
    exact .bind (.ok ⟨by rw [hmajor.same, hminor.same], hminor.alike⟩) hend
  · split
    · refine (readTagHandle_alike hname.alike.skipSpaces).bind fun hhandle => ?_
      refine .require (hhandle.alike.seesChar (by decide)) fun hs => ?_
      refine (readTagBody_alike (hhandle.alike.skipSpaces.weaken (Nat.sub_le ..))).bind fun hlead => ?_
      refine .require hlead.alike.seesWordEnd fun _ => ?_
      exact .bind (.ok ⟨by rw [hhandle.same, hlead.same], hlead.alike⟩) hend
    · exact .bind (.ok ⟨rfl, (hname.alike.takeWhile? (by decide)).alike⟩) hend

/-! ## Scalars in quotes -/

theorem readQuotedBreaks_alike (h : Alike ms k c d) (hn : k < n) (hm : k < m) :
    Both (SameReading ms k) (readQuotedBreaks n c) (readQuotedBreaks m d) := by
  induction n generalizing m k c d with
  | zero => exact absurd hn (Nat.not_lt_zero k)
  | succ n ih =>
    obtain ⟨m, rfl⟩ := Nat.exists_eq_add_one.2 (Nat.zero_lt_of_lt hm)
    have hblanks := (h.takeWhile? (p := (·.isOneOf " \t")) (by decide)).alike
    rw [readQuotedBreaks, readQuotedBreaks, ← h.seesDocumentMarker]
    dsimp only
    rw [← hblanks.seesBreak]
    split
    · exact .error
    · split
      · next hb =>
        have hk := hblanks.pos (atEnd_of_sees hb)
        have hbreak := hblanks.takeBreak hb
        refine (ih hbreak.alike (by omega) (by omega)).bind fun hmore => .ok ⟨?_, ?_⟩
        · rw [hbreak.same, hmore.same]
        · exact hmore.alike.weaken (Nat.sub_le ..)
      · exact .ok ⟨rfl, hblanks⟩

theorem readQuotedGap_alike (h : Alike ms k c d) (hs : c.sees 0 isSeparator = true) :
    Both (SameReading ms (k - 1)) (readQuotedGap c) (readQuotedGap d) := by
  have hblanks := h.takeWhile? (p := (·.isOneOf " \t")) (by decide)
  -- Either there are blanks in front, or a break stands here.
  have hpos : (c.takeWhile (·.isOneOf " \t")).2.sees 0 isBreak = true ∨
      Alike ms (k - 1) (c.takeWhile (·.isOneOf " \t")).2 (d.takeWhile (·.isOneOf " \t")).2 := by
    cases hb : c.sees 0 (·.isOneOf " \t") with
    | true => exact .inr (h.takeWhile_pos (by decide) hb).alike
    | false =>
      rw [takeWhile_none hb]
      refine .inl ?_
      rw [Cursor.sees] at hs hb ⊢
      cases hp : c.peek 0 with
      | none => simp [hp] at hs
      | some ch => simpa [hp, isSeparator, show ch.isOneOf " \t" = false by simpa [hp] using hb] using hs
  rw [readQuotedGap, readQuotedGap]
  dsimp only
  rw [← hblanks.same, ← hblanks.alike.atEnd, ← hblanks.alike.seesBreak]
  refine .require rfl fun _ => ?_
  split
  · next hb =>
    have hbreak := hblanks.alike.takeBreak hb
    have hmore := readQuotedBreaks_alike hbreak.alike.tight hbreak.alike.left hbreak.alike.right
    refine hmore.bind fun hr => .ok ⟨?_, hr.alike.weaken hbreak.alike.size⟩
    rw [hbreak.same, hr.same]
  · next hb => exact .ok ⟨rfl, hpos.resolve_left hb⟩

theorem readEscape_alike (h : Alike ms k c d) :
    Both (SameReading ms k) (readEscape c) (readEscape d) := by
  rw [readEscape, readEscape]
  cases h.ahead with
  | atEnd hc hd =>
    rw [hc, hd]
    exact .error
  | @point ch hb hc hd =>
    have hnext := h.next (atPoint_of_peek hc hb)
    rw [hc, hd]
    dsimp only
    cases shortEscape? ch with
    | some e => exact .ok ⟨rfl, hnext.weaken (Nat.sub_le ..)⟩
    | none =>
      cases escapeWidth? ch with
      | none =>
        rw [hb]
        exact .error
      | some width =>
        refine Both.digits hnext fun v hskip => ?_
        cases escapedPoint v with
        | error => exact .error
        | ok e => exact .ok ⟨rfl, hskip.weaken (by omega)⟩
  | @lineEnd a b ha hb hc hd =>
    have hnone : ∀ x ∈ breaks, shortEscape? x = none ∧ escapeWidth? x = none := by decide
    obtain ⟨hsa, hwa⟩ := hnone a (mem_breaks ha)
    obtain ⟨hsb, hwb⟩ := hnone b (mem_breaks hb)
    have hbreak := (h.tight.takeBreak (sees_of_peek hc ha)).alike
    have hsize := hbreak.size
    have hl := h.left
    have hr := h.right
    rw [hc, hd]
    dsimp only
    rw [hsa, hsb, hwa, hwb, ha, hb]
    refine .require rfl fun _ => ?_
    refine (readQuotedBreaks_alike hbreak.tight ?_ ?_).imp fun hmore => hmore.weaken ?_
    · omega
    · omega
    · exact Nat.le_trans hsize (Nat.le_trans (Nat.sub_le ..) h.size)

theorem readQuotedPiece_alike (double : Bool) (h : Alike ms k c d) :
    Both (SameReading ms (k - 1)) (readQuotedPiece double c) (readQuotedPiece double d) := by
  have hgap : ∀ {a : CodePoint}, isSeparator a = true → c.peek 0 = some a →
      Both (SameReading ms (k - 1)) (readQuotedGap c >>= fun x => .ok (some x.1, x.2))
        (readQuotedGap d >>= fun x => .ok (some x.1, x.2)) := fun hs hc =>
    (readQuotedGap_alike h (sees_of_peek hc hs)).bind fun hr => .ok ⟨congrArg some hr.same, hr.alike⟩
  rw [readQuotedPiece, readQuotedPiece]
  cases h.ahead with
  | atEnd hc hd =>
    rw [hc, hd]
    exact .error
  | @point ch hb hc hd =>
    have hp := atPoint_of_peek hc hb
    have hnext := h.next hp
    rw [hc, hd]
    dsimp only
    rw [← h.seesChar_one hp (by decide)]
    split
    · next hs => exact hgap hs hc
    · split
      · refine (readEscape_alike hnext).bind fun hr => ?_
        exact .ok ⟨congrArg some hr.same, hr.alike⟩
      · split
        · next hq =>
          have hq' : c.next.seesChar 0 '\'' = true := by
            rw [← seesChar_succ]
            exact (Bool.and_eq_true_iff.1 hq).2
          exact .ok ⟨rfl, (hnext.next (atPoint_of_seesChar hq' (by decide))).weaken (Nat.sub_le ..)⟩
        · by_cases hq : (ch == .scalar (if double then '"' else '\'')) = true
          · rw [if_pos hq, if_pos hq]
            exact .ok ⟨rfl, hnext⟩
          · rw [if_neg hq, if_neg hq]
            exact .ok ⟨rfl, hnext⟩
  | @lineEnd a b ha hb hc hd =>
    have hsep : ∀ {x}, isBreak x = true → isSeparator x = true := fun hx => by simp [isSeparator, hx]
    rw [hc, hd]
    dsimp only
    rw [if_pos (hsep ha), if_pos (hsep hb)]
    exact hgap (hsep ha) hc

theorem readQuotedPiece_atEnd (double : Bool) (h : c.atEnd = true) :
    readQuotedPiece double c = .error .invalid := by
  rw [readQuotedPiece, peek_zero, List.isEmpty_iff.1 h]
  rfl

theorem readQuotedPieces_alike (double : Bool) (h : Alike ms k c d) (hn : k < n) (hm : k < m) :
    Both (SameReading ms k) (readQuotedPieces double n c) (readQuotedPieces double m d) := by
  induction n generalizing m k c d with
  | zero => exact absurd hn (Nat.not_lt_zero k)
  | succ n ih =>
    obtain ⟨m, rfl⟩ := Nat.exists_eq_add_one.2 (Nat.zero_lt_of_lt hm)
    rw [readQuotedPieces, readQuotedPieces]
    cases he : c.atEnd with
    | true =>
      rw [readQuotedPiece_atEnd double he, readQuotedPiece_atEnd double (h.atEnd ▸ he)]
      exact .error
    | false =>
      have hk := h.pos he
      refine (readQuotedPiece_alike double h).bind fun hr => ?_
      obtain ⟨t?, c₁, d₁, rfl, rfl, h₁⟩ := hr.split
      cases t? with
      | none => exact .ok ⟨rfl, h₁.weaken (Nat.sub_le ..)⟩
      | some t =>
        refine (ih h₁ (by omega) (by omega)).bind fun hmore => .ok ⟨?_, ?_⟩
        · rw [hmore.same]
        · exact hmore.alike.weaken (Nat.sub_le ..)

theorem readQuoted_alike (double : Bool) (h : Alike ms k c d) (hp : c.AtPoint) :
    Both (SameReading ms (k - 1)) (readQuoted double c) (readQuoted double d) := by
  have hnext := h.tight.next hp
  have hsize := hnext.size
  have hl := h.left
  have hr := h.right
  refine (readQuotedPieces_alike double hnext ?_ ?_).imp fun hr =>
    hr.weaken (Nat.sub_le_sub_right h.size 1)
  · omega
  · omega

/-! ## Plain scalars -/

theorem Unified.plainWord {t u : Text} (h : Unified t u) (inFlow : Bool) :
    plainWord inFlow t = plainWord inFlow u := by
  have hnil : ∀ {b : CodePoint} {v : Text}, isBreak b = true → Yaml.plainWord inFlow (b :: v) = [] := by
    intro b v hb
    simp [Yaml.plainWord, isSeparator, hb]
  induction h with
  | nil => rfl
  | point hc h ih =>
    rw [Yaml.plainWord, Yaml.plainWord, ih, h.ahead.all]
    intro a b ha hb
    simp [isSeparator, ha, hb]
  | separator hb _ _ _ => rw [hnil hb, hnil hb]
  | pair _ _ => rw [hnil (by decide), hnil (by decide)]
  | single hb _ _ _ => rw [hnil (isBreak_of_isOneOf hb), hnil (by decide)]

/-- A word stands at the front of its text. -/
theorem plainWord_append (inFlow : Bool) (t : Text) : ∃ rest, t = plainWord inFlow t ++ rest := by
  induction t with
  | nil => exact ⟨[], rfl⟩
  | cons ch t ih =>
    obtain ⟨rest, ht⟩ := ih
    rw [plainWord]
    split
    · exact ⟨ch :: t, rfl⟩
    · exact ⟨rest, congrArg (ch :: ·) ht⟩

/-- There are no breaks in a word. -/
theorem isBreak_of_mem_plainWord {inFlow : Bool} {t : Text} :
    ∀ ch ∈ plainWord inFlow t, isBreak ch = false := by
  induction t with
  | nil => simp [plainWord]
  | cons ch t ih =>
    rw [plainWord]
    split
    · simp
    · next hch =>
      refine List.forall_mem_cons.2 ⟨?_, ih⟩
      simp only [isSeparator, Bool.or_eq_true, not_or, Bool.not_eq_true] at hch
      exact hch.1.1.2

theorem readPlainBreaks_alike (h : Alike ms k c d) (hn : k < n) (hm : k < m) :
    SameReading ms k (readPlainBreaks n c) (readPlainBreaks m d) := by
  induction n generalizing m k c d with
  | zero => exact absurd hn (Nat.not_lt_zero k)
  | succ n ih =>
    obtain ⟨m, rfl⟩ := Nat.exists_eq_add_one.2 (Nat.zero_lt_of_lt hm)
    rw [readPlainBreaks, readPlainBreaks, ← h.seesDocumentMarker]
    dsimp only
    rw [← h.skipSpaces.seesBreak]
    split
    · exact ⟨rfl, h⟩
    · split
      · next hb =>
        have hk := h.skipSpaces.pos (atEnd_of_sees hb)
        have hbreak := h.skipSpaces.takeBreak hb
        have hmore := ih hbreak.alike (by omega) (by omega : k - 1 < m)
        refine ⟨?_, hmore.alike.weaken (Nat.sub_le ..)⟩
        rw [hbreak.same, hmore.same]
      · exact ⟨rfl, h.skipSpaces⟩

theorem readPlainGap_alike (h : Alike ms k c d) :
    SameReadings ms k (readPlainGap c) (readPlainGap d) := by
  have hblanks := h.takeWhile? (p := (· == .scalar ' ')) (by decide)
  rw [readPlainGap, readPlainGap]
  dsimp only
  rw [← hblanks.alike.seesBreak]
  split
  · next hb =>
    have hbreak := hblanks.alike.takeBreak hb
    have hmore := readPlainBreaks_alike hbreak.alike.tight hbreak.alike.left hbreak.alike.right
    have hsize := hbreak.alike.size
    obtain ⟨more?, c₁, d₁, hc, hd, h₁⟩ := (hmore.weaken (Nat.le_trans hsize (Nat.sub_le k 1))).split
    rw [hc, hd, hbreak.same]
    cases more? with
    | none => exact ⟨rfl, rfl, h₁⟩
    | some more => exact ⟨rfl, rfl, h₁⟩
  · exact ⟨hblanks.same, rfl, hblanks.alike⟩

/-- The word that stands at a cursor; none where a comment starts. -/
def wordAt (inFlow : Bool) (c : Cursor) : Text :=
  if c.seesChar 0 '#' then [] else plainWord inFlow c.rest

theorem wordAt_alike (h : Alike ms k c d) (inFlow : Bool) : wordAt inFlow c = wordAt inFlow d := by
  rw [wordAt, wordAt, h.seesChar (by decide), h.rest.plainWord]

/-- The place after a word, and the gap after it. -/
theorem skipWord_alike {inFlow : Bool} (h : Alike ms k c d) (hw : (wordAt inFlow c).isEmpty = false) :
    Alike ms (k - 1) (c.skip (wordAt inFlow c).length) (d.skip (wordAt inFlow c).length) := by
  have hlen : 0 < (wordAt inFlow c).length := List.length_pos_iff.2 (List.isEmpty_eq_false_iff.1 hw)
  have hword : wordAt inFlow c = plainWord inFlow c.rest := by
    rw [wordAt] at hw ⊢
    split
    · next hs => simp [hs] at hw
    · rfl
  rw [hword] at hlen ⊢
  obtain ⟨rest, hr⟩ := plainWord_append inFlow c.rest
  exact (h.skip isBreak_of_mem_plainWord hr).weaken (Nat.sub_le_sub_left hlen k)

theorem readPlainWords_succ (inFlow : Bool) (indent n : Nat) (gap : Text) (broke : Bool) (c : Cursor) :
    readPlainWords inFlow indent (n + 1) gap broke c =
      if (wordAt inFlow c).isEmpty then ([], broke, c)
      else
        let x := readPlainGap (c.skip (wordAt inFlow c).length)
        if x.1.isEmpty || x.2.2.seesChar 0 '#' || (!inFlow && x.2.2.column < indent) then
          (gap ++ wordAt inFlow c, x.2.1, x.2.2)
        else
          let y := readPlainWords inFlow indent n x.1 x.2.1 x.2.2
          (gap ++ wordAt inFlow c ++ y.1, y.2.1, y.2.2) :=
  rfl

/-- A round in which a word stands, before further ones. -/
theorem readPlainWords_round (inFlow : Bool) (indent n m : Nat) (gap : Text) (broke : Bool)
    (h : Alike ms k c d) (hw : (wordAt inFlow c).isEmpty = false)
    (ih : ∀ (gap : Text) (broke : Bool) {c d : Cursor}, Alike ms (k - 1) c d →
      SameReadings ms (k - 1) (readPlainWords inFlow indent n gap broke c)
        (readPlainWords inFlow indent m gap broke d)) :
    SameReadings ms (k - 1) (readPlainWords inFlow indent (n + 1) gap broke c)
      (readPlainWords inFlow indent (m + 1) gap broke d) := by
  have hgap := readPlainGap_alike (skipWord_alike h hw)
  rw [readPlainWords_succ, readPlainWords_succ, ← wordAt_alike h, hw, if_neg Bool.false_ne_true,
    if_neg Bool.false_ne_true]
  dsimp only
  rw [← hgap.same, ← hgap.reading.same, ← hgap.reading.alike.seesChar (by decide),
    ← hgap.reading.alike.column]
  split
  · exact ⟨rfl, rfl, hgap.reading.alike⟩
  · have hmore := ih (readPlainGap (c.skip (wordAt inFlow c).length)).1
      (readPlainGap (c.skip (wordAt inFlow c).length)).2.1 hgap.reading.alike
    exact ⟨by rw [hmore.same], hmore.reading.same, hmore.reading.alike⟩

/-- Where a word stands, the text goes on. -/
theorem atEnd_of_word {inFlow : Bool} (hw : (wordAt inFlow c).isEmpty = false) : c.atEnd = false := by
  rw [← Bool.not_eq_true]
  intro he
  rw [wordAt, List.isEmpty_iff.1 he] at hw
  split at hw <;> cases hw

theorem readPlainWords_alike {inFlow : Bool} {indent : Nat} (gap : Text) (broke : Bool)
    (h : Alike ms k c d) (hn : k < n) (hm : k < m) :
    SameReadings ms k (readPlainWords inFlow indent n gap broke c)
      (readPlainWords inFlow indent m gap broke d) := by
  induction n generalizing m k c d gap broke with
  | zero => exact absurd hn (Nat.not_lt_zero k)
  | succ n ih =>
    obtain ⟨m, rfl⟩ := Nat.exists_eq_add_one.2 (Nat.zero_lt_of_lt hm)
    cases hw : (wordAt inFlow c).isEmpty with
    | true =>
      rw [readPlainWords_succ, readPlainWords_succ, ← wordAt_alike h, hw]
      exact ⟨rfl, rfl, h⟩
    | false =>
      have hk := h.pos (atEnd_of_word hw)
      have hround := readPlainWords_round inFlow indent n m gap broke h hw
        fun gap broke _ _ h' => ih gap broke h' (by omega) (by omega)
      exact ⟨hround.same, hround.reading.weaken (Nat.sub_le ..)⟩

theorem readPlain_alike {inFlow : Bool} (indent : Nat) (h : Alike ms k c d)
    (hw : (wordAt inFlow c).isEmpty = false) :
    SameReadings ms (k - 1) (readPlain inFlow indent c) (readPlain inFlow indent d) := by
  obtain ⟨n, m, hc, hd, hn, hm⟩ := h.rounds
  have hk := h.tight.pos (atEnd_of_word hw)
  rw [readPlain, readPlain, hc, hd]
  have hround := readPlainWords_round inFlow indent n m [] false h.tight hw
    fun gap broke _ _ h' => readPlainWords_alike gap broke h' (by omega) (by omega)
  exact ⟨hround.same, hround.reading.weaken (Nat.sub_le_sub_right h.size 1)⟩

/-! ## Block scalars -/

theorem readChomping_alike (h : Alike ms k c d) :
    SameReading ms k (readChomping c) (readChomping d) := by
  rw [readChomping, readChomping, ← h.seesChar (by decide), ← h.seesChar (by decide)]
  split
  · next hs => exact ⟨rfl, (h.next (atPoint_of_seesChar hs (by decide))).weaken (Nat.sub_le ..)⟩
  · split
    · next hs => exact ⟨rfl, (h.next (atPoint_of_seesChar hs (by decide))).weaken (Nat.sub_le ..)⟩
    · exact ⟨rfl, h⟩

theorem readIncrement_alike (h : Alike ms k c d) :
    Both (SameReading ms k) (readIncrement c) (readIncrement d) := by
  rw [readIncrement, readIncrement]
  cases h.ahead with
  | atEnd hc hd =>
    rw [hc, hd]
    exact .ok ⟨rfl, h⟩
  | @point ch hb hc hd =>
    have hnext := (h.next (atPoint_of_peek hc hb)).weaken (Nat.sub_le ..)
    rw [hc, hd]
    dsimp only
    split
    · exact .ok ⟨rfl, h⟩
    · exact .require rfl fun _ => .ok ⟨rfl, hnext⟩
  | @lineEnd a b ha hb hc hd =>
    rw [hc, hd]
    dsimp only
    rw [of_isBreak (p := CodePoint.isDigit) (by decide) a ha,
      of_isBreak (p := CodePoint.isDigit) (by decide) b hb]
    exact .ok ⟨rfl, h⟩

theorem readBlockHead_alike (h : Alike ms k c d) :
    Both (SameReadings ms k) (readBlockHead c) (readBlockHead d) := by
  have hfirst := readChomping_alike h
  rw [readBlockHead, readBlockHead]
  dsimp only
  rw [hfirst.same]
  refine (readIncrement_alike hfirst.alike).bind fun {x y} hr => ?_
  have hsecond : SameReading ms k
      (if (readChomping d).1.isNone && x.1.isSome then readChomping x.2 else ((readChomping d).1, x.2))
      (if (readChomping d).1.isNone && y.1.isSome then readChomping y.2 else ((readChomping d).1, y.2)) := by
    rw [hr.same]
    split
    · exact readChomping_alike hr.alike
    · exact ⟨rfl, hr.alike⟩
  refine .require hsecond.alike.seesWordEnd fun _ => ?_
  refine hsecond.alike.skipRestOfLine.bind fun hc => .ok ⟨?_, hr.same, hc⟩
  exact congrArg (·.getD .clip) hsecond.same

theorem Unified.takeWhile_take {p : CodePoint → Bool} (hp : ∀ b ∈ breaks, p b = false) {t u : Text}
    (h : Unified t u) (w : Nat) : (t.take w).takeWhile p = (u.take w).takeWhile p := by
  have hnil : ∀ {b : CodePoint} {v : Text} (w : Nat), isBreak b = true →
      ((b :: v).take w).takeWhile p = [] := by
    intro b v w hb
    cases w with
    | zero => rfl
    | succ w => simp [of_isBreak hp b hb]
  induction h generalizing w with
  | nil => rfl
  | point _ _ ih =>
    cases w with
    | zero => rfl
    | succ w =>
      rw [List.take_succ_cons, List.take_succ_cons, List.takeWhile_cons, List.takeWhile_cons, ih]
  | separator hb _ _ _ => rw [hnil w hb, hnil w hb]
  | pair _ _ => rw [hnil w (by decide), hnil w (by decide)]
  | single hb _ _ _ => rw [hnil w (isBreak_of_isOneOf hb), hnil w (by decide)]

theorem skipIndent_alike (h : Alike ms k c d) (indent : Nat) :
    Alike ms k (c.skipIndent indent) (d.skipIndent indent) := by
  have hpoints : ∀ ch ∈ (c.rest.take (indent - c.column)).takeWhile (· == .scalar ' '),
      isBreak ch = false := by
    intro ch hch
    have hspace := List.all_eq_true.1 List.all_takeWhile ch hch
    rw [beq_iff_eq] at hspace
    rw [hspace]
    decide
  obtain ⟨rest, hr⟩ := (List.takeWhile_prefix (· == .scalar ' ')).trans
    (List.take_prefix (indent - c.column) c.rest)
  rw [Cursor.skipIndent, Cursor.skipIndent, ← h.column, ← h.rest.takeWhile_take (by decide)]
  exact (h.skip hpoints hr.symm).weaken (Nat.sub_le ..)

theorem readBlockBreaks_alike (indent : Nat) (h : Alike ms k c d) (hn : k < n) (hm : k < m) :
    SameReading ms k (readBlockBreaks indent n c) (readBlockBreaks indent m d) := by
  induction n generalizing m k c d with
  | zero => exact absurd hn (Nat.not_lt_zero k)
  | succ n ih =>
    obtain ⟨m, rfl⟩ := Nat.exists_eq_add_one.2 (Nat.zero_lt_of_lt hm)
    have hindent := skipIndent_alike h indent
    rw [readBlockBreaks, readBlockBreaks]
    dsimp only
    rw [← hindent.seesBreak]
    split
    · next hb =>
      have hk := hindent.pos (atEnd_of_sees hb)
      have hbreak := hindent.takeBreak hb
      have hmore := ih hbreak.alike (by omega) (by omega : k - 1 < m)
      exact ⟨by rw [hbreak.same, hmore.same], hmore.alike.weaken (Nat.sub_le ..)⟩
    · exact ⟨rfl, hindent⟩

theorem readBlockIndent_alike (h : Alike ms k c d) (hn : k < n) (hm : k < m) :
    SameReadings ms k (readBlockIndent n c) (readBlockIndent m d) := by
  induction n generalizing m k c d with
  | zero => exact absurd hn (Nat.not_lt_zero k)
  | succ n ih =>
    obtain ⟨m, rfl⟩ := Nat.exists_eq_add_one.2 (Nat.zero_lt_of_lt hm)
    rw [readBlockIndent, readBlockIndent]
    dsimp only
    rw [← h.skipSpaces.seesBreak, ← h.skipSpaces.column]
    split
    · next hb =>
      have hk := h.skipSpaces.pos (atEnd_of_sees hb)
      have hbreak := h.skipSpaces.takeBreak hb
      have hmore := ih hbreak.alike (by omega) (by omega : k - 1 < m)
      refine ⟨by rw [hbreak.same, hmore.same], ?_, hmore.reading.alike.weaken (Nat.sub_le ..)⟩
      rw [hmore.reading.same]
    · exact ⟨rfl, rfl, h.skipSpaces⟩

/-- The same lines of a block scalar. -/
structure SameLines (ms : List Mark) (k : Nat) (r s : BlockLines) : Prop where
  text : r.text = s.text
  last : r.last = s.last
  blank : r.blank = s.blank
  cursor : Alike ms k r.cursor s.cursor

/-- A line with the break after it, where the text does not end. -/
theorem lineAndBreak_alike (h : Alike ms k c d) (he : c.atEnd = false) :
    (c.takeWhile (!isBreak ·)).1 = (d.takeWhile (!isBreak ·)).1 ∧
      SameReading ms (k - 1) (c.takeWhile (!isBreak ·)).2.takeBreak
        (d.takeWhile (!isBreak ·)).2.takeBreak := by
  have hline := h.takeWhile? (p := (!isBreak ·)) (by decide)
  refine ⟨hline.same, ?_⟩
  cases hs : c.sees 0 (!isBreak ·) with
  | true => exact (h.takeWhile_pos (by decide) hs).alike.takeBreak?
  | false =>
    -- The line is empty: what stands here is its break.
    have hb : c.sees 0 isBreak = true := by
      rw [Cursor.sees, peek_zero] at hs ⊢
      rw [Cursor.atEnd] at he
      cases hr : c.rest with
      | nil => simp [hr] at he
      | cons ch rest => simpa [hr] using hs
    have hs' : d.sees 0 (!isBreak ·) = false := by rw [← h.sees (by decide), hs]
    rw [takeWhile_none hs, takeWhile_none hs']
    exact h.takeBreak hb

theorem readBlockLines_alike (folded : Bool) (indent : Nat) (blank : Text) (h : Alike ms k c d)
    (hn : k < n) (hm : k < m) :
    SameLines ms k (readBlockLines folded indent n blank c) (readBlockLines folded indent m blank d) := by
  induction n generalizing m k c d blank with
  | zero => exact absurd hn (Nat.not_lt_zero k)
  | succ n ih =>
    obtain ⟨m, rfl⟩ := Nat.exists_eq_add_one.2 (Nat.zero_lt_of_lt hm)
    rw [readBlockLines, readBlockLines, ← h.column, ← h.atEnd,
      ← h.sees (p := (·.isOneOf " \t")) (by decide)]
    split
    · next hc =>
      have he : c.atEnd = false := by
        simp only [Bool.and_eq_true, Bool.not_eq_true'] at hc
        exact hc.2
      have hk := h.pos he
      obtain ⟨hline, hbreak⟩ := lineAndBreak_alike h he
      have hnext := readBlockBreaks_alike indent hbreak.alike.tight hbreak.alike.left hbreak.alike.right
      have hnext := hnext.weaken hbreak.alike.size
      dsimp only
      rw [← hline, ← hbreak.same, ← hnext.same, ← hnext.alike.column, ← hnext.alike.atEnd,
        ← hnext.alike.sees (p := (·.isOneOf " \t")) (by decide)]
      split
      · have hmore := fun blank => ih (m := m) blank hnext.alike (by omega) (by omega)
        exact ⟨by rw [(hmore _).text], (hmore _).last, (hmore _).blank,
          (hmore _).cursor.weaken (Nat.sub_le ..)⟩
      · exact ⟨rfl, rfl, rfl, hnext.alike.weaken (Nat.sub_le ..)⟩
    · exact ⟨rfl, rfl, rfl, h⟩

/-- The indentation of a block scalar and the empty lines before its first line; `least` is the
    least indentation. -/
def readBlockStart (least : Nat) (increment? : Option Nat) (c : Cursor) : Nat × Text × Cursor :=
  match increment? with
  | some w => (least + w - 1, readBlockBreaks (least + w - 1) c.bound c)
  | none =>
    let x := readBlockIndent c.bound c
    (max least x.2.1, x.1, x.2.2)

/-- The text of a block scalar with what is kept of the breaks at its end. -/
def BlockLines.chomp (chomping : Chomping) (r : BlockLines) : Text :=
  r.text ++ match chomping with
    | .strip => []
    | .clip => r.last
    | .keep => r.last ++ r.blank

theorem readBlock_eq (folded : Bool) (around : Option Nat) (c : Cursor) :
    readBlock folded around c = readBlockHead c.next >>= fun x =>
      let y := readBlockStart (around.elim 1 (· + 1)) x.2.1 x.2.2
      let r := readBlockLines folded y.1 y.2.2.bound y.2.1 y.2.2
      .ok (r.chomp x.1, r.cursor) := by
  rw [readBlock]
  refine bind_congr fun x => ?_
  obtain ⟨chomping, increment?, c⟩ := x
  cases increment? <;> rfl

theorem readBlockStart_alike (least : Nat) (increment? : Option Nat) (h : Alike ms k c d) :
    SameReadings ms k (readBlockStart least increment? c) (readBlockStart least increment? d) := by
  cases increment? with
  | some w => exact ⟨rfl, (readBlockBreaks_alike _ h.tight h.left h.right).weaken h.size⟩
  | none =>
    have hr := readBlockIndent_alike h.tight h.left h.right
    exact ⟨congrArg (max least) hr.reading.same, hr.same, hr.reading.alike.weaken h.size⟩

theorem readBlock_alike (folded : Bool) (around : Option Nat) (h : Alike ms k c d) (hp : c.AtPoint) :
    Both (SameReading ms (k - 1)) (readBlock folded around c) (readBlock folded around d) := by
  rw [readBlock_eq, readBlock_eq]
  refine (readBlockHead_alike (h.next hp)).bind fun hhead => ?_
  obtain ⟨chomping, increment?, c₁, d₁, rfl, rfl, h₁⟩ := hhead.split
  obtain ⟨indent, blank, c₂, d₂, hc, hd, h₂⟩ :=
    (readBlockStart_alike (around.elim 1 (· + 1)) increment? h₁).split
  have hlines := readBlockLines_alike folded indent blank h₂.tight h₂.left h₂.right
  dsimp only
  rw [hc, hd]
  refine .ok ⟨?_, hlines.cursor.weaken h₂.size⟩
  simp only [BlockLines.chomp, hlines.text, hlines.last, hlines.blank]

end TraitCatalog.Yaml
