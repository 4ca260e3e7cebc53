/-
  Lines of a text that is put together from several.

  * `splitLines_append_newline`: after a line feed the lines of the rest start;
  * `mem_splitLines_concat`: a line feed at the end of a text makes no line that was not there, but for
    an empty one;
  * `join_consHead`, `join_cons`: what joined lines start with;
  * `splitLines_join`: lines that are joined by line feeds come back, but for an empty last one.
-/
import TraitCatalog.Proofs.Text.Cuts
import TraitCatalog.Text.Lines

namespace TraitCatalog.Text

theorem consHead_ne_nil (c : CodePoint) (ls : List Text) : consHead c ls ≠ [] := by
  cases ls <;> simp [consHead]

theorem consHead_append {ls : List Text} (h : ls ≠ []) (c : CodePoint) (ms : List Text) :
    consHead c (ls ++ ms) = consHead c ls ++ ms := by
  cases ls with
  | nil => exact absurd rfl h
  | cons l ls => rfl

theorem splitLines_ne_nil {t : Text} (h : t ≠ []) : splitLines t ≠ [] := by
  induction t using splitLines.induct with
  | case1 => exact absurd rfl h
  | case2 c hc => simp [splitLines, hc]
  | case3 c hc => simp [splitLines, hc]
  | case4 c d t hc _ => simp [splitLines, hc]
  | case5 c d t hc hend _ => simp [splitLines, hc, hend]
  | case6 c d t hc hend _ =>
    rw [splitLines, if_neg hc, if_neg hend]
    exact consHead_ne_nil c _

theorem splitLines_newline_cons (t : Text) : splitLines (newline :: t) = [] :: splitLines t := by
  have hend : newline.isLineEnd = true := by decide
  have hne : newline ≠ .scalar '\r' := by decide
  cases t with
  | nil => simp [splitLines, hend]
  | cons d t => simp [splitLines, hend, hne]

theorem splitLines_pair (t : Text) :
    splitLines (.scalar '\r' :: newline :: t) = [] :: splitLines t := by
  rw [splitLines, if_pos ⟨rfl, rfl⟩]

theorem splitLines_lineEnd {c : CodePoint} {t : Text} (h : c.isLineEnd = true)
    (hp : c = .scalar '\r' → t.head? ≠ some newline) : splitLines (c :: t) = [] :: splitLines t := by
  cases t with
  | nil => simp [splitLines, h]
  | cons d t =>
    have hpair : ¬(c = .scalar '\r' ∧ d = .scalar '\n') := by
      rintro ⟨hc, rfl⟩
      exact hp hc rfl
    rw [splitLines, if_neg hpair, if_pos h]

theorem splitLines_point {c : CodePoint} (h : c.isLineEnd = false) (t : Text) :
    splitLines (c :: t) = consHead c (splitLines t) := by
  cases t with
  | nil => simp [splitLines, h, consHead]
  | cons d t =>
    have hpair : ¬(c = .scalar '\r' ∧ d = .scalar '\n') := by
      rintro ⟨rfl, -⟩
      exact absurd h (by decide)
    rw [splitLines, if_neg hpair, if_neg (by rw [h]; exact Bool.false_ne_true)]

/-- A text starts with nothing, with CR LF, with another line end, or with a point inside a line. -/
theorem lines_induct {p : Text → Prop} (nil : p [])
    (pair : ∀ t, p t → p (.scalar '\r' :: newline :: t))
    (lineEnd : ∀ c t, c.isLineEnd = true → (c = .scalar '\r' → t.head? ≠ some newline) → p t →
      p (c :: t))
    (point : ∀ c t, c.isLineEnd = false → p t → p (c :: t)) (t : Text) : p t := by
  induction t using splitLines.induct with
  | case1 => exact nil
  | case2 c hc => exact lineEnd c [] hc (by simp) nil
  | case3 c hc => exact point c [] (by simpa using hc) nil
  | case4 c d t hc ih =>
    obtain ⟨rfl, rfl⟩ := hc
    exact pair t ih
  | case5 c d t hc hend ih =>
    refine lineEnd c (d :: t) hend ?_ ih
    rintro rfl hd
    exact hc ⟨rfl, Option.some.inj hd⟩
  | case6 c d t _ hend ih => exact point c (d :: t) (by simpa using hend) ih

/-- A line end other than a carriage return at the end of the text is not affected by what is put
    after the text. -/
theorem head?_append_ne {c : CodePoint} {t : Text} (hp : c = .scalar '\r' → t.head? ≠ some newline)
    (hlast : c ≠ .scalar '\r' ∨ t ≠ []) (u : Text) :
    c = .scalar '\r' → (t ++ u).head? ≠ some newline := by
  intro hc
  cases t with
  | nil => exact absurd hc (hlast.resolve_right (absurd rfl))
  | cons d t => exact hp hc

/-- After a line feed the lines of the rest start. -/
theorem splitLines_append_newline (t u : Text) :
    splitLines (t ++ newline :: u) = splitLines (t ++ [newline]) ++ splitLines u := by
  induction t using lines_induct with
  | nil => rw [List.nil_append, List.nil_append, splitLines_newline_cons, splitLines_newline_cons]; rfl
  | pair t ih =>
    simp only [List.cons_append]
    rw [splitLines_pair, splitLines_pair, ih]
    rfl
  | lineEnd c t hc hp ih =>
    simp only [List.cons_append]
    by_cases hlast : c ≠ .scalar '\r' ∨ t ≠ []
    · have hput := fun u => head?_append_ne hp hlast u
      rw [splitLines_lineEnd hc (hput _), splitLines_lineEnd hc (hput _), ih]
      rfl
    · -- The line feed and the carriage return in front of it are one line end.
      obtain ⟨rfl, rfl⟩ : c = .scalar '\r' ∧ t = [] := by
        simpa using hlast
      rw [List.nil_append, List.nil_append, splitLines_pair, splitLines_pair]
      rfl
  | point c t hc ih =>
    simp only [List.cons_append]
    rw [splitLines_point hc, splitLines_point hc, ih, consHead_append (splitLines_ne_nil (by simp))]

/-- A line feed at the end of a text makes no line but an empty one. -/
theorem splitLines_concat (t : Text) :
    splitLines (t ++ [newline]) = splitLines t ∨
      splitLines (t ++ [newline]) = splitLines t ++ [[]] := by
  induction t using lines_induct with
  | nil => exact .inr rfl
  | pair t ih =>
    simp only [List.cons_append]
    rw [splitLines_pair, splitLines_pair]
    exact ih.imp (congrArg ([] :: ·)) (congrArg ([] :: ·))
  | lineEnd c t hc hp ih =>
    simp only [List.cons_append]
    rw [splitLines_lineEnd hc hp]
    by_cases hlast : c ≠ .scalar '\r' ∨ t ≠ []
    · rw [splitLines_lineEnd hc (head?_append_ne hp hlast _)]
      exact ih.imp (congrArg ([] :: ·)) (congrArg ([] :: ·))
    · obtain ⟨rfl, rfl⟩ : c = .scalar '\r' ∧ t = [] := by simpa using hlast
      exact .inl (splitLines_pair [])
  | point c t hc ih =>
    simp only [List.cons_append]
    rw [splitLines_point hc, splitLines_point hc]
    cases t with
    | nil => exact .inl rfl
    | cons d t =>
      rw [← consHead_append (splitLines_ne_nil (by simp))]
      exact ih.imp (congrArg (consHead c)) (congrArg (consHead c))

theorem mem_splitLines_concat {t l : Text} (h : l ∈ splitLines (t ++ [newline])) :
    l ∈ splitLines t ∨ l = [] := by
  rcases splitLines_concat t with heq | heq
  · exact .inl (heq ▸ h)
  · rw [heq, List.mem_append, List.mem_singleton] at h
    exact h

/-! ## Lines joined again -/

theorem join_cons {ls : List Text} (h : ls ≠ []) (sep l : Text) :
    join sep (l :: ls) = l ++ sep ++ join sep ls := by
  cases ls with
  | nil => exact absurd rfl h
  | cons m ls => rw [join, join, List.intercalate_cons_cons]

theorem join_consHead {ls : List Text} (h : ls ≠ []) (sep : Text) (c : CodePoint) :
    join sep (consHead c ls) = c :: join sep ls := by
  cases ls with
  | nil => exact absurd rfl h
  | cons l ls =>
    rw [consHead, join, join]
    cases ls with
    | nil => rfl
    | cons m ls => rw [List.intercalate_cons_cons, List.intercalate_cons_cons]; rfl

/-! ## Lines split again -/

/-- A text without line ends, as every line is. -/
def Unbroken (l : Text) : Prop :=
  ∀ c ∈ l, c.isLineEnd = false

theorem unbroken_nil : Unbroken [] := by
  simp [Unbroken]

theorem unbroken_consHead {c : CodePoint} {ls : List Text} (hc : c.isLineEnd = false)
    (h : ∀ l ∈ ls, Unbroken l) : ∀ l ∈ consHead c ls, Unbroken l := by
  cases ls with
  | nil =>
    intro l hl
    rw [List.mem_singleton.1 hl]
    exact List.forall_mem_singleton.2 hc
  | cons m ls =>
    obtain ⟨hm, hls⟩ := List.forall_mem_cons.1 h
    exact List.forall_mem_cons.2 ⟨List.forall_mem_cons.2 ⟨hc, hm⟩, hls⟩

/-- No line end stands inside a line. -/
theorem unbroken_of_mem_splitLines (t : Text) : ∀ l ∈ splitLines t, Unbroken l := by
  induction t using lines_induct with
  | nil => simp [splitLines]
  | pair t ih =>
    rw [splitLines_pair]
    exact List.forall_mem_cons.2 ⟨unbroken_nil, ih⟩
  | lineEnd c t hc hp ih =>
    rw [splitLines_lineEnd hc hp]
    exact List.forall_mem_cons.2 ⟨unbroken_nil, ih⟩
  | point c t hc ih =>
    rw [splitLines_point hc]
    exact unbroken_consHead hc ih

/-- A text without line ends is one line, up to the line feed after it. -/
theorem splitLines_unbroken_newline {l : Text} (h : Unbroken l) : splitLines (l ++ [newline]) = [l] := by
  induction l with
  | nil => exact splitLines_newline_cons []
  | cons c l ih =>
    obtain ⟨hc, hl⟩ := List.forall_mem_cons.1 h
    rw [List.cons_append, splitLines_point hc, ih hl, consHead]

/-- Lines that are joined by line feeds come back; of the last one, the lines that it has itself. -/
theorem splitLines_join {ls : List Text} (h : ∀ l ∈ ls, Unbroken l) (last : Text) :
    splitLines (join (lit "\n") (ls ++ [last])) = ls ++ splitLines last := by
  induction ls with
  | nil => rw [List.nil_append, List.nil_append, join, List.intercalate_singleton]
  | cons l ls ih =>
    obtain ⟨hl, hls⟩ := List.forall_mem_cons.1 h
    have hfeed : l ++ lit "\n" ++ join (lit "\n") (ls ++ [last]) =
        l ++ newline :: join (lit "\n") (ls ++ [last]) := by
      rw [List.append_assoc]
      rfl
    rw [List.cons_append, join_cons (by simp), hfeed, splitLines_append_newline,
      splitLines_unbroken_newline hl, ih hls, List.cons_append, List.cons_append, List.nil_append]

/-- Joining lines by line feeds makes no line that was not there. -/
theorem mem_splitLines_join {ls : List Text} (h : ∀ l ∈ ls, Unbroken l) {l : Text}
    (hl : l ∈ splitLines (join (lit "\n") ls)) : l ∈ ls := by
  rcases List.eq_nil_or_concat ls with rfl | ⟨ms, last, rfl⟩
  · exact absurd hl (by simp [join, splitLines])
  · rw [List.concat_eq_append] at h hl ⊢
    obtain ⟨hms, hlast⟩ := List.forall_mem_append.1 h
    rw [splitLines_join hms, List.mem_append] at hl
    refine List.mem_append.2 (hl.imp_right fun hl => ?_)
    -- The last line has at most one line, itself.
    have hsplit := splitLines_unbroken_newline (hlast last (List.mem_singleton_self last))
    rcases splitLines_concat last with heq | heq
    · rwa [← hsplit, heq]
    · rw [hsplit] at heq
      have hnone : splitLines last = [] := by
        simpa using congrArg List.dropLast heq.symm
      rw [hnone] at hl
      cases hl

end TraitCatalog.Text
