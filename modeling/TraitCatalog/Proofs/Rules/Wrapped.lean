/-
  Rules in a fence, and the same rules without one.

  Rules in a fence are taken line by line, and every line end is one: LF, CR, CR LF and U+0085, which
  YAML reads as a line feed too, but also U+2028 and U+2029, which it keeps, and the controls U+000B,
  U+000C and U+001C to U+001E, which no YAML text may hold.  So a fence changes nothing about rules
  whose line ends are of the first kind (`parse_wrapped`), and may change what the others mean.

  * `wrap`: rules in a fence, under a heading;
  * `extract_wrap`: what is taken from them;
  * `unified_joined`: lines that are joined again differ from the text only in how they end.
-/
import TraitCatalog.Proofs.Rules.Fence
import TraitCatalog.Proofs.Text.Lines
import TraitCatalog.Proofs.Yaml.TokenStream

namespace TraitCatalog.Fence

open Text (lit newline splitLines)
open Yaml (Unified)

/-- Rules in a fence, under a heading. -/
def wrap (heading body : Text) : Text :=
  heading ++ lit "\n```yaml\n" ++ body ++ lit "\n```\n"

/-- A code point that ends no line, or ends one both for the fence and in YAML. -/
def endsAlike (c : CodePoint) : Bool :=
  !c.isLineEnd || c.isOneOf "\r\n\x85"

variable {heading body : Text}

/-! ## What is taken from a fence -/

theorem isFence_of_opens {l : Text} (h : opens l = true) : isFence l = true := by
  obtain ⟨r, hr⟩ := Text.startsWith_iff.1 h
  exact Text.startsWith_iff.2 ⟨lit "yaml" ++ r, hr⟩

theorem splitLines_wrap (heading body : Text) :
    splitLines (wrap heading body) = splitLines (heading ++ [newline]) ++
      lit "```yaml" :: (splitLines (body ++ [newline]) ++ [lit "```"]) := by
  have hwrap : wrap heading body =
      heading ++ newline ::
        (lit "```yaml" ++ newline :: (body ++ newline :: (lit "```" ++ [newline]))) := by
    rw [wrap, List.append_assoc, List.append_assoc]
    rfl
  rw [hwrap, Text.splitLines_append_newline, Text.splitLines_append_newline (lit "```yaml"),
    Text.splitLines_append_newline body]
  rfl

theorem extract_wrap (hh : ∀ l ∈ heading.splitLines, opens l = false)
    (hb : ∀ l ∈ body.splitLines, isFence l = false) :
    extract (wrap heading body) = Text.join (lit "\n") (splitLines (body ++ [newline])) := by
  have hbody : ∀ l ∈ splitLines (body ++ [newline]), isFence l = false := by
    intro l hl
    rcases Text.mem_splitLines_concat hl with hl | rfl
    · exact hb l hl
    · decide
  have hunopened : ∀ l, isFence l = false → opens l = false := by
    intro l hl
    rw [← Bool.not_eq_true] at hl ⊢
    exact fun ho => hl (isFence_of_opens ho)
  have hblock : FirstBlock (splitLines (wrap heading body)) (splitLines (heading ++ [newline]))
      (lit "```yaml") (splitLines (body ++ [newline])) [lit "```"] := by
    refine ⟨splitLines_wrap heading body, ?_, by decide, ?_, by decide⟩
    · intro l hl
      rcases Text.mem_splitLines_concat hl with hl | rfl
      · exact hh l hl
      · decide
    · intro l hl
      rw [closes, hbody l hl]
      rfl
  rw [hblock.extract_eq, List.filter_eq_self.2]
  intro l hl
  rw [hunopened l (hbody l hl)]
  rfl

/-! ## Line ends -/

theorem getLast?_tail {c d : CodePoint} {t : Text} (h : (c :: t).getLast? ≠ some d) :
    t.getLast? ≠ some d := by
  cases t with
  | nil => simp
  | cons e t => rwa [List.getLast?_cons_cons] at h

/-- Lines that are joined again are those of the text, ended by line feeds. -/
theorem unified_joined {t : Text} (ha : t.all endsAlike = true)
    (hl : t.getLast? ≠ some (.scalar '\r')) :
    Unified t (Text.join (lit "\n") (splitLines (t ++ [newline]))) := by
  have hpoint : ∀ {c : CodePoint}, c.isLineEnd = false → Yaml.isBreak c = false := by
    intro c hc
    rw [← Bool.not_eq_true]
    intro hb
    have hends : ∀ b ∈ Yaml.breaks, b.isLineEnd = true := by decide
    rw [hends c (Yaml.mem_breaks hb)] at hc
    cases hc
  have hlines : ∀ u : Text, splitLines (u ++ [newline]) ≠ [] := fun u =>
    Text.splitLines_ne_nil (by simp)
  induction t using Text.lines_induct with
  | nil => exact .nil
  | pair t ih =>
    rw [List.all_cons, List.all_cons, Bool.and_eq_true, Bool.and_eq_true] at ha
    simp only [List.cons_append]
    rw [Text.splitLines_pair, Text.join_cons (hlines t)]
    exact .pair (ih ha.2.2 (getLast?_tail (getLast?_tail hl)))
  | lineEnd c t hc hp ih =>
    rw [List.all_cons, Bool.and_eq_true, endsAlike, hc] at ha
    have hlast : c ≠ .scalar '\r' ∨ t ≠ [] := by
      rw [← not_and_or]
      rintro ⟨rfl, rfl⟩
      exact hl rfl
    simp only [List.cons_append]
    rw [Text.splitLines_lineEnd hc (Text.head?_append_ne hp hlast _), Text.join_cons (hlines t)]
    exact .single ha.1 hp (ih ha.2 (getLast?_tail hl))
  | point c t hc ih =>
    rw [List.all_cons, Bool.and_eq_true] at ha
    simp only [List.cons_append]
    rw [Text.splitLines_point hc, Text.join_consHead (hlines t)]
    exact .point (hpoint hc) (ih ha.2 (getLast?_tail hl))

/-- Rules whose line ends YAML does not tell apart are the same rules. -/
theorem load_unified {t u : Text} (h : Unified t u) (depth : Nat) :
    Yaml.load depth t = Yaml.load depth u := by
  rw [Yaml.load, Yaml.load, Yaml.Graph.ofText, Yaml.Graph.ofText, Yaml.tokenize_unified h]

/-- A text that holds a code point which may not stand in one is no YAML. -/
theorem load_unprintable {t : Text} (h : t.all Yaml.isPrintable = false) (depth : Nat) :
    Yaml.load depth t = .error .invalid := by
  have htokens : Yaml.tokenize t = ([], some .invalid) := by rw [Yaml.tokenize, h]; rfl
  rw [Yaml.load, Yaml.Graph.ofText, htokens]
  rfl

/-- **What a fence does to rules.**  Rules under a heading that opens no block, in a fence that no line
    of theirs closes, are read as their lines joined by line feeds, whatever the heading says.

    If their line ends are LF, CR LF, CR and U+0085 only, and CR is not the last code point, they mean
    what they mean without the fence: the same rules, or the same fault with the same details.  If they
    hold one of the controls that end a line for the fence only, they are not valid without it. -/
theorem parse_wrapped (heading body : Text) (hh : ∀ l ∈ heading.splitLines, opens l = false)
    (hb : ∀ l ∈ body.splitLines, isFence l = false) :
    extract (wrap heading body) = Text.join (lit "\n") (splitLines (body ++ [newline])) ∧
    (body.all endsAlike = true → body.getLast? ≠ some (.scalar '\r') →
      Rules.parse (wrap heading body) = Rules.parse body) ∧
    (body.any (·.isOneOf "\x0b\x0c\x1c\x1d\x1e") = true →
      Rules.parse body = .error (.yaml .invalid)) := by
  have hbody : extract body = body := by
    refine extract_unfenced fun l hl => ?_
    rw [← Bool.not_eq_true]
    intro ho
    have hf := isFence_of_opens ho
    rw [hb l hl] at hf
    cases hf
  refine ⟨extract_wrap hh hb, fun ha hl => ?_, fun hc => ?_⟩
  · rw [Rules.parse, Rules.parse, extract_wrap hh hb, hbody, ← load_unified (unified_joined ha hl)]
  · have hprint : body.all Yaml.isPrintable = false := by
      obtain ⟨c, hmem, hc⟩ := List.any_eq_true.1 hc
      obtain ⟨x, hx, rfl⟩ := Yaml.exists_of_isOneOf hc
      have hcontrols :
          ("\x0b\x0c\x1c\x1d\x1e".toList.all fun x => !Yaml.isPrintable (.scalar x)) = true := by
        decide
      have hcontrol := List.all_eq_true.1 hcontrols x hx
      rw [Bool.not_eq_true'] at hcontrol
      exact List.all_eq_false.2 ⟨_, hmem, by rw [hcontrol]; exact Bool.false_ne_true⟩
    rw [Rules.parse, hbody, load_unprintable hprint]

/-- Rules with several line ends that YAML does not tell apart, one of them inside quotes. -/
def mixedSample : Text :=
  lit "project:\r\n  slug: \"a\u0085  b\"\r  rules_version: '1'\n"

/-- Rules with a form feed in a comment. -/
def formFeedSample : Text :=
  lit "project: # \x0c\n  slug: a\n  rules_version: '1'"

theorem parse_wrapped_samples :
    Rules.parse (wrap (lit "# Rules") mixedSample) = Rules.parse mixedSample ∧
      Rules.parse formFeedSample = .error (.yaml .invalid) ∧
      extract (wrap [] formFeedSample) = lit "project: # \n\n  slug: a\n  rules_version: '1'" := by
  have hmixed := parse_wrapped (lit "# Rules") mixedSample (by decide) (by decide)
  have hfeed := parse_wrapped [] formFeedSample (by decide) (by decide)
  refine ⟨hmixed.2.1 (by decide) (by decide), hfeed.2.2 (by decide), ?_⟩
  rw [hfeed.1]
  decide

/-- Rules with U+2028 in a quoted text. -/
def separatorSample : Text :=
  lit "project:\n  slug: \"a\u2028b\"\n  rules_version: '1'\n"

/-- A fence turns U+2028 into a line feed, which YAML folds to a space, although no line of the rules is
    a fence. -/
theorem fence_changes_separator :
    (∀ l ∈ splitLines (lit "Rules"), isFence l = false) ∧
      (∀ l ∈ separatorSample.splitLines, isFence l = false) ∧
      (Rules.parse separatorSample).map (·.project.slug) = .ok (lit "a\u2028b") ∧
      (Rules.parse (wrap (lit "Rules") separatorSample)).map (·.project.slug) = .ok (lit "a b") := by
  refine ⟨by decide, by decide, ?_, ?_⟩
  · decide +kernel
  · decide +kernel

end TraitCatalog.Fence
