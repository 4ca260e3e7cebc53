/-
  Which scalars have no value, and which of their faults are not foreseen.

  Most texts that are no value of their kind are reported as bad.  A few are not, and all of these can
  be told from the text: a truth value that is none of the words, a number without a first character,
  a real in base sixty with too many digits, a timestamp that is none.

  * `Unreadable`: the nodes whose value cannot be found for such a reason, with the fault;
  * `scalarValue_eq_error_iff`: these, and no others, have no value without being reported as bad;
  * `eq_hugePower_of_plain`: a scalar without quotes and without a tag can be one of them only in base
    sixty, since its text has shown its kind.
-/
import Mathlib.Data.List.TakeWhile
import TraitCatalog.Proofs.Text.Cuts
import TraitCatalog.Proofs.Yaml.Outcome.Basic
import TraitCatalog.Yaml.Value

namespace TraitCatalog.Yaml

open Text (lit)

/-- The words for truth values. -/
def truthWords : List String :=
  ["yes", "true", "on", "no", "false", "off"]

/-- The number of digits that a real in base sixty may have. -/
def sixtiethLimit : Nat := 174

/-- The text of a node whose value cannot be found, and the unforeseen fault that this is. -/
inductive Unreadable : (tag : Tag) → (content : Content) → (t : Text) → Fault → Prop
  | truth {content : Content} {t : Text} : (∀ w ∈ truthWords, lit w ≠ t.lower) →
      Unreadable .truth content t (.unknownTruth t.lower)
  | integer {content : Content} {t : Text} : dropUnderscores t ∈ [[], lit "-", lit "+"] →
      Unreadable .integer content t .emptyNumber
  | real {content : Content} {t : Text} : dropUnderscores t = [] →
      Unreadable .real content t .emptyNumber
  | sixtieths {content : Content} {t u : Text} {negative : Bool} :
      takeSign (dropUnderscores t).lower = .ok (negative, u) →
      (∀ p ∈ Text.splitOn (.scalar ':') u, ∃ r, RealNumber.parse p = .ok r) →
      sixtiethLimit < (Text.splitOn (.scalar ':') u).length →
      Unreadable .real content t .hugePower
  | moment {t u : Text} : MomentFields.parse? u = none → Unreadable .moment (.scalar u) t .notMoment
  | collection {content : Content} {t : Text} : (∀ u, content ≠ .scalar u) →
      Unreadable .moment content t .momentOfCollection

/-! ## Numbers -/

theorem integerIn_yields (base : Nat) (t : Text) :
    Yields (·.isForeseen = true) (fun _ => True) (integerIn base t) := by
  rw [integerIn]
  dsimp only
  split
  all_goals
    refine .ite (fun _ => .error rfl) fun _ => ?_
    exact .ite (fun _ => .error rfl) fun _ => .ok trivial

/-- A number without its sign, of which nothing is left if there was nothing else. -/
theorem takeSign_yields (t : Text) :
    Yields (fun f => f = .emptyNumber ∧ t = []) (fun p => p.2 = [] → t = lit "-" ∨ t = lit "+")
      (takeSign t) := by
  cases t with
  | nil => exact .error ⟨rfl, rfl⟩
  | cons c t =>
    rw [takeSign]
    refine .ite (fun hminus => .ok fun ht => ?_) fun _ => ?_
    · subst ht
      exact .inl (hminus ▸ rfl)
    refine .ite (fun hplus => .ok fun ht => ?_) fun _ => ?_
    · subst ht
      exact .inr (hplus ▸ rfl)
    · exact .ok fun h => absurd h (List.cons_ne_nil c t)

theorem readInteger_yields (t : Text) :
    Yields (fun f => f.isForeseen = true ∨
        f = .emptyNumber ∧ dropUnderscores t ∈ [[], lit "-", lit "+"])
      (fun _ => True) (readInteger t) := by
  have hdigits : ∀ base u, Yields (fun f => f.isForeseen = true ∨
      f = .emptyNumber ∧ dropUnderscores t ∈ [[], lit "-", lit "+"]) (fun _ => True)
      (integerIn base u) :=
    fun base u => (integerIn_yields base u).imp (fun _ hf => .inl hf) fun _ h => h
  rw [readInteger]
  refine ((takeSign_yields _).imp (fun f hf => .inr ⟨hf.1, by simp [hf.2]⟩) fun _ h => h).bind ?_
  rintro ⟨negative, u⟩ hu
  refine .ite (fun hempty => .error (.inr ⟨rfl, ?_⟩)) fun _ => .ite (fun _ => .ok trivial) fun _ => ?_
  · rcases hu (List.isEmpty_iff.1 hempty) with h | h <;> simp [h]
  split
  · exact (hdigits 2 _).bind fun _ _ => .ok trivial
  split
  · exact (hdigits 16 _).bind fun _ _ => .ok trivial
  refine .ite (fun _ => (hdigits 8 u).bind fun _ _ => .ok trivial) fun _ => ?_
  refine .ite (fun _ => ?_) fun _ => (hdigits 10 u).bind fun _ _ => .ok trivial
  exact (Yields.mapM fun p _ => hdigits 10 p).bind fun _ _ => .ok trivial

/-- A text of which only a sign is left is no integer. -/
theorem readInteger_eq_error {t : Text} (h : dropUnderscores t ∈ [[], lit "-", lit "+"]) :
    readInteger t = .error .emptyNumber := by
  rw [readInteger]
  simp only [List.mem_cons, List.not_mem_nil, or_false] at h
  rcases h with h | h | h <;> rw [h] <;> rfl

theorem parse_yields (t : Text) :
    Yields (·.isForeseen = true) (fun r => RealNumber.parse t = .ok r) (RealNumber.parse t) := by
  cases h : RealNumber.parse t with
  | ok r => exact .ok rfl
  | error f =>
    refine .error ?_
    rw [RealNumber.parse] at h
    dsimp only at h
    split at h
    · cases h
    · rw [← Except.error.inj h]
      rfl

/-! ### Base sixty -/

theorem scale?_isSome {place : Nat} (h : place < sixtiethLimit) (r : RealNumber) :
    ∃ s, r.scale? (Nat.pow 60 place) = some s := by
  have hsmall : ((List.range sixtiethLimit).all fun n =>
      decide (roundBits RealNumber.precision (Nat.pow 60 n) 1 < RealNumber.ceiling)) = true := by
    decide +kernel
  have hplace := of_decide_eq_true (List.all_eq_true.1 hsmall place (List.mem_range.2 h))
  delta RealNumber.scale?
  simp only [if_neg (Nat.not_le.2 hplace)]
  cases r <;> exact ⟨_, rfl⟩

theorem scale?_eq_none (r : RealNumber) : r.scale? (Nat.pow 60 sixtiethLimit) = none := by
  have hlarge : decide (RealNumber.ceiling ≤
      roundBits RealNumber.precision (Nat.pow 60 sixtiethLimit) 1) = true := by
    decide +kernel
  delta RealNumber.scale?
  simp only [if_pos (of_decide_eq_true hlarge)]

/-- The power of sixty that a digit counts is too large from a certain place on. -/
theorem sexagesimal?_eq_none {place : Nat} (h : place ≤ sixtiethLimit) (sum : RealNumber)
    (ds : List RealNumber) :
    RealNumber.sexagesimal? (Nat.pow 60 place) sum ds = none ↔ sixtiethLimit < place + ds.length := by
  induction ds generalizing place sum with
  | nil =>
    rw [RealNumber.sexagesimal?]
    simpa using h
  | cons d ds ih =>
    rw [RealNumber.sexagesimal?, List.length_cons]
    rcases Nat.lt_or_eq_of_le h with hlt | rfl
    · obtain ⟨s, hs⟩ := scale?_isSome hlt d
      have hnext := ih (Nat.succ_le_of_lt hlt) (sum.add s)
      rw [hs]
      exact hnext.trans (by rw [Nat.succ_eq_add_one, Nat.add_right_comm, Nat.add_assoc])
    · rw [scale?_eq_none]
      exact iff_of_true rfl (by omega)

/-! ### Reals -/

theorem lower_ne_nil (c : CodePoint) : c.lower ≠ [] := by
  rw [CodePoint.lower]
  split_ifs
  · simp
  · split <;> simp

theorem lower_eq_nil {t : Text} (h : t.lower = []) : t = [] := by
  cases t with
  | nil => rfl
  | cons c t =>
    rw [Text.lower, Text.lowerAfter, List.append_eq_nil_iff] at h
    split_ifs at h
    · cases h.1
    · exact absurd h.1 (lower_ne_nil c)

theorem readReal_yields (content : Content) (t : Text) :
    Yields (fun f => f.isForeseen = true ∨ Unreadable .real content t f) (fun _ => True)
      (readReal t) := by
  have hparse : ∀ p, Yields (fun f => f.isForeseen = true ∨ Unreadable .real content t f)
      (fun r => RealNumber.parse p = .ok r) (RealNumber.parse p) := fun p =>
    (parse_yields p).imp (fun _ hf => .inl hf) fun _ h => h
  rw [readReal]
  have hsign := takeSign_yields (dropUnderscores t).lower
  cases hu : takeSign (dropUnderscores t).lower with
  | error f =>
    obtain ⟨rfl, hempty⟩ := hsign.of_error hu
    exact .error (.inr (.real (lower_eq_nil hempty)))
  | ok p =>
    obtain ⟨negative, u⟩ := p
    refine .ite (fun _ => .ok trivial) fun _ => .ite (fun _ => .ok trivial) fun _ => ?_
    refine .ite (fun _ => ?_) fun _ => (hparse u).bind fun _ _ => .ok trivial
    refine (Yields.mapM fun p _ => hparse p).bind fun parts hparts => ?_
    cases hsum : RealNumber.sexagesimal? 1 (.finite 0) parts.reverse with
    | some r => exact .ok trivial
    | none =>
      have hlong := (sexagesimal?_eq_none (Nat.zero_le _) _ _).1 hsum
      rw [Nat.zero_add, List.length_reverse, hparts.1] at hlong
      exact .error (.inr (.sixtieths hu hparts.2 hlong))

theorem exists_mapM {ε α β : Type} {g : α → Except ε β} : ∀ {as : List α},
    (∀ a ∈ as, ∃ b, g a = .ok b) → ∃ bs, as.mapM g = .ok bs ∧ bs.length = as.length
  | [], _ => ⟨[], rfl, rfl⟩
  | a :: as, h => by
    obtain ⟨⟨b, hb⟩, has⟩ := List.forall_mem_cons.1 h
    obtain ⟨bs, hbs, hlength⟩ := exists_mapM has
    refine ⟨b :: bs, ?_, by rw [List.length_cons, List.length_cons, hlength]⟩
    rw [List.mapM_cons, hb, hbs]
    rfl

/-- A real in base sixty with too many digits is none. -/
theorem readReal_eq_error {t u : Text} {negative : Bool}
    (hu : takeSign (dropUnderscores t).lower = .ok (negative, u))
    (hparts : ∀ p ∈ Text.splitOn (.scalar ':') u, ∃ r, RealNumber.parse p = .ok r)
    (hlong : sixtiethLimit < (Text.splitOn (.scalar ':') u).length) :
    readReal t = .error .hugePower := by
  have hcolon : CodePoint.scalar ':' ∈ u := by
    by_contra hnone
    rw [Text.splitOn_of_notMem hnone, List.length_singleton] at hlong
    exact absurd hlong (by decide)
  obtain ⟨parts, hmap, hlength⟩ := exists_mapM hparts
  have hsum : RealNumber.sexagesimal? 1 (.finite 0) parts.reverse = none := by
    refine (sexagesimal?_eq_none (Nat.zero_le _) _ _).2 ?_
    rwa [Nat.zero_add, List.length_reverse, hlength]
  have hinf : u ≠ lit ".inf" := by
    rintro rfl
    exact absurd hcolon (by decide)
  have hnan : u ≠ lit ".nan" := by
    rintro rfl
    exact absurd hcolon (by decide)
  rw [readReal, hu]
  simp only [bind, Except.bind]
  rw [if_neg hinf, if_neg hnan, if_pos (List.contains_iff_mem.2 hcolon), hmap]
  simp only [hsum]
  rfl

/-! ## Scalars -/

theorem truthOf_yields (content : Content) (t : Text) :
    Yields (Unreadable .truth content t) (fun _ => True) (Build.truthOf t) := by
  rw [Build.truthOf]
  refine .ite (fun _ => .ok trivial) fun htrue => .ite (fun _ => .ok trivial) fun hfalse => ?_
  refine .error (.truth ?_)
  simp only [List.any_eq_true, decide_eq_true_eq, not_exists, not_and] at htrue hfalse
  simp only [truthWords, List.forall_mem_cons] at htrue hfalse ⊢
  exact ⟨htrue.1, htrue.2.1, htrue.2.2.1, hfalse⟩

theorem bytesOf_yields (t : Text) :
    Yields (·.isForeseen = true) (fun _ => True) (Build.bytesOf t) := by
  rw [Build.bytesOf]
  refine .ite (fun _ => ?_) fun _ => .error rfl
  split
  · exact .ok trivial
  · exact .error rfl

theorem checkOffset_yields (o : ClockOffset) :
    Yields (·.isForeseen = true) (fun _ => True) (MomentFields.checkOffset o) := by
  rw [MomentFields.checkOffset]
  exact .ite (fun _ => .ok trivial) fun _ => .error rfl

/-- Whatever the calendar does not have is foreseen. -/
theorem check_yields (m : MomentFields) :
    Yields (·.isForeseen = true) (fun _ => True) m.check := by
  have hfail : ∀ (b : Bool) (f : MomentFault), Yields (·.isForeseen = true) (fun _ => True)
      (if b then .error (.moment f) else .ok () : Except Fault Unit) := fun b f =>
    .ite (fun _ => .error rfl) fun _ => .ok trivial
  have hthen : ∀ {b : Bool} {f : MomentFault} {rest : Except Fault Unit},
      Yields (·.isForeseen = true) (fun _ => True) rest →
      Yields (·.isForeseen = true) (fun _ => True)
        ((if b then .error (.moment f) else .ok () : Except Fault Unit) >>= fun _ => rest) :=
    fun h => (hfail _ _).bind fun _ _ => h
  rw [MomentFields.check]
  cases m.time? with
  | none => exact hthen (hthen (hthen (.ok trivial)))
  | some time =>
    dsimp only [Option.bind_some]
    split
    · refine (checkOffset_yields _).bind fun _ _ => ?_
      exact hthen (hthen (hthen (hthen (hthen (hfail _ _)))))
    · exact hthen (hthen (hthen (hthen (hthen (hfail _ _)))))

theorem momentOf_yields (u t : Text) :
    Yields (fun f => f.isForeseen = true ∨ Unreadable .moment (.scalar u) t f) (fun _ => True)
      (Build.momentOf u) := by
  rw [Build.momentOf]
  split
  · rename_i hnone
    exact .error (.inr (.moment hnone))
  · exact ((check_yields _).imp (fun _ hf => .inl hf) fun _ h => h).bind fun _ _ => .ok trivial

theorem scalarValue_yields (tag : Tag) (content : Content) (t : Text) :
    Yields (fun f => f.isForeseen = true ∨ Unreadable tag content t f) (fun _ => True)
      (Build.scalarValue tag content t) := by
  cases tag with
  | null => exact .ok trivial
  | text => exact .ok trivial
  | truth =>
    exact ((truthOf_yields content t).imp (fun _ hf => .inr hf) fun _ h => h).map fun _ _ => trivial
  | integer =>
    refine ((readInteger_yields t).imp ?_ fun _ h => h).map fun _ _ => trivial
    rintro f (hf | ⟨rfl, hf⟩)
    · exact .inl hf
    · exact .inr (.integer hf)
  | real => exact (readReal_yields content t).map fun _ _ => trivial
  | bytes => exact ((bytesOf_yields t).imp (fun _ hf => .inl hf) fun _ h => h).map fun _ _ => trivial
  | moment =>
    cases content with
    | scalar u => exact (momentOf_yields u t).map fun _ _ => trivial
    | sequence items => exact .error (.inr (.collection fun u => by simp))
    | mapping pairs => exact .error (.inr (.collection fun u => by simp))
  | _ => exact .error (.inl rfl)

/-- **Which values cannot be found, and are not reported as bad**: just those of unreadable
    scalars. -/
theorem scalarValue_eq_error_iff {tag : Tag} {content : Content} {t : Text} {f : Fault}
    (hf : f.isForeseen = false) :
    Build.scalarValue tag content t = .error f ↔ Unreadable tag content t f := by
  constructor
  · intro h
    refine ((scalarValue_yields tag content t).of_error h).resolve_left fun hforeseen => ?_
    rw [hf] at hforeseen
    cases hforeseen
  · intro h
    cases h with
    | truth hword =>
      simp only [truthWords, List.forall_mem_cons] at hword
      rw [Build.scalarValue, Build.truthOf]
      simp [hword]
    | integer hnone => rw [Build.scalarValue, readInteger_eq_error hnone]; rfl
    | real hnone =>
      rw [Build.scalarValue, readReal, hnone]
      rfl
    | sixtieths hu hparts hlong => rw [Build.scalarValue, readReal_eq_error hu hparts hlong]; rfl
    | moment hnone => rw [Build.scalarValue, Build.momentOf, hnone]; rfl
    | collection hcontent =>
      cases content with
      | scalar u => exact absurd rfl (hcontent u)
      | sequence items => rfl
      | mapping pairs => rfl

/-! ## Scalars without a tag -/

theorem exists_digit_of_isNumeral {t : Text} (h : Tag.isNumeral t = true) :
    ∃ c ∈ t, c.isDigit = true := by
  cases t with
  | nil => cases h
  | cons c t =>
    rw [Tag.isNumeral, Bool.and_eq_true] at h
    exact ⟨c, List.mem_cons_self .., h.1⟩

theorem exists_digit_of_isSexagesimal {t : Text} {first : Text → Bool}
    (hfirst : ∀ u, first u = true → ∃ c ∈ u, c.isDigit = true)
    (h : Tag.isSexagesimal first t = true) : ∃ c ∈ t, c.isDigit = true := by
  rw [Tag.isSexagesimal] at h
  split at h
  · rename_i head d ds hsplit
    rw [Bool.and_eq_true] at h
    obtain ⟨c, hc, hdigit⟩ := hfirst head h.1
    refine ⟨c, ?_, hdigit⟩
    rw [← Text.join_splitOn (.scalar ':') t, hsplit, Text.join, List.intercalate_cons_cons]
    exact List.mem_append_left _ (List.mem_append_left _ hc)
  · cases h

theorem exists_digit_of_isUnsignedInteger {t : Text} (h : Tag.isUnsignedInteger t = true) :
    ∃ c ∈ t, c.isDigit = true := by
  have hleading : ∀ u, Tag.isLeadingNumeral u = true → ∃ c ∈ u, c.isDigit = true := fun u hu => by
    rw [Tag.isLeadingNumeral, Bool.and_eq_true] at hu
    exact exists_digit_of_isNumeral hu.1
  unfold Tag.isUnsignedInteger at h
  split at h
  · exact ⟨.scalar '0', List.mem_cons_self .., by decide⟩
  · rcases Bool.or_eq_true_iff.1 h with h | h
    · exact hleading t h
    · exact exists_digit_of_isSexagesimal hleading h

theorem mem_of_mem_dropSign {t : Text} {c : CodePoint} (h : c ∈ Tag.dropSign t) : c ∈ t := by
  cases t with
  | nil => exact h
  | cons d t =>
    rw [Tag.dropSign] at h
    split_ifs at h
    · exact List.mem_cons_of_mem _ h
    · exact h

theorem mem_dropUnderscores {t : Text} {c : CodePoint} :
    c ∈ dropUnderscores t ↔ c ∈ t ∧ c ≠ .scalar '_' := by
  simp [dropUnderscores]

theorem point_mem_of_isReal {t : Text} (h : Tag.isReal t = true) : CodePoint.scalar '.' ∈ t := by
  refine mem_of_mem_dropSign ?_
  by_contra hnone
  have hwhole : (Tag.dropSign t).takeWhile (· != .scalar '.') = Tag.dropSign t := by
    refine List.takeWhile_eq_self_iff.2 fun c hc => ?_
    rw [bne_iff_ne]
    rintro rfl
    exact hnone hc
  simp [Tag.isReal, hwhole] at h

/-- How a scalar without quotes shows its kind. -/
theorem ofPlain_spec {t : Text} (hend : t.getLast? ≠ some (.scalar '\n')) :
    (Tag.ofPlain t = .truth → Tag.isTruth t = true) ∧
    (Tag.ofPlain t = .integer → Tag.isUnsignedInteger (Tag.dropSign t) = true) ∧
    (Tag.ofPlain t = .real → Tag.isReal t = true) ∧
    (Tag.ofPlain t = .moment → MomentFields.isEvident t = true) := by
  have hbody : Text.dropTail? (lit "\n") t = none := by
    rw [Option.eq_none_iff_forall_ne_some]
    intro r hr
    rw [Text.dropTail?_eq_some] at hr
    exact hend (by rw [hr]; exact List.getLast?_concat)
  rw [Tag.ofPlain, hbody, Option.getD_none]
  split_ifs <;> simp_all

/-- A scalar whose form shows its kind has a value of this kind, but for a real in base sixty with too
    many digits. -/
theorem eq_hugePower_of_plain {t : Text} {f : Fault} (hend : t.getLast? ≠ some (.scalar '\n'))
    {content : Content} (hcontent : content = .scalar t)
    (h : Unreadable (Tag.ofPlain t) content t f) : f = .hugePower := by
  obtain ⟨htruth, hinteger, hreal, hmoment⟩ := ofPlain_spec hend
  generalize Tag.ofPlain t = tag at *
  cases h with
  | truth hword =>
    have hwords : (["yes", "Yes", "YES", "no", "No", "NO", "true", "True", "TRUE", "false", "False",
        "FALSE", "on", "On", "ON", "off", "Off", "OFF"].all fun w =>
          truthWords.any fun v => lit v = Text.lower (lit w)) = true := by
      decide +kernel
    obtain ⟨w, hw, hwt⟩ := List.any_eq_true.1 (htruth rfl)
    obtain ⟨v, hv, hvw⟩ := List.any_eq_true.1 (List.all_eq_true.1 hwords w hw)
    rw [of_decide_eq_true hwt] at hvw
    exact absurd (of_decide_eq_true hvw) (hword v hv)
  | integer hnone =>
    obtain ⟨c, hc, hdigit⟩ := exists_digit_of_isUnsignedInteger (hinteger rfl)
    have hkept : c ∈ dropUnderscores t := by
      refine mem_dropUnderscores.2 ⟨mem_of_mem_dropSign hc, ?_⟩
      rintro rfl
      exact absurd hdigit (by decide)
    simp only [List.mem_cons, List.not_mem_nil, or_false] at hnone
    rcases hnone with h | h | h <;> rw [h] at hkept
    · cases hkept
    all_goals
      rw [List.mem_singleton.1 hkept] at hdigit
      exact absurd hdigit (by decide)
  | real hnone =>
    have hkept := mem_dropUnderscores.2 ⟨point_mem_of_isReal (hreal rfl), by decide⟩
    rw [hnone] at hkept
    cases hkept
  | sixtieths _ _ _ => rfl
  | moment hnone =>
    have hevident := hmoment rfl
    rw [← Content.scalar.inj hcontent] at hevident
    rw [MomentFields.isEvident, hnone] at hevident
    cases hevident
  | collection hscalar => exact absurd hcontent (hscalar t)

end TraitCatalog.Yaml
