/-
  Arrays that end the reading.

  The array reader gives up without a verdict in two cases, an integer with too many digits and
  containers nested too deeply.  Both can only be met where a value may stand, and for this the
  grammar of JSON is given once more, without the reader: `Spells` says which tokens spell a
  value at a depth, and `Place fs ts` that after the tokens `ts` a value may stand, with the
  containers `fs` open.

  * `Overflow`: the tokens run, at such a place, into an integer or a container that is too much;
  * `run_overflow_iff`: the reader gives up on exactly these tokens.
-/
import TraitCatalog.Proofs.Json.StringList

namespace TraitCatalog.Json

/-! ## Grammar -/

/-- The token that opens a container. -/
def Frame.opening : Frame → Token
  | array => .openArray
  | object => .openObject

/-- The token that closes a container. -/
def Frame.closing : Frame → Token
  | array => .closeArray
  | object => .closeObject

/-- What stands before a value in a container: nothing in an array, a name in an object. -/
inductive Lead : Frame → List Token → Prop
  | item : Lead .array []
  | field (name : Text) : Lead .object [.text name, .colon]

/-- What tokens can spell: a value, or the inside of a container up to the end of a value. -/
inductive Portion where
  | value
  | inside (f : Frame)

/-- The tokens of a portion that stands in `d` open containers. -/
inductive Spells : Portion → (d : Nat) → List Token → Prop
  | text {d} (t : Text) : Spells .value d [.text t]
  | atom {d} : Spells .value d [.atom]
  | integer {d n} : n ≤ digitLimit → Spells .value d [.integer n]
  | empty {d} (f : Frame) : d < depthLimit → Spells .value d [f.opening, f.closing]
  | container {d f ts} : d < depthLimit → Spells (.inside f) (d + 1) ts →
      Spells .value d (f.opening :: ts ++ [f.closing])
  | one {d f k v} : Lead f k → Spells .value d v → Spells (.inside f) d (k ++ v)
  | more {d f ts k v} : Spells (.inside f) d ts → Lead f k → Spells .value d v →
      Spells (.inside f) d (ts ++ .comma :: k ++ v)

/-- After the opening bracket of an array and these tokens a value may stand, in the containers
    `fs`, innermost first. -/
inductive Place : List Frame → List Token → Prop
  | first : Place [.array] []
  | enter {f fs ts k} : Place fs ts → fs.length < depthLimit → Lead f k →
      Place (f :: fs) (ts ++ f.opening :: k)
  | next {f fs ts v k} : Place (f :: fs) ts → Spells .value (fs.length + 1) v → Lead f k →
      Place (f :: fs) (ts ++ v ++ .comma :: k)

/-- Tokens that run into a value that is too much, where a value may stand. -/
inductive Overflow : List Token → ReadFault → Prop
  | longInteger {fs pre n post} : Place fs pre → digitLimit < n →
      Overflow (pre ++ .integer n :: post) (.longInteger n)
  | tooDeep {fs pre post} (f : Frame) : Place fs pre → depthLimit ≤ fs.length →
      Overflow (pre ++ f.opening :: post) .tooDeep

theorem Place.ne_nil {fs : List Frame} {ts : List Token} (h : Place fs ts) : fs ≠ [] := by
  cases h <;> simp

/-- A container of an array has an outside, which ends before its opening token; the rest, with
    one more value, is what a container can hold. -/
theorem Place.split {f : Frame} {fs : List Frame} {ts : List Token} (h : Place (f :: fs) ts) :
    fs = [] ∨ ∃ outer inner, ts = outer ++ f.opening :: inner ∧ Place fs outer ∧
      fs.length < depthLimit ∧
      ∀ v, Spells .value (fs.length + 1) v → Spells (.inside f) (fs.length + 1) (inner ++ v) := by
  generalize hg : f :: fs = gs at h
  induction h with
  | first =>
    cases hg
    exact Or.inl rfl
  | @enter _ _ ts k hp hd hk _ =>
    cases hg
    exact Or.inr ⟨ts, k, rfl, hp, hd, fun v hv => .one hk hv⟩
  | @next _ _ ts v k _ hv hk ih =>
    cases hg
    rcases ih rfl with h | ⟨outer, inner, rfl, hp, hd, hi⟩
    · exact Or.inl h
    · refine Or.inr ⟨outer, inner ++ v ++ .comma :: k, by simp, hp, hd, fun w hw => ?_⟩
      have := Spells.more (hi v hv) hk hw
      simpa using this

/-- A value that completes a container of an array makes it a value of what is around it. -/
theorem Place.close {f : Frame} {fs : List Frame} {ts v : List Token} (h : Place (f :: fs) ts)
    (hv : Spells .value (fs.length + 1) v) : fs = [] ∨ ∃ outer w, Place fs outer ∧
      Spells .value fs.length w ∧ ts ++ v ++ [f.closing] = outer ++ w := by
  rcases h.split with h | ⟨outer, inner, rfl, hp, hd, hi⟩
  · exact Or.inl h
  · exact Or.inr ⟨outer, _, hp, .container hd (hi v hv), by simp⟩

/-! ## Where the reader is -/

/-- A container has just been opened. -/
inductive Fresh : Frame → List Frame → List Token → Prop
  | top : Fresh .array [.array] []
  | inner {f fs ts} : Place fs ts → fs.length < depthLimit → Fresh f (f :: fs) (ts ++ [f.opening])

theorem Fresh.place {f : Frame} {fs : List Frame} {ts k : List Token} (h : Fresh f fs ts)
    (hk : Lead f k) : Place fs (ts ++ k) := by
  cases h with
  | top =>
    cases hk
    exact .first
  | inner hp hd =>
    rw [List.append_assoc, List.singleton_append]
    exact .enter hp hd hk

/-- In the object at hand, a value has ended and a comma follows it. -/
def BeforeKey (fs : List Frame) (ts : List Token) : Prop :=
  ∃ gs pre v, fs = .object :: gs ∧ ts = pre ++ v ++ [.comma] ∧ Place fs pre ∧
    Spells .value (gs.length + 1) v

/-- The tokens after which the reader has the containers `fs` open and waits for something. -/
def At (fs : List Frame) (ts : List Token) : Awaits → Prop
  | .value => Place fs ts
  | .valueOrClose => Fresh .array fs ts
  | .keyOrClose => Fresh .object fs ts
  | .key => BeforeKey fs ts
  | .colon => ∃ pre name, ts = pre ++ [.text name] ∧ (Fresh .object fs pre ∨ BeforeKey fs pre)
  | .commaOrClose => ∃ f gs pre v, fs = f :: gs ∧ ts = pre ++ v ∧ Place fs pre ∧
      Spells .value (gs.length + 1) v

namespace Reader

variable {r r' : Reader} {k : Token} {ts : List Token}

theorem at_addValue {f : Frame} {fs : List Frame} (ho : r.open_ = f :: fs) (h : Place r.open_ ts)
    (hk : Spells .value (fs.length + 1) [k]) (item : Option Text) :
    At (r.addValue item).open_ (ts ++ [k]) (r.addValue item).awaits :=
  ⟨f, fs, ts, [k], ho, rfl, h, hk⟩

theorem at_enter {f : Frame} (h : Place r.open_ ts) (hs : r.enter f = .ok r') :
    At r'.open_ (ts ++ [f.opening]) r'.awaits := by
  unfold enter at hs
  split_ifs at hs with hd
  cases hs
  cases f with
  | array => exact Fresh.inner h hd
  | object => exact Fresh.inner h hd

theorem at_value {f : Frame} {fs : List Frame} (hs : r.value k = .ok r') (ho : r.open_ = f :: fs)
    (h : Place r.open_ ts) : At r'.open_ (ts ++ [k]) r'.awaits := by
  cases k with
  | text t =>
    cases hs
    exact at_addValue ho h (.text t) _
  | atom =>
    cases hs
    exact at_addValue ho h .atom _
  | integer n =>
    simp only [value] at hs
    split_ifs at hs with hn
    cases hs
    exact at_addValue ho h (.integer hn) _
  | openArray => exact at_enter h hs
  | openObject => exact at_enter h hs
  | closeArray | closeObject | comma | colon => cases hs

/-- A container that is closed was the innermost one. -/
theorem leave_eq {f g : Frame} {fs : List Frame} (ho : r.open_ = g :: fs) (hs : r.leave f = .ok r') :
    f = g ∧ r' = { r with open_ := fs, awaits := .commaOrClose } := by
  unfold leave at hs
  rw [ho] at hs
  dsimp only at hs
  split_ifs at hs with hf
  cases hs
  exact ⟨hf, rfl⟩

/-- Closing a container that has just been opened. -/
theorem at_leave_fresh {f : Frame} (hs : r.leave f = .ok r') (h : Fresh f r.open_ ts) :
    r'.open_ = [] ∨ At r'.open_ (ts ++ [f.closing]) r'.awaits := by
  generalize ho : r.open_ = fs at h
  cases h with
  | top =>
    obtain ⟨-, rfl⟩ := leave_eq ho hs
    exact Or.inl rfl
  | @inner _ fs pre hp hd =>
    obtain ⟨-, rfl⟩ := leave_eq ho hs
    rcases fs with _ | ⟨g, gs⟩
    · exact Or.inl rfl
    · refine Or.inr ⟨g, gs, pre, [f.opening, f.closing], rfl, by simp, hp, .empty f hd⟩

/-- Closing a container after a value. -/
theorem at_leave_filled {f g : Frame} {gs : List Frame} {pre v : List Token}
    (ho : r.open_ = g :: gs) (hp : Place r.open_ pre) (hv : Spells .value (gs.length + 1) v)
    (hs : r.leave f = .ok r') : r'.open_ = [] ∨ At r'.open_ (pre ++ v ++ [f.closing]) r'.awaits := by
  obtain ⟨rfl, rfl⟩ := leave_eq ho hs
  rw [ho] at hp
  rcases hp.close hv with rfl | ⟨outer, w, hp', hw, he⟩
  · exact Or.inl rfl
  · rcases gs with _ | ⟨g', gs⟩
    · exact Or.inl rfl
    · exact Or.inr ⟨g', gs, outer, w, rfl, he, hp', hw⟩

/-- A step of the reader goes to where the grammar goes. -/
theorem at_step {f : Frame} {fs : List Frame} (ho : r.open_ = f :: fs) (h : At r.open_ ts r.awaits)
    (hs : r.step k = .ok r') : r'.open_ = [] ∨ At r'.open_ (ts ++ [k]) r'.awaits := by
  obtain ⟨o, w, items⟩ := r
  dsimp only at ho h
  subst ho
  unfold step at hs
  dsimp only at hs
  split at hs
  · exact at_leave_fresh hs h
  · have hp : Place (f :: fs) ts := by simpa using Fresh.place h .item
    exact Or.inr (at_value hs rfl hp)
  · exact Or.inr (at_value hs rfl h)
  · exact at_leave_fresh hs h
  · cases hs
    exact Or.inr ⟨ts, _, rfl, Or.inl h⟩
  · cases hs
    exact Or.inr ⟨ts, _, rfl, Or.inr h⟩
  · cases hs
    obtain ⟨pre, name, rfl, h | ⟨gs, pre', v, hfs, rfl, hp, hv⟩⟩ := h
    · have hp := Fresh.place h (.field name)
      exact Or.inr (by simpa [At] using hp)
    · cases hfs
      have hp' := Place.next hp hv (.field name)
      exact Or.inr (by simpa [At] using hp')
  · cases hs
    obtain ⟨g, gs, pre, v, hfs, rfl, hp, hv⟩ := h
    cases hfs
    cases f with
    | array => exact Or.inr (Place.next hp hv .item)
    | object => exact Or.inr ⟨fs, pre, v, rfl, rfl, hp, hv⟩
  · obtain ⟨g, gs, pre, v, hfs, rfl, hp, hv⟩ := h
    exact at_leave_filled hfs hp hv hs
  · obtain ⟨g, gs, pre, v, hfs, rfl, hp, hv⟩ := h
    exact at_leave_filled hfs hp hv hs
  · cases hs

/-- While the outermost array is open, the reader is where the grammar is. -/
theorem at_run : ∀ {ks ts : List Token} {r r' : Reader}, At r.open_ ts r.awaits →
    r.run ks = .ok r' → r'.open_ = [] ∨ At r'.open_ (ts ++ ks) r'.awaits
  | [], ts, r, r', h, hr => by
    rw [run_nil.1 hr, List.append_nil]
    exact Or.inr h
  | k :: ks, ts, r, r', h, hr => by
    obtain ⟨s, hs, hr⟩ := run_cons.1 hr
    rcases ho : r.open_ with _ | ⟨f, fs⟩
    · simp [step, ho] at hs
    · rcases at_step ho h hs with hc | hat
      · obtain ⟨o, w, items⟩ := s
        dsimp only at hc
        subst hc
        exact Or.inl (by rw [(run_closed hr).2])
      · have := at_run hat hr
        rwa [List.append_assoc, List.singleton_append] at this

/-! ## Giving up -/

theorem run_error {f : ReadFault} : ∀ {ks : List Token} {r : Reader}, r.run ks = .error f →
    ∃ pre k post s, ks = pre ++ k :: post ∧ r.run pre = .ok s ∧ s.step k = .error f
  | [], r, h => by cases h
  | k :: ks, r, h => by
    rcases hs : r.step k with g | s
    · refine ⟨[], k, ks, r, rfl, rfl, ?_⟩
      simp only [run, List.foldlM_cons, bind, Except.bind, hs] at h
      rw [hs, ← h]
    · have h' : s.run ks = .error f := by
        simpa only [run, List.foldlM_cons, bind, Except.bind, hs] using h
      obtain ⟨pre, k', post, s', rfl, hp, hk⟩ := run_error h'
      exact ⟨k :: pre, k', post, s', rfl, run_cons.2 ⟨s, hs, hp⟩, hk⟩

theorem run_append {ks ls : List Token} {r s : Reader} (h : r.run ks = .ok s) :
    r.run (ks ++ ls) = s.run ls := by
  rw [run, List.foldlM_append]
  change (r.run ks >>= fun s => s.run ls) = _
  rw [h]
  rfl

/-- The two ways of giving up on a value. -/
theorem value_error {f : ReadFault} (hf : f ≠ .malformed) (h : r.value k = .error f) :
    (∃ n, k = .integer n ∧ digitLimit < n ∧ f = .longInteger n) ∨
      ∃ g : Frame, k = g.opening ∧ depthLimit ≤ r.open_.length ∧ f = .tooDeep := by
  have deep : ∀ g : Frame, r.enter g = .error f → depthLimit ≤ r.open_.length ∧ f = .tooDeep := by
    intro g hg
    unfold enter at hg
    split_ifs at hg with hd
    cases hg
    exact ⟨by omega, rfl⟩
  cases k with
  | text t | atom => cases h
  | integer n =>
    simp only [value] at h
    split_ifs at h with hn
    cases h
    exact Or.inl ⟨n, rfl, by omega, rfl⟩
  | openArray => exact Or.inr ⟨.array, rfl, deep .array h⟩
  | openObject => exact Or.inr ⟨.object, rfl, deep .object h⟩
  | closeArray | closeObject | comma | colon =>
    cases h
    exact absurd rfl hf

/-- The reader gives up only where a value may stand. -/
theorem step_error {f : ReadFault} (hf : f ≠ .malformed) (h : At r.open_ ts r.awaits)
    (hs : r.step k = .error f) : Place r.open_ ts ∧ r.value k = .error f := by
  obtain ⟨o, w, items⟩ := r
  dsimp only at h
  have hleave : ∀ g, (Reader.mk o w items).leave g ≠ .error f := by
    intro g hg
    unfold leave at hg
    split at hg
    · split_ifs at hg
      cases hg
      exact hf rfl
    · cases hg
      exact hf rfl
  unfold step at hs
  dsimp only at hs
  split at hs
  · cases hs
    exact absurd rfl hf
  · split at hs
    · exact absurd hs (hleave _)
    · exact ⟨by simpa using Fresh.place h .item, hs⟩
    · exact ⟨h, hs⟩
    · exact absurd hs (hleave _)
    · cases hs
    · cases hs
    · cases hs
    · cases hs
    · exact absurd hs (hleave _)
    · exact absurd hs (hleave _)
    · cases hs
      exact absurd rfl hf

theorem overflow_of_run {f : ReadFault} (hf : f ≠ .malformed) {ts : List Token}
    (h : start.run ts = .error f) : Overflow ts f := by
  obtain ⟨pre, k, post, s, rfl, hr, hs⟩ := run_error h
  have hat : At start.open_ [] start.awaits := Fresh.top
  rcases at_run hat hr with hc | hat
  · simp only [step, hc] at hs
    cases hs
    exact absurd rfl hf
  · obtain ⟨hp, hv⟩ := step_error hf hat hs
    rcases value_error hf hv with ⟨n, rfl, hn, rfl⟩ | ⟨g, rfl, hd, rfl⟩
    · exact .longInteger hp hn
    · exact .tooDeep g hp hd

/-! ## The reader follows the grammar -/

/-- The reader waits for a value. -/
def Ready (r : Reader) : Prop :=
  r.awaits = .value ∨ r.awaits = .valueOrClose

/-- The reader waits for what comes before a value in a container. -/
def Expects : Frame → Awaits → Prop
  | .array, .value | .array, .valueOrClose | .object, .key | .object, .keyOrClose => True
  | _, _ => False

/-- Some tokens take the reader to another place in the same containers. -/
def Leads (r : Reader) (ts : List Token) (goal : Reader → Prop) : Prop :=
  ∃ r', r.run ts = .ok r' ∧ r'.open_ = r.open_ ∧ goal r'

theorem Leads.trans {goal goal' : Reader → Prop} {ks ls : List Token} (h : r.Leads ks goal)
    (h' : ∀ s, s.open_ = r.open_ → goal s → s.Leads ls goal') : r.Leads (ks ++ ls) goal' := by
  obtain ⟨s, hs, ho, hg⟩ := h
  obtain ⟨u, hu, ho', hg'⟩ := h' s ho hg
  exact ⟨u, (run_append hs).trans hu, ho'.trans ho, hg'⟩

theorem step_ready (hr : r.Ready) {f : Frame} {fs : List Frame} (ho : r.open_ = f :: fs)
    (hk : k ≠ .closeArray) : r.step k = r.value k := by
  obtain ⟨o, w, items⟩ := r
  dsimp only at ho
  subst ho
  rcases hr with rfl | rfl
  · rfl
  · cases k with
    | closeArray => exact absurd rfl hk
    | _ => rfl

theorem leads_value (hr : r.Ready) {f : Frame} {fs : List Frame} (ho : r.open_ = f :: fs)
    (hk : k ≠ .closeArray) {item : Option Text} (hv : r.value k = .ok (r.addValue item)) :
    r.Leads [k] (·.awaits = .commaOrClose) :=
  ⟨_, run_cons.2 ⟨_, (step_ready hr ho hk).trans hv, rfl⟩, rfl, rfl⟩

theorem leads_lead {f : Frame} {fs : List Frame} {ks : List Token} (hl : Lead f ks)
    (ho : r.open_ = f :: fs) (hw : Expects f r.awaits) : r.Leads ks Ready := by
  obtain ⟨o, w, items⟩ := r
  dsimp only at ho hw
  subst ho
  cases hl with
  | item =>
    refine ⟨_, rfl, rfl, ?_⟩
    cases w <;> simp_all [Expects, Ready]
  | field name =>
    refine ⟨⟨.object :: fs, .value, items⟩, ?_, rfl, Or.inl rfl⟩
    cases w <;> simp_all [Expects] <;> rfl

/-- A comma after a value. -/
theorem leads_comma {f : Frame} {fs : List Frame} (ho : r.open_ = f :: fs)
    (hw : r.awaits = .commaOrClose) : r.Leads [.comma] (Expects f ·.awaits) := by
  obtain ⟨o, w, items⟩ := r
  dsimp only at ho hw
  subst ho hw
  cases f with
  | array => exact ⟨⟨_, .value, items⟩, rfl, rfl, trivial⟩
  | object => exact ⟨⟨_, .key, items⟩, rfl, rfl, trivial⟩

/-- What the reader waits for at the beginning of a container. -/
def firstAwaited : Frame → Awaits
  | .array => .valueOrClose
  | .object => .keyOrClose

theorem expects_firstAwaited (f : Frame) : Expects f (firstAwaited f) := by
  cases f <;> trivial

/-- Opening a container, where one more may be open. -/
theorem run_opening (hr : r.Ready) {f : Frame} {fs : List Frame} (ho : r.open_ = f :: fs) (g : Frame)
    (hd : r.open_.length < depthLimit) :
    ∃ r', r.run [g.opening] = .ok r' ∧ r'.open_ = g :: r.open_ ∧ r'.awaits = firstAwaited g := by
  have hk : g.opening ≠ .closeArray := by cases g <;> simp [Frame.opening]
  have hv : r.value g.opening = r.enter g := by cases g <;> rfl
  have hs := (step_ready hr ho hk).trans hv
  simp only [enter, hd, if_true] at hs
  refine ⟨_, run_cons.2 ⟨_, hs, rfl⟩, rfl, ?_⟩
  cases g <;> rfl

/-- Closing the innermost container, at its beginning or after a value. -/
theorem run_closing {f : Frame} {fs : List Frame} (ho : r.open_ = f :: fs)
    (hw : r.awaits = .commaOrClose ∨ r.awaits = firstAwaited f) :
    ∃ r', r.run [f.closing] = .ok r' ∧ r'.open_ = fs ∧ r'.awaits = .commaOrClose := by
  obtain ⟨o, w, items⟩ := r
  dsimp only at ho hw
  subst ho
  refine ⟨⟨fs, .commaOrClose, items⟩, ?_, rfl, rfl⟩
  cases f <;> rcases hw with rfl | rfl <;> rfl

/-- What the reader does on a portion: it goes over a value where one may stand, and over the
    inside of a container from its beginning, to the end of a value. -/
def Follows : Portion → Nat → List Token → Prop
  | .value, d, ts => ∀ (r : Reader) (f : Frame) (fs : List Frame), r.open_ = f :: fs →
      r.open_.length = d → r.Ready → r.Leads ts (·.awaits = .commaOrClose)
  | .inside f, d, ts => ∀ (r : Reader) (fs : List Frame), r.open_ = f :: fs →
      r.open_.length = d → r.awaits = firstAwaited f → r.Leads ts (·.awaits = .commaOrClose)

/-- A comma, what stands before the next value, and that value. -/
theorem leads_next {d : Nat} {f : Frame} {fs : List Frame} {ks v : List Token} (hk : Lead f ks)
    (hv : Follows .value d v) (ho : r.open_ = f :: fs) (hlen : r.open_.length = d)
    (hw : r.awaits = .commaOrClose) : r.Leads (.comma :: ks ++ v) (·.awaits = .commaOrClose) := by
  have hcomma : r.Leads (.comma :: ks) Ready :=
    (leads_comma ho hw).trans fun s hs he => leads_lead hk (hs.trans ho) he
  exact hcomma.trans fun s hs hr => hv s f fs (hs.trans ho) (hs ▸ hlen) hr

theorem follows_spells {p : Portion} {d : Nat} {ts : List Token} (h : Spells p d ts) :
    Follows p d ts := by
  induction h with
  | text t =>
    intro r f fs ho _ hr
    exact leads_value hr ho (by simp) rfl
  | atom =>
    intro r f fs ho _ hr
    exact leads_value hr ho (by simp) rfl
  | @integer _ n hn =>
    intro r f fs ho _ hr
    have hv : r.value (.integer n) = .ok (r.addValue none) := by simp only [value, hn, if_true]
    exact leads_value hr ho (by simp) hv
  | empty g hd =>
    intro r f fs ho hlen hr
    obtain ⟨s, hs, hso, hsw⟩ := run_opening hr ho g (by omega)
    obtain ⟨u, hu, huo, huw⟩ := run_closing hso (Or.inr hsw)
    exact ⟨u, (run_append hs).trans hu, huo, huw⟩
  | @container d g ts hd _ ih =>
    intro r f fs ho hlen hr
    obtain ⟨s, hs, hso, hsw⟩ := run_opening hr ho g (by omega)
    obtain ⟨u, hu, huo, huw⟩ := ih s r.open_ hso (by rw [hso, List.length_cons, hlen]) hsw
    obtain ⟨v, hv, hvo, hvw⟩ := run_closing (huo.trans hso) (Or.inl huw)
    have hsu : r.run (g.opening :: ts) = .ok u := (run_append hs).trans hu
    exact ⟨v, (run_append hsu).trans hv, hvo, hvw⟩
  | @one _ f _ _ hk _ ih =>
    intro r fs ho hlen hw
    refine (leads_lead hk ho (hw ▸ expects_firstAwaited f)).trans fun s hs hr => ?_
    exact ih s f fs (hs.trans ho) (hs ▸ hlen) hr
  | @more _ f ts k v _ hk _ ih₁ ih₂ =>
    intro r fs ho hlen hw
    rw [List.append_assoc]
    exact (ih₁ r fs ho hlen hw).trans fun s hs hsw => leads_next hk ih₂ (hs.trans ho) (hs ▸ hlen) hsw

/-- The reader reaches every place where a value may stand. -/
theorem run_place {fs : List Frame} {ts : List Token} (h : Place fs ts) :
    ∃ r, start.run ts = .ok r ∧ r.open_ = fs ∧ r.Ready := by
  induction h with
  | first => exact ⟨start, rfl, rfl, Or.inr rfl⟩
  | @enter f fs ts k hp hd hk ih =>
    obtain ⟨r, hr, rfl, hready⟩ := ih
    obtain ⟨g, gs, ho⟩ := List.exists_cons_of_ne_nil hp.ne_nil
    obtain ⟨s, hs, hso, hsw⟩ := run_opening hready ho f hd
    obtain ⟨u, hu, huo, huw⟩ := leads_lead hk hso (hsw ▸ expects_firstAwaited f)
    exact ⟨u, (run_append hr).trans ((run_append hs).trans hu), huo.trans hso, huw⟩
  | @next f fs ts v k _ hv hk ih =>
    obtain ⟨r, hr, ho, hready⟩ := ih
    have hlen : r.open_.length = fs.length + 1 := by rw [ho, List.length_cons]
    have hvalue := follows_spells hv r f fs ho hlen hready
    have hcomma : r.Leads (v ++ [.comma]) (Expects f ·.awaits) :=
      hvalue.trans fun s hs hw => leads_comma (hs.trans ho) hw
    obtain ⟨u, hu, huo, huw⟩ := hcomma.trans fun s hs hw => leads_lead hk (hs.trans ho) hw
    refine ⟨u, ?_, huo.trans ho, huw⟩
    rw [List.append_assoc, run_append hr, ← hu, List.append_assoc, List.singleton_append]

theorem run_of_overflow {f : ReadFault} {ts : List Token} (h : Overflow ts f) :
    start.run ts = .error f := by
  have fault : ∀ {fs : List Frame} {pre : List Token} {k : Token} {f : ReadFault}
      (post : List Token), Place fs pre → k ≠ .closeArray →
      (∀ r : Reader, r.open_ = fs → r.value k = .error f) → start.run (pre ++ k :: post) = .error f := by
    intro fs pre k f post hp hk hv
    obtain ⟨r, hr, rfl, hready⟩ := run_place hp
    obtain ⟨g, gs, ho⟩ := List.exists_cons_of_ne_nil hp.ne_nil
    have hs : r.step k = .error f := (step_ready hready ho hk).trans (hv r rfl)
    rw [run_append hr, run, List.foldlM_cons, hs]
    rfl
  cases h with
  | @longInteger fs pre n post hp hn =>
    refine fault post hp (by simp) fun r _ => ?_
    rw [value, if_neg (by omega)]
  | @tooDeep fs pre post g hp hd =>
    refine fault post hp (by cases g <;> simp [Frame.opening]) fun r ho => ?_
    have hv : r.value g.opening = r.enter g := by cases g <;> rfl
    rw [hv, enter.eq_def, if_neg (by rw [ho]; omega)]

/-- **The reader gives up on an array exactly if a value that is too much stands where a value
    may stand.** -/
theorem run_overflow_iff {f : ReadFault} {ts : List Token} :
    start.run ts = .error f ∧ f ≠ .malformed ↔ Overflow ts f := by
  constructor
  · rintro ⟨h, hf⟩
    exact overflow_of_run hf h
  · intro h
    refine ⟨run_of_overflow h, ?_⟩
    cases h <;> simp

end Reader

/-- The array reader gives up on a text exactly if its tokens overflow. -/
theorem readItems_overflow_iff {f : ReadFault} {t : Text} :
    readItems t = .error f ∧ f ≠ .malformed ↔ Overflow (Token.all t).1 f := by
  rw [← Reader.run_overflow_iff]
  refine and_congr_left fun hf => ?_
  rcases hr : Reader.start.run (Token.all t).1 with g | r
  · simp only [readItems, hr, bind, Except.bind, Except.error.injEq]
  · simp only [readItems, hr, bind, Except.bind]
    constructor
    · intro h
      split_ifs at h
      · cases h
      · exact absurd (Except.error.inj h).symm hf
    · intro h
      cases h

end TraitCatalog.Json
