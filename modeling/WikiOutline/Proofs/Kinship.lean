/-
# Parents, children and siblings

Where calls can be completed, they are bracketed or an element is innermost behind them,
and looking back for any enter finds that element or nothing.  So the cursor climbs from a
call to the innermost element around it; from an exit it climbs to the innermost one around
its whole element.

The children of an element are the markup at which it is innermost (`IsChild`).  From a
place where it is innermost, the next markup is its next child, unless it is an exit: then
it is the exit of the element itself and there are no more.  Behind a child that is an
element, the exit of it is such a place.  So the moves to the first child and on to the next
sibling come to all children, each once and in order.

Key definitions: `Encloses`, `ParentLaw`, `IsChild`, `CallSequence.siblingsWithin`.
Key theorems: `openingIndex?_iff_innermostOpen`, `parentLaw_of_start`,
`nextTagIndex?_isLeast`, `siblingsWithin_behind`, `balanced_calls_form_tree`.
-/
import WikiOutline.Proofs.Partners

namespace WikiOutline

open CallSequence

/-- Call `p` enters an element that has the calls from `first` to `last` inside. -/
def Encloses (pairs : List (Nat × Nat)) (first last p : Nat) : Prop :=
  ∃ q, (p, q) ∈ pairs ∧ p < first ∧ last < q

/-- From call `k` the cursor climbs to the innermost element around the calls from `first`
to `last`, and nowhere if there is none. -/
structure ParentLaw (calls : List Call) (pairs : List (Nat × Nat)) (k first last : Nat) :
    Prop where
  found : ∀ p, (standing calls k).toParent = some (standing calls p) ↔
    IsGreatest {p | Encloses pairs first last p} p
  missing : (standing calls k).toParent = none ↔ ∀ p, ¬ Encloses pairs first last p

/-- Call `k` is markup, and call `i` enters the innermost element around it. -/
def IsChild (calls : List Call) (i k : Nat) : Prop :=
  (∃ c, calls[k]? = some c ∧ (c.state = .enter ∨ c.state = .special)) ∧
    InnermostOpen (calls.take k) i

/-- The places where the cursor stands when it goes from sibling to sibling, if it has come
to an end before the `n`-th move. -/
def CallSequence.siblingsWithin : Nat → Option CallSequence → Option (List Nat)
  | 0, _ => none
  | _ + 1, none => some []
  | n + 1, some s => (siblingsWithin n s.toNextSibling).map (s.index?.toList ++ ·)

variable {calls cs ds read : List Call} {i j k m p start first last : Nat}
  {pairs : List (Nat × Nat)}

/-! ### Looking back for any enter -/

/-- Bracketed calls are passed over. -/
theorem Bracketed.matchOffset?_reverse (h : Bracketed cs) : ∀ (depth : Nat) (ds : List Call),
    matchOffset? .exit .enter none depth (cs.reverse ++ ds) =
      (matchOffset? .exit .enter none depth ds).map (· + cs.length) := by
  induction h with
  | nil =>
    intro depth ds
    simp
  | @leaf c cs hstate _ ih =>
    intro depth ds
    have hskip : matchOffset? .exit .enter none depth (c :: ds) =
        (matchOffset? .exit .enter none depth ds).map (· + 1) := by
      apply matchOffset?_skip
      intro _
      rcases hstate with hstate | hstate <;> simp [hstate]
    rw [List.reverse_cons, List.append_assoc, List.singleton_append, ih, hskip, Option.map_map]
    congr 1
    funext k
    simp only [Function.comp_apply, List.length_cons]
    omega
  | @element a b inner rest ha hb _ _ _ ihinner ihrest =>
    intro depth ds
    have hcalls : (a :: (inner ++ b :: rest)).reverse ++ ds =
        rest.reverse ++ b :: (inner.reverse ++ a :: ds) := by simp
    rw [hcalls, ihrest, matchOffset?_nests rfl hb, ihinner,
      matchOffset?_closes_succ (by decide) rfl ha, Option.map_map, Option.map_map, Option.map_map]
    congr 1
    funext k
    simp only [Function.comp_apply, List.length_cons, List.length_append]
    omega

/-- Behind bracketed calls there is no element to be found. -/
theorem openingIndex?_of_bracketed (h : Bracketed (calls.take k)) :
    openingIndex? calls k none = none := by
  have hpass := h.matchOffset?_reverse 0 []
  rw [List.append_nil] at hpass
  rw [openingIndex?, hpass]
  rfl

theorem openingIndex?_of_innermostOpen (hk : k ≤ calls.length)
    (h : InnermostOpen (calls.take k) i) : openingIndex? calls k none = some i := by
  obtain ⟨before, a, inner, htake, rfl, ha, hinner⟩ := h
  have hlen : before.length + 1 + inner.length = k := by
    have := congrArg List.length htake
    rw [List.length_take, Nat.min_eq_left hk] at this
    simp only [List.length_append, List.length_cons] at this
    omega
  have hrev : (calls.take k).reverse = inner.reverse ++ a :: before.reverse := by
    rw [htake]
    simp
  rw [openingIndex?, hrev, hinner.matchOffset?_reverse,
    matchOffset?_closes_zero (by decide) rfl ha]
  simp only [Option.map_some, Option.some.injEq]
  omega

/-- Calls that can be completed are bracketed, or an element is innermost behind them. -/
theorem Completable.bracketed_or_innermostOpen (h : Completable read) :
    Bracketed read ∨ ∃ i, InnermostOpen read i := by
  have hv := verdict_checkBalance read
  generalize checkBalance read = r at hv
  cases hv with
  | accepted h => exact .inl h
  | unclosed h => exact .inr ⟨_, h.innermost⟩
  | unopened hcalls hread hc =>
    subst hcalls
    exact absurd h (hread.stopsAt hc).not_completable
  | mismatched hcalls hread hc hname =>
    subst hcalls
    exact absurd h (hread.stopsAt_of_ne hc hname).not_completable

theorem Bracketed.not_innermostOpen (h : Bracketed read) : ¬ InnermostOpen read i :=
  fun hi => h.not_leftOpen hi.isGreatest.1

theorem InnermostOpen.unique (hi : InnermostOpen read i) (hj : InnermostOpen read j) : i = j :=
  hi.isGreatest.unique hj.isGreatest

/-- **Looking back** for any enter finds the innermost element. -/
theorem openingIndex?_iff_innermostOpen (h : Completable (calls.take k)) (hk : k ≤ calls.length) :
    openingIndex? calls k none = some i ↔ InnermostOpen (calls.take k) i := by
  rcases h.bracketed_or_innermostOpen with hread | ⟨i', hi'⟩
  · rw [openingIndex?_of_bracketed hread]
    exact ⟨fun h => (by cases h), fun hi => absurd hi hread.not_innermostOpen⟩
  · rw [openingIndex?_of_innermostOpen hk hi']
    constructor
    · intro h
      obtain rfl := Option.some.inj h
      exact hi'
    · intro hi
      rw [hi'.unique hi]

/-! ### Elements around a place -/

theorem IsElement.take (h : IsElement calls i j) (hj : j < k) : IsElement (calls.take k) i j := by
  obtain ⟨before, a, inner, b, behind, rfl, rfl, rfl, ha, hb, hname, hinner⟩ := h
  have hcalls : before ++ a :: (inner ++ b :: behind) =
      (before ++ a :: (inner ++ [b])) ++ behind := by simp
  have hlen : (before ++ a :: (inner ++ [b])).length ≤ k := by
    simp only [List.length_append, List.length_cons, List.length_nil]
    omega
  rw [hcalls, List.take_append, List.take_of_length_le hlen]
  exact IsElement.append_right ⟨before, a, inner, b, [], rfl, rfl, rfl, ha, hb, hname, hinner⟩ _

theorem IsElement.of_take (h : IsElement (calls.take k) i j) : IsElement calls i j := by
  have := h.append_right (calls.drop k)
  rwa [List.take_append_drop] at this

/-- Before its exit an element is innermost. -/
theorem IsElement.innermostOpen (h : IsElement calls i j) : InnermostOpen (calls.take j) i := by
  obtain ⟨before, a, inner, b, behind, rfl, rfl, rfl, ha, -, -, hinner⟩ := h
  refine ⟨before, a, inner, ?_, rfl, ha, hinner⟩
  have hcalls : before ++ a :: (inner ++ b :: behind) = (before ++ a :: inner) ++ b :: behind := by
    simp
  have hlen : before.length + 1 + inner.length = (before ++ a :: inner).length := by
    simp only [List.length_append, List.length_cons]
    omega
  rw [hcalls, hlen, List.take_left]

/-- An element is bracketed. -/
theorem IsElement.take_succ (h : IsElement calls i j) :
    ∃ element, calls.take (j + 1) = calls.take i ++ element ∧ Bracketed element := by
  obtain ⟨before, a, inner, b, behind, rfl, rfl, rfl, ha, hb, hname, hinner⟩ := h
  refine ⟨a :: (inner ++ [b]), ?_, .element ha hb hname hinner .nil⟩
  have hcalls : before ++ a :: (inner ++ b :: behind) =
      (before ++ a :: (inner ++ [b])) ++ behind := by simp
  have hlen : before.length + 1 + inner.length + 1 = (before ++ a :: (inner ++ [b])).length := by
    simp only [List.length_append, List.length_cons, List.length_nil]
    omega
  rw [List.take_left, hcalls, hlen, List.take_left]

/-- An element is left open at a place between its enter and its exit. -/
theorem leftOpen_take_iff (h : Bracketed calls) :
    LeftOpen (calls.take k) p ↔ ∃ q, IsElement calls p q ∧ p < k ∧ k ≤ q := by
  constructor
  · rintro ⟨⟨a, ha, henter⟩, hno⟩
    have hp : p < k := by
      have := (List.getElem?_eq_some_iff.mp ha).1
      rw [List.length_take] at this
      omega
    rw [List.getElem?_take_of_lt hp] at ha
    obtain ⟨q, hq⟩ := h.exists_exit ha henter
    refine ⟨q, hq, hp, ?_⟩
    by_contra hlt
    exact hno q (hq.take (by omega))
  · rintro ⟨q, hq, hp, hk⟩
    obtain ⟨a, -, ha, -, henter, -⟩ := hq.ends
    refine ⟨⟨a, by rwa [List.getElem?_take_of_lt hp], henter⟩, fun j hj => ?_⟩
    obtain rfl := hj.of_take.partners.exit_unique hq.partners
    have := hj.lt.2
    rw [List.length_take] at this
    omega

/-- Elements do not overlap. -/
theorem Bracketed.exit_lt_exit (h : Bracketed calls) {q : Nat} (hpq : IsElement calls p q)
    (hij : IsElement calls i j) (hp : p < i) (hi : i ≤ q) : j < q := by
  by_contra hle
  obtain ⟨a, -, ha, -, henter, -⟩ := hij.ends
  obtain ⟨-, b, -, hb, -, hexit, -⟩ := hpq.ends
  rcases Nat.eq_or_lt_of_le hi with rfl | hlt
  · obtain rfl := Option.some.inj (ha.symm.trans hb)
    rw [henter] at hexit
    cases hexit
  · -- at the exit of the first element the second one would be innermost
    have hopen : LeftOpen (calls.take q) i := (leftOpen_take_iff h).mpr ⟨j, hij, hlt, by omega⟩
    have := hpq.innermostOpen.isGreatest.2 hopen
    omega

/-! ### Parents -/

theorem toParent_standing (calls : List Call) (k : Nat) :
    (standing calls k).toParent = ((searchStart? calls k).bind fun start =>
      openingIndex? calls start none).map (standing calls) := by
  rw [toParent_eq]
  rfl

/-- The cursor climbs to the innermost element at the place where its search starts. -/
theorem parentLaw_of_start (h : Bracketed calls) (hstart : searchStart? calls k = some start)
    (hle : start ≤ calls.length)
    (hopen : ∀ p, LeftOpen (calls.take start) p ↔ Encloses pairs first last p) :
    ParentLaw calls pairs k first last := by
  have hparent : (standing calls k).toParent =
      (openingIndex? calls start none).map (standing calls) := by
    rw [toParent_standing, hstart, Option.bind_some]
  have hset : {p | Encloses pairs first last p} = {p | LeftOpen (calls.take start) p} :=
    Set.ext fun p => (hopen p).symm
  rcases (h.completable.take start).bracketed_or_innermostOpen with hread | ⟨i, hi⟩
  · rw [openingIndex?_of_bracketed hread] at hparent
    have hnone : ∀ p, ¬ Encloses pairs first last p :=
      fun p hp => hread.not_leftOpen ((hopen p).mpr hp)
    constructor
    · intro p
      rw [hparent]
      exact ⟨fun h => (by cases h), fun hp => absurd hp.1 (hnone p)⟩
    · rw [hparent]
      exact ⟨fun _ => hnone, fun _ => rfl⟩
  · rw [openingIndex?_of_innermostOpen hle hi] at hparent
    constructor
    · intro p
      rw [hparent, hset, Option.map_some, Option.some.injEq, standing_inj]
      constructor
      · rintro rfl
        exact hi.isGreatest
      · exact hi.isGreatest.unique
    · rw [hparent]
      exact ⟨fun h => (by cases h), fun h => absurd ((hopen i).mp hi.isGreatest.1) (h i)⟩

theorem searchStart?_of_ne {c : Call} (hc : calls[k]? = some c) (hne : c.state ≠ .exit) :
    searchStart? calls k = some k := by
  simp [searchStart?, hc, Call.isExit, hne]

/-- From an exit the search starts at its enter. -/
theorem searchStart?_of_isElement (h : IsElement calls i k) : searchStart? calls k = some i := by
  obtain ⟨b, hb, hexit, hi⟩ := toOpening_eq_ok.mp (toOpening_iff.mpr h.partners)
  simp [searchStart?, hb, Call.isExit, hexit, hi]

/-- **The parent** of a call that exits nothing is the innermost element around it. -/
theorem parentLaw_of_ne (h : Bracketed calls)
    (hpairs : ∀ i j, (i, j) ∈ pairs ↔ IsElement calls i j) {c : Call} (hc : calls[k]? = some c)
    (hne : c.state ≠ .exit) : ParentLaw calls pairs k k k := by
  have hk : k < calls.length := (List.getElem?_eq_some_iff.mp hc).1
  refine parentLaw_of_start h (searchStart?_of_ne hc hne) hk.le fun p => ?_
  rw [leftOpen_take_iff h]
  constructor
  · rintro ⟨q, hq, hp, hkq⟩
    refine ⟨q, (hpairs p q).mpr hq, hp, lt_of_le_of_ne hkq ?_⟩
    rintro rfl
    obtain ⟨-, b, -, hb, -, hexit, -⟩ := hq.ends
    obtain rfl := Option.some.inj (hc.symm.trans hb)
    exact hne hexit
  · rintro ⟨q, hq, hp, hkq⟩
    exact ⟨q, (hpairs p q).mp hq, hp, hkq.le⟩

/-- **The parent** of an exit is the innermost element around all of its element. -/
theorem parentLaw_of_isElement (h : Bracketed calls)
    (hpairs : ∀ i j, (i, j) ∈ pairs ↔ IsElement calls i j) (hik : IsElement calls i k) :
    ParentLaw calls pairs k i k := by
  have hi : i < calls.length := hik.lt.1.trans hik.lt.2
  refine parentLaw_of_start h (searchStart?_of_isElement hik) hi.le fun p => ?_
  rw [leftOpen_take_iff h]
  constructor
  · rintro ⟨q, hq, hp, hiq⟩
    exact ⟨q, (hpairs p q).mpr hq, hp, h.exit_lt_exit hq hik hp hiq⟩
  · rintro ⟨q, hq, hp, hkq⟩
    have := hik.lt.1
    exact ⟨q, (hpairs p q).mp hq, hp, by omega⟩

/-! ### Children -/

theorem toParent_iff_innermostOpen (h : Bracketed calls) {c : Call} (hc : calls[k]? = some c)
    (hne : c.state ≠ .exit) : (standing calls k).toParent = some (standing calls i) ↔
      InnermostOpen (calls.take k) i := by
  have hk : k < calls.length := (List.getElem?_eq_some_iff.mp hc).1
  rw [toParent_standing, searchStart?_of_ne hc hne, Option.bind_some,
    ← openingIndex?_iff_innermostOpen (h.completable.take k) hk.le]
  cases openingIndex? calls k none <;> simp [standing_inj]

theorem InnermostOpen.lt (h : InnermostOpen (calls.take k) i) : i < k := by
  obtain ⟨before, a, inner, htake, rfl, -⟩ := h
  have := congrArg List.length htake
  simp only [List.length_take, List.length_append, List.length_cons] at this
  omega

theorem IsChild.lt (h : IsChild calls i k) : i < k := h.2.lt

/-- Text is bracketed. -/
theorem bracketed_of_unmatched : ∀ {text : List Call}, (∀ c ∈ text, c.state = .unmatched) →
    Bracketed text
  | [], _ => .nil
  | c :: _, h => .leaf (.inr (h c List.mem_cons_self))
      (bracketed_of_unmatched fun d hd => h d (List.mem_cons_of_mem c hd))

/-- Behind text the same element is innermost. -/
theorem InnermostOpen.behind_text (h : InnermostOpen (calls.take k) i) (hkm : k ≤ m)
    (htext : ∀ x c, k ≤ x → x < m → calls[x]? = some c → c.state = .unmatched) :
    InnermostOpen (calls.take m) i := by
  have htake : calls.take m = calls.take k ++ (calls.take m).drop k := by
    have hsplit := List.take_append_drop k (calls.take m)
    rw [List.take_take, Nat.min_eq_left hkm] at hsplit
    exact hsplit.symm
  rw [htake]
  refine h.append (bracketed_of_unmatched fun c hc => ?_)
  obtain ⟨x, hx⟩ := List.getElem?_of_mem hc
  rw [List.getElem?_drop] at hx
  have hlt : k + x < m := by
    have := (List.getElem?_eq_some_iff.mp hx).1
    rw [List.length_take] at this
    omega
  rw [List.getElem?_take_of_lt hlt] at hx
  exact htext (k + x) c (by omega) hlt hx

/-- An element has no children behind its exit. -/
theorem IsChild.lt_exit (h : Bracketed calls) (hk : IsChild calls i k) (hij : IsElement calls i j) :
    k < j := by
  obtain ⟨q, hq, -, hkq⟩ := (leftOpen_take_iff h).mp hk.2.isGreatest.1
  obtain rfl := hq.partners.exit_unique hij.partners
  obtain ⟨⟨c, hc, hstate⟩, -⟩ := hk
  refine lt_of_le_of_ne hkq ?_
  rintro rfl
  obtain ⟨-, b, -, hb, -, hexit, -⟩ := hij.ends
  obtain rfl := Option.some.inj (hc.symm.trans hb)
  simp [hexit] at hstate

/-- Inside a child there are no other children. -/
theorem IsChild.exit_lt (h : Bracketed calls) (hm : IsChild calls i m) (hk : IsChild calls i k)
    (hkj : IsElement calls k j) (hlt : k < m) : j < m := by
  by_contra hle
  have hopen : LeftOpen (calls.take m) k := (leftOpen_take_iff h).mpr ⟨j, hkj, hlt, by omega⟩
  have := hm.2.isGreatest.2 hopen
  have := hk.lt
  omega

/-! ### The next markup -/

/-- The next markup behind a place, if there is some. -/
theorem nextTagIndex?_cases (calls : List Call) (last : Nat) :
    (nextTagIndex? calls last = none ∧
      ∀ x c, last < x → calls[x]? = some c → c.state = .unmatched) ∨
    ∃ m c, last < m ∧ calls[m]? = some c ∧ c.state ≠ .unmatched ∧
      (∀ x d, last < x → x < m → calls[x]? = some d → d.state = .unmatched) ∧
      nextTagIndex? calls last = if c.isExit then none else some m := by
  have hget : ∀ {x c}, last < x → calls[x]? = some c →
      ∃ k, x = last + 1 + k ∧ (calls.drop (last + 1))[k]? = some c := by
    intro x c hx hc
    refine ⟨x - (last + 1), by omega, ?_⟩
    rw [List.getElem?_drop, show last + 1 + (x - (last + 1)) = x by omega]
    exact hc
  unfold nextTagIndex?
  dsimp only
  cases hfind : (calls.drop (last + 1)).findIdx? Call.isTag with
  | none =>
    refine .inl ⟨rfl, fun x c hx hc => ?_⟩
    obtain ⟨k, -, hk⟩ := hget hx hc
    have := List.findIdx?_eq_none_iff.mp hfind c (List.mem_of_getElem? hk)
    simpa [Call.isTag] using this
  | some k =>
    obtain ⟨hk, htag, hbefore⟩ := List.findIdx?_eq_some_iff_getElem.mp hfind
    have hc : (calls.drop (last + 1))[k]? = some (calls.drop (last + 1))[k] :=
      List.getElem?_eq_getElem hk
    refine .inr ⟨last + 1 + k, (calls.drop (last + 1))[k], by omega, ?_, ?_, ?_, ?_⟩
    · rw [← List.getElem?_drop, hc]
    · simpa [Call.isTag] using htag
    · intro x d hx hxk hd
      obtain ⟨k', rfl, hk'⟩ := hget hx hd
      obtain ⟨hlt, rfl⟩ := List.getElem?_eq_some_iff.mp hk'
      have := hbefore k' (by omega)
      simpa [Call.isTag] using this
    · simp only [hc, Option.any_some]

/-- From a place where an element is innermost, the next markup is its next child. -/
theorem nextTagIndex?_isLeast (hi : InnermostOpen (calls.take (last + 1)) i)
    (hm : nextTagIndex? calls last = some m) : IsLeast {k | IsChild calls i k ∧ last < k} m := by
  rcases nextTagIndex?_cases calls last with ⟨hnone, -⟩ | ⟨m', c, hlast, hc, htag, htext, hnext⟩
  · rw [hnone] at hm
    cases hm
  · rw [hm] at hnext
    split_ifs at hnext with hexit
    obtain rfl := Option.some.inj hnext
    have hstate : c.state = .enter ∨ c.state = .special := by
      cases hs : c.state <;> simp [hs, Call.isExit] at htag hexit ⊢
    refine ⟨⟨⟨⟨c, hc, hstate⟩, hi.behind_text hlast htext⟩, hlast⟩, fun k hk => ?_⟩
    by_contra hlt
    obtain ⟨⟨⟨d, hd, hdstate⟩, -⟩, hlastk⟩ := hk
    have := htext k d hlastk (by omega) hd
    simp [this] at hdstate

/-- Where no such markup comes, there are no more children. -/
theorem IsChild.le_of_nextTagIndex?_eq_none (h : Bracketed calls)
    (hi : InnermostOpen (calls.take (last + 1)) i) (hnone : nextTagIndex? calls last = none)
    (hk : IsChild calls i k) : k ≤ last := by
  obtain ⟨d, hd, hdstate⟩ := hk.1
  by_contra hlt
  rcases nextTagIndex?_cases calls last with ⟨-, htext⟩ | ⟨m, c, hlast, hc, -, htext, hnext⟩
  · have := htext k d (by omega) hd
    simp [this] at hdstate
  · rw [hnone] at hnext
    split_ifs at hnext with hexit
    -- the exit is that of the element itself
    obtain ⟨i', hi'⟩ := h.exists_enter hc (by simpa [Call.isExit] using hexit)
    obtain rfl := hi'.innermostOpen.unique (hi.behind_text hlast htext)
    have hkm := hk.lt_exit h hi'
    have := htext k d (by omega) hkm hd
    simp [this] at hdstate

/-! ### Going from sibling to sibling -/

theorem toFirstChild_standing {a : Call} (ha : calls[i]? = some a) (henter : a.state = .enter) :
    (standing calls i).toFirstChild = (nextTagIndex? calls i).map (standing calls) := by
  have hi : i < calls.length := (List.getElem?_eq_some_iff.mp ha).1
  simp [toFirstChild, index?_standing hi, current?_standing, ha, Call.isEnter, henter,
    calls_standing, moveTo_standing]

/-- Behind a child there is a place from which its next sibling is looked for. -/
theorem IsChild.exists_behind (h : Bracketed calls) (hk : IsChild calls i k) :
    ∃ last, k ≤ last ∧ last < calls.length ∧
      (standing calls k).toNextSibling = (nextTagIndex? calls last).map (standing calls) ∧
      InnermostOpen (calls.take (last + 1)) i ∧ ∀ m, IsChild calls i m → k < m → last < m := by
  obtain ⟨⟨c, hc, hstate⟩, hinner⟩ := id hk
  have hlt : k < calls.length := (List.getElem?_eq_some_iff.mp hc).1
  rcases hstate with henter | hspecial
  · obtain ⟨j, hj⟩ := h.exists_exit hc henter
    obtain ⟨a, ha, -, hclosing⟩ := toClosing_eq_ok.mp (toClosing_iff.mpr hj.partners)
    obtain rfl := Option.some.inj (hc.symm.trans ha)
    refine ⟨j, hj.lt.1.le, hj.lt.2, ?_, ?_, fun m hm hkm => hm.exit_lt h hk hj hkm⟩
    · simp [toNextSibling, index?_standing hlt, current?_standing, hc, Call.isEnter, henter,
        calls_standing, moveTo_standing, hclosing]
    · obtain ⟨element, htake, helement⟩ := hj.take_succ
      rw [htake]
      exact hinner.append helement
  · refine ⟨k, le_rfl, hlt, ?_, ?_, fun m _ hkm => hkm⟩
    · simp [toNextSibling, index?_standing hlt, current?_standing, hc, Call.isEnter, hspecial,
        calls_standing, moveTo_standing]
    · have hget : calls[k] = c := (List.getElem?_eq_some_iff.mp hc).2
      rw [List.take_succ_eq_append_getElem hlt, hget]
      exact hinner.append (.leaf (.inl hspecial) .nil)

/-- **From sibling to sibling** the cursor comes to all children behind a place where their
element is innermost, each once and in order, and then to an end. -/
theorem siblingsWithin_behind (h : Bracketed calls) (last : Nat)
    (hi : InnermostOpen (calls.take (last + 1)) i) :
    ∃ children : List Nat, (∀ n, siblingsWithin n ((nextTagIndex? calls last).map (standing calls)) =
        if children.length < n then some children else none) ∧
      children.Pairwise (· < ·) ∧ ∀ k, k ∈ children ↔ IsChild calls i k ∧ last < k := by
  cases hnext : nextTagIndex? calls last with
  | none =>
    refine ⟨[], fun n => ?_, .nil, fun k => ?_⟩
    · cases n <;> simp [siblingsWithin]
    · refine ⟨fun hk => (by cases hk), fun ⟨hk, hlt⟩ => ?_⟩
      have := hk.le_of_nextTagIndex?_eq_none h hi hnext
      omega
  | some m =>
    obtain ⟨⟨hm, hlastm⟩, hleast⟩ := nextTagIndex?_isLeast hi hnext
    obtain ⟨last', hle, hlt, hsibling, hinner, hbehind⟩ := hm.exists_behind h
    obtain ⟨children, hwalk, hsorted, hmem⟩ := siblingsWithin_behind h last' hinner
    have hmlt : m < calls.length := by omega
    refine ⟨m :: children, fun n => ?_, ?_, fun k => ?_⟩
    · cases n with
      | zero => simp [siblingsWithin]
      | succ n =>
        rw [Option.map_some, siblingsWithin, hsibling, hwalk, index?_standing hmlt]
        by_cases hn : children.length < n
        · simp [hn]
        · simp [hn]
    · refine List.pairwise_cons.mpr ⟨fun k hk => ?_, hsorted⟩
      have := ((hmem k).mp hk).2
      omega
    · rw [List.mem_cons, hmem]
      constructor
      · rintro (rfl | ⟨hk, hltk⟩)
        · exact ⟨hm, hlastm⟩
        · exact ⟨hk, by omega⟩
      · rintro ⟨hk, hltk⟩
        rcases Nat.eq_or_lt_of_le (hleast ⟨hk, hltk⟩) with rfl | hmk
        · exact .inl rfl
        · exact .inr ⟨hk, hbehind k hk hmk⟩
termination_by calls.length - last

theorem toParent_iff_isChild (h : Bracketed calls) : ((∃ c, calls[k]? = some c ∧
    (c.isEnter = true ∨ c.state = .special)) ∧
      (standing calls k).toParent = some (standing calls i)) ↔ IsChild calls i k := by
  constructor
  · rintro ⟨⟨c, hc, hstate⟩, hparent⟩
    have hstate' : c.state = .enter ∨ c.state = .special := by
      simpa [Call.isEnter] using hstate
    have hne : c.state ≠ .exit := by rcases hstate' with hs | hs <;> simp [hs]
    exact ⟨⟨c, hc, hstate'⟩, (toParent_iff_innermostOpen h hc hne).mp hparent⟩
  · rintro ⟨⟨c, hc, hstate⟩, hinner⟩
    have hne : c.state ≠ .exit := by rcases hstate with hs | hs <;> simp [hs]
    exact ⟨⟨c, hc, by simpa [Call.isEnter] using hstate⟩,
      (toParent_iff_innermostOpen h hc hne).mpr hinner⟩

/-- **Balanced calls form a tree.** From a call the cursor climbs to the innermost element
around it, from an exit to the innermost one around its element, and nowhere if there is
none.  From the enter of an element, to its first child and on to the next sibling, it comes
to an end and has been on just the markup from which it climbs to that enter, once each and
in order. -/
theorem balanced_calls_form_tree (h : checkBalance calls = .ok ()) :
    ∃ pairs, pairing calls = .ok pairs ∧
      (∀ k c, calls[k]? = some c → c.isExit = false → ParentLaw calls pairs k k k) ∧
      (∀ k c, calls[k]? = some c → c.isExit = true →
        ∃ i, (i, k) ∈ pairs ∧ ParentLaw calls pairs k i k) ∧
      ∀ i a, calls[i]? = some a → a.isEnter = true → ∃ children : List Nat,
        (∀ n, siblingsWithin n (standing calls i).toFirstChild =
          if children.length < n then some children else none) ∧
        children.Pairwise (· < ·) ∧
        ∀ k, k ∈ children ↔
          (∃ c, calls[k]? = some c ∧ (c.isEnter = true ∨ c.state = .special)) ∧
            (standing calls k).toParent = some (standing calls i) := by
  have hcalls := (checkBalance_balanceLaw calls).accepted.mp h
  obtain ⟨pairs, hpairs, hmem⟩ := exists_pairing h
  refine ⟨pairs, hpairs, fun k c hc hexit => ?_, fun k c hc hexit => ?_, fun i a ha henter => ?_⟩
  · have hne : c.state ≠ .exit := by simpa [Call.isExit] using hexit
    exact parentLaw_of_ne hcalls hmem hc hne
  · obtain ⟨i, hi⟩ := hcalls.exists_enter hc (by simpa [Call.isExit] using hexit)
    exact ⟨i, (hmem i k).mpr hi, parentLaw_of_isElement hcalls hmem hi⟩
  · have hstate : a.state = .enter := by simpa [Call.isEnter] using henter
    have hi : i < calls.length := (List.getElem?_eq_some_iff.mp ha).1
    have hinner : InnermostOpen (calls.take (i + 1)) i := by
      refine ⟨calls.take i, a, [], ?_, List.length_take_of_le hi.le, hstate, .nil⟩
      rw [List.take_succ_eq_append_getElem hi, (List.getElem?_eq_some_iff.mp ha).2]
    obtain ⟨children, hwalk, hsorted, hchild⟩ := siblingsWithin_behind hcalls i hinner
    refine ⟨children, fun n => ?_, hsorted, fun k => ?_⟩
    · rw [toFirstChild_standing ha hstate, hwalk]
    · rw [hchild, toParent_iff_isChild hcalls]
      exact ⟨fun hk => hk.1, fun hk => ⟨hk, hk.lt⟩⟩

/-- A paragraph with an image and another paragraph in it, and text around them. -/
def paragraphInParagraph : List Call :=
  [Call.enter .paragraph, Call.text "News", Call.special .media, Call.enter .paragraph,
    Call.text "Today", Call.exit .paragraph, Call.exit .paragraph]

theorem balanced_calls_form_tree_nested :
    checkBalance paragraphInParagraph = .ok () ∧
      ∃ pairs, pairing paragraphInParagraph = .ok pairs ∧
        ParentLaw paragraphInParagraph pairs 2 2 2 ∧
        (∃ i, (i, 5) ∈ pairs ∧ ParentLaw paragraphInParagraph pairs 5 i 5) ∧
        ∃ children : List Nat,
          (∀ n, siblingsWithin n (standing paragraphInParagraph 0).toFirstChild =
            if children.length < n then some children else none) ∧
          children.Pairwise (· < ·) ∧
          ∀ k, k ∈ children ↔
            (∃ c, paragraphInParagraph[k]? = some c ∧
              (c.isEnter = true ∨ c.state = .special)) ∧
              (standing paragraphInParagraph k).toParent =
                some (standing paragraphInParagraph 0) := by
  have h : checkBalance paragraphInParagraph = .ok () := rfl
  obtain ⟨pairs, hpairs, hinside, hexit, hchildren⟩ := balanced_calls_form_tree h
  exact ⟨h, pairs, hpairs, hinside 2 _ rfl rfl, hexit 5 _ rfl rfl, hchildren 0 _ rfl rfl⟩

end WikiOutline
