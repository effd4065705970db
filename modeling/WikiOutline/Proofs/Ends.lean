/-
# Where sections end

A section goes on while the sections behind it lie deeper.  The walk up from the section
before a heading, to the parent of the new section, meets just the sections that go on up
to there and not above the parent, and ends each of them right before the heading
(`Builder.closeSpans_endPos`).  So every section ends before the first one behind it that
does not lie deeper, as far as that one has a start, and one without such a section behind
it does not end (`Outline.buildWith_ends`).

Key definitions: `Outline.Encloses`, `Outline.Next`, `Outline.Ends`, `Outline.EndsAt`.
Key theorems: `Outline.Tree.encloses_iff`, `Builder.closeSpans_endPos`,
`Builder.Adds.ended`, `Outline.buildWith_ends`.
-/
import WikiOutline.Proofs.LastSection
import WikiOutline.Proofs.TreeLaw

namespace WikiOutline

namespace Outline

open Builder Reading

/-- Section `i` goes on up to section `j`: all behind it lie deeper. -/
def Encloses (ns : List Node) (i j : Nat) : Prop :=
  i ≤ j ∧ ∀ m, i < m → m ≤ j → (nodeAt ns i).level < (nodeAt ns m).level

/-- Section `j` is the first one behind section `i` that does not lie deeper. -/
def Next (ns : List Node) (i j : Nat) : Prop :=
  i < j ∧ (nodeAt ns j).level ≤ (nodeAt ns i).level ∧
    ∀ m, i < m → m < j → (nodeAt ns i).level < (nodeAt ns m).level

/-- The end of a section with some start before one that starts at `next`. -/
def endBefore (next : Nat) (start : Option Nat) : Nat :=
  start.elim (next - 1) (max (next - 1))

/-- Section `i` ends right before the next one that does not lie deeper, if that one has a
start; else, and without such a section, it does not end. -/
inductive Ends (ns : List Node) (i : Nat) : Option Nat → Prop
  | goesOn : (∀ j, i < j → j < ns.length → (nodeAt ns i).level < (nodeAt ns j).level) →
    Ends ns i none
  | before {j : Nat} : j < ns.length → Next ns i j →
    Ends ns i ((nodeAt ns j).startPos.map fun next => endBefore next (nodeAt ns i).startPos)

/-- Section `i` ends right before the next one that does not lie deeper; without one it
does not end. -/
def EndsAt (ns : List Node) (i : Nat) : Option Nat → Prop
  | none => ∀ j, i < j → j < ns.length → (nodeAt ns i).level < (nodeAt ns j).level
  | some e => ∃ j next, j < ns.length ∧ Next ns i j ∧ (nodeAt ns j).startPos = some next ∧
      e = endBefore next (nodeAt ns i).startPos

theorem Next.unique {ns : List Node} {i j k : Nat} (hj : Next ns i j) (hk : Next ns i k) :
    j = k := by
  obtain ⟨h1, h2, h3⟩ := hj
  obtain ⟨k1, k2, k3⟩ := hk
  rcases Nat.lt_trichotomy j k with h | h | h
  · have := k3 j h1 h
    omega
  · exact h
  · have := h3 k k1 h
    omega

/-- Where all sections but the root have a start, the next one that does not lie deeper
ends a section. -/
theorem Ends.endsAt {ns : List Node} {i : Nat} {e : Option Nat} (h : Ends ns i e)
    (hstarts : ∀ j, 0 < j → j < ns.length → (nodeAt ns j).startPos ≠ none) : EndsAt ns i e := by
  cases h with
  | goesOn h => exact h
  | @before j hj hnext =>
    obtain ⟨next, hs⟩ := Option.ne_none_iff_exists'.mp
      (hstarts j (Nat.zero_lt_of_lt hnext.1) hj)
    rw [hs]
    exact ⟨j, next, hj, hnext, hs, rfl⟩

/-! ### Sections that go on -/

theorem Encloses.refl (ns : List Node) (i : Nat) : Encloses ns i i :=
  ⟨le_rfl, fun _ h1 h2 => absurd h1 (Nat.not_lt.mpr h2)⟩

/-- What goes on up to the last section has not ended. -/
theorem Ends.eq_none {ns : List Node} {i last : Nat} {e : Option Nat} (h : Ends ns i e)
    (hgoes : Encloses ns i last) (hlast : ns.length = last + 1) : e = none := by
  cases h with
  | goesOn _ => rfl
  | @before j hj hnext =>
    have hdeep := hgoes.2 j hnext.1 (by omega)
    have hle := hnext.2.1
    omega

theorem Encloses.mono {ns : List Node} {i j k : Nat} (h : Encloses ns i k) (hij : i ≤ j)
    (hjk : j ≤ k) : Encloses ns i j :=
  ⟨hij, fun m h1 h2 => h.2 m h1 (h2.trans hjk)⟩

theorem Encloses.trans {ns : List Node} {i j k : Nat} (h : Encloses ns i j)
    (h' : Encloses ns j k) : Encloses ns i k := by
  refine ⟨h.1.trans h'.1, fun m h1 h2 => ?_⟩
  rcases Nat.lt_or_ge j m with hm | hm
  · have hlevel := h'.2 m hm h2
    rcases Nat.eq_or_lt_of_le h.1 with rfl | hij
    · exact hlevel
    · exact (h.2 j hij le_rfl).trans hlevel
  · exact h.2 m h1 hm

/-- What goes on up to a section is that section, or goes on up to its parent. -/
theorem Below.encloses_iff {ns : List Node} {p i k : Nat}
    (h : Below ns (nodeAt ns k).level p k) : Encloses ns i k ↔ i = k ∨ Encloses ns i p := by
  obtain ⟨hpk, hlevel, hbetween⟩ := h
  constructor
  · rintro ⟨hik, hdeep⟩
    rcases Nat.eq_or_lt_of_le hik with rfl | hlt
    · exact .inl rfl
    have hip : i ≤ p := by
      by_contra hpi
      have h1 := hbetween i (by omega) hlt
      have h2 := hdeep k hlt le_rfl
      omega
    exact .inr ⟨hip, fun m h1 h2 => hdeep m h1 (by omega)⟩
  · rintro (rfl | hip)
    · exact .refl ns i
    refine hip.trans ⟨hpk.le, fun m h1 h2 => ?_⟩
    rcases Nat.eq_or_lt_of_le h2 with rfl | hmk
    · omega
    · have := hbetween m h1 hmk
      omega

/-- A section has no more sections above it than its level says. -/
theorem Tree.le_level_of_ancestor {heads : List Call} {ns : List Node} (h : Tree heads ns) :
    ∀ steps i a, i < ns.length → ancestor? ns steps i = some a → steps ≤ (nodeAt ns i).level
  | 0, _, _, _, _ => Nat.zero_le _
  | steps + 1, i, a, hi, ha => by
    obtain ⟨p, hp, hpa⟩ := Option.bind_eq_some_iff.mp ha
    obtain ⟨hpi, hlevel, -⟩ := h.below_of_parent hi hp
    have ih := h.le_level_of_ancestor steps p a (by omega) hpa
    omega

/-- **The sections above a section** are those before it that go on up to it. -/
theorem Tree.encloses_iff {heads : List Call} {ns : List Node} (h : Tree heads ns) {a i : Nat}
    (hi : i < ns.length) :
    (∃ steps, 0 < steps ∧ ancestor? ns steps i = some a) ↔ a ≠ i ∧ Encloses ns a i := by
  constructor
  · rintro ⟨steps, hpos, ha⟩
    obtain ⟨a', ha', hle, hlevel, hdeep⟩ :=
      h.exists_ancestor steps i hi (h.le_level_of_ancestor steps i a hi ha)
    rw [ha] at ha'
    obtain rfl := Option.some.inj ha'
    refine ⟨?_, hle, hdeep⟩
    rintro rfl
    omega
  · rintro ⟨hne, hle, hdeep⟩
    have hlt : a < i := Nat.lt_of_le_of_ne hle hne
    have hlevel := hdeep i hlt le_rfl
    obtain ⟨a', ha', hle', hlevel', hdeep'⟩ :=
      h.exists_ancestor ((nodeAt ns i).level - (nodeAt ns a).level) i hi (Nat.sub_le _ _)
    have haa : a' = a := by
      rcases Nat.lt_trichotomy a' a with hlt' | heq | hgt
      · have := hdeep' a hlt' hle
        omega
      · exact heq
      · have := hdeep a' hgt hle'
        omega
    exact ⟨_, by omega, haa ▸ ha'⟩

namespace Builder

/-! ### Ending sections -/

theorem get_modify (b : Builder) (id : Nat) (f : Section → Section) {i : Nat}
    (hi : i < b.sections.length) :
    (b.modify id f).get i = if i = id then f (b.get i) else b.get i := by
  by_cases h : i = id
  · subst h
    simp [get, Builder.modify, hi]
  · simp [get, Builder.modify, h, Ne.symm h]

/-- **The walk up to the parent** ends the sections that go on up to where it begins, but
not those above the parent. -/
theorem closeSpans_endPos {heads : List Call} (start p : Nat) :
    ∀ (steps id : Nat) {b : Builder}, Tree heads b.nodes → id < b.sections.length →
      Encloses b.nodes p id → id ≤ p + steps → ∀ i < b.sections.length,
      (p < i ∧ Encloses b.nodes i id →
        ((closeSpans start p steps id b).get i).endPos =
          some (endBefore start (b.get i).startPos)) ∧
      (¬ (p < i ∧ Encloses b.nodes i id) →
        ((closeSpans start p steps id b).get i).endPos = (b.get i).endPos)
  | 0, id, b, _, _, hp, hs, i, _ => by
    refine ⟨fun ⟨h1, h2⟩ => ?_, fun _ => rfl⟩
    have := h2.1
    omega
  | steps + 1, id, b, ht, hid, hp, hs, i, hi => by
    unfold closeSpans
    split
    · rename_i heq
      refine ⟨fun ⟨h1, h2⟩ => ?_, fun _ => rfl⟩
      have := h2.1
      omega
    · rename_i hne
      have hlt : p < id := Nat.lt_of_le_of_ne hp.1 (Ne.symm hne)
      obtain ⟨q, hq, hbelow⟩ := ht.below id (by omega) (by rwa [length_nodes])
      have hparent : (b.get id).parent = some q := by
        rw [nodeAt_nodes] at hq
        exact hq
      rw [hparent]
      simp only
      set ended : Section → Section := fun s =>
        { s with endPos := some (s.startPos.elim (start - 1) (max (start - 1))) }
      have hnodes : (b.modify id ended).nodes = b.nodes := map_modify_eq _ _ _ _ fun _ _ => rfl
      have hlength : (b.modify id ended).sections.length = b.sections.length :=
        List.length_modify _ _ _
      -- the walk does not pass `p`, which goes on up to the next section that it meets
      have hpq : Encloses b.nodes p q := (hbelow.encloses_iff.mp hp).resolve_left (by omega)
      obtain ⟨h1, h2⟩ := closeSpans_endPos start p steps q (b := b.modify id ended)
        (hnodes ▸ ht) (by rw [hlength]; have := hbelow.1; omega) (hnodes ▸ hpq)
        (by have := hbelow.1; omega) i (by rwa [hlength])
      rw [hnodes, get_modify b id ended hi] at h1 h2
      rw [hbelow.encloses_iff]
      by_cases hii : i = id
      · -- the section itself is ended first, and not met again
        subst hii
        have hnot : ¬ (p < i ∧ Encloses b.nodes i q) := fun h => by
          have := h.2.1
          have := hbelow.1
          omega
        rw [if_pos rfl] at h2
        exact ⟨fun _ => h2 hnot, fun h => absurd ⟨hlt, .inl rfl⟩ h⟩
      · rw [if_neg hii] at h1 h2
        simp only [hii, false_or]
        exact ⟨h1, h2⟩

/-- Every section ends where it should. -/
def Ended (b : Builder) : Prop := ∀ i < b.sections.length, Ends b.nodes i (b.get i).endPos

/-- Nothing comes behind the root yet. -/
theorem ended_init (strictness : Strictness) : Ended { strictness } := by
  intro i hi
  obtain rfl : i = 0 := Nat.lt_one_iff.mp hi
  exact .goesOn fun j h1 h2 => absurd (Nat.lt_one_iff.mp h2) (Nat.ne_of_gt h1)

section Adding

variable {heads : List Call} {b b' : Builder} {c : Call} {p : Nat}

/-- A new section has no end, and the others are ended as the walk up ends them. -/
theorem Adds.endPos (h : Adds b c p b') :
    (b'.get b.sections.length).endPos = none ∧ ∀ i < b.sections.length,
      (b'.get i).endPos = ((b.leaveSections c p).get i).endPos := by
  set left : List Section := (b.leaveSections c p).sections.modify p fun s =>
    { s with children := s.children ++ [b.sections.length] } with hleft
  set new := startedSection c (levelRead (b.get b.current).level c) p
    (effectiveLevel (b.get b.current).level c) with hnew
  have hsections : b'.sections = left ++ [new] := h.sections
  have hlength : left.length = b.sections.length := by
    rw [hleft, List.length_modify, length_leaveSections]
  constructor
  · have hlast : b'.sections[b.sections.length]? = some new := by
      rw [hsections, ← hlength, List.getElem?_concat_length]
    rw [get_eq_of_getElem? hlast, hnew]
    unfold startedSection
    simp only
    split <;> rfl
  · intro i hi
    have hview : left.map Section.endPos = (b.leaveSections c p).sections.map Section.endPos :=
      map_modify_eq Section.endPos _ _ _ fun _ _ => rfl
    have hat : ∀ ss : List Section, (ss.getD i .root).endPos = (ss.map Section.endPos).getD i none :=
      fun ss => by
        simp only [List.getD_eq_getElem?_getD, List.getElem?_map]
        cases ss[i]? <;> rfl
    show (b'.sections.getD i .root).endPos = _
    rw [hsections, List.getD_append _ _ _ _ (by rw [hlength]; exact hi), hat, hview, ← hat]
    rfl

/-- What is there keeps its level and its start. -/
theorem Adds.nodeAt_old (h : Adds b c p b') {i : Nat} (hi : i ≠ b.sections.length) :
    (nodeAt b'.nodes i).level = (nodeAt b.nodes i).level ∧
      (nodeAt b'.nodes i).startPos = (nodeAt b.nodes i).startPos := by
  have hp := h.below.1
  rw [h.nodes, nodeAt_grow _ (by rwa [length_nodes]) (by rwa [length_nodes])]
  split <;> exact ⟨rfl, rfl⟩

/-- The new section has the level and the start of its call. -/
theorem Adds.nodeAt_new (h : Adds b c p b') :
    (nodeAt b'.nodes b.sections.length).level = effectiveLevel (b.get b.current).level c ∧
      (nodeAt b'.nodes b.sections.length).startPos = c.startPos := by
  rw [h.nodes, ← length_nodes, nodeAt_grow_last]
  exact ⟨rfl, rfl⟩

theorem Adds.length (h : Adds b c p b') : b'.sections.length = b.sections.length + 1 := by
  rw [← length_nodes, h.nodes, length_grow, length_nodes]

/-- The new section is the next that does not lie deeper for each that goes on up to it,
and is not above it. -/
theorem Adds.next (h : Adds b c p b') (hb : Sound heads b) {i : Nat} (hp : p < i)
    (hi : i < b.sections.length) (hgoes : Encloses b.nodes i b.current) :
    Next b'.nodes i b.sections.length := by
  have hcurrent := hb.length
  obtain ⟨hlevel, -⟩ := h.nodeAt_old (Nat.ne_of_lt hi)
  refine ⟨hi, ?_, fun m h1 h2 => ?_⟩
  · rw [h.nodeAt_new.1, hlevel]
    exact h.below.2.2 i hp hi
  · rw [hlevel, (h.nodeAt_old (Nat.ne_of_lt h2)).1]
    exact hgoes.2 m h1 (by omega)

/-- Such a section ends before the new one, if that has a start. -/
theorem Adds.ends_new (h : Adds b c p b') (hb : Sound heads b) {i : Nat} (hp : p < i)
    (hi : i < b.sections.length) (hgoes : Encloses b.nodes i b.current) :
    Ends b'.nodes i (c.startPos.map fun start => endBefore start (b.get i).startPos) := by
  have hlast : b.sections.length < b'.nodes.length := by
    rw [length_nodes, h.length]
    exact Nat.lt_succ_self _
  have hold : (nodeAt b'.nodes i).startPos = (b.get i).startPos := by
    rw [(h.nodeAt_old (Nat.ne_of_lt hi)).2, nodeAt_nodes]
    rfl
  have hends := Ends.before hlast (h.next hb hp hi hgoes)
  rw [h.nodeAt_new.2, hold] at hends
  exact hends

/-- All other sections end where they did. -/
theorem Adds.ends_old (h : Adds b c p b') (hb : Sound heads b) {i : Nat}
    (hi : i < b.sections.length) (hother : ¬ (p < i ∧ Encloses b.nodes i b.current))
    {e : Option Nat} (he : Ends b.nodes i e) : Ends b'.nodes i e := by
  have hcurrent := hb.length
  obtain ⟨hlevel, hstart⟩ := h.nodeAt_old (Nat.ne_of_lt hi)
  cases he with
  | goesOn hdeep =>
    obtain ⟨hp, hplevel, -⟩ := h.below
    have hgoes : Encloses b.nodes i b.current :=
      ⟨by omega, fun m h1 h2 => hdeep m h1 (by rw [length_nodes]; omega)⟩
    have hip : i ≤ p := Nat.le_of_not_lt fun hpi => hother ⟨hpi, hgoes⟩
    refine .goesOn fun j h1 h2 => ?_
    rw [length_nodes, h.length] at h2
    rw [hlevel]
    rcases Nat.eq_or_lt_of_le (Nat.le_of_lt_succ h2) with rfl | hj
    · -- section `i` is the parent of the new one or above it
      rw [h.nodeAt_new.1, ← hplevel]
      rcases Nat.eq_or_lt_of_le hip with rfl | hlt
      · exact Nat.lt_succ_self _
      · exact Nat.lt_succ_of_lt (hgoes.2 p hlt (by omega))
    · rw [(h.nodeAt_old (Nat.ne_of_lt hj)).1]
      exact hdeep j h1 (by rwa [length_nodes])
  | @before j hj hnext =>
    rw [length_nodes] at hj
    obtain ⟨h1, h2, h3⟩ := hnext
    obtain ⟨hjlevel, hjstart⟩ := h.nodeAt_old (Nat.ne_of_lt hj)
    have hlast : j < b'.nodes.length := by
      rw [length_nodes, h.length]
      exact Nat.lt_succ_of_lt hj
    have hnext' : Next b'.nodes i j := by
      refine ⟨h1, by rwa [hlevel, hjlevel], fun m h4 h5 => ?_⟩
      rw [hlevel, (h.nodeAt_old (Nat.ne_of_lt (h5.trans hj))).1]
      exact h3 m h4 h5
    have hends := Ends.before hlast hnext'
    rw [hjstart, hstart] at hends
    exact hends

/-- What goes on up to the new section, and is not above it, is ended before its start;
all else is left as it is. -/
theorem Adds.leaveSections_endPos (h : Adds b c p b') (hb : Sound heads b) (he : Ended b) {i : Nat}
    (hi : i < b.sections.length) :
    (p < i ∧ Encloses b.nodes i b.current → ((b.leaveSections c p).get i).endPos =
      c.startPos.map fun start => endBefore start (b.get i).startPos) ∧
    (¬ (p < i ∧ Encloses b.nodes i b.current) →
      ((b.leaveSections c p).get i).endPos = (b.get i).endPos) := by
  have hcurrent := hb.length
  obtain ⟨hp, hlevel, hbelow⟩ := h.below
  have hparent : Encloses b.nodes p b.current :=
    ⟨by omega, fun m h1 h2 => by have := hbelow m h1 (by omega); omega⟩
  unfold leaveSections
  cases c.startPos with
  | none =>
    -- a heading without a start ends nothing, and what goes on has not ended before
    refine ⟨fun hgoes => ?_, fun _ => rfl⟩
    exact (he i hi).eq_none hgoes.2 (by rw [length_nodes]; exact hcurrent)
  | some start =>
    exact closeSpans_endPos start p b.sections.length b.current hb.tree (by omega) hparent
      (by omega) i hi

/-- **A new section** ends those that it leaves, and leaves the other ends as they are. -/
theorem Adds.ended (h : Adds b c p b') (hb : Sound heads b) (he : Ended b) : Ended b' := by
  obtain ⟨hlast, hends⟩ := h.endPos
  intro i hi
  rw [h.length] at hi
  rcases Nat.eq_or_lt_of_le (Nat.le_of_lt_succ hi) with rfl | hi
  · rw [hlast]
    refine .goesOn fun j h1 h2 => ?_
    rw [length_nodes, h.length] at h2
    omega
  · obtain ⟨hclosed, hkept⟩ := h.leaveSections_endPos hb he hi
    rw [hends i hi]
    by_cases hc : p < i ∧ Encloses b.nodes i b.current
    · rw [hclosed hc]
      exact h.ends_new hb hc.1 hi hc.2
    · rw [hkept hc]
      exact h.ends_old hb hi hc (he i hi)

end Adding

/-- What changes only the last section leaves the ends as they are. -/
theorem ChangesLast.get_endPos {b b' : Builder} (h : ChangesLast b b') {i : Nat}
    (hi : i < b.sections.length) : (b'.get i).endPos = (b.get i).endPos := by
  obtain ⟨-, f, hf, hs⟩ := h
  have hget : b'.get i = (b.modify b.current f).get i := by rw [get, get, hs]; rfl
  rw [hget, get_modify b b.current f hi]
  split
  · exact hf _
  · rfl

/-- What changes only the last section ends nothing. -/
theorem ChangesLast.ended {b b' : Builder} (h : ChangesLast b b') (hn : b'.nodes = b.nodes)
    (he : Ended b) : Ended b' := by
  intro i hi
  rw [← length_nodes, hn, length_nodes] at hi
  rw [hn, h.get_endPos hi]
  exact he i hi

/-- A step ends what the section it starts leaves, and nothing else. -/
theorem Step.ended {heads : List Call} {b b' : Builder} {taken rest : List Call}
    (h : Step b taken rest b') (hb : Sound heads b) (he : Ended b) : Ended b' := by
  rcases h.adds_or_changesLast hb with ⟨c, p, rfl, -, hadds⟩ | ⟨hquiet, hchanges⟩
  · exact hadds.ended hb he
  · exact hchanges.ended hquiet.nodes he

theorem changesLast_finish {b b' : Builder} (h : b.finish = .ok b') : ChangesLast b b' := by
  unfold finish at h
  split at h
  · rw [← Except.ok.inj h]
    exact .of_eq rfl rfl
  · obtain ⟨b₁, h₁, rfl⟩ := map_eq_ok h
    obtain ⟨-, rfl⟩ := internal_eq_ok.mp h₁
    exact changesLast_labelCurrent _

end Builder

/-- **Every section of a build ends** right before the next one that does not lie deeper,
if that one has a start. -/
theorem buildWith_ends {σ : Type} {strictness : Strictness} {sink : Option (MetadataSink σ)}
    {calls : List Call} {s s' : σ} {o : Outline}
    (h : buildWith strictness sink calls s = .ok (o, s')) :
    ∀ i < o.size, Ends o.nodes i (o.get i).endPos := by
  obtain ⟨b, hb, hsections, -⟩ := buildWith_ok h
  obtain ⟨b₀, hr, hf⟩ := buildSections_run hb
  obtain ⟨-, -, hended, -⟩ := hr.grows (Q := fun _ b => Ended b)
    (fun hs hb he => hs.ended hb he) (sound_init strictness) (ended_init strictness)
  have hend : Ended b := (changesLast_finish hf).ended (finish_eq hf).1 hended
  intro i hi
  have hi' := hend i (hsections ▸ hi)
  have hnodes : o.nodes = b.nodes := congrArg (List.map Section.node) hsections
  have hget : o.get i = b.get i := by rw [Outline.get, Builder.get, hsections]
  rw [hnodes, hget]
  exact hi'

/-- Where every heading has a start, a section ends at the next one that does not lie
deeper. -/
theorem buildWith_ended {σ : Type} {strictness : Strictness} {sink : Option (MetadataSink σ)}
    {calls : List Call} {s s' : σ} {o : Outline}
    (h : buildWith strictness sink calls s = .ok (o, s'))
    (hstarts : ∀ c ∈ startingCalls {} calls, c.startPos ≠ none) :
    ∀ i < o.size, EndsAt o.nodes i (o.get i).endPos := by
  obtain ⟨ht, -⟩ := buildWith_sound h
  refine fun i hi => (buildWith_ends h i hi).endsAt fun j hj hlt => ?_
  obtain ⟨k, rfl⟩ : ∃ k, j = k + 1 := ⟨j - 1, by omega⟩
  have hk : k < (startingCalls {} calls).length := by
    rw [ht.length] at hlt
    omega
  rw [(ht.isFrom k _ (List.getElem?_eq_getElem hk)).2.2.1]
  exact hstarts _ (List.getElem_mem hk)

end Outline

end WikiOutline
