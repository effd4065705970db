/-
# The ranges of the sections

A section ranges from its start to its end, and a section without an end over all that
comes behind its start.  Where all sections have a start and these grow along the page, a
position behind the first heading lies in the last section that starts at or before it and
in the sections above that one, and in no other (`Outline.Starts.mem_range_iff`).  So the
ranges of two sections meet only if one lies above the other, whose range then holds both;
and sections side by side touch.

Key definitions: `Section.range`, `Outline.IsAbove`, `Outline.SpanLaw`.
Key theorems: `Outline.Starts.mem_range`, `Outline.Starts.mem_range_iff`,
`Outline.spanLaw_of_build`.
-/
import WikiOutline.Proofs.Ends

namespace WikiOutline

/-- The positions of a section. -/
def Section.range (s : Section) : Set Nat :=
  {x | ∃ start, s.startPos = some start ∧ start ≤ x ∧ ∀ e, s.endPos = some e → x ≤ e}

namespace Outline

open Builder Reading

/-- The first section is found by going up from the second. -/
def IsAbove (o : Outline) (a i : Nat) : Prop :=
  ∃ steps, 0 < steps ∧ o.sectionAbove? steps i = some a

/-- The sections that start at or before a position. -/
def begunBy (o : Outline) (x : Nat) : Set Nat :=
  {j | 0 < j ∧ j < o.size ∧ ∃ start, (o.get j).startPos = some start ∧ start ≤ x}

/-- How the ranges of the sections lie; the root has none. -/
structure SpanLaw (o : Outline) : Prop where
  /-- No section ends before its start. -/
  ordered : ∀ i, 0 < i → i < o.size → ∃ start, (o.get i).startPos = some start ∧
    ∀ e, (o.get i).endPos = some e → start ≤ e
  /-- Two ranges meet just when one section lies above the other. -/
  meet : ∀ i j, 0 < i → i < o.size → 0 < j → j < o.size → i ≠ j →
    (((o.get i).range ∩ (o.get j).range).Nonempty ↔ o.IsAbove i j ∨ o.IsAbove j i)
  /-- The section above holds all of the range of the other. -/
  contained : ∀ i j, 0 < i → j < o.size → o.IsAbove i j → (o.get j).range ⊆ (o.get i).range
  /-- A section ends right before the one beside it. -/
  siblings : ∀ p before i j behind, (o.get p).children = before ++ i :: j :: behind →
    ∃ e, (o.get i).endPos = some e ∧ (o.get j).startPos = some (e + 1)
  /-- The deepest section around a position is the last that starts at or before it. -/
  deepest : ∀ first x, (o.get 1).startPos = some first → first ≤ x →
    ∃ i, IsGreatest (o.begunBy x) i ∧ x ∈ (o.get i).range ∧
      ∀ j, 0 < j → j < o.size → j ≠ i → x ∈ (o.get j).range →
        o.IsAbove j i ∧ (o.get j).level < (o.get i).level

/-- The sections start at `start`, one behind the other, and end as they should. -/
structure Starts (o : Outline) (start : Nat → Nat) : Prop where
  startPos : ∀ i, 0 < i → i < o.size → (o.get i).startPos = some (start i)
  lt : ∀ i j, 0 < i → i < j → j < o.size → start i < start j
  ended : ∀ i < o.size, EndsAt o.nodes i (o.get i).endPos

section Ranges

variable {o : Outline} {start : Nat → Nat}

/-- The sections start in their order. -/
theorem Starts.le_iff (h : Starts o start) {i j : Nat} (hi : 0 < i) (hio : i < o.size) (hj : 0 < j)
    (hjo : j < o.size) : start i ≤ start j ↔ i ≤ j := by
  constructor
  · intro hle
    by_contra hji
    have := h.lt j i hj (Nat.lt_of_not_le hji) hio
    omega
  · intro hij
    rcases Nat.eq_or_lt_of_le hij with rfl | hlt
    · exact le_rfl
    · exact (h.lt i j hi hlt hjo).le

/-- A section that ends does so right before the next one that does not lie deeper. -/
theorem Starts.end_eq (h : Starts o start) {i e : Nat} (hi : 0 < i) (hio : i < o.size)
    (he : (o.get i).endPos = some e) :
    ∃ j < o.size, Next o.nodes i j ∧ start j = e + 1 ∧ start i ≤ e := by
  have hend := h.ended i hio
  rw [he] at hend
  obtain ⟨j, next, hj, hnext, hstart, rfl⟩ := hend
  rw [length_nodes] at hj
  have hlt := h.lt i j hi hnext.1 hj
  have hsj : next = start j := by
    rw [nodeAt_nodes] at hstart
    exact Option.some.inj (hstart.symm.trans (h.startPos j (by have := hnext.1; omega) hj))
  have hsi : (nodeAt o.nodes i).startPos = some (start i) := by
    rw [nodeAt_nodes]
    exact h.startPos i hi hio
  have hbefore : endBefore next (nodeAt o.nodes i).startPos = start j - 1 := by
    rw [hsi, hsj]
    exact max_eq_left (by omega)
  rw [hbefore]
  exact ⟨j, hj, hnext, by omega, by omega⟩

/-- **A position lies in a section** when the section starts at or before it, and those
behind that do not lie deeper start behind it. -/
theorem Starts.mem_range (h : Starts o start) {i x : Nat} (hi : 0 < i) (hio : i < o.size) :
    x ∈ (o.get i).range ↔ start i ≤ x ∧
      ∀ j, i < j → j < o.size → (nodeAt o.nodes j).level ≤ (nodeAt o.nodes i).level →
        x < start j := by
  have hstart := h.startPos i hi hio
  constructor
  · rintro ⟨a, ha, hax, hxe⟩
    obtain rfl : a = start i := Option.some.inj (ha.symm.trans hstart)
    refine ⟨hax, fun j hij hj hle => ?_⟩
    cases he : (o.get i).endPos with
    | none =>
      have hdeep := h.ended i hio
      rw [he] at hdeep
      have := hdeep j hij (by rwa [length_nodes])
      omega
    | some e =>
      obtain ⟨k, hk, hnext, hek, -⟩ := h.end_eq hi hio he
      have hkj : k ≤ j := by
        by_contra hjk
        have := hnext.2.2 j hij (Nat.lt_of_not_le hjk)
        omega
      have hle := (h.le_iff (by have := hnext.1; omega) hk (by omega) hj).mpr hkj
      have := hxe e he
      omega
  · rintro ⟨hax, hbehind⟩
    refine ⟨start i, hstart, hax, fun e he => ?_⟩
    obtain ⟨k, hk, hnext, hek, -⟩ := h.end_eq hi hio he
    have := hbehind k hnext.1 hk hnext.2.1
    omega

theorem Starts.mem_begunBy (h : Starts o start) {x j : Nat} :
    j ∈ o.begunBy x ↔ 0 < j ∧ j < o.size ∧ start j ≤ x := by
  constructor
  · rintro ⟨hj, hjo, a, ha, hax⟩
    obtain rfl := Option.some.inj (ha.symm.trans (h.startPos j hj hjo))
    exact ⟨hj, hjo, hax⟩
  · rintro ⟨hj, hjo, hax⟩
    exact ⟨hj, hjo, _, h.startPos j hj hjo, hax⟩

/-- **A position lies in the sections that go on up to the last one begun.** -/
theorem Starts.mem_range_iff (h : Starts o start) {x k : Nat} (hk : IsGreatest (o.begunBy x) k)
    {i : Nat} (hi : 0 < i) (hio : i < o.size) :
    x ∈ (o.get i).range ↔ Encloses o.nodes i k := by
  obtain ⟨hkx, hlast⟩ := hk
  obtain ⟨hk0, hko, hkx⟩ := h.mem_begunBy.mp hkx
  rw [h.mem_range hi hio]
  constructor
  · rintro ⟨hix, hbehind⟩
    refine ⟨hlast (h.mem_begunBy.mpr ⟨hi, hio, hix⟩), fun m him hmk => ?_⟩
    by_contra hle
    have hxm := hbehind m him (by omega) (Nat.le_of_not_lt hle)
    have hmk' := (h.le_iff (by omega) (by omega) hk0 hko).mpr hmk
    omega
  · rintro ⟨hik, hdeep⟩
    refine ⟨((h.le_iff hi hio hk0 hko).mpr hik).trans hkx, fun j hij hj hle => ?_⟩
    by_contra hjx
    have hjk : j ≤ k := hlast (h.mem_begunBy.mpr ⟨by omega, hj, Nat.le_of_not_lt hjx⟩)
    have := hdeep j hij hjk
    omega

/-- A section is the last one begun at its start. -/
theorem Starts.isGreatest_start (h : Starts o start) {k : Nat} (hk : 0 < k) (hko : k < o.size) :
    IsGreatest (o.begunBy (start k)) k := by
  refine ⟨h.mem_begunBy.mpr ⟨hk, hko, le_rfl⟩, fun j hj => ?_⟩
  obtain ⟨hj0, hjo, hle⟩ := h.mem_begunBy.mp hj
  exact (h.le_iff hj0 hjo hk hko).mp hle

/-- Where a section has begun, some section is the last one begun. -/
theorem exists_isGreatest_begunBy {x i : Nat} (hi : i ∈ o.begunBy x) :
    ∃ k, IsGreatest (o.begunBy x) k := by
  have hbounded : BddAbove (o.begunBy x) := ⟨o.size, fun _ hj => hj.2.1.le⟩
  exact ⟨_, Nat.sSup_mem ⟨i, hi⟩ hbounded, fun _ hj => le_csSup hbounded hj⟩

theorem Starts.mem_begunBy_of_mem_range (h : Starts o start) {x i : Nat} (hi : 0 < i)
    (hio : i < o.size) (hx : x ∈ (o.get i).range) : i ∈ o.begunBy x :=
  h.mem_begunBy.mpr ⟨hi, hio, ((h.mem_range hi hio).mp hx).1⟩

/-- A section lies above another just when it is another one and goes on up to it. -/
theorem isAbove_iff {heads : List Call} (ht : Tree heads o.nodes) {a i : Nat} (hi : i < o.size) :
    o.IsAbove a i ↔ a ≠ i ∧ Encloses o.nodes a i := by
  unfold IsAbove
  simp only [sectionAbove?_eq]
  exact ht.encloses_iff (by rwa [length_nodes])

/-! ### The law -/

/-- Ranges of two sections meet just when one section lies above the other. -/
theorem Starts.meet_iff {heads : List Call} (h : Starts o start) (ht : Tree heads o.nodes)
    {i j : Nat} (hi : 0 < i) (hio : i < o.size) (hj : 0 < j) (hjo : j < o.size) (hne : i ≠ j) :
    ((o.get i).range ∩ (o.get j).range).Nonempty ↔ o.IsAbove i j ∨ o.IsAbove j i := by
  rw [isAbove_iff ht hjo, isAbove_iff ht hio]
  constructor
  · rintro ⟨x, hxi, hxj⟩
    obtain ⟨k, hk⟩ := exists_isGreatest_begunBy (h.mem_begunBy_of_mem_range hi hio hxi)
    have hik := (h.mem_range_iff hk hi hio).mp hxi
    have hjk := (h.mem_range_iff hk hj hjo).mp hxj
    rcases Nat.le_total i j with hij | hji
    · exact .inl ⟨hne, hik.mono hij hjk.1⟩
    · exact .inr ⟨hne.symm, hjk.mono hji hik.1⟩
  · -- the start of the lower section lies in both ranges
    have hboth : ∀ {i j : Nat}, 0 < i → i < o.size → 0 < j → j < o.size → Encloses o.nodes i j →
        start j ∈ (o.get i).range ∧ start j ∈ (o.get j).range := fun hi hio hj hjo hij =>
      have hk := h.isGreatest_start hj hjo
      ⟨(h.mem_range_iff hk hi hio).mpr hij, (h.mem_range_iff hk hj hjo).mpr (.refl _ _)⟩
    rintro (⟨-, hij⟩ | ⟨-, hji⟩)
    · exact ⟨start j, hboth hi hio hj hjo hij⟩
    · exact ⟨start i, (hboth hj hjo hi hio hji).symm⟩

/-- The section above holds all of the range of the other. -/
theorem Starts.range_subset {heads : List Call} (h : Starts o start) (ht : Tree heads o.nodes)
    {i j : Nat} (hi : 0 < i) (hjo : j < o.size) (ha : o.IsAbove i j) :
    (o.get j).range ⊆ (o.get i).range := by
  obtain ⟨-, hij⟩ := (isAbove_iff ht hjo).mp ha
  have hio : i < o.size := hij.1.trans_lt hjo
  have hj : 0 < j := hi.trans_le hij.1
  intro x hx
  obtain ⟨k, hk⟩ := exists_isGreatest_begunBy (h.mem_begunBy_of_mem_range hj hjo hx)
  exact (h.mem_range_iff hk hi hio).mpr (hij.trans ((h.mem_range_iff hk hj hjo).mp hx))

/-- A section beside another one is the next that does not lie deeper. -/
theorem Tree.next_of_children {heads : List Call} (ht : Tree heads o.nodes) {p i j : Nat}
    {before behind : List Nat} (hc : (o.get p).children = before ++ i :: j :: behind) :
    0 < i ∧ j < o.size ∧ Next o.nodes i j := by
  rw [← nodeAt_children] at hc
  have hmem : ∀ m, m ∈ before ++ i :: j :: behind ↔
      m < o.nodes.length ∧ (nodeAt o.nodes m).parent = some p := fun m => by
    rw [← hc, ht.mem_children]
  have hsorted : (before ++ i :: j :: behind).Pairwise (· < ·) := hc ▸ ht.sorted_children p
  obtain ⟨hi, hip⟩ := (hmem i).mp (by simp)
  obtain ⟨hj, hjp⟩ := (hmem j).mp (by simp)
  obtain ⟨hpi, hli, -⟩ := ht.below_of_parent hi hip
  obtain ⟨hpj, hlj, hbelow⟩ := ht.below_of_parent hj hjp
  obtain ⟨-, hrest, hbefore⟩ := List.pairwise_append.mp hsorted
  obtain ⟨hbehind_i, hrest⟩ := List.pairwise_cons.mp hrest
  obtain ⟨hbehind_j, -⟩ := List.pairwise_cons.mp hrest
  have hij : i < j := hbehind_i j List.mem_cons_self
  rw [length_nodes] at hj
  refine ⟨by omega, hj, hij, by omega, fun m him hmj => ?_⟩
  by_contra hle
  -- a section between them that lies no deeper would hang below `p` too
  have hlm := hbelow m (by omega) hmj
  have hm : m < o.nodes.length := by rw [length_nodes]; omega
  obtain ⟨q, hq, hbq⟩ := ht.below m (by omega) hm
  have hbp : Below o.nodes (nodeAt o.nodes m).level p m :=
    ⟨by omega, by omega, fun l h1 h2 => by have := hbelow l h1 (by omega); omega⟩
  obtain rfl := hbq.unique hbp
  rcases List.mem_append.mp ((hmem m).mpr ⟨hm, hq⟩) with hmb | hmb
  · have := hbefore m hmb i List.mem_cons_self
    omega
  · rcases List.mem_cons.mp hmb with rfl | hmb
    · omega
    · rcases List.mem_cons.mp hmb with rfl | hmb
      · omega
      · have := hbehind_j m hmb
        omega

/-- A section ends right before the one beside it. -/
theorem Starts.end_of_next (h : Starts o start) {i j : Nat} (hi : 0 < i) (hjo : j < o.size)
    (hnext : Next o.nodes i j) :
    ∃ e, (o.get i).endPos = some e ∧ (o.get j).startPos = some (e + 1) := by
  have hio : i < o.size := hnext.1.trans hjo
  cases he : (o.get i).endPos with
  | none =>
    have hdeep := h.ended i hio
    rw [he] at hdeep
    have h1 := hdeep j hnext.1 (by rwa [length_nodes])
    have h2 := hnext.2.1
    omega
  | some e =>
    obtain ⟨k, hk, hnext', hek, -⟩ := h.end_eq hi hio he
    obtain rfl := hnext'.unique hnext
    exact ⟨e, rfl, by rw [← hek]; exact h.startPos k (hi.trans hnext'.1) hk⟩

/-- The deepest section around a position is the last one begun. -/
theorem Starts.deepest {heads : List Call} (h : Starts o start) (ht : Tree heads o.nodes)
    {x i : Nat} (hi : IsGreatest (o.begunBy x) i) :
    x ∈ (o.get i).range ∧ ∀ j, 0 < j → j < o.size → j ≠ i → x ∈ (o.get j).range →
      o.IsAbove j i ∧ (o.get j).level < (o.get i).level := by
  obtain ⟨hi0, hio, -⟩ := h.mem_begunBy.mp hi.1
  refine ⟨(h.mem_range_iff hi hi0 hio).mpr (.refl _ _), fun j hj hjo hne hx => ?_⟩
  have hji : Encloses o.nodes j i := (h.mem_range_iff hi hj hjo).mp hx
  have hlevel := hji.2 i (Nat.lt_of_le_of_ne hji.1 hne) le_rfl
  rw [nodeAt_nodes, nodeAt_nodes] at hlevel
  exact ⟨(isAbove_iff ht hio).mpr ⟨hne, hji⟩, hlevel⟩

/-- Sections that start one behind the other obey the law. -/
theorem SpanLaw.of_starts {heads : List Call} (h : Starts o start) (ht : Tree heads o.nodes) :
    SpanLaw o where
  ordered := fun i hi hio => ⟨start i, h.startPos i hi hio, fun e he => by
    obtain ⟨-, -, -, -, hle⟩ := h.end_eq hi hio he
    exact hle⟩
  meet := fun i j hi hio hj hjo hne => h.meet_iff ht hi hio hj hjo hne
  contained := fun i j hi hjo ha => h.range_subset ht hi hjo ha
  siblings := fun p before i j behind hc => by
    obtain ⟨hi, hjo, hnext⟩ := ht.next_of_children hc
    exact h.end_of_next hi hjo hnext
  deepest := fun first x hfirst hx => by
    have h1 : 1 < o.size := by
      by_contra hle
      rw [get_eq_root (Nat.le_of_not_lt hle)] at hfirst
      cases hfirst
    obtain ⟨i, hi⟩ := exists_isGreatest_begunBy (o := o) (x := x)
      ⟨Nat.one_pos, h1, first, hfirst, hx⟩
    exact ⟨i, hi, h.deepest ht hi⟩

end Ranges

/-- Every section starts where its heading does. -/
theorem Starts.of_tree {heads : List Call} {o : Outline} (ht : Tree heads o.nodes)
    {starts : List Nat} (hstarts : heads.map Call.startPos = starts.map some)
    (hlt : starts.Pairwise (· < ·)) (hended : ∀ i < o.size, EndsAt o.nodes i (o.get i).endPos) :
    Starts o fun i => starts.getD (i - 1) 0 := by
  have hheads : heads.length = starts.length := by
    simpa using congrArg List.length hstarts
  have hsize : o.size = starts.length + 1 := by
    rw [ht.size, hheads]
  have hget : ∀ k, (hk : k < starts.length) → starts.getD k 0 = starts[k] := fun k hk =>
    List.getD_eq_getElem _ _ hk
  refine ⟨fun i hi hio => ?_, fun i j hi hij hjo => ?_, hended⟩
  · obtain ⟨k, rfl⟩ : ∃ k, i = k + 1 := ⟨i - 1, by omega⟩
    have hk : k < heads.length := by omega
    have hfrom := (ht.isFrom k _ (List.getElem?_eq_getElem hk)).2.2.1
    have hcall : heads[k].startPos = some starts[k] := by
      have h := List.getElem_of_eq hstarts (i := k) (by simpa using hk)
      rwa [List.getElem_map, List.getElem_map] at h
    rw [nodeAt_nodes] at hfrom
    rw [Nat.add_sub_cancel, hget k (by omega), ← hcall]
    exact hfrom
  · show starts.getD (i - 1) 0 < starts.getD (j - 1) 0
    rw [hget _ (by omega), hget _ (by omega)]
    exact List.pairwise_iff_getElem.mp hlt _ _ _ _ (by omega)

/-- **The ranges of the sections** nest like the sections, in every build of a page whose
sections all have a start, each behind the one before. -/
theorem spanLaw_of_build {σ : Type} {strictness : Strictness} {sink : Option (MetadataSink σ)}
    {calls : List Call} {s s' : σ} {o : Outline}
    (h : buildWith strictness sink calls s = .ok (o, s')) {starts : List Nat}
    (hstarts : (startingCalls {} calls).map Call.startPos = starts.map some)
    (hlt : starts.Pairwise (· < ·)) : SpanLaw o := by
  obtain ⟨ht, -⟩ := buildWith_sound h
  have hsome : ∀ c ∈ startingCalls {} calls, c.startPos ≠ none := fun c hc hnone => by
    have hmem : c.startPos ∈ starts.map some := hstarts ▸ List.mem_map_of_mem hc
    rw [hnone] at hmem
    obtain ⟨a, -, ha⟩ := List.mem_map.mp hmem
    cases ha
  exact .of_starts (.of_tree ht hstarts hlt (buildWith_ended h hsome)) ht

/-- A page with two sections side by side, the first with one below it. -/
def positioned : List Call :=
  let heading (level : Int64) (start : Nat) : Call :=
    (((Call.special (.heading .atx)).withContext Call.outlineContext).withAttribute
      levelAttribute (.int level)).withSpan start (start + 9)
  [heading 1 0, Call.text "Above", heading 2 50, Call.text "Below", heading 1 100,
    Call.text "Beside"]

theorem spanLaw_of_positioned :
    ∃ o, buildWith .lenient (none : Option (MetadataSink Unit)) positioned () = .ok (o, ()) ∧
      (startingCalls {} positioned).map Call.startPos = [0, 50, 100].map some ∧
      [0, 50, 100].Pairwise (· < ·) ∧ (o.get 0).children = [1, 3] ∧
      (o.get 1).endPos = some 99 ∧ (o.get 2).endPos = some 99 ∧ (o.get 3).endPos = none ∧
      SpanLaw o := by
  have hb : buildWith .lenient (none : Option (MetadataSink Unit)) positioned () =
      .ok (_, ()) := rfl
  have hstarts : (startingCalls {} positioned).map Call.startPos = [0, 50, 100].map some := rfl
  have hlt : [0, 50, 100].Pairwise (· < ·) := by decide
  exact ⟨_, hb, hstarts, hlt, rfl, rfl, rfl, rfl, spanLaw_of_build hb hstarts hlt⟩

end Outline

end WikiOutline
