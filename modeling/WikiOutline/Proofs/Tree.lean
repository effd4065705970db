/-
# The tree of the sections

Sections are numbered in the order of their headings, and each hangs below the
last one before it that lies higher, which lies exactly one level higher.  So
the tree is known from the levels alone, and going up from a section by some
steps lands that many levels higher.

Key definitions: `Outline.Node`, `Outline.Below`, `Outline.Tree`, `Outline.grow`,
`Outline.ancestor?`.
Key theorems: `Tree.grow`, `Tree.exists_ancestor`, `Below.isGreatest`.
-/
import WikiOutline.Proofs.Reading

namespace WikiOutline

namespace Outline

open Builder

/-- What the tree knows of a section. -/
structure Node where
  level : Nat
  declaredLevel : Nat
  parent : Option Nat
  children : List Nat
  startPos : Option Nat
  /-- The first call of the heading. -/
  lead : Option Call

end Outline

/-- What the tree knows of the section. -/
def Section.node (s : Section) : Outline.Node :=
  ⟨s.level, s.declaredLevel, s.parent, s.children, s.startPos, s.headingCalls.head?⟩

namespace Outline

open Builder

/-- The node of a number. -/
def nodeAt (ns : List Node) (i : Nat) : Node := ns.getD i Section.root.node

/-- The nodes of the sections of an outline. -/
def nodes (o : Outline) : List Node := o.sections.map Section.node

theorem nodeAt_map_node (ss : List Section) (i : Nat) :
    nodeAt (ss.map Section.node) i = (ss.getD i .root).node := by
  simp only [nodeAt, List.getD_eq_getElem?_getD, List.getElem?_map]
  cases ss[i]? <;> rfl

theorem nodeAt_nodes (o : Outline) (i : Nat) : nodeAt o.nodes i = (o.get i).node :=
  nodeAt_map_node o.sections i

theorem nodeAt_children (o : Outline) (i : Nat) :
    (nodeAt o.nodes i).children = (o.get i).children := by
  rw [nodeAt_nodes]
  rfl

theorem length_nodes (o : Outline) : o.nodes.length = o.size := List.length_map _

theorem get_mem {o : Outline} {i : Nat} (h : i < o.size) : o.get i ∈ o.sections := by
  rw [Outline.get, List.getD_eq_getElem _ _ h]
  exact List.getElem_mem h

/-- A number without a section gives the shape of the root. -/
theorem get_eq_root {o : Outline} {i : Nat} (h : o.size ≤ i) : o.get i = .root :=
  List.getD_eq_default _ _ h

/-- Section `p` is the last before number `i` to lie above `level`, and lies right
above it. -/
def Below (ns : List Node) (level p i : Nat) : Prop :=
  p < i ∧ (nodeAt ns p).level + 1 = level ∧ ∀ j, p < j → j < i → level ≤ (nodeAt ns j).level

/-- What a heading call behind a section of level `previous` makes of its own
section. -/
def Node.IsFrom (n : Node) (previous : Nat) (c : Call) : Prop :=
  n.declaredLevel = levelRead previous c ∧ n.level = effectiveLevel previous c ∧
    n.startPos = c.startPos ∧
    n.lead = some (leveled c (levelRead previous c) (effectiveLevel previous c))

/-- The nodes are the tree of the sections that the heading calls begin. -/
structure Tree (heads : List Call) (ns : List Node) : Prop where
  length : ns.length = heads.length + 1
  rootLevel : (nodeAt ns 0).level = 0
  rootParent : (nodeAt ns 0).parent = none
  rootLead : (nodeAt ns 0).lead = none
  isFrom : ∀ i c, heads[i]? = some c → (nodeAt ns (i + 1)).IsFrom (nodeAt ns i).level c
  below : ∀ i, 0 < i → i < ns.length →
    ∃ p, (nodeAt ns i).parent = some p ∧ Below ns (nodeAt ns i).level p i
  children : ∀ p, (nodeAt ns p).children =
    (List.range ns.length).filter fun i => (nodeAt ns i).parent = some p

/-- The sections are the root and those of the headings. -/
theorem Tree.size {heads : List Call} {o : Outline} (h : Tree heads o.nodes) :
    o.size = heads.length + 1 := by
  rw [← length_nodes, h.length]

theorem Tree.size_pos {heads : List Call} {o : Outline} (h : Tree heads o.nodes) : 0 < o.size := by
  rw [h.size]
  exact Nat.succ_pos _

theorem nodeAt_of_length_le {ns : List Node} {i : Nat} (h : ns.length ≤ i) :
    nodeAt ns i = Section.root.node := by
  simp [nodeAt, List.getElem?_eq_none h]

/-- The subsections of a section are those that it is the parent of. -/
theorem Tree.mem_children {heads : List Call} {ns : List Node} (h : Tree heads ns) {i j : Nat} :
    j ∈ (nodeAt ns i).children ↔ j < ns.length ∧ (nodeAt ns j).parent = some i := by
  rw [h.children i, List.mem_filter, List.mem_range, decide_eq_true_eq]

theorem Tree.sorted_children {heads : List Call} {ns : List Node} (h : Tree heads ns) (i : Nat) :
    (nodeAt ns i).children.Pairwise (· < ·) := by
  rw [h.children i]
  exact List.pairwise_lt_range.filter _

/-! ### The parent by the levels -/

/-- The parent is the nearest section above. -/
theorem Below.isGreatest {ns : List Node} {p i : Nat} (h : Below ns (nodeAt ns i).level p i) :
    IsGreatest {j | j < i ∧ (nodeAt ns j).level < (nodeAt ns i).level} p := by
  obtain ⟨hp, hl, hb⟩ := h
  refine ⟨⟨hp, by omega⟩, fun j hj => ?_⟩
  by_contra hpj
  have h1 := hb j (by omega) hj.1
  have h2 := hj.2
  omega

theorem Below.unique {ns : List Node} {l p q i : Nat} (hp : Below ns l p i) (hq : Below ns l q i) :
    p = q := by
  obtain ⟨h1, h2, h3⟩ := hp
  obtain ⟨k1, k2, k3⟩ := hq
  rcases Nat.lt_trichotomy p q with h | h | h
  · have := h3 q h k1
    omega
  · exact h
  · have := k3 p h h1
    omega

/-- A section comes behind its parent. -/
theorem Tree.below_of_parent {heads : List Call} {ns : List Node} (h : Tree heads ns) {i p : Nat}
    (hi : i < ns.length) (hp : (nodeAt ns i).parent = some p) :
    Below ns (nodeAt ns i).level p i := by
  rcases Nat.eq_zero_or_pos i with rfl | h0
  · rw [h.rootParent] at hp
    cases hp
  · obtain ⟨q, hq, hb⟩ := h.below i h0 hi
    rw [hp] at hq
    rw [Option.some.inj hq]
    exact hb

/-- Only the root has no parent. -/
theorem Tree.parent_eq_none {heads : List Call} {ns : List Node} (h : Tree heads ns) {i : Nat}
    (hi : i < ns.length) : (nodeAt ns i).parent = none ↔ i = 0 := by
  constructor
  · intro hp
    by_contra h0
    obtain ⟨p, hp', -⟩ := h.below i (Nat.pos_of_ne_zero h0) hi
    rw [hp] at hp'
    cases hp'
  · rintro rfl
    exact h.rootParent

/-- Only the first section is the root. -/
theorem Tree.isRoot {heads : List Call} {o : Outline} (h : Tree heads o.nodes) {i : Nat}
    (hi : i < o.size) : (o.get i).isRoot = (i == 0) := by
  have hp := h.parent_eq_none (i := i) (by rw [length_nodes]; exact hi)
  rw [nodeAt_nodes] at hp
  show (o.get i).node.parent.isNone = _
  rw [Bool.eq_iff_iff, Option.isNone_iff_eq_none, hp, beq_iff_eq]

/-- The section some steps further up. -/
def ancestor? (ns : List Node) : Nat → Nat → Option Nat
  | 0, i => some i
  | steps + 1, i => (nodeAt ns i).parent.bind (ancestor? ns steps)

/-- Each step up is one level, and what is passed over lies below. -/
theorem Tree.exists_ancestor {heads : List Call} {ns : List Node} (h : Tree heads ns) :
    ∀ steps i, i < ns.length → steps ≤ (nodeAt ns i).level →
      ∃ a, ancestor? ns steps i = some a ∧ a ≤ i ∧
        (nodeAt ns a).level + steps = (nodeAt ns i).level ∧
        ∀ j, a < j → j ≤ i → (nodeAt ns a).level < (nodeAt ns j).level
  | 0, i, _, _ => ⟨i, rfl, le_rfl, rfl, fun j h1 h2 => by omega⟩
  | steps + 1, i, hi, hs => by
    have h0 : 0 < i := by
      rcases Nat.eq_zero_or_pos i with rfl | h0
      · rw [h.rootLevel] at hs; omega
      · exact h0
    obtain ⟨p, hp, hpi, hl, hb⟩ := h.below i h0 hi
    obtain ⟨a, ha, hap, hal, hab⟩ := h.exists_ancestor steps p (by omega) (by omega)
    refine ⟨a, by simp [ancestor?, hp, ha], by omega, by omega, fun j h1 h2 => ?_⟩
    rcases Nat.lt_or_ge p j with hj | hj
    · rcases Nat.eq_or_lt_of_le h2 with rfl | h2
      · omega
      · have := hb j hj h2
        omega
    · exact hab j h1 hj

/-- Where a new section at `level` hangs: as many steps above the last section as
the levels say. -/
theorem Tree.exists_below {heads : List Call} {ns : List Node} (h : Tree heads ns) {level : Nat}
    (h1 : 1 ≤ level) (h2 : level ≤ (nodeAt ns heads.length).level + 1) :
    ∃ p, ancestor? ns ((nodeAt ns heads.length).level + 1 - level) heads.length = some p ∧
      Below ns level p ns.length := by
  have hlen := h.length
  obtain ⟨p, hp, hle, hl, hb⟩ := h.exists_ancestor
    ((nodeAt ns heads.length).level + 1 - level) heads.length (by omega) (by omega)
  refine ⟨p, hp, by omega, by omega, fun j hj hjn => ?_⟩
  have := hb j hj (by omega)
  omega

/-! ### A new section -/

/-- The nodes with a new one below `p`. -/
def grow (ns : List Node) (p : Nat) (n : Node) : List Node :=
  (ns.modify p fun q => { q with children := q.children ++ [ns.length] }) ++ [n]

theorem length_grow (ns : List Node) (p : Nat) (n : Node) :
    (grow ns p n).length = ns.length + 1 := by
  simp [grow]

theorem nodeAt_grow_last (ns : List Node) (p : Nat) (n : Node) :
    nodeAt (grow ns p n) ns.length = n := by
  simp [nodeAt, grow]

theorem nodeAt_grow {ns : List Node} {p i : Nat} (n : Node) (hp : p < ns.length)
    (hi : i ≠ ns.length) :
    nodeAt (grow ns p n) i =
      if i = p then { nodeAt ns i with children := (nodeAt ns i).children ++ [ns.length] }
      else nodeAt ns i := by
  rcases Nat.lt_or_gt_of_ne hi with h | h
  · have hg : (grow ns p n)[i]? =
        (ns.modify p fun q => { q with children := q.children ++ [ns.length] })[i]? := by
      rw [grow, List.getElem?_append_left (by simpa using h)]
    simp only [nodeAt, List.getD_eq_getElem?_getD, hg, List.getElem?_modify]
    rw [List.getElem?_eq_getElem h]
    by_cases hip : i = p
    · simp [hip]
    · simp [hip, Ne.symm hip]
  · rw [nodeAt_of_length_le (by rw [length_grow]; omega), nodeAt_of_length_le (by omega),
      if_neg (by omega)]

/-- All but the children are as before. -/
theorem nodeAt_grow_eq {ns : List Node} {p i : Nat} (n : Node) (hp : p < ns.length)
    (hi : i ≠ ns.length) :
    (nodeAt (grow ns p n) i).level = (nodeAt ns i).level ∧
      (nodeAt (grow ns p n) i).parent = (nodeAt ns i).parent ∧
      (nodeAt (grow ns p n) i).lead = (nodeAt ns i).lead ∧
      ∀ previous c, (nodeAt (grow ns p n) i).IsFrom previous c ↔
        (nodeAt ns i).IsFrom previous c := by
  rw [nodeAt_grow n hp hi]
  split <;> exact ⟨rfl, rfl, rfl, fun _ _ => Iff.rfl⟩

theorem Below.grow {ns : List Node} {l p q i : Nat} (n : Node) (hp : p < ns.length)
    (hi : i ≤ ns.length) (h : Below ns l q i) : Below (grow ns p n) l q i := by
  obtain ⟨h1, h2, h3⟩ := h
  refine ⟨h1, ?_, fun j hj hji => ?_⟩
  · rw [(nodeAt_grow_eq n hp (by omega)).1]
    exact h2
  · rw [(nodeAt_grow_eq n hp (by omega)).1]
    exact h3 j hj hji

/-- The tree of no heading is the root. -/
theorem tree_root : Tree [] [Section.root.node] where
  length := rfl
  rootLevel := rfl
  rootParent := rfl
  rootLead := rfl
  isFrom := fun i c h => by simp at h
  below := fun i h0 hi => by simp at hi; omega
  children := fun p => by
    have h : ∀ i, (nodeAt [Section.root.node] i).parent = none := fun i => by
      cases i <;> rfl
    have hc : (nodeAt [Section.root.node] p).children = [] := by cases p <;> rfl
    simp [h, hc]

/-- A new section below the nearest one above it keeps the tree. -/
theorem Tree.grow {heads : List Call} {ns : List Node} (h : Tree heads ns) {c : Call} {p : Nat}
    {n : Node} (hn : n.IsFrom (nodeAt ns heads.length).level c) (hpar : n.parent = some p)
    (hch : n.children = []) (hb : Below ns n.level p ns.length) :
    Tree (heads ++ [c]) (grow ns p n) := by
  have hp : p < ns.length := hb.1
  have hlen := h.length
  constructor
  · rw [length_grow, h.length, List.length_append, List.length_singleton]
  · rw [(nodeAt_grow_eq n hp (by omega)).1]
    exact h.rootLevel
  · rw [(nodeAt_grow_eq n hp (by omega)).2.1]
    exact h.rootParent
  · rw [(nodeAt_grow_eq n hp (by omega)).2.2.1]
    exact h.rootLead
  · intro i d hd
    rcases Nat.lt_or_ge i heads.length with hi | hi
    · rw [List.getElem?_append_left hi] at hd
      rw [(nodeAt_grow_eq n hp (by omega)).1, (nodeAt_grow_eq n hp (by omega)).2.2.2]
      exact h.isFrom i d hd
    · have hie : i = heads.length := by
        have := (List.getElem?_eq_some_iff.mp hd).1
        simp only [List.length_append, List.length_singleton] at this
        omega
      subst hie
      simp only [List.getElem?_concat_length, Option.some.injEq] at hd
      subst hd
      rw [(nodeAt_grow_eq n hp (by omega)).1, ← hlen, nodeAt_grow_last]
      exact hn
  · intro i h0 hi
    rw [length_grow] at hi
    rcases Nat.eq_or_lt_of_le (Nat.le_of_lt_succ hi) with rfl | hi
    · rw [nodeAt_grow_last]
      exact ⟨p, hpar, hb.grow n hp le_rfl⟩
    · obtain ⟨e1, e2, -⟩ := nodeAt_grow_eq n hp (Nat.ne_of_lt hi)
      obtain ⟨q, hq, hbq⟩ := h.below i h0 hi
      rw [e1, e2]
      exact ⟨q, hq, hbq.grow n hp hi.le⟩
  · intro q
    have hold : (List.range ns.length).filter
          (fun i => (nodeAt (Outline.grow ns p n) i).parent = some q) =
        (List.range ns.length).filter fun i => (nodeAt ns i).parent = some q :=
      List.filter_congr fun i hi => by
        rw [(nodeAt_grow_eq n hp (Nat.ne_of_lt (List.mem_range.mp hi))).2.1]
    rw [length_grow, List.range_succ, List.filter_append, hold, ← h.children q]
    simp only [List.filter_cons, List.filter_nil, nodeAt_grow_last, hpar, Option.some.injEq,
      decide_eq_true_eq]
    rcases eq_or_ne q ns.length with rfl | hq
    · rw [nodeAt_grow_last, hch, if_neg (by omega), nodeAt_of_length_le le_rfl]
      rfl
    · rw [nodeAt_grow n hp hq]
      by_cases hqp : q = p
      · simp [hqp]
      · simp [hqp, Ne.symm hqp]

end Outline

end WikiOutline
