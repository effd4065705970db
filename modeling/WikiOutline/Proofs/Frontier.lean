/-
# The order in which the tree is walked

A walk that puts the subsections of what it visits before all else to come meets
the sections in the order of their numbers.  Before section `i` there are still to
come the sections that hang before `i` and are not before `i` themselves
(`Outline.frontier`); section `i` is the first of them, and its subsections come
before the rest (`Tree.frontier_cons`).

From a section behind which all lie deeper, the way down over last subsections leads to the
last section (`Tree.lastBelow_eq`).

Key definition: `Outline.frontier`.
Key theorems: `Tree.frontier_cons`, `Outline.preOrder_eq`, `Tree.lastSection_eq`.
-/
import WikiOutline.Outline.Walk
import WikiOutline.Proofs.Tree

namespace WikiOutline

namespace Outline

/-- Two filters that pick different parts, the first one before the second. -/
theorem filter_append_filter {α : Type} (p q : α → Bool) :
    ∀ l : List α, (∀ x ∈ l, ¬ (p x = true ∧ q x = true)) →
      l.Pairwise (fun x y => q x = true → p y = false) →
      l.filter p ++ l.filter q = l.filter fun x => p x || q x
  | [], _, _ => rfl
  | x :: l, hd, hl => by
    obtain ⟨hx, hl⟩ := List.pairwise_cons.mp hl
    have ih := filter_append_filter p q l (fun y hy => hd y (List.mem_cons_of_mem x hy)) hl
    cases hp : p x with
    | true =>
      have hq : q x = false := by
        have := hd x List.mem_cons_self
        simp_all
      simp only [List.filter_cons, hp, hq, Bool.true_or, Bool.false_eq_true, ↓reduceIte,
        List.cons_append, ih]
    | false =>
      cases hq : q x with
      | true =>
        -- nothing of the first part comes behind `x`
        have hnone : l.filter p = [] := List.filter_eq_nil_iff.mpr fun y hy => by
          rw [hx y hy hq]
          exact Bool.false_ne_true
        rw [hnone, List.nil_append] at ih
        simp only [List.filter_cons, hp, hq, hnone, Bool.false_or, Bool.false_eq_true, ↓reduceIte,
          List.nil_append, ih]
      | false =>
        simp only [List.filter_cons, hp, hq, Bool.or_self, Bool.false_eq_true, ↓reduceIte, ih]

/-- The section hangs below one before number `i`, or is the root. -/
def hangsBefore (ns : List Node) (i j : Nat) : Bool := (nodeAt ns j).parent.all (· < i)

/-- The sections still to come before section `i` is visited. -/
def frontier (ns : List Node) (i : Nat) : List Nat :=
  (List.range ns.length).filter fun j => decide (i ≤ j) && hangsBefore ns i j

theorem frontier_length (ns : List Node) : frontier ns ns.length = [] :=
  List.filter_eq_nil_iff.mpr fun j hj => by
    have := List.mem_range.mp hj
    simp [this]

/-- In the beginning there is only the root. -/
theorem Tree.frontier_zero {heads : List Call} {ns : List Node} (h : Tree heads ns) :
    frontier ns 0 = [0] := by
  have hlen := h.length
  have hroot : frontier ns 0 = (List.range ns.length).filter (· == 0) := by
    refine List.filter_congr fun j hj => ?_
    have hnone := h.parent_eq_none (List.mem_range.mp hj)
    cases hp : (nodeAt ns j).parent with
    | none => simp [hangsBefore, hnone.mp hp, h.rootParent]
    | some p =>
      have h0 : j ≠ 0 := fun h0 => by
        rw [hnone.mpr h0] at hp
        cases hp
      simp [hangsBefore, hp, h0]
  rw [hroot, List.filter_beq, List.count_eq_one_of_mem List.nodup_range (by simp [hlen])]
  rfl

/-- A section hangs before itself. -/
theorem Tree.hangsBefore_self {heads : List Call} {ns : List Node} (h : Tree heads ns) {i : Nat}
    (hi : i < ns.length) : hangsBefore ns i i = true := by
  cases hp : (nodeAt ns i).parent with
  | none => simp [hangsBefore, hp]
  | some p => simp [hangsBefore, hp, (h.below_of_parent hi hp).1]

/-- A subsection of `i` comes before what hangs before `i`. -/
theorem Tree.child_lt {heads : List Call} {ns : List Node} (h : Tree heads ns) {i j c : Nat}
    (hi : i < j) (hj : j < ns.length) (hc : c < ns.length) (hjb : hangsBefore ns i j = true)
    (hci : (nodeAt ns c).parent = some i) : c < j := by
  obtain ⟨p, hp, hpj, hpl, hpb⟩ := h.below j (by omega) hj
  obtain ⟨hic, hil, hib⟩ := h.below_of_parent hc hci
  have hpi : p < i := by simpa [hangsBefore, hp] using hjb
  rcases Nat.lt_trichotomy c j with hcj | rfl | hcj
  · exact hcj
  · rw [hci] at hp
    have := Option.some.inj hp
    omega
  · -- `j` lies between its parent and the subsection of `i`, so below both
    have h1 := hib j hi hcj
    have h2 := hpb i hpi hi
    omega

/-- **The next section** is the first to come; its subsections and what else is to
come are what is to come behind it. -/
theorem Tree.frontier_cons {heads : List Call} {ns : List Node} (h : Tree heads ns) {i : Nat}
    (hi : i < ns.length) :
    ∃ rest, frontier ns i = i :: rest ∧ (nodeAt ns i).children ++ rest = frontier ns (i + 1) := by
  refine ⟨(List.range ns.length).filter fun j => decide (i < j) && hangsBefore ns i j, ?_, ?_⟩
  · have hself : (List.range ns.length).filter (· == i) = [i] := by
      rw [List.filter_beq, List.count_eq_one_of_mem List.nodup_range (List.mem_range.mpr hi)]
      rfl
    have hsplit := filter_append_filter (fun j => j == i)
      (fun j => decide (i < j) && hangsBefore ns i j) (List.range ns.length)
      (fun j _ hj => by simp at hj; omega)
      (List.pairwise_lt_range.imp fun hxy hx => by simp at hx; simp; omega)
    rw [hself] at hsplit
    rw [frontier, ← List.singleton_append, hsplit]
    refine List.filter_congr fun j _ => ?_
    rcases Nat.lt_trichotomy i j with hij | rfl | hij
    · simp [hij, hij.le, Nat.ne_of_gt hij]
    · simp [h.hangsBefore_self hi]
    · simp [Nat.not_le.mpr hij, Nat.not_lt.mpr hij.le, Nat.ne_of_lt hij]
  · rw [h.children i, filter_append_filter]
    · refine List.filter_congr fun j hj => ?_
      rw [List.mem_range] at hj
      cases hp : (nodeAt ns j).parent with
      | none => simp [(h.parent_eq_none hj).mp hp]
      | some p =>
        have hpj := (h.below_of_parent hj hp).1
        rw [Bool.eq_iff_iff]
        simp only [hangsBefore, hp, Option.all_some, Option.some.injEq, Bool.or_eq_true,
          Bool.and_eq_true, decide_eq_true_eq]
        omega
    · intro j _ hj
      simp only [decide_eq_true_eq, Bool.and_eq_true] at hj
      simp [hangsBefore, hj.1] at hj
    · refine List.Pairwise.imp_of_mem ?_ List.pairwise_lt_range
      intro x y hx hy hxy hq
      simp only [Bool.and_eq_true, decide_eq_true_eq] at hq
      by_contra hp
      have hp : (nodeAt ns y).parent = some i := by simpa using hp
      have := h.child_lt hq.1 (List.mem_range.mp hx) (List.mem_range.mp hy) hq.2 hp
      omega

/-- Nothing is to come behind the last section only. -/
theorem Tree.frontier_eq_nil {heads : List Call} {ns : List Node} (h : Tree heads ns) {i : Nat}
    (hi : i ≤ ns.length) : frontier ns i = [] ↔ i = ns.length := by
  constructor
  · intro he
    by_contra hne
    obtain ⟨rest, h1, -⟩ := h.frontier_cons (Nat.lt_of_le_of_ne hi hne)
    rw [he] at h1
    cases h1
  · rintro rfl
    exact frontier_length ns

/-! ### The walk -/

theorem preOrderFrom_frontier {heads : List Call} {o : Outline} (h : Tree heads o.nodes) :
    ∀ fuel i, i ≤ o.size → o.size ≤ fuel + i →
      o.preOrderFrom fuel (frontier o.nodes i) = List.range' i (o.size - i)
  | fuel, i, hi, hf => by
    have hsize : o.nodes.length = o.size := length_nodes o
    rcases Nat.eq_or_lt_of_le hi with rfl | hi
    · rw [← hsize, frontier_length, Nat.sub_self]
      cases fuel <;> rfl
    · obtain ⟨fuel, rfl⟩ : ∃ k, fuel = k + 1 := ⟨fuel - 1, by omega⟩
      obtain ⟨rest, h1, h2⟩ := h.frontier_cons (by omega : i < o.nodes.length)
      have ih := preOrderFrom_frontier h fuel (i + 1) hi (by omega)
      rw [nodeAt_nodes] at h2
      rw [h1, preOrderFrom, show o.size - i = (o.size - (i + 1)) + 1 by omega, List.range'_succ,
        ← ih, ← h2]
      rfl

/-- **Sections are visited in the order of their numbers.** -/
theorem preOrder_eq {heads : List Call} {o : Outline} (h : Tree heads o.nodes) :
    o.preOrder = List.range o.size := by
  have hp := preOrderFrom_frontier h o.size 0 (Nat.zero_le _) (Nat.le_add_right _ _)
  rw [h.frontier_zero, Nat.sub_zero] at hp
  rw [preOrder, hp, List.range_eq_range']

/-! ### The last section -/

/-- Below a section are those behind it that lie one level deeper, if all between lie deeper
too. -/
theorem Tree.parent_eq_some {heads : List Call} {ns : List Node} (h : Tree heads ns) {i j : Nat}
    (hij : i < j) (hj : j < ns.length)
    (hdeep : ∀ m, i < m → m ≤ j → (nodeAt ns i).level < (nodeAt ns m).level)
    (hlevel : (nodeAt ns j).level ≤ (nodeAt ns i).level + 1) : (nodeAt ns j).parent = some i := by
  obtain ⟨p, hp, hpj, hpl, hpb⟩ := h.below j (by omega) hj
  have hj' := hdeep j hij le_rfl
  rcases Nat.lt_trichotomy p i with hpi | rfl | hpi
  · have := hpb i hpi hij
    omega
  · exact hp
  · have := hdeep p hpi hpj.le
    omega

/-- The last subsection comes behind all others. -/
theorem Tree.le_of_getLast?_children {heads : List Call} {ns : List Node} (h : Tree heads ns)
    {i c j : Nat} (hc : (nodeAt ns i).children.getLast? = some c) (hj : j < ns.length)
    (hparent : (nodeAt ns j).parent = some i) : j ≤ c := by
  have hsorted := h.sorted_children i
  have hmem : j ∈ (nodeAt ns i).children := h.mem_children.mpr ⟨hj, hparent⟩
  obtain ⟨init, hinit⟩ := List.getLast?_eq_some_iff.mp hc
  rw [hinit] at hsorted hmem
  rcases List.mem_append.mp hmem with hmem | hmem
  · exact ((List.pairwise_append.mp hsorted).2.2 j hmem c (List.mem_singleton_self c)).le
  · exact (List.mem_singleton.mp hmem).le

/-- **The way down over last subsections** leads to the last section, from any section behind
which all lie deeper. -/
theorem Tree.lastBelow_eq {heads : List Call} {o : Outline} (h : Tree heads o.nodes) :
    ∀ fuel i, i < o.size → o.size ≤ fuel + i →
      (∀ j, i < j → j < o.size → (nodeAt o.nodes i).level < (nodeAt o.nodes j).level) →
      o.lastBelow fuel i = o.size - 1
  | 0, i, hi, hf, _ => by omega
  | fuel + 1, i, hi, hf, hdeep => by
    have hsize : o.nodes.length = o.size := length_nodes o
    have hchildren := nodeAt_children o i
    unfold lastBelow
    cases hlast : (o.get i).children.getLast? with
    | some c =>
      rw [← hchildren] at hlast
      obtain ⟨hc, hparent⟩ := h.mem_children.mp (List.mem_of_getLast? hlast)
      obtain ⟨hic, hlevel, -⟩ := h.below_of_parent hc hparent
      refine h.lastBelow_eq fuel c (by omega) (by omega) fun j hj hjs => ?_
      -- what is behind and not deeper would be a later subsection
      by_contra hle
      have hchild : (nodeAt o.nodes j).parent = some i :=
        h.parent_eq_some (by omega) (by omega) (fun m h1 h2 => hdeep m h1 (by omega)) (by omega)
      have := h.le_of_getLast?_children hlast (by omega) hchild
      omega
    | none =>
      have hnone : (nodeAt o.nodes i).children = [] := by
        rw [hchildren]
        exact List.getLast?_eq_none_iff.mp hlast
      show i = o.size - 1
      by_contra hne
      have hnext := hdeep (i + 1) (by omega) (by omega)
      obtain ⟨p, hp, hpi, -, hpb⟩ := h.below (i + 1) (by omega) (by omega)
      rcases Nat.eq_or_lt_of_le (Nat.le_of_lt_succ hpi) with rfl | hlt
      · have hmem : p + 1 ∈ (nodeAt o.nodes p).children := h.mem_children.mpr ⟨by omega, hp⟩
        rw [hnone] at hmem
        cases hmem
      · have := hpb i hlt (Nat.lt_succ_self i)
        omega

/-- **The last section** is the one with the largest number. -/
theorem Tree.lastSection_eq {heads : List Call} {o : Outline} (h : Tree heads o.nodes) :
    o.lastSection = o.size - 1 := by
  refine h.lastBelow_eq o.size 0 h.size_pos le_rfl fun j hj hjs => ?_
  obtain ⟨p, -, -, hlevel, -⟩ := h.below j hj (by rw [length_nodes]; exact hjs)
  rw [h.rootLevel]
  omega

end Outline

end WikiOutline
