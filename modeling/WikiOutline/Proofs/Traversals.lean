/-
# The traversals agree

A walk puts the subsections of what it enters, and behind them the leaving of it, on top of
what is still to be done.  So it does the same as a recursion over the tree of the sections:
it enters a section, walks all below it, and leaves it (`walks_traversed`).  What it meets
between the two is what lies below the section and nothing else, in one piece
(`SectionTree.exists_infix`), and the depth it counts is the level (`depth_traversed`).  The
visit without leaving goes through the same tree (`preOrderFrom_ids`), whose sections stand
in the order of their numbers.

Key definitions: `SectionTree.ids`, `SectionTree.traversed`, `Outline.Walks`,
`Outline.TraversalLaw`.
Key theorems: `Outline.walks_traversed`, `Outline.Tree.ids_eq`, `Outline.Tree.mem_ids`,
`Outline.traversalLaw_of_build`.
-/
import WikiOutline.Proofs.Recursion
import WikiOutline.Proofs.Spans

namespace WikiOutline

namespace Outline.WalkEvent

/-- The section that is met. -/
def id : WalkEvent → Nat
  | .enter id _ => id
  | .leave id _ => id

/-- The depth it is met at. -/
def depth : WalkEvent → Nat
  | .enter _ depth => depth
  | .leave _ depth => depth

/-- The section, if it is entered. -/
def entered? : WalkEvent → Option Nat
  | .enter id _ => some id
  | .leave _ _ => none

/-- The section, if it is left. -/
def left? : WalkEvent → Option Nat
  | .enter _ _ => none
  | .leave id _ => some id

end Outline.WalkEvent

open Outline

namespace SectionTree

mutual

/-- The sections of a tree, each before those below it. -/
def ids : SectionTree → List Nat
  | .node id below => id :: idsAll below

/-- The sections of some trees. -/
def idsAll : List SectionTree → List Nat
  | [] => []
  | t :: ts => t.ids ++ idsAll ts

end

mutual

/-- A section is entered at a depth, what is below it is met one deeper, and it is left. -/
def traversed (depth : Nat) : SectionTree → List WalkEvent
  | .node id below => .enter id depth :: traversedAll (depth + 1) below ++ [.leave id depth]

/-- Trees are met one behind the other. -/
def traversedAll (depth : Nat) : List SectionTree → List WalkEvent
  | [] => []
  | t :: ts => t.traversed depth ++ traversedAll depth ts

end

mutual

/-- The sections of a tree are entered in their order. -/
theorem entered_traversed : ∀ (t : SectionTree) (depth : Nat),
    (t.traversed depth).filterMap WalkEvent.entered? = t.ids
  | .node id below, depth => by
    simp only [traversed, ids, List.filterMap_append, List.filterMap_cons, WalkEvent.entered?,
      entered_traversedAll below (depth + 1), List.filterMap_nil, List.append_nil]

theorem entered_traversedAll : ∀ (ts : List SectionTree) (depth : Nat),
    (traversedAll depth ts).filterMap WalkEvent.entered? = idsAll ts
  | [], _ => rfl
  | t :: ts, depth => by
    rw [traversedAll, idsAll, List.filterMap_append, entered_traversed t, entered_traversedAll ts]

end

mutual

/-- Every section of a tree is left once. -/
theorem left_traversed : ∀ (t : SectionTree) (depth : Nat),
    ((t.traversed depth).filterMap WalkEvent.left?).Perm t.ids
  | .node id below, depth => by
    simp only [traversed, ids, List.filterMap_append, List.filterMap_cons, WalkEvent.left?,
      List.filterMap_nil]
    exact (List.perm_append_singleton id _).trans ((left_traversedAll below (depth + 1)).cons id)

theorem left_traversedAll : ∀ (ts : List SectionTree) (depth : Nat),
    ((traversedAll depth ts).filterMap WalkEvent.left?).Perm (idsAll ts)
  | [], _ => .nil
  | t :: ts, depth => by
    rw [traversedAll, idsAll, List.filterMap_append]
    exact (left_traversed t depth).append (left_traversedAll ts depth)

end

mutual

/-- Two things happen for every section. -/
theorem length_traversed : ∀ (t : SectionTree) (depth : Nat),
    (t.traversed depth).length = 2 * t.ids.length
  | .node id below, depth => by
    simp only [traversed, ids, List.length_append, List.length_cons, List.length_nil,
      length_traversedAll below (depth + 1)]
    omega

theorem length_traversedAll : ∀ (ts : List SectionTree) (depth : Nat),
    (traversedAll depth ts).length = 2 * (idsAll ts).length
  | [], _ => rfl
  | t :: ts, depth => by
    rw [traversedAll, idsAll, List.length_append, List.length_append, length_traversed t,
      length_traversedAll ts]
    omega

end

variable {o : Outline}

mutual

/-- **What a walk meets for a section of a tree** stands in one piece among what it meets for
the tree. -/
theorem exists_infix : ∀ (t : SectionTree) (depth : Nat) {i : Nat}, t.Holds o → i ∈ t.ids →
    ∃ (sub : SectionTree) (depth' : Nat), sub.id = i ∧ sub.Holds o ∧
      sub.traversed depth' <:+: t.traversed depth
  | .node id below, depth, i, ht, hi => by
    rcases List.mem_cons.mp hi with rfl | hi
    · exact ⟨.node i below, depth, rfl, ht, List.infix_refl _⟩
    · obtain ⟨sub, depth', hid, hsub, before, behind, hpiece⟩ :=
        exists_infixAll below (depth + 1) ht.2 hi
      refine ⟨sub, depth', hid, hsub, .enter id depth :: before, behind ++ [.leave id depth], ?_⟩
      rw [traversed, ← hpiece]
      simp only [List.cons_append, List.append_assoc]

theorem exists_infixAll : ∀ (ts : List SectionTree) (depth : Nat) {i : Nat}, HoldAll o ts →
    i ∈ idsAll ts →
    ∃ (sub : SectionTree) (depth' : Nat), sub.id = i ∧ sub.Holds o ∧
      sub.traversed depth' <:+: traversedAll depth ts
  | t :: ts, depth, i, ⟨ht, hts⟩, hi => by
    rcases List.mem_append.mp hi with hi | hi
    · obtain ⟨sub, depth', hid, hsub, hpiece⟩ := exists_infix t depth ht hi
      exact ⟨sub, depth', hid, hsub, hpiece.trans (List.prefix_append _ _).isInfix⟩
    · obtain ⟨sub, depth', hid, hsub, hpiece⟩ := exists_infixAll ts depth hts hi
      exact ⟨sub, depth', hid, hsub, hpiece.trans (List.suffix_append _ _).isInfix⟩

end

end SectionTree

namespace Outline

open SectionTree

variable {o : Outline} {heads : List Call}

/-! ### What is still to be done -/

/-- What a walk meets when all is done that is to be done, the nearest first. -/
inductive Walks (o : Outline) : List WalkEvent → List WalkEvent → Prop
  | done : Walks o [] []
  | enter {id depth : Nat} {todo es : List WalkEvent} :
    Walks o ((o.get id).children.map (fun child => .enter child (depth + 1)) ++
      .leave id depth :: todo) es →
    Walks o (.enter id depth :: todo) (.enter id depth :: es)
  | leave {id depth : Nat} {todo es : List WalkEvent} :
    Walks o todo es → Walks o (.leave id depth :: todo) (.leave id depth :: es)

/-- With fuel for all that is met, more fuel changes nothing. -/
theorem Walks.walkFrom_eq {todo es : List WalkEvent} (h : Walks o todo es) :
    ∀ fuel, es.length ≤ fuel → o.walkFrom fuel todo = es := by
  induction h with
  | done =>
    intro fuel _
    cases fuel <;> rfl
  | enter _ ih =>
    intro fuel hf
    obtain ⟨fuel, rfl⟩ : ∃ k, fuel = k + 1 := ⟨fuel - 1, by simp at hf; omega⟩
    rw [walkFrom, ih fuel (by simpa using hf)]
  | leave _ ih =>
    intro fuel hf
    obtain ⟨fuel, rfl⟩ : ∃ k, fuel = k + 1 := ⟨fuel - 1, by simp at hf; omega⟩
    rw [walkFrom, ih fuel (by simpa using hf)]

mutual

/-- **With a section on the list** of what is still to be done, its tree is met, and then what
waits below it. -/
theorem walks_traversed : ∀ (t : SectionTree) (depth : Nat) {todo es : List WalkEvent},
    t.Holds o → Walks o todo es → Walks o (.enter t.id depth :: todo) (t.traversed depth ++ es)
  | .node i below, depth, todo, es, ⟨hids, hbelow⟩, h => by
    have hleave : Walks o (.leave i depth :: todo) (.leave i depth :: es) := .leave h
    have hinner := walks_traversedAll below (depth + 1) hbelow hleave
    have hchildren : below.map (fun t => WalkEvent.enter t.id (depth + 1)) =
        (o.get i).children.map fun child => .enter child (depth + 1) := by
      rw [← hids, List.map_map]
      rfl
    rw [hchildren] at hinner
    rw [traversed, List.append_assoc, List.cons_append]
    exact .enter hinner

/-- With several sections on the list their trees are met one behind the other. -/
theorem walks_traversedAll : ∀ (ts : List SectionTree) (depth : Nat) {todo es : List WalkEvent},
    HoldAll o ts → Walks o todo es →
    Walks o (ts.map (fun t => .enter t.id depth) ++ todo) (traversedAll depth ts ++ es)
  | [], _, _, _, _, h => h
  | t :: ts, depth, todo, es, ⟨ht, hts⟩, h => by
    rw [traversedAll, List.append_assoc]
    exact walks_traversed t depth ht (walks_traversedAll ts depth hts h)

end

mutual

/-- A visit without leaving goes through the same tree. -/
theorem preOrderFrom_ids : ∀ (t : SectionTree) (fuel : Nat) (todo : List Nat), t.Holds o →
    o.preOrderFrom (t.ids.length + fuel) (t.id :: todo) = t.ids ++ o.preOrderFrom fuel todo
  | .node i below, fuel, todo, ⟨hids, hbelow⟩ => by
    have hinner := preOrderFrom_idsAll below fuel todo hbelow
    rw [hids] at hinner
    rw [ids, List.length_cons, Nat.add_right_comm]
    exact congrArg (i :: ·) hinner

theorem preOrderFrom_idsAll : ∀ (ts : List SectionTree) (fuel : Nat) (todo : List Nat),
    HoldAll o ts → o.preOrderFrom ((idsAll ts).length + fuel) (ts.map SectionTree.id ++ todo) =
      idsAll ts ++ o.preOrderFrom fuel todo
  | [], fuel, _, _ => by rw [idsAll, List.length_nil, Nat.zero_add]; rfl
  | t :: ts, fuel, todo, ⟨ht, hts⟩ => by
    rw [idsAll, List.length_append, Nat.add_assoc, List.map_cons, List.cons_append,
      preOrderFrom_ids t _ _ ht, preOrderFrom_idsAll ts fuel todo hts, List.append_assoc]

end

/-! ### The tree of a whole outline -/

/-- However much fuel is left over, the sections are visited in the order of their numbers. -/
theorem Tree.preOrderFrom_eq (h : Tree heads o.nodes) {fuel : Nat} (hf : o.size ≤ fuel) :
    o.preOrderFrom fuel [0] = List.range o.size := by
  have hp := preOrderFrom_frontier h fuel 0 (Nat.zero_le _) hf
  rwa [h.frontier_zero, Nat.sub_zero, ← List.range_eq_range'] at hp

/-- **The sections of the tree** are all sections in the order of their numbers. -/
theorem Tree.ids_eq (h : Tree heads o.nodes) {t : SectionTree} (hid : t.id = 0)
    (ht : t.Holds o) : t.ids = List.range o.size := by
  have hids := preOrderFrom_ids t o.size [] ht
  have hend : o.preOrderFrom o.size [] = [] := by cases o.size <;> rfl
  rw [hid, h.preOrderFrom_eq (Nat.le_add_left _ _), hend, List.append_nil] at hids
  exact hids.symm

/-- So a walk is the recursion over the tree. -/
theorem Tree.walkFrom_eq (h : Tree heads o.nodes) {t : SectionTree} (hid : t.id = 0)
    (ht : t.Holds o) {fuel : Nat} (hf : 2 * o.size ≤ fuel) :
    o.walkFrom fuel [.enter 0 0] = t.traversed 0 := by
  have hwalks := walks_traversed t 0 ht .done
  rw [hid, List.append_nil] at hwalks
  refine hwalks.walkFrom_eq fuel ?_
  rw [length_traversed, h.ids_eq hid ht, List.length_range]
  exact hf

/-- A subsection lies one level deeper. -/
theorem Tree.level_of_mem_children (h : Tree heads o.nodes) {i j : Nat}
    (hj : j ∈ (o.get i).children) : (o.get j).level = (o.get i).level + 1 := by
  rw [← nodeAt_children] at hj
  obtain ⟨hlt, hparent⟩ := h.mem_children.mp hj
  have hlevel := (h.below_of_parent hlt hparent).2.1
  rw [nodeAt_nodes, nodeAt_nodes] at hlevel
  exact hlevel.symm

mutual

/-- **The depth** at which a section is met is its level. -/
theorem Tree.depth_traversed (h : Tree heads o.nodes) : ∀ (t : SectionTree), t.Holds o →
    ∀ e ∈ t.traversed (o.get t.id).level, e.depth = (o.get e.id).level
  | .node i below, ⟨hids, hbelow⟩, e, he => by
    rw [traversed, List.cons_append, List.mem_cons, List.mem_append, List.mem_singleton] at he
    rcases he with rfl | he | rfl
    · rfl
    · refine h.depth_traversedAll below hbelow (fun t ht => ?_) e he
      have hchild : t.id ∈ (o.get i).children := hids ▸ List.mem_map_of_mem ht
      exact (h.level_of_mem_children hchild).symm
    · rfl

theorem Tree.depth_traversedAll (h : Tree heads o.nodes) : ∀ (ts : List SectionTree)
    {depth : Nat}, HoldAll o ts → (∀ t ∈ ts, depth = (o.get t.id).level) →
    ∀ e ∈ traversedAll depth ts, e.depth = (o.get e.id).level
  | t :: ts, depth, ⟨ht, hts⟩, hdepth, e, he => by
    rcases List.mem_append.mp he with he | he
    · rw [hdepth t List.mem_cons_self] at he
      exact h.depth_traversed t ht e he
    · exact h.depth_traversedAll ts hts (fun t ht => hdepth t (List.mem_cons_of_mem _ ht)) e he

end

/-! ### What lies below a section -/

/-- The last step of the way up. -/
theorem sectionAbove?_succ (o : Outline) : ∀ steps j,
    o.sectionAbove? (steps + 1) j = (o.sectionAbove? steps j).bind fun c => (o.get c).parent
  | 0, j => by simp [sectionAbove?]
  | steps + 1, j => by
    show (o.get j).parent.bind (o.sectionAbove? (steps + 1)) =
      ((o.get j).parent.bind (o.sectionAbove? steps)).bind _
    rw [Option.bind_assoc]
    exact congrArg _ (funext fun p => sectionAbove?_succ o steps p)

/-- The subsections of a section are those it is the parent of. -/
theorem Tree.mem_children_iff (h : Tree heads o.nodes) {i c : Nat} :
    c ∈ (o.get i).children ↔ (o.get c).parent = some i := by
  rw [← nodeAt_children, h.mem_children, length_nodes, nodeAt_nodes]
  refine ⟨fun hc => hc.2, fun hparent => ⟨?_, hparent⟩⟩
  by_contra hout
  rw [get_eq_root (Nat.le_of_not_lt hout)] at hparent
  cases hparent

/-- Below a section lie its subsections and what is below these. -/
theorem Tree.isAbove_iff_child (h : Tree heads o.nodes) {i j : Nat} :
    o.IsAbove i j ↔ ∃ c ∈ (o.get i).children, j = c ∨ o.IsAbove c j := by
  constructor
  · rintro ⟨steps, hpos, hi⟩
    obtain ⟨steps, rfl⟩ : ∃ k, steps = k + 1 := ⟨steps - 1, by omega⟩
    rw [sectionAbove?_succ] at hi
    obtain ⟨c, hc, hparent⟩ := Option.bind_eq_some_iff.mp hi
    refine ⟨c, h.mem_children_iff.mpr hparent, ?_⟩
    cases steps with
    | zero => exact .inl (Option.some.inj hc)
    | succ steps => exact .inr ⟨steps + 1, Nat.succ_pos _, hc⟩
  · rintro ⟨c, hc, rfl | ⟨steps, -, hcj⟩⟩
    · refine ⟨1, Nat.one_pos, ?_⟩
      rw [sectionAbove?_succ]
      exact h.mem_children_iff.mp hc
    · refine ⟨steps + 1, Nat.succ_pos _, ?_⟩
      rw [sectionAbove?_succ, hcj]
      exact h.mem_children_iff.mp hc

mutual

/-- The sections of a tree are the one on top and those below it. -/
theorem Tree.mem_ids (h : Tree heads o.nodes) : ∀ (t : SectionTree) {j : Nat}, t.Holds o →
    (j ∈ t.ids ↔ j = t.id ∨ o.IsAbove t.id j)
  | .node i below, j, ⟨hids, hbelow⟩ => by
    show j ∈ i :: idsAll below ↔ j = i ∨ o.IsAbove i j
    rw [List.mem_cons, h.mem_idsAll below hbelow, h.isAbove_iff_child, hids]

/-- The sections of trees are those on top and those below them. -/
theorem Tree.mem_idsAll (h : Tree heads o.nodes) : ∀ (ts : List SectionTree) {j : Nat},
    HoldAll o ts → (j ∈ idsAll ts ↔ ∃ c ∈ ts.map SectionTree.id, j = c ∨ o.IsAbove c j)
  | [], j, _ => ⟨fun hj => absurd hj List.not_mem_nil, fun ⟨_, hc, _⟩ => absurd hc List.not_mem_nil⟩
  | t :: ts, j, ⟨ht, hts⟩ => by
    rw [idsAll, List.mem_append, h.mem_ids t ht, h.mem_idsAll ts hts, List.map_cons,
      List.exists_mem_cons_iff]

end

/-! ### The law -/

/-- How the traversals of an outline go. -/
structure TraversalLaw (o : Outline) : Prop where
  /-- The sections are visited in the order of their numbers, and then the visit ends. -/
  visited : ∀ fuel, o.size ≤ fuel → o.preOrderFrom fuel [0] = List.range o.size
  /-- A walk comes to its end. -/
  walked : Walks o [.enter 0 0] o.walk
  /-- More fuel would change nothing. -/
  finished : ∀ fuel, 2 * o.size ≤ fuel → o.walkFrom fuel [.enter 0 0] = o.walk
  /-- A walk enters the sections in the same order. -/
  entered : o.walk.filterMap WalkEvent.entered? = o.preOrder
  /-- It leaves every section once. -/
  left : (o.walk.filterMap WalkEvent.left?).Perm (List.range o.size)
  /-- The depth is the level, when a section is entered and when it is left. -/
  depth : ∀ e ∈ o.walk, e.depth = (o.get e.id).level
  /-- From entering a section to leaving it just the sections below it are entered, and just
  these are left. -/
  around : ∀ i < o.size, ∃ before inside behind,
    o.walk = before ++ .enter i (o.get i).level :: inside ++ .leave i (o.get i).level :: behind ∧
      (∀ j, j ∈ inside.filterMap WalkEvent.entered? ↔ o.IsAbove i j) ∧
      ∀ j, j ∈ inside.filterMap WalkEvent.left? ↔ o.IsAbove i j
  /-- The way down over last subsections leads to the section with the largest number. -/
  last : ∀ fuel, o.size ≤ fuel → o.lastBelow fuel 0 = o.size - 1
  /-- There the way ends. -/
  bottom : (o.get (o.size - 1)).children = []

/-- From entering a section to leaving it a walk meets what is below it. -/
theorem Tree.exists_around (h : Tree heads o.nodes) {t : SectionTree} (ht : t.Holds o)
    {depth i : Nat} (hi : i ∈ t.ids)
    (hdepth : ∀ e ∈ t.traversed depth, e.depth = (o.get e.id).level) :
    ∃ before inside behind, t.traversed depth =
        before ++ .enter i (o.get i).level :: inside ++ .leave i (o.get i).level :: behind ∧
      (∀ j, j ∈ inside.filterMap WalkEvent.entered? ↔ o.IsAbove i j) ∧
      ∀ j, j ∈ inside.filterMap WalkEvent.left? ↔ o.IsAbove i j := by
  obtain ⟨⟨top, below⟩, depth', hid, ⟨hids, hbelow⟩, before, behind, hpiece⟩ :=
    exists_infix t depth ht hi
  obtain rfl : top = i := hid
  have hmem : ∀ j, j ∈ idsAll below ↔ o.IsAbove top j := fun j => by
    rw [h.mem_idsAll below hbelow, hids, h.isAbove_iff_child]
  -- the piece is met at the level of its section
  have hlevel : depth' = (o.get top).level := by
    refine hdepth (.enter top depth') ?_
    rw [← hpiece, traversed]
    simp
  refine ⟨before, traversedAll (depth' + 1) below, behind, ?_, fun j => ?_, fun j => ?_⟩
  · rw [← hpiece, traversed, hlevel]
    simp only [List.append_assoc, List.cons_append, List.nil_append]
  · rw [entered_traversedAll]
    exact hmem j
  · rw [(left_traversedAll below _).mem_iff]
    exact hmem j

/-- Whatever fuel is left over, the way down ends at the last section. -/
theorem Tree.lastBelow_zero (h : Tree heads o.nodes) {fuel : Nat} (hf : o.size ≤ fuel) :
    o.lastBelow fuel 0 = o.size - 1 := by
  refine h.lastBelow_eq fuel 0 h.size_pos hf fun j hj hjs => ?_
  obtain ⟨p, -, -, hlevel, -⟩ := h.below j hj (by rw [length_nodes]; exact hjs)
  rw [h.rootLevel]
  omega

/-- **The traversals of every built outline** agree with one another and with the order in
which the sections were found. -/
theorem traversalLaw_of_build {σ : Type} {strictness : Strictness}
    {sink : Option (MetadataSink σ)} {calls : List Call} {s s' : σ} {o : Outline}
    (hb : buildWith strictness sink calls s = .ok (o, s')) : TraversalLaw o := by
  obtain ⟨h, -⟩ := buildWith_sound hb
  obtain ⟨t, hid, ht⟩ := h.exists_holds 0
  have hwalk : o.walk = t.traversed 0 := h.walkFrom_eq hid ht le_rfl
  have hids : t.ids = List.range o.size := h.ids_eq hid ht
  have hroot : (o.get t.id).level = 0 := by
    have hlevel := h.rootLevel
    rw [nodeAt_nodes] at hlevel
    rw [hid]
    exact hlevel
  have hdepth : ∀ e ∈ t.traversed 0, e.depth = (o.get e.id).level := by
    have hdepth := h.depth_traversed t ht
    rwa [hroot] at hdepth
  constructor
  · exact fun fuel hf => h.preOrderFrom_eq hf
  · have hwalks := walks_traversed t 0 ht .done
    rw [hid, List.append_nil] at hwalks
    rwa [hwalk]
  · intro fuel hf
    rw [hwalk, h.walkFrom_eq hid ht hf]
  · rw [hwalk, entered_traversed, hids, preOrder_eq h]
  · rw [hwalk, ← hids]
    exact left_traversed t 0
  · rw [hwalk]
    exact hdepth
  · intro i hi
    rw [hwalk]
    refine h.exists_around ht ?_ hdepth
    rw [hids]
    exact List.mem_range.mpr hi
  · exact fun fuel hf => h.lastBelow_zero hf
  · -- a subsection of the last section would come behind it
    refine List.eq_nil_iff_forall_not_mem.mpr fun j hj => ?_
    have := h.lt_of_mem_children hj
    omega

/-- On a page with two sections below another one, the walk leaves each of the two before it
enters the next one. -/
theorem traversalLaw_of_forecast :
    ∃ o, buildWith .strict (none : Option (MetadataSink Unit)) Rendering.forecast () =
        .ok (o, ()) ∧
      o.walk = [.enter 0 0, .enter 1 1, .enter 2 2, .leave 2 2, .enter 3 2, .leave 3 2,
        .leave 1 1, .leave 0 0] ∧
      TraversalLaw o := by
  have hb : buildWith .strict (none : Option (MetadataSink Unit)) Rendering.forecast () =
      .ok (_, ()) := rfl
  exact ⟨_, hb, rfl, traversalLaw_of_build hb⟩

end Outline

end WikiOutline
