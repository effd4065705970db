/-
# A rendition opens the sections in order

While the sections still to be opened are those to come before section `i`, a
rendition opens the sections from `i` on one behind the other, and closes as many
besides those that wait to be closed (`perform_frontier`).  Where a subsection is
merged into the root, it is the first one, and its subsections are the next to
come (`Tree.frontier_of_only_child`), so only its own opening is left out.

Key definitions: `Rendering.openAll`, `Rendering.visits`.
Key theorems: `Rendering.perform_frontier`, `Rendering.events_openAll`.
-/
import WikiOutline.Proofs.Frontier
import WikiOutline.Rendering

namespace WikiOutline

namespace Outline

/-- The only section below the root is the first, and below it hangs all that comes
next. -/
theorem Tree.frontier_of_only_child {heads : List Call} {o : Outline} (h : Tree heads o.nodes)
    {k : Nat} (hk : (o.get 0).children = [k]) :
    k = 1 ∧ 1 < o.size ∧ (o.get 1).children = frontier o.nodes 2 := by
  have hlen := h.length
  rw [← nodeAt_children] at hk ⊢
  rw [← length_nodes]
  obtain ⟨rest, h1, h2⟩ := h.frontier_cons (by omega : 0 < o.nodes.length)
  rw [h.frontier_zero] at h1
  obtain rfl : rest = [] := (List.cons.inj h1).2.symm
  rw [hk, List.append_nil] at h2
  have hlt : 1 < o.nodes.length := by
    by_contra hle
    rw [show 0 + 1 = o.nodes.length by omega, frontier_length] at h2
    cases h2
  obtain ⟨rest, h3, h4⟩ := h.frontier_cons hlt
  rw [Nat.zero_add, h3] at h2
  obtain ⟨rfl, rfl⟩ := List.cons.inj h2
  rw [List.append_nil] at h4
  exact ⟨rfl, hlt, h4⟩

/-- What is below a section is not the root. -/
theorem Tree.isRoot_of_mem_children {heads : List Call} {o : Outline} (h : Tree heads o.nodes)
    {i j : Nat} (hj : j ∈ (o.get i).children) : (o.get j).isRoot = false := by
  rw [← nodeAt_children] at hj
  have hparent := (h.mem_children.mp hj).2
  rw [nodeAt_nodes] at hparent
  show (o.get j).node.parent.isNone = false
  rw [hparent]
  rfl

end Outline

namespace Rendering

open Outline

variable {π σ : Type}

/-- What was opened. -/
def Event.opening? : Event → Option Opening
  | .opened o => some o
  | .closed => none

/-- The section to be opened. -/
def Step.id? : Step → Option Nat
  | .opening id => some id
  | .closing => none

theorem filterMap_opening (ids : List Nat) :
    (ids.map Step.opening).filterMap Step.id? = ids := by
  rw [List.filterMap_map]
  exact List.filterMap_some

/-- Opens sections one behind the other. -/
def openAll (setup : Setup π σ) (target : Target) :
    List Nat → State π σ → List Opening × State π σ
  | [], s => ([], s)
  | id :: ids, s =>
    let (o, s) := openSection setup target s id
    let (os, s) := openAll setup target ids s
    (o :: os, s)

/-- As many sections are opened as are to be opened. -/
theorem length_openAll (setup : Setup π σ) (target : Target) : ∀ (ids : List Nat) (s : State π σ),
    (openAll setup target ids s).1.length = ids.length
  | [], _ => rfl
  | _ :: ids, _ => congrArg (· + 1) (length_openAll setup target ids _)

/-- The sections that are opened have the numbers of those to be opened. -/
theorem map_openAll (setup : Setup π σ) (target : Target) : ∀ (ids : List Nat) (s : State π σ),
    (openAll setup target ids s).1.map (fun op => op.own.id) = ids
  | [], _ => rfl
  | _ :: ids, _ => congrArg (_ :: ·) (map_openAll setup target ids _)

/-- No section of some has a subsection that is merged into it. -/
def Unmerged (setup : Setup π σ) (target : Target) (ids : List Nat) : Prop :=
  ∀ id ∈ ids, flattenedChild? setup target (setup.outline.get id) = none

theorem mergeChild_of_none {setup : Setup π σ} {target : Target} {sec : Section}
    (h : flattenedChild? setup target sec = none) (s : State π σ) :
    mergeChild setup target s sec = (none, sec.filledLines, sec.children, s) := by
  rw [mergeChild, h]

theorem openSection_children {setup : Setup π σ} {target : Target} {id : Nat}
    (h : flattenedChild? setup target (setup.outline.get id) = none) (s : State π σ) :
    (openSection setup target s id).1.children = (setup.outline.get id).children := by
  simp only [openSection, mergeChild_of_none h]

/-- Only the root takes a subsection's heading. -/
theorem flattenedChild?_of_not_root {setup : Setup π σ} {target : Target} {sec : Section}
    (h : sec.isRoot = false) : flattenedChild? setup target sec = none := by
  simp [flattenedChild?, h]

theorem isRoot_of_flattenedChild? {setup : Setup π σ} {target : Target} {sec : Section} {k : Nat}
    (h : flattenedChild? setup target sec = some k) : sec.isRoot = true := by
  by_contra hroot
  rw [flattenedChild?_of_not_root (by simpa using hroot)] at h
  cases h

theorem flattenedChild?_eq_some {setup : Setup π σ} {target : Target} {sec : Section} {k : Nat}
    (h : flattenedChild? setup target sec = some k) : sec.children = [k] := by
  unfold flattenedChild? at h
  split at h
  · split at h
    · rename_i only hc
      simp only at h
      split at h
      · rw [hc, Option.some.inj h]
      · cases h
    · cases h
  · cases h

/-- No section behind the root has one merged into it. -/
theorem unmerged_range' {heads : List Call} {setup : Setup π σ}
    (h : Tree heads setup.outline.nodes) (target : Target) {i : Nat} (hi : 0 < i) :
    Unmerged setup target (List.range' i (setup.outline.size - i)) := fun j hj => by
  have hj := List.mem_range'_1.mp hj
  refine flattenedChild?_of_not_root ?_
  rw [h.isRoot (by omega)]
  simp [show j ≠ 0 by omega]

/-- Nor has any section, if the root has not. -/
theorem unmerged_all {heads : List Call} {setup : Setup π σ} (h : Tree heads setup.outline.nodes)
    {target : Target} (hf : flattenedChild? setup target (setup.outline.get 0) = none) :
    Unmerged setup target (List.range' 0 setup.outline.size) := fun j hj => by
  rcases Nat.eq_zero_or_pos j with rfl | h0
  · exact hf
  · have := List.mem_range'_1.mp hj
    exact unmerged_range' h target h0 j (List.mem_range'_1.mpr (by omega))

/-! ### Doing what is to be done -/

/-- **A rendition opens what is to come in order**, and closes what it opens. -/
theorem perform_frontier {heads : List Call} {setup : Setup π σ}
    (h : Tree heads setup.outline.nodes) (target : Target) :
    ∀ fuel i todo (s : State π σ), i ≤ setup.outline.size →
      todo.filterMap Step.id? = frontier setup.outline.nodes i →
      2 * (setup.outline.size - i) + todo.count .closing ≤ fuel →
      Unmerged setup target (List.range' i (setup.outline.size - i)) →
      (perform setup target fuel todo s).1.filterMap Event.opening? =
          (openAll setup target (List.range' i (setup.outline.size - i)) s).1 ∧
        (perform setup target fuel todo s).2 =
          (openAll setup target (List.range' i (setup.outline.size - i)) s).2 ∧
        (perform setup target fuel todo s).1.length =
          2 * (setup.outline.size - i) + todo.count .closing := by
  have hsize : setup.outline.nodes.length = setup.outline.size := length_nodes _
  have hend : ∀ i, i ≤ setup.outline.size →
      (frontier setup.outline.nodes i = [] ↔ i = setup.outline.size) := fun i hi => by
    rw [← hsize] at hi ⊢
    exact h.frontier_eq_nil hi
  intro fuel
  induction fuel with
  | zero =>
    intro i todo s hi ht hf _
    have hempty : setup.outline.size - i = 0 := by omega
    have hclosing : todo.count .closing = 0 := by omega
    rw [hempty, hclosing]
    exact ⟨rfl, rfl, rfl⟩
  | succ fuel ih =>
    intro i todo s hi ht hf ha
    cases todo with
    | nil =>
      obtain rfl := (hend i hi).mp ht.symm
      rw [Nat.sub_self]
      exact ⟨rfl, rfl, rfl⟩
    | cons step todo =>
      cases step with
      | closing =>
        rw [List.count_cons_self] at hf ⊢
        obtain ⟨h1, h2, h3⟩ := ih i todo s hi ht (by omega) ha
        simp only [perform]
        exact ⟨h1, h2, by rw [List.length_cons, h3]; omega⟩
      | opening id =>
        have hlt : i < setup.outline.size := by
          refine Nat.lt_of_le_of_ne hi fun he => ?_
          rw [(hend i hi).mpr he] at ht
          cases ht
        obtain ⟨rest, h1, h2⟩ := h.frontier_cons (by omega : i < setup.outline.nodes.length)
        rw [h1] at ht
        obtain ⟨rfl, htodo⟩ := List.cons.inj ht
        rw [nodeAt_nodes] at h2
        rw [show setup.outline.size - id = (setup.outline.size - (id + 1)) + 1 by omega,
          List.range'_succ] at ha ⊢
        have hchildren := openSection_children (ha id List.mem_cons_self) s
        have hcount : (Step.opening id :: todo).count .closing = todo.count .closing :=
          List.count_cons_of_ne (fun h => by cases h)
        rw [hcount] at hf ⊢
        simp only [perform, openAll]
        rw [hchildren]
        -- the subsections come first, then the closing, then what was to come
        set todo' := (setup.outline.get id).children.map Step.opening ++ .closing :: todo
        have htodo' : todo'.filterMap Step.id? = frontier setup.outline.nodes (id + 1) := by
          rw [← h2, ← htodo, List.filterMap_append, filterMap_opening]
          rfl
        have hcount' : todo'.count .closing = todo.count .closing + 1 := by
          rw [List.count_append, List.count_cons_self, List.count_eq_zero.mpr (by simp),
            Nat.zero_add]
        obtain ⟨h3, h4, h5⟩ := ih (id + 1) todo' (openSection setup target s id).2 hlt htodo'
          (by omega) (fun j hj => ha j (List.mem_cons_of_mem _ hj))
        refine ⟨?_, h4, ?_⟩
        · exact congrArg ((openSection setup target s id).1 :: ·) h3
        · rw [List.length_cons, h5, hcount']
          omega

/-- The sections that a rendition opens: all but the one merged into the root. -/
def visits (setup : Setup π σ) (target : Target) : List Nat :=
  match flattenedChild? setup target (setup.outline.get 0) with
  | none => List.range' 0 setup.outline.size
  | some _ => 0 :: List.range' 2 (setup.outline.size - 2)

/-- **The sections that a rendition opens**, from its first state to its last. -/
theorem events_openAll {heads : List Call} {setup : Setup π σ}
    (h : Tree heads setup.outline.nodes) (target : Target) (p : π) (s : σ) :
    (events setup target p s).1.filterMap Event.opening? =
        (openAll setup target (visits setup target) { policyState := p, sinkState := s }).1 ∧
      (events setup target p s).2 =
        (openAll setup target (visits setup target) { policyState := p, sinkState := s }).2 ∧
      (events setup target p s).1.length = 2 * (visits setup target).length := by
  unfold events visits
  cases hf : flattenedChild? setup target (setup.outline.get 0) with
  | none =>
    obtain ⟨h1, h2, h3⟩ := perform_frontier h target (2 * setup.outline.size) 0 [.opening 0]
      { policyState := p, sinkState := s } (Nat.zero_le _) h.frontier_zero.symm (by simp)
      (unmerged_all h hf)
    refine ⟨h1, h2, ?_⟩
    rw [h3, List.length_range']
    rfl
  | some k =>
    have hk := flattenedChild?_eq_some hf
    obtain ⟨rfl, hlt, hfrontier⟩ := h.frontier_of_only_child hk
    -- the root opens with the subsections of its own, and the rest is as for any section
    have hchildren : (openSection setup target { policyState := p, sinkState := s } 0).1.children =
        (setup.outline.get 1).children := by
      simp only [openSection, mergeChild, hf]
    set todo : List Step := (setup.outline.get 1).children.map Step.opening ++ [.closing]
    have htodo : todo.filterMap Step.id? = frontier setup.outline.nodes 2 := by
      rw [← hfrontier, List.filterMap_append, filterMap_opening]
      exact List.append_nil _
    have hcount : todo.count .closing = 1 := by
      rw [List.count_append, List.count_eq_zero.mpr (by simp), List.count_singleton_self]
    obtain ⟨fuel, hfuel⟩ : ∃ fuel, 2 * setup.outline.size = fuel + 1 :=
      ⟨2 * setup.outline.size - 1, by omega⟩
    rw [hfuel]
    simp only [perform, openAll]
    rw [hchildren]
    obtain ⟨h1, h2, h3⟩ := perform_frontier h target fuel 2 todo
      (openSection setup target { policyState := p, sinkState := s } 0).2 (by omega) htodo
      (by omega) (unmerged_range' h target (by omega))
    refine ⟨congrArg (_ :: ·) h1, h2, ?_⟩
    rw [List.length_cons, h3, hcount, List.length_cons, List.length_range']
    omega

end Rendering

end WikiOutline
