/-
# A rendition is done with all it is to do

Twice the number of sections is fuel enough: nothing is left to be done when a
rendition stops (`events_performs`).  So what holds of a rendition can be shown along
the steps it is made of, with no fuel to count (`Performs`), and what is done for a
list of steps is done for its parts one behind the other (`Performs.split`).

Key definition: `Rendering.Performs`.
Key theorems: `Rendering.performs_of_length_lt`, `Rendering.Performs.perform_eq`,
`Rendering.events_performs`, `Rendering.Performs.split`.
-/
import WikiOutline.Proofs.Openings

namespace WikiOutline

namespace Rendering

open Outline

variable {π σ : Type} {setup : Setup π σ} {target : Target}

/-- What is done, from one state to another, when all the steps to come are done, the
nearest first. -/
inductive Performs (setup : Setup π σ) (target : Target) :
    List Step → State π σ → List Event → State π σ → Prop
  | done {s : State π σ} : Performs setup target [] s [] s
  | opening {id : Nat} {todo : List Step} {s s' : State π σ} {es : List Event} :
    Performs setup target
      ((openSection setup target s id).1.children.map Step.opening ++ .closing :: todo)
      (openSection setup target s id).2 es s' →
    Performs setup target (.opening id :: todo) s
      (.opened (openSection setup target s id).1 :: es) s'
  | closing {todo : List Step} {s s' : State π σ} {es : List Event} :
    Performs setup target todo s es s' →
    Performs setup target (.closing :: todo) s (.closed :: es) s'

theorem Performs.of_nil {s s' : State π σ} {es : List Event}
    (h : Performs setup target [] s es s') : es = [] ∧ s' = s := by
  cases h
  exact ⟨rfl, rfl⟩

theorem Performs.of_opening {id : Nat} {todo : List Step} {s s' : State π σ} {es : List Event}
    (h : Performs setup target (.opening id :: todo) s es s') :
    ∃ rest, es = .opened (openSection setup target s id).1 :: rest ∧
      Performs setup target
        ((openSection setup target s id).1.children.map Step.opening ++ .closing :: todo)
        (openSection setup target s id).2 rest s' := by
  cases h with
  | opening h => exact ⟨_, rfl, h⟩

theorem Performs.of_closing {todo : List Step} {s s' : State π σ} {es : List Event}
    (h : Performs setup target (.closing :: todo) s es s') :
    ∃ rest, es = .closed :: rest ∧ Performs setup target todo s rest s' := by
  cases h with
  | closing h => exact ⟨_, rfl, h⟩

/-! ### Fuel -/

/-- With fuel for every event all is done. -/
theorem Performs.perform_eq {todo : List Step} {s s' : State π σ} {es : List Event}
    (h : Performs setup target todo s es s') :
    ∀ fuel, es.length ≤ fuel → perform setup target fuel todo s = (es, s') := by
  induction h with
  | done =>
    intro fuel _
    cases fuel <;> rfl
  | opening _ ih =>
    intro fuel hf
    obtain ⟨fuel, rfl⟩ : ∃ k, fuel = k + 1 := ⟨fuel - 1, by simp at hf; omega⟩
    simp only [perform, ih fuel (by simpa using hf)]
  | closing _ ih =>
    intro fuel hf
    obtain ⟨fuel, rfl⟩ : ∃ k, fuel = k + 1 := ⟨fuel - 1, by simp at hf; omega⟩
    simp only [perform, ih fuel (by simpa using hf)]

/-- Where fuel is left, all is done. -/
theorem performs_of_length_lt : ∀ (fuel : Nat) (todo : List Step) (s : State π σ),
    (perform setup target fuel todo s).1.length < fuel →
    Performs setup target todo s (perform setup target fuel todo s).1
      (perform setup target fuel todo s).2
  | 0, _, _, h => absurd h (Nat.not_lt_zero _)
  | _ + 1, [], _, _ => .done
  | fuel + 1, .opening _ :: _, _, h =>
    .opening (performs_of_length_lt fuel _ _ (Nat.lt_of_succ_lt_succ h))
  | fuel + 1, .closing :: _, _, h =>
    .closing (performs_of_length_lt fuel _ _ (Nat.lt_of_succ_lt_succ h))

/-- While the sections to come are those before some section, two steps for each and
one for each that waits to be closed are enough. -/
theorem performs_frontier {heads : List Call} (h : Tree heads setup.outline.nodes) {fuel i : Nat}
    {todo : List Step} (s : State π σ) (hi : i ≤ setup.outline.size)
    (ht : todo.filterMap Step.id? = frontier setup.outline.nodes i)
    (hf : 2 * (setup.outline.size - i) + todo.count .closing ≤ fuel)
    (hu : Unmerged setup target (List.range' i (setup.outline.size - i))) :
    Performs setup target todo s (perform setup target fuel todo s).1
      (perform setup target fuel todo s).2 := by
  have hlength : ∀ fuel', fuel ≤ fuel' → (perform setup target fuel' todo s).1.length =
      2 * (setup.outline.size - i) + todo.count .closing := fun fuel' hle =>
    (perform_frontier h target fuel' i todo s hi ht (hf.trans hle) hu).2.2
  -- one more step of fuel is left over, so all is done with it, and without it too
  have hdone : Performs setup target todo s (perform setup target (fuel + 1) todo s).1
      (perform setup target (fuel + 1) todo s).2 :=
    performs_of_length_lt (fuel + 1) todo s (by rw [hlength _ (Nat.le_succ fuel)]; omega)
  have heq := hdone.perform_eq fuel (by rw [hlength _ (Nat.le_succ fuel)]; exact hf)
  rw [heq]
  exact hdone

/-- **A rendition** does all there is to do for the root. -/
theorem events_performs {heads : List Call} (h : Tree heads setup.outline.nodes) (target : Target)
    (p : π) (s : σ) :
    Performs setup target [.opening 0] { policyState := p, sinkState := s }
      (events setup target p s).1 (events setup target p s).2 := by
  unfold events
  cases hf : flattenedChild? setup target (setup.outline.get 0) with
  | none =>
    exact performs_frontier h _ (Nat.zero_le _) h.frontier_zero.symm (by simp) (unmerged_all h hf)
  | some k =>
    have hk := flattenedChild?_eq_some hf
    obtain ⟨rfl, hlt, hfrontier⟩ := h.frontier_of_only_child hk
    obtain ⟨fuel, hfuel⟩ : ∃ fuel, 2 * setup.outline.size = fuel + 1 :=
      ⟨2 * setup.outline.size - 1, by omega⟩
    have hchildren : (openSection setup target { policyState := p, sinkState := s } 0).1.children =
        (setup.outline.get 1).children := by
      simp only [openSection, mergeChild, hf]
    rw [hfuel]
    refine .opening (performs_frontier h (i := 2) _ (by omega) ?_ ?_ (unmerged_range' h target
      (by omega)))
    · rw [hchildren, ← hfrontier, List.filterMap_append, filterMap_opening]
      exact List.append_nil _
    · rw [List.count_append, List.count_eq_zero.mpr (by simp), List.count_singleton_self]
      omega

/-! ### Parts -/

/-- What is done for steps is done for the first ones and then for the others. -/
theorem Performs.split {todo : List Step} {s s' : State π σ} {es : List Event}
    (h : Performs setup target todo s es s') : ∀ {first rest : List Step}, todo = first ++ rest →
    ∃ es₁ es₂ s₁, es = es₁ ++ es₂ ∧ Performs setup target first s es₁ s₁ ∧
      Performs setup target rest s₁ es₂ s' := by
  induction h with
  | done =>
    intro first rest ht
    obtain ⟨rfl, rfl⟩ := List.append_eq_nil_iff.mp ht.symm
    exact ⟨[], [], _, rfl, .done, .done⟩
  | @opening id todo s s' es h ih =>
    intro first rest ht
    cases first with
    | nil =>
      rw [List.nil_append] at ht
      exact ⟨[], _, s, rfl, .done, ht ▸ .opening h⟩
    | cons step first =>
      obtain ⟨rfl, rfl⟩ := List.cons.inj (ht.trans List.cons_append)
      obtain ⟨es₁, es₂, s₁, rfl, h1, h2⟩ := @ih
        ((openSection setup target s id).1.children.map Step.opening ++ .closing :: first) rest
        (by rw [List.append_assoc, List.cons_append])
      exact ⟨_, es₂, s₁, rfl, .opening h1, h2⟩
  | @closing todo s s' es h ih =>
    intro first rest ht
    cases first with
    | nil =>
      rw [List.nil_append] at ht
      exact ⟨[], _, s, rfl, .done, ht ▸ .closing h⟩
    | cons step first =>
      obtain ⟨rfl, rfl⟩ := List.cons.inj (ht.trans List.cons_append)
      obtain ⟨es₁, es₂, s₁, rfl, h1, h2⟩ := ih rfl
      exact ⟨_, es₂, s₁, rfl, .closing h1, h2⟩

end Rendering

end WikiOutline
