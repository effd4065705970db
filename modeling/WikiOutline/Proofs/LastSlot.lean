/-
# The slot that is the last

A rendition finds the last section of a page in the outline, and the sections are opened in
order, so the section opened last is the last one, and of all slots only its own says so
(`SlotsEnd`).  It is otherwise where the last section is not opened: when it is the only one
below the root and is merged into it.  Then the page has one slot, which says that it is not
the last (`last_slot_exact`).

Key definitions: `SlotsEnd`, `Rendering.MergedWhole`.
Key theorems: `Rendering.visits_end`, `Rendering.last_slot_exact`.
-/
import WikiOutline.Proofs.AdSlots

namespace WikiOutline

/-- The slot shown last says that it is the last, and no other does. -/
def SlotsEnd (asked : List Asked) : Prop :=
  ∃ before a, asked = before ++ [a] ∧ a.slot.isLastSection = true ∧
    ∀ b ∈ before, b.slot.isLastSection = false

namespace Rendering

open Outline

variable {π σ τ : Type}

/-- The only subsection of the root gives its heading to the page, and has no subsections of
its own. -/
def MergedWhole (options : Options) (o : Outline) : Prop :=
  ∃ only, Merges o options only ∧ (o.get only).children = []

/-! ### The section opened last -/

/-- What the sections opened in a rendition end with. -/
theorem visits_end {heads : List Call} {setup : Setup π σ}
    (h : Tree heads setup.outline.nodes) :
    (¬ MergedWhole setup.options setup.outline → ∃ before,
      visits setup .full = before ++ [setup.outline.size - 1] ∧
        ∀ i ∈ before, i < setup.outline.size - 1) ∧
      (MergedWhole setup.options setup.outline →
        visits setup .full = [0] ∧ setup.outline.size = 2) := by
  have hpos := h.size_pos
  have hsize : setup.outline.nodes.length = setup.outline.size := length_nodes _
  have hroot : (setup.outline.get 0).isRoot = true := h.isRoot hpos
  unfold visits
  cases hf : flattenedChild? setup .full (setup.outline.get 0) with
  | none =>
    refine ⟨fun _ => ⟨List.range' 0 (setup.outline.size - 1), ?_, fun i hi => ?_⟩, ?_⟩
    · obtain ⟨n, hn⟩ : ∃ n, setup.outline.size = n + 1 := ⟨setup.outline.size - 1, by omega⟩
      simp only [hn, List.range'_1_concat, Nat.zero_add, Nat.add_sub_cancel]
    · have := List.mem_range'_1.mp hi
      omega
    · rintro ⟨only, hmerges, -⟩
      rw [(flattenedChild?_eq_some_iff hroot only).mpr hmerges] at hf
      cases hf
  | some k =>
    have hmerges := (flattenedChild?_eq_some_iff hroot k).mp hf
    have hk := hmerges.2.1
    obtain ⟨rfl, hlt, hfrontier⟩ := h.frontier_of_only_child hk
    -- nothing hangs below the section just when none comes behind it
    have hnone : (setup.outline.get 1).children = [] ↔ setup.outline.size = 2 := by
      rw [hfrontier, h.frontier_eq_nil (hsize ▸ hlt), hsize, eq_comm]
    constructor
    · intro hwhole
      have hmore : 3 ≤ setup.outline.size := by
        by_contra hfew
        have htwo : setup.outline.size = 2 := by omega
        exact hwhole ⟨1, hmerges, hnone.mpr htwo⟩
      refine ⟨0 :: List.range' 2 (setup.outline.size - 3), ?_, fun i hi => ?_⟩
      · obtain ⟨n, hn⟩ : ∃ n, setup.outline.size = n + 3 := ⟨setup.outline.size - 3, by omega⟩
        have hlast : n + 3 - 1 = 2 + n := by omega
        have hbehind : n + 3 - 2 = n + 1 := by omega
        simp only [hn, hlast, hbehind, List.range'_1_concat, Nat.add_sub_cancel, List.cons_append]
      · rcases List.mem_cons.mp hi with rfl | hi
        · omega
        · have := List.mem_range'_1.mp hi
          omega
    · rintro ⟨only, ⟨-, honly, -⟩, hchildren⟩
      obtain rfl : only = 1 := List.singleton_inj.mp (honly.symm.trans hk)
      have htwo := hnone.mp hchildren
      exact ⟨by simp only [htwo, Nat.sub_self, List.range'_zero], htwo⟩

/-! ### What the slots say -/

/-- What the slots of a full rendition say, one behind the other. -/
theorem map_slotsAsked {heads : List Call} {o : Outline} (h : Tree heads o.nodes)
    (options : Options) (policy : AdPolicy π) (sink : Option (MetadataSink σ)) (p : π) (t : σ) :
    (slotsAsked o options policy sink p t).map (fun a => a.slot.isLastSection) =
      (visits ⟨o, options, some policy, sink⟩ .full).map fun i => i == o.size - 1 := by
  set setup : Setup π σ := ⟨o, options, some policy, sink⟩
  have ht : Tree heads setup.outline.nodes := h
  obtain ⟨-, hasked, -⟩ := events_asks o options policy sink h p t
  have hids : (openings (events setup .full p t).1).map (fun op => op.own.id) =
      visits setup .full := by
    rw [show openings _ = _ from (events_openAll ht .full p t).1, map_openAll]
  rw [← hids, List.map_map]
  have hlast : o.lastSection = o.size - 1 := h.lastSection_eq
  generalize openings (events setup .full p t).1 = os at hasked
  generalize slotsAsked o options policy sink p t = asked at hasked
  induction hasked with
  | nil => rfl
  | cons ha _ ih =>
    rw [List.map_cons, List.map_cons, ih, ha.last, hlast]
    rfl

/-- **The last slot** says that it is the last, and no other does, for every policy and all
options; but when the only section is merged whole into the root, the only slot says that it
is not the last. -/
theorem last_slot_exact {strictness : Strictness} {titled : Option (MetadataSink τ)}
    {calls : List Call} {u u' : τ} {o : Outline}
    (hb : buildWith strictness titled calls u = .ok (o, u')) (options : Options)
    (policy : AdPolicy π) (sink : Option (MetadataSink σ)) (p : π) (t : σ) :
    let asked := slotsAsked o options policy sink p t
    (SlotsEnd asked ↔ ¬ MergedWhole options o) ∧
      (MergedWhole options o → ∃ a, asked = [a] ∧ a.slot.isLastSection = false) := by
  intro asked
  set setup : Setup π σ := ⟨o, options, some policy, sink⟩
  have ht : Tree _ setup.outline.nodes := (buildWith_sound hb).1
  have hslots : asked.map (fun a => a.slot.isLastSection) =
      (visits setup .full).map fun i => i == o.size - 1 := map_slotsAsked ht options policy sink p t
  obtain ⟨hend, hwhole⟩ := visits_end ht
  have hone : MergedWhole options o → ∃ a, asked = [a] ∧ a.slot.isLastSection = false := by
    intro hm
    obtain ⟨hvisits, hsize⟩ := hwhole hm
    have hsize : o.size = 2 := hsize
    rw [hvisits, hsize] at hslots
    obtain ⟨a, ha, hfalse⟩ := List.map_eq_singleton_iff.mp hslots
    exact ⟨a, ha, hfalse⟩
  refine ⟨⟨fun hends hm => ?_, fun hm => ?_⟩, hone⟩
  · obtain ⟨before, last, hasked, htrue, -⟩ := hends
    obtain ⟨a, ha, hfalse⟩ := hone hm
    have hlast : [a].getLast? = some last := by rw [← ha, hasked, List.getLast?_concat]
    have hsame : a = last := Option.some.inj hlast
    rw [hsame, htrue] at hfalse
    cases hfalse
  · obtain ⟨before, hvisits, hbefore⟩ := hend hm
    rw [hvisits, List.map_append] at hslots
    obtain ⟨shown, rest, hasked, hshown, hrest⟩ := List.map_eq_append_iff.mp hslots
    obtain ⟨a, rfl, hlast⟩ := List.map_eq_singleton_iff.mp hrest
    refine ⟨shown, a, hasked, hlast.trans (beq_self_eq_true _), fun b hmem => ?_⟩
    have hsays : b.slot.isLastSection ∈ before.map fun i => i == o.size - 1 := by
      rw [← hshown]
      exact List.mem_map_of_mem hmem
    obtain ⟨i, hi, hsays⟩ := List.mem_map.mp hsays
    rw [← hsays]
    exact beq_false_of_ne (Nat.ne_of_lt (hbefore i hi))

/-- Of the four sections the first one is merged into the root, and three more are opened. -/
theorem last_slot_exact_stories :
    ∃ o, buildWith .strict (none : Option (MetadataSink Unit)) stories () = .ok (o, ()) ∧
      ¬ MergedWhole {} o ∧
      SlotsEnd (slotsAsked o {} failsOnce (none : Option (MetadataSink Unit)) 0 ()) := by
  have hb : buildWith .strict (none : Option (MetadataSink Unit)) stories () = .ok (_, ()) := rfl
  obtain ⟨hiff, -⟩ := last_slot_exact hb {} failsOnce (none : Option (MetadataSink Unit)) 0 ()
  refine ⟨_, hb, ?_, hiff.mpr ?_⟩ <;>
  · rintro ⟨only, ⟨-, honly, -⟩, hchildren⟩
    cases honly
    cases hchildren

/-- A page with one section. -/
def titlePage : List Call :=
  [(((Call.special (.heading .atx)).withContext Call.outlineContext).withAttribute
    levelAttribute (.int 1)).withPayload "Title", Call.text "Body"]

/-- The only slot of that page is not told to be the last. -/
theorem titlePage_without_last_slot :
    ∃ o, build .strict titlePage = .ok o ∧
      (slotsAsked o {} failsOnce (none : Option (MetadataSink Unit)) 0 ()).map Asked.slot =
        [⟨1, 1, 0, 0, false⟩] ∧
      ¬ SlotsEnd (slotsAsked o {} failsOnce (none : Option (MetadataSink Unit)) 0 ()) := by
  refine ⟨_, rfl, by decide, ?_⟩
  rintro ⟨before, a, hasked, htrue, -⟩
  have hlast := congrArg List.getLast? (congrArg (List.map fun a => a.slot.isLastSection) hasked)
  rw [List.map_append, List.map_singleton, List.getLast?_concat, htrue] at hlast
  cases hlast

end Rendering

end WikiOutline
