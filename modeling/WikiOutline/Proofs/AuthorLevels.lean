/-
# The level that an author gave

A heading is written at the level its section lies at.  Where this is another one than the
level it was given, that one is kept beside it (`get?_leveled_declared`), so the heading still
tells what its author meant.  This holds of every level from 1 on, however far it was
corrected, and of no other: a level below 1 counts as 1 before anything is kept, and nothing
tells it from a 1 that was given (`author_level_kept`).

Key definition: `Section.TellsLevel`.
Key theorem: `Outline.author_level_kept`.
-/
import WikiOutline.Proofs.TreeLaw

namespace WikiOutline

open Outline

/-- A section and its heading tell the level `v`: it is the one written in the heading, or
it is kept there as the declared one, which is there only then. -/
structure Section.TellsLevel (s : Section) (v : Int) : Prop where
  heading : ∃ first rest w, s.headingCalls = first :: rest ∧
    first.attributes.getInt? levelAttribute = some w ∧
    (w ≠ v → first.attributes.getInt? declaredLevelAttribute = some v) ∧
    (w = v → first.attributes.contains declaredLevelAttribute = false)
  declared : (s.declaredLevel : Int) = v

namespace Outline

open Builder Reading

/-- A level that was given counts as it is, but for one below 1. -/
theorem levelRead_eq_max {c : Call} {v : Int}
    (hv : c.attributes.getInt? levelAttribute = some v) (previous : Nat) :
    (levelRead previous c : Int) = max v 1 := by
  unfold levelRead
  simp only [hv]
  by_cases h1 : 1 ≤ v
  · rw [if_pos h1, max_eq_left h1]
    apply Int.toNat_of_nonneg
    omega
  · rw [if_neg h1, max_eq_right (by omega)]
    rfl

/-- A level is kept as the declared one where another one is written. -/
theorem get?_leveled_declared (c : Call) (declared level : Nat) :
    (leveled c declared level).attributes.get? declaredLevelAttribute =
      if level = declared then c.attributes.get? declaredLevelAttribute
      else some (.ofNat declared) := by
  have hkeys : declaredLevelAttribute ≠ levelAttribute := by decide
  unfold leveled
  rw [Call.get?_withAttribute_ne _ _ hkeys]
  by_cases h : level = declared
  · rw [if_pos h, if_pos h]
  · rw [if_neg h, if_neg h]
    apply Call.get?_withAttribute_self

/-- What the heading of a section says of its level, where the call that starts it says
nothing of a declared one. -/
theorem Tree.heading_levels {heads : List Call} {o : Outline} (h : Tree heads o.nodes) {i : Nat}
    {c : Call} (hc : heads[i]? = some c)
    (hnone : c.attributes.get? declaredLevelAttribute = none) :
    ∃ first rest, (o.get (i + 1)).headingCalls = first :: rest ∧
      first.attributes.getInt? levelAttribute = some ((o.get (i + 1)).level : Int) ∧
      first.attributes.get? declaredLevelAttribute =
        if (o.get (i + 1)).level = (o.get (i + 1)).declaredLevel then none
        else some (.ofNat (o.get (i + 1)).declaredLevel) := by
  obtain ⟨first, rest, hheading, hfirst, w, hw, hlevel⟩ := h.exists_heading hc
  refine ⟨first, rest, hheading, ?_, ?_⟩
  · calc first.attributes.getInt? levelAttribute
        = (some (AttributeValue.int w)).bind AttributeValue.asInt? := by
          rw [Attributes.getInt?, hw]
      _ = some ((o.get (i + 1)).level : Int) := congrArg some hlevel
  · rw [hfirst, get?_leveled_declared, hnone]

/-- **The author's level** can be told from a section just when it is 1 or more.  A lower
level is written as 1, and there is no trace of it. -/
theorem author_level_kept {σ : Type} {strictness : Strictness} {sink : Option (MetadataSink σ)}
    {calls : List Call} {s s' : σ} {o : Outline}
    (hb : buildWith strictness sink calls s = .ok (o, s')) {i : Nat} {c : Call} {v : Int}
    (hc : (startingCalls {} calls)[i]? = some c)
    (hv : c.attributes.getInt? levelAttribute = some v)
    (hnone : c.attributes.get? declaredLevelAttribute = none) :
    ((o.get (i + 1)).TellsLevel v ↔ 1 ≤ v) ∧
      (v < 1 → (o.get (i + 1)).TellsLevel 1) := by
  obtain ⟨ht, -, -⟩ := buildWith_sound hb
  obtain ⟨first, rest, hheading, hlevel, hdeclared⟩ := ht.heading_levels hc hnone
  obtain ⟨hread, -⟩ := ht.isFrom i c hc
  rw [nodeAt_nodes, nodeAt_nodes] at hread
  have hmax : ((o.get (i + 1)).declaredLevel : Int) = max v 1 :=
    (congrArg Nat.cast hread).trans (levelRead_eq_max hv _)
  have hrange : ((o.get (i + 1)).declaredLevel : Int) ≤ Word.maxInt := by
    have hle := Attributes.getInt?_le hv
    have hone : (1 : Int) ≤ Word.maxInt := by decide
    omega
  -- the section tells the level that it was read at
  have htells : (o.get (i + 1)).TellsLevel (max v 1) := by
    refine ⟨⟨first, rest, _, hheading, hlevel, fun hne => ?_, fun heq => ?_⟩, hmax⟩
    · obtain ⟨w, hw, hint⟩ := AttributeValue.ofNat_eq_int hrange
      rw [if_neg (fun h => hne (by rw [h, hmax])), hw] at hdeclared
      rw [Attributes.getInt?, hdeclared, ← hmax]
      exact congrArg some hint
    · rw [if_pos (by omega)] at hdeclared
      rw [Attributes.contains, hdeclared]
      rfl
  refine ⟨⟨fun h => ?_, fun h => ?_⟩, fun h => ?_⟩
  · have := h.declared
    omega
  · rwa [max_eq_left h] at htells
  · rwa [max_eq_right (by omega)] at htells

/-- A heading that is complete, of a level. -/
def headlineAt (level : Int64) (label : String) : Call :=
  (((Call.special (.heading .atx)).withContext Call.outlineContext).withAttribute
    levelAttribute (.int level)).withPayload label

/-- The heading of level 3 lies at level 2, and tells its level. -/
theorem author_level_kept_below_home :
    ∃ o, buildWith .strict (none : Option (MetadataSink Unit))
        [headlineAt 1 "Home", headlineAt 3 "News"] () = .ok (o, ()) ∧
      (startingCalls {} [headlineAt 1 "Home", headlineAt 3 "News"])[1]? =
        some (headlineAt 3 "News") ∧
      (headlineAt 3 "News").attributes.getInt? levelAttribute = some 3 ∧
      (headlineAt 3 "News").attributes.get? declaredLevelAttribute = none ∧
      (o.get 2).level = 2 ∧ (o.get 2).TellsLevel 3 := by
  have hb : buildWith .strict (none : Option (MetadataSink Unit))
      [headlineAt 1 "Home", headlineAt 3 "News"] () = .ok (_, ()) := rfl
  have hc : (startingCalls {} [headlineAt 1 "Home", headlineAt 3 "News"])[1]? =
      some (headlineAt 3 "News") := rfl
  have hv : (headlineAt 3 "News").attributes.getInt? levelAttribute = some 3 := by decide
  have hnone : (headlineAt 3 "News").attributes.get? declaredLevelAttribute = none := by decide
  exact ⟨_, hb, hc, hv, hnone, rfl, (author_level_kept hb hc hv hnone).1.mpr (by decide)⟩

/-- A heading of level 0 starts a section like any other, and its level is lost. -/
theorem level_zero_lost :
    ∃ o, build .strict [headlineAt 0 "News"] = .ok o ∧
      (startingCalls {} [headlineAt 0 "News"])[0]? = some (headlineAt 0 "News") ∧
      (headlineAt 0 "News").attributes.getInt? levelAttribute = some 0 ∧
      (headlineAt 0 "News").attributes.get? declaredLevelAttribute = none ∧
      ¬ (o.get 1).TellsLevel 0 := by
  refine ⟨_, rfl, rfl, by decide, by decide, fun h => ?_⟩
  have hdeclared : ((1 : Nat) : Int) = 0 := h.declared
  cases hdeclared

end Outline

end WikiOutline
