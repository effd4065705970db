/-
# The ids given out on a page

An id is a base and the number of earlier ids of that base, which is left out when
it is 0.  No two ids have the same base and the same number; so two ids are equal
only where one is a base by itself that looks like the base and the number of the
other.

Key definitions: `HeadingIds.assignAll`, `Anchor.numbered`, `Anchor.ranked`,
`Anchor.Apart`.
Key theorems: `HeadingIds.assignAll_of_nodup`, `HeadingIds.assignAll_nodup_iff`.
-/
import Mathlib
import WikiOutline.Anchor

namespace WikiOutline

namespace Anchor

/-- A base behind some earlier ids of it. -/
def numbered (base : String) (count : Nat) : String :=
  if count = 0 then base else base ++ "-" ++ toString count

/-- The bases, each with the number of times it came before. -/
def ranked : List String → List String → List (String × Nat)
  | _, [] => []
  | seen, b :: bs => (b, seen.count b) :: ranked (b :: seen) bs

/-- No base reads like another base with one of the numbers given out for it. -/
def Apart (bases : List String) : Prop :=
  ∀ b ∈ bases, ∀ n, 0 < n → n < bases.count b → b ++ "-" ++ toString n ∉ bases

/-! ### Bases and numbers -/

theorem mem_ranked {b : String} {n : Nat} : ∀ {seen bs : List String},
    (b, n) ∈ ranked seen bs ↔ seen.count b ≤ n ∧ n < seen.count b + bs.count b
  | seen, [] => by simp [ranked]
  | seen, c :: bs => by
    rw [ranked, List.mem_cons, mem_ranked, Prod.mk.injEq]
    by_cases h : c = b
    · subst h
      rw [List.count_cons_self, List.count_cons_self]
      constructor
      · rintro (⟨-, rfl⟩ | h) <;> omega
      · intro h
        rcases Nat.eq_or_lt_of_le h.1 with h1 | h1
        · exact .inl ⟨rfl, h1.symm⟩
        · exact .inr (by omega)
    · rw [List.count_cons_of_ne h, List.count_cons_of_ne h]
      constructor
      · rintro (⟨rfl, -⟩ | h')
        · exact absurd rfl h
        · exact h'
      · exact .inr

/-- No base comes twice with the same number. -/
theorem nodup_ranked : ∀ seen bs : List String, (ranked seen bs).Nodup
  | _, [] => List.nodup_nil
  | seen, b :: bs => by
    rw [ranked, List.nodup_cons]
    refine ⟨fun hm => ?_, nodup_ranked _ _⟩
    have h := (mem_ranked.mp hm).1
    rw [List.count_cons_self] at h
    omega

/-- Bases that are distinct have no number. -/
theorem ranked_of_nodup : ∀ {seen bs : List String}, bs.Nodup → (∀ b ∈ bs, b ∉ seen) →
    ranked seen bs = bs.map fun b => (b, 0)
  | _, [], _, _ => rfl
  | seen, b :: bs, hnodup, hseen => by
    obtain ⟨hb, hbs⟩ := List.nodup_cons.mp hnodup
    have hrest : ∀ d ∈ bs, d ∉ b :: seen := fun d hd hmem => by
      rcases List.mem_cons.mp hmem with rfl | hmem
      · exact hb hd
      · exact hseen d (List.mem_cons_of_mem b hd) hmem
    rw [ranked, List.count_eq_zero.mpr (hseen b List.mem_cons_self), ranked_of_nodup hbs hrest]
    rfl

/-- A base is never empty, if no explicit id is. -/
theorem base_ne_empty {explicit : Option String} (h : explicit ≠ some "") (label : String) :
    base explicit label ≠ "" := by
  unfold base
  split
  · rename_i id
    exact fun he => h (he ▸ rfl)
  · simp only
    split
    · decide
    · rename_i hs
      exact fun he => hs (by rw [he]; rfl)

theorem numbered_ne_empty {b : String} (h : b ≠ "") (n : Nat) : numbered b n ≠ "" := by
  unfold numbered
  split
  · exact h
  · intro he
    have h' := congrArg String.toList he
    simp [String.toList_append] at h'

/-! ### Reading an id -/

theorem dash_notMem_toString (n : Nat) : '-' ∉ (toString n).toList := by
  intro h
  have hd : '-' ∈ Nat.toDigits 10 n := by simpa [Nat.toList_repr] using h
  have := Nat.isDigit_of_mem_toDigits (by decide) (by decide) hd
  revert this
  decide

/-- A text is parted in one way only at its last mark. -/
theorem append_cons_inj_of_notMem_right {α : Type} {a : α} {xs xs' ys ys' : List α}
    (h : xs ++ a :: ys = xs' ++ a :: ys') (hy : a ∉ ys) (hy' : a ∉ ys') : xs = xs' ∧ ys = ys' := by
  rcases List.append_eq_append_iff.mp h with ⟨as, h1, h2⟩ | ⟨as, h1, h2⟩
  · cases as with
    | nil =>
      rw [List.append_nil] at h1
      exact ⟨h1.symm, (List.cons.inj h2).2⟩
    | cons x as =>
      refine absurd ?_ hy
      rw [(List.cons.inj h2).2]
      exact List.mem_append_right _ List.mem_cons_self
  · cases as with
    | nil =>
      rw [List.append_nil] at h1
      exact ⟨h1, (List.cons.inj h2).2.symm⟩
    | cons x as =>
      refine absurd ?_ hy'
      rw [(List.cons.inj h2).2]
      exact List.mem_append_right _ List.mem_cons_self

/-- A number at the end can be read off. -/
theorem numbered_inj {b c : String} {n m : Nat}
    (h : b ++ "-" ++ toString n = c ++ "-" ++ toString m) : b = c ∧ n = m := by
  have h' := congrArg String.toList h
  simp only [String.toList_append, List.append_assoc] at h'
  obtain ⟨h1, h2⟩ := append_cons_inj_of_notMem_right h' (dash_notMem_toString n)
    (dash_notMem_toString m)
  exact ⟨String.toList_injective h1, Nat.repr_injective (String.toList_injective h2)⟩

end Anchor

namespace HeadingIds

open Anchor

/-- Gives out an id for each of some headings, an explicit one or a label. -/
def assignAll : HeadingIds → List (Option String × String) → List String
  | _, [] => []
  | ids, r :: rs => (ids.assign r.1 r.2).1 :: assignAll (ids.assign r.1 r.2).2 rs

/-- The bases of some headings. -/
def basesOf (requests : List (Option String × String)) : List String :=
  requests.map fun r => base r.1 r.2

theorem assign_eq (ids : HeadingIds) (explicit : Option String) (label : String) :
    ids.assign explicit label =
      (numbered (base explicit label) (ids.bases.count (base explicit label)),
        ⟨base explicit label :: ids.bases⟩) := rfl

theorem assignAll_eq : ∀ (ids : HeadingIds) (requests : List (Option String × String)),
    ids.assignAll requests =
      (ranked ids.bases (basesOf requests)).map fun p => numbered p.1 p.2
  | _, [] => rfl
  | ids, r :: rs => by
    rw [assignAll, assign_eq, assignAll_eq]
    rfl

/-- Distinct bases are given out as they are. -/
theorem assignAll_of_nodup {requests : List (Option String × String)}
    (h : (basesOf requests).Nodup) : assignAll {} requests = basesOf requests := by
  have hranked : ranked [] (basesOf requests) = (basesOf requests).map fun b => (b, 0) :=
    ranked_of_nodup h fun _ _ => List.not_mem_nil
  rw [assignAll_eq, hranked, List.map_map]
  exact List.map_id' _

/-- **When the ids of a page are distinct**: just when no base reads like another
one with a number. -/
theorem assignAll_nodup_iff (requests : List (Option String × String)) :
    (assignAll {} requests).Nodup ↔ Apart (basesOf requests) := by
  set bases := basesOf requests with hbases
  have hmem : ∀ b n, (b, n) ∈ ranked [] bases ↔ n < bases.count b := fun b n => by
    rw [mem_ranked, List.count_nil]
    omega
  rw [assignAll_eq, List.nodup_map_iff_inj_on (nodup_ranked _ _)]
  constructor
  · intro hinj b hb n h0 hn hclash
    -- the base that reads like an id is given out itself, without a number
    have h := hinj (b, n) ((hmem b n).mpr hn) (b ++ "-" ++ toString n, 0)
      ((hmem _ _).mpr (List.count_pos_iff.mpr hclash))
      (by simp [numbered, Nat.ne_of_gt h0])
    exact absurd (congrArg Prod.snd h) (Nat.ne_of_gt h0)
  · rintro hapart ⟨b, n⟩ hb ⟨c, m⟩ hc heq
    rw [hmem] at hb hc
    have hbm : b ∈ bases := List.count_pos_iff.mp (by omega)
    have hcm : c ∈ bases := List.count_pos_iff.mp (by omega)
    simp only [numbered] at heq
    by_cases hn : n = 0
    · by_cases hm : m = 0
      · rw [if_pos hn, if_pos hm] at heq
        rw [heq, hn, hm]
      · rw [if_pos hn, if_neg hm] at heq
        exact absurd (heq ▸ hbm) (hapart c hcm m (Nat.pos_of_ne_zero hm) hc)
    · by_cases hm : m = 0
      · rw [if_neg hn, if_pos hm] at heq
        exact absurd (heq ▸ hcm) (hapart b hbm n (Nat.pos_of_ne_zero hn) hb)
      · rw [if_neg hn, if_neg hm] at heq
        obtain ⟨rfl, rfl⟩ := numbered_inj heq
        rfl

end HeadingIds

end WikiOutline
