/-
# Slugs of slugs

The words of a slug are letters and digits in lower case.  Slugged again they stay
what they are, and so do the ids that are made of them, with their numbers.

Only a capital I with a dot leaves more: its lower case brings a dot above into the
slug, which is no letter, and which the next slug passes over.  As many dots are in a
slug as such capitals are in its text; without them it is its own slug.

The invariant is about texts made of words: `Lettered` holds of every word of a slug
and of an id, and slugging a text of such words takes the dots off and leaves all else.

Key definitions: `Anchor.isIdChar`, `Anchor.undotted`, `Anchor.Lettered`,
`Anchor.SlugLaw`.
Key theorems: `Anchor.IsLettered.toList_slugify`, `Anchor.slugify_slugLaw`.
-/
import WikiOutline.Proofs.Anchors
import WikiOutline.Proofs.LetterCase
import WikiOutline.Proofs.Slugs

namespace WikiOutline

namespace Anchor

open Text (IsSettled dottedI dotAbove)

/-- A character that ids are made of. -/
def isIdChar (c : Char) : Bool := Text.isAlphanumeric c || c == '-'

/-- A text without the dots above its letters. -/
def undotted (cs : List Char) : List Char := cs.filter (· != dotAbove)

/-- A word of letters and digits in lower case, some of which may have dots above. -/
structure Lettered (w : List Char) : Prop where
  settled : ∀ c ∈ w, IsSettled c ∨ c = dotAbove
  undotted_ne_nil : undotted w ≠ []

/-! ### Words -/

theorem ne_dotAbove_of_isSettled {c : Char} (h : IsSettled c) : c ≠ dotAbove := by
  rintro rfl
  exact absurd h.alphanumeric (by rw [Text.isAlphanumeric_dotAbove]; decide)

theorem undotted_append (xs ys : List Char) : undotted (xs ++ ys) = undotted xs ++ undotted ys :=
  List.filter_append xs ys

theorem undotted_cons_of_isSettled {c : Char} (h : IsSettled c) (cs : List Char) :
    undotted (c :: cs) = c :: undotted cs :=
  List.filter_cons_of_pos (bne_iff_ne.mpr (ne_dotAbove_of_isSettled h))

theorem lettered_lowercase {c : Char} (h : Text.isAlphanumeric c = true) :
    Lettered (Text.lowercase c) := by
  refine ⟨fun d hd => Text.isSettled_or_of_mem_lowercase h hd, ?_⟩
  by_cases hc : c = dottedI
  · rw [hc, Text.lowercase_dottedI, undotted_cons_of_isSettled Text.isSettled_i]
    exact List.cons_ne_nil _ _
  · obtain ⟨d, hd, hlower⟩ := Text.exists_lowercase_of_isAlphanumeric h hc
    rw [hlower, undotted_cons_of_isSettled hd]
    exact List.cons_ne_nil _ _

theorem lettered_of_mem_slugWords {cs w : List Char} (h : w ∈ slugWords cs) : Lettered w := by
  obtain ⟨p, hp, rfl⟩ := List.mem_map.mp h
  obtain ⟨hp, hne⟩ := List.mem_filter.mp hp
  have hlower : ∀ c ∈ p, Lettered (Text.lowercase c) := fun c hc =>
    lettered_lowercase (isAlphanumeric_of_mem_pieces hp hc)
  constructor
  · intro d hd
    obtain ⟨c, hc, hd⟩ := List.mem_flatMap.mp hd
    exact (hlower c hc).settled d hd
  · obtain ⟨c, p, rfl⟩ := List.exists_cons_of_ne_nil (by simpa using hne : p ≠ [])
    rw [List.flatMap_cons, undotted_append]
    exact List.append_ne_nil_of_left_ne_nil (hlower c List.mem_cons_self).undotted_ne_nil _

theorem isKept_of_isSettled {c : Char} (h : IsSettled c) : isKept c = true := by
  rw [isKept, h.alphanumeric, Bool.true_or]

theorem isKept_dotAbove : isKept dotAbove = false := by
  rw [isKept, Text.isAlphanumeric_dotAbove]
  decide

/-- Of a word the next slug keeps all but the dots. -/
theorem Lettered.slugWords_eq {w : List Char} (h : Lettered w) : slugWords w = [undotted w] := by
  have hkept : w.filter isKept = undotted w := by
    refine List.filter_congr fun c hc => ?_
    rcases h.settled c hc with hsettled | rfl
    · rw [isKept_of_isSettled hsettled, bne_iff_ne.mpr (ne_dotAbove_of_isSettled hsettled)]
    · rw [isKept_dotAbove, bne_self_eq_false]
  have hsettled : ∀ c ∈ undotted w, IsSettled c := by
    intro c hc
    obtain ⟨hc, hdot⟩ := List.mem_filter.mp hc
    exact (h.settled c hc).resolve_right (bne_iff_ne.mp hdot)
  have hpieces : pieces w = [undotted w] := by
    rw [pieces, hkept]
    refine List.splitOnP_eq_singleton fun c hc => ?_
    exact isSeparator_eq_false_of_isAlphanumeric (hsettled c hc).alphanumeric
  have hlower : (undotted w).flatMap Text.lowercase = undotted w := by
    rw [List.flatMap_congr fun c hc => (hsettled c hc).lowercase]
    exact List.flatMap_singleton' _
  rw [slugWords, hpieces, lowered]
  simp [h.undotted_ne_nil, hlower]

/-! ### Words with dashes between them -/

theorem slugWords_dashed : ∀ {ws : List (List Char)}, (∀ w ∈ ws, Lettered w) →
    slugWords (dashed ws) = ws.map undotted
  | [], _ => rfl
  | [w], h => by rw [dashed_singleton, (h w List.mem_cons_self).slugWords_eq, List.map_singleton]
  | w :: v :: ws, h => by
    have ih := slugWords_dashed fun u hu => h u (List.mem_cons_of_mem w hu)
    rw [dashed_cons_of_ne_nil (List.cons_ne_nil v ws), slugWords_append_cons (by decide),
      (h w List.mem_cons_self).slugWords_eq, ih, List.singleton_append, ← List.map_cons]

theorem undotted_dashed : ∀ ws : List (List Char), undotted (dashed ws) = dashed (ws.map undotted)
  | [] => rfl
  | [w] => by rw [dashed_singleton, List.map_singleton, dashed_singleton]
  | w :: v :: ws => by
    have hdash : undotted ('-' :: dashed (v :: ws)) = '-' :: undotted (dashed (v :: ws)) :=
      List.filter_cons_of_pos (by decide)
    calc undotted (dashed (w :: v :: ws))
        = undotted w ++ undotted ('-' :: dashed (v :: ws)) := by
          rw [dashed_cons_of_ne_nil (List.cons_ne_nil v ws), undotted_append]
      _ = undotted w ++ '-' :: dashed ((v :: ws).map undotted) := by
          rw [hdash, undotted_dashed (v :: ws)]
      _ = dashed ((w :: v :: ws).map undotted) :=
          (dashed_cons_of_ne_nil (List.cons_ne_nil _ _)).symm

theorem dashed_concat {ws : List (List Char)} (h : ws ≠ []) (w : List Char) :
    dashed (ws ++ [w]) = dashed ws ++ '-' :: w := by
  induction ws with
  | nil => exact absurd rfl h
  | cons v ws ih =>
    rcases eq_or_ne ws [] with rfl | hws
    · rw [List.singleton_append, dashed_cons_of_ne_nil (List.cons_ne_nil w []), dashed_singleton,
        dashed_singleton]
    · rw [List.cons_append, dashed_cons_of_ne_nil (by simp), ih hws, dashed_cons_of_ne_nil hws,
        List.append_assoc, List.cons_append]

/-- A text is made of words with dashes between them. -/
def IsLettered (text : String) : Prop :=
  ∃ ws, (∀ w ∈ ws, Lettered w) ∧ text.toList = dashed ws

theorem isLettered_slugify (text : String) : IsLettered (slugify text) :=
  ⟨_, fun _ => lettered_of_mem_slugWords, toList_slugify text⟩

/-- Slugging a text made of words takes the dots off and leaves all else. -/
theorem IsLettered.toList_slugify {text : String} (h : IsLettered text) :
    (slugify text).toList = undotted text.toList := by
  obtain ⟨ws, hws, htext⟩ := h
  rw [Anchor.toList_slugify, htext, slugWords_dashed hws, undotted_dashed]

theorem IsLettered.slugify_eq_self_iff {text : String} (h : IsLettered text) :
    slugify text = text ↔ dotAbove ∉ text.toList := by
  rw [← String.toList_inj, h.toList_slugify, undotted, List.filter_eq_self]
  constructor
  · exact fun hall hdot => bne_iff_ne.mp (hall dotAbove hdot) rfl
  · exact fun hdot c hc => bne_iff_ne.mpr fun heq => hdot (heq ▸ hc)

theorem mem_dashed {c : Char} : ∀ {ws : List (List Char)}, c ∈ dashed ws →
    c = '-' ∨ ∃ w ∈ ws, c ∈ w
  | [], h => absurd h List.not_mem_nil
  | [w], h => .inr ⟨w, List.mem_cons_self, dashed_singleton w ▸ h⟩
  | w :: v :: ws, h => by
    rw [dashed_cons_of_ne_nil (List.cons_ne_nil v ws), List.mem_append, List.mem_cons] at h
    rcases h with h | rfl | h
    · exact .inr ⟨w, List.mem_cons_self, h⟩
    · exact .inl rfl
    · rcases mem_dashed h with rfl | ⟨u, hu, hc⟩
      · exact .inl rfl
      · exact .inr ⟨u, List.mem_cons_of_mem w hu, hc⟩

theorem IsLettered.isIdChar_or {text : String} (h : IsLettered text) :
    ∀ c ∈ text.toList, isIdChar c = true ∨ c = dotAbove := by
  obtain ⟨ws, hws, htext⟩ := h
  intro c hc
  rw [htext] at hc
  rcases mem_dashed hc with rfl | ⟨w, hw, hc⟩
  · exact .inl rfl
  · exact ((hws w hw).settled c hc).imp_left fun hsettled => by
      rw [isIdChar, hsettled.alphanumeric, Bool.true_or]

theorem isIdChar_dotAbove : isIdChar dotAbove = false := by
  rw [isIdChar, Text.isAlphanumeric_dotAbove]
  decide

theorem IsLettered.forall_isIdChar_iff {text : String} (h : IsLettered text) :
    (∀ c ∈ text.toList, isIdChar c = true) ↔ dotAbove ∉ text.toList := by
  constructor
  · exact fun hall hmem => absurd (hall dotAbove hmem) (by rw [isIdChar_dotAbove]; decide)
  · exact fun hmem c hc => (h.isIdChar_or c hc).resolve_right fun heq => hmem (heq ▸ hc)

/-! ### Dots -/

theorem count_dotAbove_lowercase {c : Char} (h : Text.isAlphanumeric c = true) :
    (Text.lowercase c).count dotAbove = if c = dottedI then 1 else 0 := by
  split
  case isTrue hc =>
    rw [hc]
    decide
  case isFalse hc =>
    obtain ⟨d, hd, hlower⟩ := Text.exists_lowercase_of_isAlphanumeric h hc
    rw [hlower, List.count_singleton, if_neg]
    exact fun heq => ne_dotAbove_of_isSettled hd (beq_iff_eq.mp heq)

/-- The walk writes one dot for each capital I with a dot. -/
theorem count_dotAbove_slugChars (cs : List Char) (afterDash : Bool) :
    (slugChars afterDash cs).count dotAbove = cs.count dottedI := by
  induction cs generalizing afterDash with
  | nil => cases afterDash <;> rfl
  | cons c cs ih =>
    rw [List.count_cons]
    by_cases halnum : Text.isAlphanumeric c = true
    · rw [slugChars, if_pos halnum, List.count_append, count_dotAbove_lowercase halnum, ih,
        Nat.add_comm]
      simp only [beq_iff_eq]
    · -- the capital is a letter itself, so what is passed over or parts words is not it
      have hc : ¬ (c == dottedI) = true := fun heq =>
        halnum (beq_iff_eq.mp heq ▸ Text.isAlphanumeric_dottedI)
      rw [slugChars, if_neg halnum, if_neg hc, Nat.add_zero]
      split
      · rw [List.count_cons_of_ne (by decide), ih]
      · exact ih afterDash

theorem count_dropLastDash (cs : List Char) :
    (dropLastDash cs).count dotAbove = cs.count dotAbove := by
  unfold dropLastDash
  split
  case isTrue hlast =>
    obtain ⟨xs, rfl⟩ := List.getLast?_eq_some_iff.mp (beq_iff_eq.mp hlast)
    rw [List.dropLast_concat, List.count_append, List.count_singleton, if_neg (by decide),
      Nat.add_zero]
  case isFalse => rfl

theorem count_dropWhile_isBlank {c : Char} (h : Text.isBlank c = false) (cs : List Char) :
    (cs.dropWhile Text.isBlank).count c = cs.count c := by
  induction cs with
  | nil => rfl
  | cons d cs ih =>
    by_cases hd : Text.isBlank d = true
    · have hne : d ≠ c := by
        rintro rfl
        rw [h] at hd
        exact absurd hd (by decide)
      rw [List.dropWhile_cons_of_pos hd, ih, List.count_cons_of_ne hne]
    · rw [List.dropWhile_cons_of_neg hd]

theorem count_trim {c : Char} (h : Text.isBlank c = false) (cs : List Char) :
    (Text.trim cs).count c = cs.count c := by
  rw [Text.trim, Text.dropEndWhile, List.count_reverse, count_dropWhile_isBlank h,
    List.count_reverse, count_dropWhile_isBlank h]

theorem count_dotAbove_slugify (text : String) :
    (slugify text).toList.count dotAbove = text.toList.count dottedI := by
  rw [slugify, String.toList_ofList, count_dropLastDash, count_dotAbove_slugChars,
    count_trim (by decide)]

theorem dotAbove_mem_slugify_iff (text : String) :
    dotAbove ∈ (slugify text).toList ↔ dottedI ∈ text.toList := by
  rw [← List.count_pos_iff, count_dotAbove_slugify, List.count_pos_iff]

/-! ### Ids -/

theorem isSettled_of_mem_toString {n : Nat} {c : Char} (h : c ∈ (toString n).toList) :
    IsSettled c := by
  have hdigit : c ∈ Nat.toDigits 10 n := by simpa [Nat.toList_repr] using h
  exact Text.isSettled_of_isDigit (Nat.isDigit_of_mem_toDigits (by decide) (by decide) hdigit)

theorem dotAbove_notMem_toString (n : Nat) : dotAbove ∉ (toString n).toList :=
  fun h => ne_dotAbove_of_isSettled (isSettled_of_mem_toString h) rfl

theorem lettered_toString (n : Nat) : Lettered (toString n).toList := by
  refine ⟨fun c hc => .inl (isSettled_of_mem_toString hc), ?_⟩
  have hsame : undotted (toString n).toList = (toString n).toList :=
    List.filter_eq_self.mpr fun c hc =>
      bne_iff_ne.mpr (ne_dotAbove_of_isSettled (isSettled_of_mem_toString hc))
  rw [hsame]
  simp [Nat.toList_repr, Nat.toDigits_ne_nil]

theorem slugify_fallback : slugify fallback = fallback := by decide +kernel

theorem isLettered_base (label : String) : IsLettered (base none label) := by
  simp only [base]
  split
  · exact slugify_fallback ▸ isLettered_slugify fallback
  · exact isLettered_slugify label

theorem dotAbove_mem_base_iff (label : String) :
    dotAbove ∈ (base none label).toList ↔ dottedI ∈ label.toList := by
  rw [← dotAbove_mem_slugify_iff]
  simp only [base]
  split
  case isTrue hempty =>
    have hslug : slugify label = "" := String.isEmpty_iff.mp hempty
    rw [hslug]
    decide
  case isFalse => rfl

theorem IsLettered.numbered {b : String} (h : IsLettered b) (hb : b ≠ "") (n : Nat) :
    IsLettered (numbered b n) := by
  unfold Anchor.numbered
  split
  case isTrue => exact h
  case isFalse =>
    obtain ⟨ws, hws, htext⟩ := h
    have hne : ws ≠ [] := by
      rintro rfl
      exact hb (String.toList_inj.mp htext)
    refine ⟨ws ++ [(toString n).toList], fun w hw => ?_, ?_⟩
    · rcases List.mem_append.mp hw with hw | hw
      · exact hws w hw
      · exact List.mem_singleton.mp hw ▸ lettered_toString n
    · rw [String.toList_append, String.toList_append, htext, dashed_concat hne, List.append_assoc]
      rfl

theorem dotAbove_mem_numbered_iff (b : String) (n : Nat) :
    dotAbove ∈ (numbered b n).toList ↔ dotAbove ∈ b.toList := by
  unfold numbered
  split
  case isTrue => rfl
  case isFalse =>
    have hdash : dotAbove ∉ "-".toList := by decide
    rw [String.toList_append, String.toList_append, List.mem_append, List.mem_append]
    simp only [hdash, dotAbove_notMem_toString, or_false]

/-- The slug of a text slugged again, and the slug of an id given out for the text as
a label. -/
structure SlugLaw (text : String) : Prop where
  /-- A slug is made of id characters and of dots, -/
  made : ∀ c ∈ (slugify text).toList, isIdChar c = true ∨ c = dotAbove
  /-- of which there is one for each capital I with a dot. -/
  dots : (slugify text).toList.count dotAbove = text.toList.count dottedI
  /-- The next slug is the same without the dots, -/
  next : (slugify (slugify text)).toList = undotted (slugify text).toList
  /-- and from then on nothing changes. -/
  settled : slugify (slugify (slugify text)) = slugify (slugify text)
  /-- So a slug is made of id characters only, -/
  made_iff : (∀ c ∈ (slugify text).toList, isIdChar c = true) ↔ dottedI ∉ text.toList
  /-- is its own slug, -/
  next_iff : slugify (slugify text) = slugify text ↔ dottedI ∉ text.toList
  /-- and leads from its id back to the id, just if no such capital is in the text. -/
  id_iff : ∀ ids : HeadingIds, slugify (ids.assign none text).1 = (ids.assign none text).1 ↔
    dottedI ∉ text.toList

theorem dotAbove_notMem_undotted (cs : List Char) : dotAbove ∉ undotted cs := fun h =>
  bne_iff_ne.mp (List.mem_filter.mp h).2 rfl

/-- **What becomes of a slug that is slugged again.**  It is made of id characters and
stays the same, and so does the id made of it, just if the text has no capital I with a
dot; else the dots are lost. -/
theorem slugify_slugLaw (text : String) : SlugLaw text := by
  have hslug := isLettered_slugify text
  refine ⟨hslug.isIdChar_or, count_dotAbove_slugify text, hslug.toList_slugify, ?_, ?_, ?_, ?_⟩
  · rw [(isLettered_slugify (slugify text)).slugify_eq_self_iff, hslug.toList_slugify]
    exact dotAbove_notMem_undotted _
  · rw [hslug.forall_isIdChar_iff, dotAbove_mem_slugify_iff]
  · rw [hslug.slugify_eq_self_iff, dotAbove_mem_slugify_iff]
  · intro ids
    have hid := (isLettered_base text).numbered (base_ne_empty (by decide) text)
      (ids.bases.count (base none text))
    rw [HeadingIds.assign_eq, hid.slugify_eq_self_iff, dotAbove_mem_numbered_iff,
      dotAbove_mem_base_iff]

/-- The slug of the capital I with a dot has a character that is none of an id, and the
next slug is another one: that of the letter I, which leads to its heading. -/
theorem slug_of_dottedI_changes :
    (¬ ∀ text : String, ∀ c ∈ (slugify text).toList, isIdChar c = true) ∧
      (¬ ∀ text : String, slugify (slugify text) = slugify text) ∧
      HeadingIds.assignAll {} [(none, "\u0130"), (none, "I")] = ["i\u0307", "i"] ∧
      slugify "i\u0307" = "i" := by
  have hslug : slugify "\u0130" = "i\u0307" := by decide +kernel
  have hnext : slugify "i\u0307" = "i" := by decide +kernel
  refine ⟨fun hall => ?_, fun hall => ?_, by decide +kernel, hnext⟩
  · have hdot := hall "\u0130" dotAbove (by rw [hslug]; decide)
    rw [isIdChar_dotAbove] at hdot
    exact absurd hdot (by decide)
  · have hsame := hall "\u0130"
    rw [hslug, hnext] at hsame
    exact absurd hsame (by decide)

end Anchor

end WikiOutline
