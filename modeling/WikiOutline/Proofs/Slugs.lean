/-
# The words of a slug

A slug is read off its text in one walk that remembers only whether another dash
may follow.  It could as well be put together from words: of the text the letters,
digits and separators are kept, what is kept is parted at the separators, and the
pieces that are not empty stand in lower case with one dash between two of them.

The invariant is about the walk from any place: what it writes there are the words
of the rest of the text, of which the first goes on from what stands before unless
that is a dash; and a dash may be left over at the end.

Key definitions: `Anchor.pieces`, `Anchor.slugWords`, `Anchor.dashed`, `Anchor.Ragged`.
Key theorems: `Anchor.ragged_slugChars`, `Anchor.slugify_eq_dashed_slugWords`.
-/
import Mathlib
import WikiOutline.Anchor
import WikiOutline.Proofs.LetterCase

namespace WikiOutline

namespace Anchor

/-- A character that a slug does not pass over. -/
def isKept (c : Char) : Bool := Text.isAlphanumeric c || isSeparator c

/-- What lies between the separators of the characters kept. -/
def pieces (cs : List Char) : List (List Char) := (cs.filter isKept).splitOnP isSeparator

/-- The pieces that are not empty, in lower case. -/
def lowered (ps : List (List Char)) : List (List Char) :=
  (ps.filter fun p => !p.isEmpty).map fun p => p.flatMap Text.lowercase

/-- The words that the slug of a text is made of. -/
def slugWords (cs : List Char) : List (List Char) := lowered (pieces cs)

/-- Words with one dash between two of them. -/
def dashed (words : List (List Char)) : List Char := List.intercalate ['-'] words

/-! ### Letters, digits and separators -/

/-- The blank characters beyond ASCII. -/
def wideBlanks : List (Nat × Nat) :=
  [(0x85, 0x85), (0xA0, 0xA0), (0x1680, 0x1680), (0x2000, 0x200A), (0x2028, 0x2029),
    (0x202F, 0x202F), (0x205F, 0x205F), (0x3000, 0x3000)]

theorem alphanumericRanges_apart :
    ∀ r ∈ Text.alphanumericRanges, ∀ b ∈ wideBlanks, r.2 < b.1 ∨ b.2 < r.1 := by
  decide +kernel

theorem mem_wideBlanks {c : Char} (hwide : 128 ≤ c.toNat) (h : Text.isBlank c = true) :
    ∃ b ∈ wideBlanks, b.1 ≤ c.toNat ∧ c.toNat ≤ b.2 := by
  simp only [Text.isBlank, Bool.or_eq_true, Bool.and_eq_true, decide_eq_true_eq,
    beq_iff_eq] at h
  simp only [wideBlanks, List.mem_cons, List.not_mem_nil, or_false, exists_eq_or_imp,
    exists_eq_left]
  omega

theorem toNat_of_isAlphanum {c : Char} (h : c.isAlphanum = true) : 48 ≤ c.toNat := by
  simp only [Char.isAlphanum, Char.isAlpha, Char.isUpper, Char.isLower, Char.isDigit,
    Bool.or_eq_true, Bool.and_eq_true, decide_eq_true_eq, ge_iff_le,
    UInt32.le_iff_toNat_le] at h
  change (65 ≤ c.toNat ∧ c.toNat ≤ 90 ∨ 97 ≤ c.toNat ∧ c.toNat ≤ 122) ∨
    48 ≤ c.toNat ∧ c.toNat ≤ 57 at h
  omega

theorem isBlank_eq_false_of_isAlphanumeric {c : Char} (h : Text.isAlphanumeric c = true) :
    Text.isBlank c = false := by
  by_contra hblank
  rw [Bool.not_eq_false] at hblank
  unfold Text.isAlphanumeric at h
  split at h
  case isTrue hascii =>
    have hlow := toNat_of_isAlphanum h
    simp only [Text.isBlank, Bool.or_eq_true, Bool.and_eq_true, decide_eq_true_eq,
      beq_iff_eq] at hblank
    omega
  case isFalse hwide =>
    obtain ⟨b, hb, hlow, hhigh⟩ := mem_wideBlanks (by omega) hblank
    rw [Text.inRanges, List.any_eq_true] at h
    obtain ⟨r, hr, hin⟩ := h
    rw [Bool.and_eq_true, decide_eq_true_eq, decide_eq_true_eq] at hin
    have hapart := alphanumericRanges_apart r hr b hb
    omega

/-- No letter or digit parts two words. -/
theorem isSeparator_eq_false_of_isAlphanumeric {c : Char} (h : Text.isAlphanumeric c = true) :
    isSeparator c = false := by
  rw [isSeparator, isBlank_eq_false_of_isAlphanumeric h, Bool.false_or, Bool.or_eq_false_iff,
    beq_eq_false_iff_ne, beq_eq_false_iff_ne]
  constructor <;> rintro rfl <;> exact absurd h (by decide)

theorem lowercase_ne_nil (c : Char) : Text.lowercase c ≠ [] := by
  unfold Text.lowercase
  split_ifs
  · exact List.cons_ne_nil _ _
  · exact List.cons_ne_nil _ _
  · cases Text.shiftBy? Text.lowercaseRuns c.toNat <;> exact List.cons_ne_nil _ _

/-! ### Pieces -/

@[simp]
theorem pieces_nil : pieces [] = [[]] := rfl

theorem pieces_ne_nil (cs : List Char) : pieces cs ≠ [] := List.splitOnP_ne_nil _ _

theorem pieces_cons_of_isSeparator {c : Char} (h : isSeparator c = true) (cs : List Char) :
    pieces (c :: cs) = [] :: pieces cs := by
  have hkept : isKept c = true := by rw [isKept, h, Bool.or_true]
  rw [pieces, List.filter_cons_of_pos hkept, List.splitOnP_cons_eq_if_modifyHead, if_pos h, pieces]

theorem pieces_cons_of_isAlphanumeric {c : Char} (h : Text.isAlphanumeric c = true)
    {cs p : List Char} {ps : List (List Char)} (hps : pieces cs = p :: ps) :
    pieces (c :: cs) = (c :: p) :: ps := by
  have hkept : isKept c = true := by rw [isKept, h, Bool.true_or]
  have hsep : ¬ isSeparator c = true := by rw [isSeparator_eq_false_of_isAlphanumeric h]; decide
  rw [pieces] at hps
  rw [pieces, List.filter_cons_of_pos hkept, List.splitOnP_cons_eq_if_modifyHead, if_neg hsep, hps,
    List.modifyHead_cons]

theorem pieces_cons_of_not_isKept {c : Char} (h : ¬ isKept c = true) (cs : List Char) :
    pieces (c :: cs) = pieces cs := by
  rw [pieces, List.filter_cons_of_neg h, pieces]

theorem pieces_append_cons {c : Char} (h : isSeparator c = true) (xs ys : List Char) :
    pieces (xs ++ c :: ys) = pieces xs ++ pieces ys := by
  have hkept : isKept c = true := by rw [isKept, h, Bool.or_true]
  rw [pieces, List.filter_append, List.filter_cons_of_pos hkept, List.splitOnP_append_cons _ _ h,
    pieces, pieces]

/-- Every character of a piece is a letter or a digit. -/
theorem isAlphanumeric_of_mem_pieces {c : Char} {cs p : List Char} (hp : p ∈ pieces cs)
    (hc : c ∈ p) : Text.isAlphanumeric c = true := by
  induction cs generalizing p with
  | nil =>
    rw [pieces_nil, List.mem_singleton] at hp
    rw [hp] at hc
    exact absurd hc List.not_mem_nil
  | cons d cs ih =>
    by_cases halnum : Text.isAlphanumeric d = true
    · obtain ⟨q, qs, hqs⟩ := List.exists_cons_of_ne_nil (pieces_ne_nil cs)
      rw [pieces_cons_of_isAlphanumeric halnum hqs] at hp
      rcases List.mem_cons.mp hp with rfl | hp
      · rcases List.mem_cons.mp hc with rfl | hc
        · exact halnum
        · exact ih (hqs ▸ List.mem_cons_self) hc
      · exact ih (hqs ▸ List.mem_cons_of_mem q hp) hc
    by_cases hsep : isSeparator d = true
    · rw [pieces_cons_of_isSeparator hsep] at hp
      rcases List.mem_cons.mp hp with rfl | hp
      · exact absurd hc List.not_mem_nil
      · exact ih hp hc
    · have hkept : ¬ isKept d = true := by simp [isKept, halnum, hsep]
      rw [pieces_cons_of_not_isKept hkept] at hp
      exact ih hp hc

/-! ### Blanks at the ends -/

theorem lowered_append (ps qs : List (List Char)) :
    lowered (ps ++ qs) = lowered ps ++ lowered qs := by
  rw [lowered, List.filter_append, List.map_append, lowered, lowered]

theorem slugWords_append_cons {c : Char} (h : isSeparator c = true) (xs ys : List Char) :
    slugWords (xs ++ c :: ys) = slugWords xs ++ slugWords ys := by
  rw [slugWords, pieces_append_cons h, lowered_append, slugWords, slugWords]

theorem isSeparator_of_isBlank {c : Char} (h : Text.isBlank c = true) : isSeparator c = true := by
  rw [isSeparator, h, Bool.true_or, Bool.true_or]

theorem slugWords_dropWhile_isBlank (cs : List Char) :
    slugWords (cs.dropWhile Text.isBlank) = slugWords cs := by
  induction cs with
  | nil => rfl
  | cons c cs ih =>
    by_cases h : Text.isBlank c = true
    · rw [List.dropWhile_cons_of_pos h, ih]
      exact (slugWords_append_cons (isSeparator_of_isBlank h) [] cs).symm
    · rw [List.dropWhile_cons_of_neg h]

theorem slugWords_dropEndWhile_isBlank (cs : List Char) :
    slugWords (Text.dropEndWhile Text.isBlank cs) = slugWords cs := by
  induction cs using List.reverseRecOn with
  | nil => rfl
  | append_singleton cs c ih =>
    rw [Text.dropEndWhile, List.reverse_append, List.reverse_singleton, List.singleton_append]
    by_cases h : Text.isBlank c = true
    · rw [List.dropWhile_cons_of_pos h, slugWords_append_cons (isSeparator_of_isBlank h)]
      exact ih.trans (List.append_nil _).symm
    · rw [List.dropWhile_cons_of_neg h, List.reverse_cons, List.reverse_reverse]

/-- Blanks at the ends of a text belong to no word. -/
theorem slugWords_trim (cs : List Char) : slugWords (Text.trim cs) = slugWords cs := by
  rw [Text.trim, slugWords_dropEndWhile_isBlank, slugWords_dropWhile_isBlank]

/-! ### The walk -/

/-- The words of pieces of which the first goes on from what stands before, be it
empty or not, unless that is a dash. -/
def wordsFrom : Bool → List (List Char) → List (List Char)
  | false, p :: ps => p.flatMap Text.lowercase :: lowered ps
  | _, ps => lowered ps

/-- The text has these words with dashes between them, and maybe a dash behind the
last of them. -/
def Ragged (words : List (List Char)) (out : List Char) : Prop :=
  out = dashed words ∨ words ≠ [] ∧ out = dashed words ++ ['-']

@[simp]
theorem dashed_nil : dashed [] = [] := rfl

@[simp]
theorem dashed_singleton (w : List Char) : dashed [w] = w := List.intercalate_singleton

theorem dashed_cons_of_ne_nil {w : List Char} {ws : List (List Char)} (h : ws ≠ []) :
    dashed (w :: ws) = w ++ '-' :: dashed ws := by
  rw [dashed, List.intercalate_cons_of_ne_nil h, List.append_assoc, List.singleton_append, dashed]

theorem dashed_append_cons (xs w : List Char) (ws : List (List Char)) :
    dashed ((xs ++ w) :: ws) = xs ++ dashed (w :: ws) := by
  cases ws with
  | nil => rw [dashed_singleton, dashed_singleton]
  | cons v ws =>
    rw [dashed_cons_of_ne_nil (List.cons_ne_nil v ws), dashed_cons_of_ne_nil (List.cons_ne_nil v ws),
      List.append_assoc]

theorem Ragged.append_left {w : List Char} {ws : List (List Char)} {out : List Char}
    (h : Ragged (w :: ws) out) (xs : List Char) : Ragged ((xs ++ w) :: ws) (xs ++ out) := by
  rcases h with rfl | ⟨-, rfl⟩
  · exact .inl (dashed_append_cons xs w ws).symm
  · exact .inr ⟨List.cons_ne_nil _ _, by rw [dashed_append_cons, List.append_assoc]⟩

theorem Ragged.dash {ws : List (List Char)} {out : List Char} (h : Ragged ws out) :
    Ragged ([] :: ws) ('-' :: out) := by
  rcases eq_or_ne ws [] with rfl | hws
  · rcases h with rfl | ⟨hne, -⟩
    · exact .inr ⟨List.cons_ne_nil _ _, rfl⟩
    · exact absurd rfl hne
  · have hcons : dashed ([] :: ws) = '-' :: dashed ws := dashed_cons_of_ne_nil hws
    rcases h with rfl | ⟨-, rfl⟩
    · exact .inl hcons.symm
    · exact .inr ⟨List.cons_ne_nil _ _, by rw [hcons, List.cons_append]⟩

/-- What the walk writes from any place are the words from there. -/
theorem ragged_slugChars (cs : List Char) (afterDash : Bool) :
    Ragged (wordsFrom afterDash (pieces cs)) (slugChars afterDash cs) := by
  induction cs generalizing afterDash with
  | nil => cases afterDash <;> exact .inl rfl
  | cons c cs ih =>
    obtain ⟨p, ps, hps⟩ := List.exists_cons_of_ne_nil (pieces_ne_nil cs)
    by_cases halnum : Text.isAlphanumeric c = true
    · -- the piece of `c` is not empty, so what stands before makes no difference
      have hwords : wordsFrom afterDash (pieces (c :: cs)) =
          (Text.lowercase c ++ p.flatMap Text.lowercase) :: lowered ps := by
        rw [pieces_cons_of_isAlphanumeric halnum hps]
        cases afterDash <;> rfl
      have hrest := ih false
      rw [hps] at hrest
      rw [hwords, slugChars, if_pos halnum]
      exact hrest.append_left (Text.lowercase c)
    by_cases hsep : isSeparator c = true
    · rw [slugChars, if_neg halnum, pieces_cons_of_isSeparator hsep, hsep]
      cases afterDash with
      | true => exact ih true
      | false => exact (ih true).dash
    · have hkept : ¬ isKept c = true := by simp [isKept, halnum, hsep]
      rw [slugChars, if_neg halnum, if_neg (by simp [hsep]), pieces_cons_of_not_isKept hkept]
      exact ih afterDash

/-! ### Dashes -/

/-- Words of which none is empty and none has a dash. -/
def Dashless (words : List (List Char)) : Prop := ∀ w ∈ words, w ≠ [] ∧ '-' ∉ w

theorem Dashless.of_cons {w : List Char} {ws : List (List Char)} (h : Dashless (w :: ws)) :
    Dashless ws := fun v hv => h v (List.mem_cons_of_mem w hv)

theorem dashless_slugWords (cs : List Char) : Dashless (slugWords cs) := by
  intro w hw
  obtain ⟨p, hp, rfl⟩ := List.mem_map.mp hw
  obtain ⟨hp, hne⟩ := List.mem_filter.mp hp
  constructor
  · obtain ⟨c, p, rfl⟩ := List.exists_cons_of_ne_nil (by simpa using hne : p ≠ [])
    rw [List.flatMap_cons]
    exact List.append_ne_nil_of_left_ne_nil (lowercase_ne_nil c) _
  · intro hdash
    obtain ⟨c, hc, hlower⟩ := List.mem_flatMap.mp hdash
    have halnum := isAlphanumeric_of_mem_pieces hp hc
    rcases Text.isSettled_or_of_mem_lowercase halnum hlower with hsettled | hdot
    · exact absurd hsettled.alphanumeric (by decide)
    · exact absurd hdot (by decide)

theorem exists_cons_dashed {w : List Char} {ws : List (List Char)} (h : Dashless (w :: ws)) :
    ∃ c cs, c ≠ '-' ∧ dashed (w :: ws) = c :: cs := by
  obtain ⟨hne, hdash⟩ := h w List.mem_cons_self
  obtain ⟨c, v, rfl⟩ := List.exists_cons_of_ne_nil hne
  refine ⟨c, dashed (v :: ws), fun hc => hdash (hc ▸ List.mem_cons_self), ?_⟩
  exact dashed_append_cons [c] v ws

theorem head?_dashed {ws : List (List Char)} (h : Dashless ws) :
    (dashed ws).head? ≠ some '-' := by
  cases ws with
  | nil => exact Option.some_ne_none _ |>.symm
  | cons w ws =>
    obtain ⟨c, cs, hc, hcs⟩ := exists_cons_dashed h
    rw [hcs, List.head?_cons]
    exact fun heq => hc (Option.some.inj heq)

theorem getLast?_dashed : ∀ {ws : List (List Char)}, Dashless ws →
    (dashed ws).getLast? ≠ some '-'
  | [], _ => Option.some_ne_none _ |>.symm
  | [w], h => by
    rw [dashed_singleton]
    exact fun hlast => (h w List.mem_cons_self).2 (List.mem_of_getLast? hlast)
  | w :: v :: ws, h => by
    have ih := getLast?_dashed h.of_cons
    obtain ⟨c, cs, -, hcs⟩ := exists_cons_dashed h.of_cons
    rw [hcs] at ih
    rwa [dashed_cons_of_ne_nil (List.cons_ne_nil v ws), hcs, List.getLast?_append_cons,
      List.getLast?_cons_cons]

/-- No dash stands next to another. -/
theorem not_infix_dashed : ∀ {ws : List (List Char)}, Dashless ws → ¬ ['-', '-'] <:+: dashed ws
  | [], _ => by simp
  | [w], h => by
    rw [dashed_singleton]
    exact fun hsub => (h w List.mem_cons_self).2 (hsub.subset List.mem_cons_self)
  | w :: v :: ws, h => by
    have ih := not_infix_dashed h.of_cons
    have hw := (h w List.mem_cons_self).2
    have hhead : ¬ ['-', '-'] <+: '-' :: dashed (v :: ws) := by
      obtain ⟨c, cs, hc, hcs⟩ := exists_cons_dashed h.of_cons
      rw [hcs, List.cons_prefix_cons, List.cons_prefix_cons]
      exact fun hbegin => hc hbegin.2.1.symm
    rw [dashed_cons_of_ne_nil (List.cons_ne_nil v ws), List.infix_append_iff,
      List.infix_cons_iff]
    rintro (hsub | (hbegin | hsub) | ⟨l₁, l₂, hsplit, hsuffix, hbegin⟩)
    · exact hw (hsub.subset List.mem_cons_self)
    · exact hhead hbegin
    · exact ih hsub
    · -- the two dashes lie on both sides of the end of `w`
      cases l₁ with
      | nil => exact hhead (hsplit ▸ hbegin)
      | cons c l₁ =>
        obtain ⟨rfl, -⟩ := List.cons.inj hsplit
        exact hw (hsuffix.subset List.mem_cons_self)

theorem Ragged.dropLastDash {ws : List (List Char)} {out : List Char} (h : Ragged ws out)
    (hws : Dashless ws) : Anchor.dropLastDash out = dashed ws := by
  rcases h with rfl | ⟨-, rfl⟩
  · rw [Anchor.dropLastDash, if_neg]
    rw [beq_iff_eq]
    exact getLast?_dashed hws
  · rw [Anchor.dropLastDash, List.getLast?_concat, if_pos (beq_self_eq_true _), List.dropLast_concat]

theorem toList_slugify (text : String) :
    (slugify text).toList = dashed (slugWords text.toList) := by
  have hragged := ragged_slugChars (Text.trim text.toList) true
  calc (slugify text).toList
      = dropLastDash (slugChars true (Text.trim text.toList)) := by
        rw [slugify, String.toList_ofList]
    _ = dashed (slugWords (Text.trim text.toList)) :=
        hragged.dropLastDash (dashless_slugWords _)
    _ = dashed (slugWords text.toList) := by rw [slugWords_trim]

/-- A slug is the words of its text with one dash between two of them: the letters,
digits and separators of the text are kept, what is kept is parted at the
separators, and the pieces that are not empty stand in lower case.  So no dash
stands at an end of it, nor next to another. -/
theorem slugify_eq_dashed_slugWords (text : String) :
    slugify text = String.ofList (dashed (slugWords text.toList)) ∧
      (slugify text).toList.head? ≠ some '-' ∧ (slugify text).toList.getLast? ≠ some '-' ∧
      ¬ ['-', '-'] <:+: (slugify text).toList := by
  have hclean := dashless_slugWords text.toList
  refine ⟨?_, ?_, ?_, ?_⟩
  · rw [← toList_slugify, String.ofList_toList]
  · exact toList_slugify text ▸ head?_dashed hclean
  · exact toList_slugify text ▸ getLast?_dashed hclean
  · exact toList_slugify text ▸ not_infix_dashed hclean

example : slugWords " API_(v2) -- New!".toList = ["api".toList, "v2".toList, "new".toList] := by
  decide +kernel

end Anchor

end WikiOutline
