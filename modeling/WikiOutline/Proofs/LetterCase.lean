/-
# The lower case of letters and digits

The lower case of a letter is a letter, and it is its own lower case.  Beyond ASCII
the two tables say so: where the lower cases stand are letters, and no character with
another lower case stands there.

The capital I with a dot is the one exception.  Its lower case is the letter i and a
mark behind it, the dot above, which is neither a letter nor a digit.

Key definitions: `Text.IsSettled`, `Text.dottedI`, `Text.dotAbove`.
Key theorems: `Text.exists_lowercase_of_isAlphanumeric`,
`Text.isSettled_or_of_mem_lowercase`.
-/
import WikiOutline.Text.Alphanumeric
import WikiOutline.Text.Lowercase

namespace WikiOutline

namespace Text

/-- The capital I with a dot. -/
def dottedI : Char := Char.ofNat 0x130

/-- The mark that puts a dot above the letter before it. -/
def dotAbove : Char := Char.ofNat 0x307

/-- A letter or digit that is its own lower case. -/
structure IsSettled (c : Char) : Prop where
  alphanumeric : isAlphanumeric c = true
  lowercase : lowercase c = [c]

/-! ### Places -/

/-- The places of a run: its first and last one, and the step from one to the next. -/
structure Places where
  first : Nat
  last : Nat
  step : Nat

/-- A code point is one of the places. -/
structure Places.Covers (r : Places) (n : Nat) : Prop where
  first_le : r.first ≤ n
  le_last : n ≤ r.last
  mod_step : (n - r.first) % r.step = 0

/-- All of one run lies behind the other, or they take turns.  It is evaluated for
every two runs of a table, and is spelled with what the kernel has built in. -/
def Places.apart (r s : Places) : Bool :=
  Nat.ble (r.last + 1) s.first || Nat.ble (s.last + 1) r.first ||
    (Nat.beq r.first r.last || Nat.beq r.step 2) && Nat.beq s.step 2 &&
      Nat.beq ((r.first - s.first) % 2) 1

theorem Places.Covers.not_covers_of_apart {r s : Places} {n : Nat} (h : r.Covers n)
    (hapart : r.apart s = true) : ¬ s.Covers n := by
  rintro ⟨hfirst, hlast, hstep⟩
  obtain ⟨hfirst', hlast', hstep'⟩ := h
  simp only [apart, Nat.ble_eq, Bool.or_eq_true, Bool.and_eq_true, Nat.beq_eq] at hapart
  rcases hapart with (hbehind | hbehind) | ⟨⟨hr, hs⟩, hodd⟩
  · omega
  · omega
  · -- they take turns: the steps are even and the distance is odd
    rw [hs] at hstep
    rcases hr with hsingle | hr
    · omega
    · rw [hr] at hstep'
      omega

/-! ### The tables -/

/-- Where the characters beyond ASCII stand that have another lower case. -/
def capitals : List Places :=
  ⟨0x130, 0x130, 1⟩ :: lowercaseRuns.map fun r => ⟨r.1, r.2.1, r.2.2.1⟩

/-- Where the images of a run stand. -/
def images (run : Nat × Nat × Nat × Int) : Places :=
  ⟨(run.1 + run.2.2.2).toNat, (run.2.1 + run.2.2.2).toNat, run.2.2.1⟩

/-- Where the lower cases stand of the characters beyond ASCII. -/
def smalls : List Places := lowercaseRuns.map images

theorem smalls_apart : (smalls.all fun r => capitals.all fun s => r.apart s) = true := by
  decide +kernel

theorem smalls_alphanumeric :
    (smalls.all fun r => alphanumericRanges.any fun a =>
      Nat.ble a.1 r.first && Nat.ble r.last a.2) = true := by
  decide +kernel

/-- Of the lower cases only that of the Kelvin sign, the letter k, is in ASCII. -/
theorem smalls_wide : ∀ r ∈ smalls, 128 ≤ r.first ∨ r.first = 0x6B ∧ r.last = 0x6B := by
  decide +kernel

theorem smalls_valid :
    ∀ r ∈ smalls, r.last < 0xD800 ∨ 0xDFFF < r.first ∧ r.last < 0x110000 := by
  decide +kernel

variable {r : Places} {c : Char} {n m : Nat}

theorem inRanges_of_covers (hr : r ∈ smalls) (h : r.Covers n) :
    inRanges alphanumericRanges n = true := by
  obtain ⟨a, ha, hin⟩ := List.any_eq_true.mp (List.all_eq_true.mp smalls_alphanumeric r hr)
  rw [Bool.and_eq_true, Nat.ble_eq, Nat.ble_eq] at hin
  refine List.any_eq_true.mpr ⟨a, ha, ?_⟩
  rw [Bool.and_eq_true, decide_eq_true_eq, decide_eq_true_eq]
  exact ⟨Nat.le_trans hin.1 h.first_le, Nat.le_trans h.le_last hin.2⟩

theorem not_covers_capital (hr : r ∈ smalls) (h : r.Covers n) {s : Places} (hs : s ∈ capitals) :
    ¬ s.Covers n :=
  h.not_covers_of_apart (List.all_eq_true.mp (List.all_eq_true.mp smalls_apart r hr) s hs)

theorem ne_of_covers (hr : r ∈ smalls) (h : r.Covers n) : n ≠ 0x130 := by
  rintro rfl
  exact not_covers_capital hr h List.mem_cons_self ⟨Nat.le_refl _, Nat.le_refl _, rfl⟩

theorem shiftBy?_of_covers (hr : r ∈ smalls) (h : r.Covers n) :
    shiftBy? lowercaseRuns n = none := by
  rw [shiftBy?, Option.map_eq_none_iff, List.find?_eq_none]
  intro run hrun hin
  simp only [Bool.and_eq_true, decide_eq_true_eq, beq_iff_eq] at hin
  exact not_covers_capital hr h (List.mem_cons_of_mem _ (List.mem_map_of_mem hrun))
    ⟨hin.1.1, hin.1.2, hin.2⟩

/-- What stands among the lower cases is a letter and no capital. -/
theorem isSettled_of_covers (hr : r ∈ smalls) (h : r.Covers c.toNat) : IsSettled c := by
  obtain ⟨hfirst, hlast, -⟩ := id h
  rcases smalls_wide r hr with hwide | ⟨hk, hk'⟩
  · have hascii : ¬ c.toNat < 128 := by omega
    constructor
    · rw [isAlphanumeric, if_neg hascii]
      exact inRanges_of_covers hr h
    · rw [lowercase, if_neg hascii, if_neg (ne_of_covers hr h), shiftBy?_of_covers hr h]
  · -- the letter k, to which ASCII applies and not the tables
    have hc : c = 'k' := Char.toNat_inj.mp (by show c.toNat = 0x6B; omega)
    rw [hc]
    exact ⟨by decide, by decide⟩

theorem exists_covers_of_shiftBy? (h : shiftBy? lowercaseRuns n = some m) :
    ∃ r ∈ smalls, r.Covers m := by
  obtain ⟨run, hrun, rfl⟩ := Option.map_eq_some_iff.mp h
  have hin := List.find?_some hrun
  have hmem : images run ∈ smalls := List.mem_map_of_mem (List.mem_of_find?_eq_some hrun)
  have hwide := smalls_wide _ hmem
  simp only [images] at hwide
  simp only [Bool.and_eq_true, decide_eq_true_eq, beq_iff_eq] at hin
  obtain ⟨⟨hfirst, hlast⟩, hstep⟩ := hin
  refine ⟨images run, hmem, ?_, ?_, ?_⟩
  · show (run.1 + run.2.2.2).toNat ≤ (n + run.2.2.2).toNat
    omega
  · show (n + run.2.2.2).toNat ≤ (run.2.1 + run.2.2.2).toNat
    omega
  · -- no image is negative (`hwide`), so distances are kept
    have hshift : (n + run.2.2.2).toNat - (run.1 + run.2.2.2).toNat = n - run.1 := by omega
    exact hshift.symm ▸ hstep

theorem isValidChar_of_covers (hr : r ∈ smalls) (h : r.Covers n) : n.isValidChar := by
  have hvalid := smalls_valid r hr
  obtain ⟨hfirst, hlast, -⟩ := h
  unfold Nat.isValidChar
  omega

/-! ### Letters and digits -/

theorem isSettled_toLower_of_ascii : ∀ n < 128, isAlphanumeric (Char.ofNat n) = true →
    isAlphanumeric (Char.ofNat n).toLower = true ∧
      lowercase (Char.ofNat n).toLower = [(Char.ofNat n).toLower] := by
  decide +kernel

theorem isSettled_of_isDigit (h : c.isDigit = true) : IsSettled c := by
  have hdigits : ∀ n < 58, 48 ≤ n → isAlphanumeric (Char.ofNat n) = true ∧
      lowercase (Char.ofNat n) = [Char.ofNat n] := by decide
  simp only [Char.isDigit, Bool.and_eq_true, decide_eq_true_eq, ge_iff_le,
    UInt32.le_iff_toNat_le] at h
  have hlast : c.toNat ≤ 57 := h.2
  have hsettled := hdigits c.toNat (by omega) h.1
  rw [Char.ofNat_toNat] at hsettled
  exact ⟨hsettled.1, hsettled.2⟩

theorem lowercase_dottedI : lowercase dottedI = ['i', dotAbove] := rfl

theorem isAlphanumeric_dottedI : isAlphanumeric dottedI = true := by decide

theorem isAlphanumeric_dotAbove : isAlphanumeric dotAbove = false := by decide +kernel

/-- The lower case of a letter or digit is one that is its own lower case, but for the
capital I with a dot. -/
theorem exists_lowercase_of_isAlphanumeric (h : isAlphanumeric c = true) (hc : c ≠ dottedI) :
    ∃ d, IsSettled d ∧ lowercase c = [d] := by
  by_cases hascii : c.toNat < 128
  · have hlower := isSettled_toLower_of_ascii c.toNat hascii
    rw [Char.ofNat_toNat] at hlower
    obtain ⟨halnum, hself⟩ := hlower h
    exact ⟨c.toLower, ⟨halnum, hself⟩, by rw [lowercase, if_pos hascii]⟩
  have hdotted : c.toNat ≠ 0x130 := fun heq => hc (Char.toNat_inj.mp heq)
  cases hshift : shiftBy? lowercaseRuns c.toNat with
  | none =>
    have hself : lowercase c = [c] := by
      rw [lowercase, if_neg hascii, if_neg hdotted, hshift]
    exact ⟨c, ⟨h, hself⟩, hself⟩
  | some m =>
    obtain ⟨r, hr, hm⟩ := exists_covers_of_shiftBy? hshift
    have htoNat : (Char.ofNat m).toNat = m := by
      rw [Char.ofNat, dif_pos (isValidChar_of_covers hr hm)]
      rfl
    refine ⟨Char.ofNat m, isSettled_of_covers hr (htoNat.symm ▸ hm), ?_⟩
    rw [lowercase, if_neg hascii, if_neg hdotted, hshift]

theorem isSettled_i : IsSettled 'i' := ⟨by decide, by decide⟩

/-- The lower case of a letter or digit has no other characters than these. -/
theorem isSettled_or_of_mem_lowercase {d : Char} (h : isAlphanumeric c = true)
    (hd : d ∈ lowercase c) : IsSettled d ∨ d = dotAbove := by
  by_cases hc : c = dottedI
  · rw [hc, lowercase_dottedI] at hd
    rcases List.mem_cons.mp hd with rfl | hd
    · exact .inl isSettled_i
    · exact .inr (List.mem_singleton.mp hd)
  · obtain ⟨e, he, hlower⟩ := exists_lowercase_of_isAlphanumeric h hc
    rw [hlower] at hd
    exact .inl (List.mem_singleton.mp hd ▸ he)

end Text

end WikiOutline
