/-
# The featured image

The text of a section features an image when the image comes first in it, with nothing but
paragraphs and blank text before it, and when other text comes behind the start of the image
(`featuredImageIndex?_iff`).  Where an image ends is not looked at.  So in balanced text, where
every image has an end, it does not matter whether that other text stands behind the image
or inside it, as its alternative text does (`featuredImage_exact`).  An image with an
alternative text is featured, and hidden, although it is all that the section shows
(`logo_featured_alone`).

Key definitions: `Rendering.ShowsText`, `Rendering.Leads`, `Rendering.ImageEnd`.
Key theorems: `Rendering.featuredImageIndex?_iff`, `Rendering.featuredImage_exact`.
-/
import WikiOutline.Proofs.BalanceCheck
import WikiOutline.Rendering

namespace WikiOutline

namespace Rendering

/-- Text of blanks. -/
def IsBlankText (c : Call) : Prop := ∃ t, c.text? = some t ∧ Text.allBlank t.toList = true

/-- Text that is not blank, and is not called a paragraph. -/
def ShowsText (c : Call) : Prop :=
  c.tag ≠ .paragraph ∧ ∃ t, c.text? = some t ∧ Text.allBlank t.toList = false

/-- Call `k` shows text. -/
def TextAt (calls : List Call) (k : Nat) : Prop := ∃ c, calls[k]? = some c ∧ ShowsText c

/-- Call `i` is an image with a source, and only paragraphs and blank text come before it. -/
structure Leads (calls : List Call) (i : Nat) : Prop where
  image : ∃ c, calls[i]? = some c ∧ c.tag = .media ∧ c.state ≠ .exit ∧ ¬ IsBlankText c ∧
    ∃ src, c.attributes.getString? "src" = some src ∧ src ≠ ""
  before : ∀ k < i, ∀ c, calls[k]? = some c → c.tag = .paragraph ∨ IsBlankText c

/-- Call `e` ends the image that call `i` begins: it exits the image, or the image is one
call. -/
def ImageEnd (calls : List Call) (i e : Nat) : Prop :=
  IsElement calls i e ∨ e = i ∧ ∃ c, calls[i]? = some c ∧ c.state ≠ .enter

/-! ### What is asked about a call -/

theorem isParagraph_iff {tag : Tag} : tag.isParagraph = true ↔ tag = .paragraph := by
  cases tag <;> simp [Tag.isParagraph]

theorem isMedia_iff {tag : Tag} : tag.isMedia = true ↔ tag = .media := by
  cases tag <;> simp [Tag.isMedia]

theorem hasBlankText_iff {c : Call} : hasBlankText c = true ↔ IsBlankText c := by
  simp [hasBlankText, IsBlankText, Option.any_eq_true]

theorem isLayout_iff {c : Call} : isLayout c = true ↔ c.tag = .paragraph ∨ IsBlankText c := by
  rw [isLayout, Bool.or_eq_true, isParagraph_iff, hasBlankText_iff]

theorem isSourcedImage_iff {c : Call} : isSourcedImage c = true ↔
    c.tag = .media ∧ c.state ≠ .exit ∧
      ∃ src, c.attributes.getString? "src" = some src ∧ src ≠ "" := by
  simp [isSourcedImage, isMedia_iff, Call.isExit, Option.any_eq_true, and_assoc]

/-- Text that shows is no layout, and text that is no layout shows if it is not blank. -/
theorem showsText_iff {c : Call} :
    (!isLayout c && hasFilledText c) = true ↔ ShowsText c := by
  rw [Bool.and_eq_true, Bool.not_eq_true', ← Bool.not_eq_true, isLayout_iff, ShowsText]
  simp only [hasFilledText, Option.any_eq_true, Bool.not_eq_true', not_or]
  constructor
  · exact fun ⟨⟨htag, _⟩, htext⟩ => ⟨htag, htext⟩
  · rintro ⟨htag, t, ht, hfilled⟩
    refine ⟨⟨htag, ?_⟩, t, ht, hfilled⟩
    rintro ⟨s, hs, hblank⟩
    rw [ht] at hs
    rw [Option.some.inj hs, hblank] at hfilled
    cases hfilled

/-! ### The image -/

variable {calls : List Call} {i : Nat}

/-- The image leads the text when the first call that is no layout is an image. -/
theorem leads_iff : Leads calls i ↔
    calls.findIdx? (fun c => !isLayout c) = some i ∧
      ∃ c, calls[i]? = some c ∧ isSourcedImage c = true := by
  rw [List.findIdx?_eq_some_iff_getElem]
  constructor
  · rintro ⟨⟨c, hc, htag, hstate, hfilled, hsrc⟩, hbefore⟩
    obtain ⟨hi, rfl⟩ := List.getElem?_eq_some_iff.mp hc
    refine ⟨⟨hi, ?_, fun k hk => ?_⟩, _, hc, isSourcedImage_iff.mpr ⟨htag, hstate, hsrc⟩⟩
    · rw [Bool.not_eq_true', ← Bool.not_eq_true, isLayout_iff, htag]
      exact fun h => h.elim nofun hfilled
    · rw [Bool.not_eq_true', Bool.not_eq_false, isLayout_iff]
      exact hbefore k hk _ (List.getElem?_eq_getElem _)
  · rintro ⟨⟨hi, hlayout, hbefore⟩, c, hc, himage⟩
    obtain ⟨_, rfl⟩ := List.getElem?_eq_some_iff.mp hc
    obtain ⟨htag, hstate, hsrc⟩ := isSourcedImage_iff.mp himage
    rw [Bool.not_eq_true', ← Bool.not_eq_true, isLayout_iff, not_or] at hlayout
    refine ⟨⟨_, hc, htag, hstate, hlayout.2, hsrc⟩, fun k hk d hd => ?_⟩
    obtain ⟨_, rfl⟩ := List.getElem?_eq_some_iff.mp hd
    have hk := hbefore k hk
    rwa [Bool.not_eq_true', Bool.not_eq_false, isLayout_iff] at hk

/-- Text shows behind call `i`. -/
theorem any_showsText_iff :
    ((calls.drop (i + 1)).any fun c => !isLayout c && hasFilledText c) = true ↔
      ∃ k, i < k ∧ TextAt calls k := by
  rw [List.any_eq_true]
  constructor
  · rintro ⟨c, hc, hshows⟩
    obtain ⟨k, hk⟩ := List.mem_iff_getElem?.mp hc
    rw [List.getElem?_drop] at hk
    exact ⟨i + 1 + k, by omega, c, hk, showsText_iff.mp hshows⟩
  · rintro ⟨k, hk, c, hc, hshows⟩
    refine ⟨c, List.mem_iff_getElem?.mpr ⟨k - (i + 1), ?_⟩, showsText_iff.mpr hshows⟩
    rwa [List.getElem?_drop, show i + 1 + (k - (i + 1)) = k by omega]

/-- **Which image is featured**: the one that leads the text, when text shows behind its
start. -/
theorem featuredImageIndex?_iff : featuredImageIndex? calls = some i ↔
    Leads calls i ∧ ∃ k, i < k ∧ TextAt calls k := by
  rw [leads_iff, ← any_showsText_iff]
  unfold featuredImageIndex?
  constructor
  · intro h
    obtain ⟨j, hj, h⟩ := Option.bind_eq_some_iff.mp h
    obtain ⟨c, hc, h⟩ := Option.bind_eq_some_iff.mp h
    split at h
    · rename_i hboth
      obtain rfl := Option.some.inj h
      rw [Bool.and_eq_true] at hboth
      exact ⟨⟨hj, c, hc, hboth.1⟩, hboth.2⟩
    · cases h
  · rintro ⟨⟨hj, c, hc, himage⟩, hany⟩
    rw [hj]
    show (calls[i]?).bind _ = some i
    rw [hc]
    exact if_pos (by rw [himage, hany]; rfl)

/-- In balanced text every image has an end. -/
theorem Leads.exists_end (h : Leads calls i) (hb : Bracketed calls) : ∃ e, ImageEnd calls i e := by
  obtain ⟨c, hc, -⟩ := h.image
  by_cases hstate : c.state = .enter
  · obtain ⟨e, he⟩ := hb.exists_exit hc hstate
    exact ⟨e, .inl he⟩
  · exact ⟨i, .inr ⟨rfl, c, hc, hstate⟩⟩

/-- The end of an image is its start or an exit, so it shows no text behind the start. -/
theorem ImageEnd.ne_of_textAt {e k : Nat} (h : ImageEnd calls i e) (hk : i < k)
    (ht : TextAt calls k) : k ≠ e := by
  rintro rfl
  rcases h with he | ⟨rfl, -⟩
  · obtain ⟨-, b, -, hb, -, hexit, -⟩ := he.ends
    obtain ⟨c, hc, -, t, htext, -⟩ := ht
    rw [hb] at hc
    rw [← Option.some.inj hc, Call.text?, hexit] at htext
    cases htext
  · omega

theorem ImageEnd.le {e : Nat} (h : ImageEnd calls i e) : i ≤ e := by
  rcases h with he | ⟨rfl, -⟩
  · exact he.lt.1.le
  · exact le_rfl

/-- **The featured image** of balanced text is the one that leads it, when text shows inside
the image or behind its end. -/
theorem featuredImage_exact (h : checkBalance calls = .ok ()) (i : Nat) :
    featuredImageIndex? calls = some i ↔
      Leads calls i ∧ ∃ e, ImageEnd calls i e ∧
        ((∃ k, i < k ∧ k < e ∧ TextAt calls k) ∨ ∃ k, e < k ∧ TextAt calls k) := by
  have hb : Bracketed calls := balanced_iff_bracketed.mp ((checkBalance_eq_ok calls).mp h)
  rw [featuredImageIndex?_iff]
  constructor
  · rintro ⟨hleads, k, hk, ht⟩
    obtain ⟨e, he⟩ := hleads.exists_end hb
    refine ⟨hleads, e, he, ?_⟩
    rcases Nat.lt_or_gt_of_ne (he.ne_of_textAt hk ht) with hke | hek
    · exact .inl ⟨k, hk, hke, ht⟩
    · exact .inr ⟨k, hek, ht⟩
  · rintro ⟨hleads, e, he, ⟨k, hk, -, ht⟩ | ⟨k, hek, ht⟩⟩
    · exact ⟨hleads, k, hk, ht⟩
    · exact ⟨hleads, k, he.le.trans_lt hek, ht⟩

/-- A paragraph with an image, its alternative text and some calls behind it. -/
def imageParagraph (behind : List Call) : List Call :=
  Call.enter .paragraph :: (Call.enter .media).withAttribute "src" (.string "logo.svg") ::
    Call.text "Logo" :: Call.exit .media :: behind ++ [Call.exit .paragraph]

theorem featuredImage_exact_caption :
    let page := imageParagraph [Call.text "Our logo"]
    checkBalance page = .ok () ∧ featuredImageIndex? page = some 1 ∧ Leads page 1 ∧
      ∃ e, ImageEnd page 1 e ∧
        ((∃ k, 1 < k ∧ k < e ∧ TextAt page k) ∨ ∃ k, e < k ∧ TextAt page k) := by
  intro page
  have hb : checkBalance page = .ok () := rfl
  have hf : featuredImageIndex? page = some 1 := rfl
  exact ⟨hb, hf, (featuredImage_exact hb 1).mp hf⟩

/-- **An image by itself** is featured for its alternative text: behind its end nothing
shows. -/
theorem logo_featured_alone :
    checkBalance (imageParagraph []) = .ok () ∧ featuredImageIndex? (imageParagraph []) = some 1 ∧
      ImageEnd (imageParagraph []) 1 3 ∧
      ∀ e, ImageEnd (imageParagraph []) 1 e → ∀ k, e < k → ¬ TextAt (imageParagraph []) k := by
  refine ⟨rfl, rfl, .inl ?_, fun e he k hek ht => ?_⟩
  · exact ⟨[Call.enter .paragraph], _, [Call.text "Logo"], Call.exit .media, [Call.exit .paragraph],
      rfl, rfl, rfl, rfl, rfl, rfl, .leaf (.inr rfl) .nil⟩
  · -- the image is entered, so its end comes behind it, and no text at or behind the third call
    have he : 1 < e := by
      rcases he with he | ⟨-, c, hc, hstate⟩
      · exact he.lt.1
      · obtain rfl := Option.some.inj hc
        exact absurd rfl hstate
    obtain ⟨k, rfl⟩ : ∃ n, k = n + 3 := ⟨k - 3, by omega⟩
    obtain ⟨c, hc, -, t, htext, -⟩ := ht
    have hexits : ∀ d ∈ (imageParagraph []).drop 3, d.text? = none := by
      simp [imageParagraph, Call.text?, Call.exit]
    rw [Nat.add_comm, ← List.getElem?_drop] at hc
    rw [hexits c (List.mem_of_getElem? hc)] at htext
    cases htext

end Rendering

end WikiOutline
