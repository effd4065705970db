/-
# Views that do not see attributes

Of the calls that it takes over, a build or a rendition changes the attributes only.
So a view of calls that ignores attributes sees in the sections what it sees in the
page, and in what a section gives to a rendition what it sees in the section.  All
else that is written with a section is its division, a header, an advertisement or an
edit button (`Rendering.openSection_calls`).

Key definitions: `IgnoresAttributes`, `Rendering.divisionOf`.
Key theorems: `Outline.Reading.map_kept`, `Outline.exists_of_mem_section`,
`Rendering.map_ownHeading`, `Rendering.map_captureFeaturedImage`,
`Rendering.openSection_calls`, `Rendering.exists_of_mem_portions`.
-/
import WikiOutline.Proofs.Conservation
import WikiOutline.Proofs.LenientOrder

namespace WikiOutline

variable {α : Type} {f : Call → α}

/-- The view does not see attributes. -/
def IgnoresAttributes (f : Call → α) : Prop :=
  ∀ (c : Call) (key : String) (value : AttributeValue), f (c.withAttribute key value) = f c

theorem IgnoresAttributes.leveled (hf : IgnoresAttributes f) (c : Call) (declared level : Nat) :
    f (Outline.Builder.leveled c declared level) = f c := by
  unfold Outline.Builder.leveled
  simp only
  split
  · exact hf _ _ _
  · exact (hf _ _ _).trans (hf _ _ _)

namespace Outline

open Builder Reading

/-- What becomes of a call looks like the call. -/
theorem Reading.view_written (hf : IgnoresAttributes f) {mark : Nat → Call → Call}
    (hm : ∀ n c, f (mark n c) = f c) (r : Reading) (c : Call) : f (r.written mark c) = f c := by
  rw [written_eq]
  split
  · rw [hm, hf.leveled]
  · split
    · exact hf _ _ _
    · rfl

/-- What becomes of calls looks like the calls. -/
theorem Reading.map_kept (hf : IgnoresAttributes f) {mark : Nat → Call → Call}
    (hm : ∀ n c, f (mark n c) = f c) :
    ∀ (r : Reading) (cs : List Call), (kept mark r cs).map f = cs.map f
  | _, [] => rfl
  | r, c :: cs => by
    rw [kept, List.map_cons, List.map_cons, view_written hf hm, map_kept hf hm _ cs]

/-- Whatever a section holds looks like a call of the page, however strict the build. -/
theorem exists_of_mem_section {τ : Type} {strictness : Strictness} {sink : Option (MetadataSink τ)}
    {calls : List Call} {t t' : τ} {o : Outline}
    (h : buildWith strictness sink calls t = .ok (o, t')) (hf : IgnoresAttributes f) {i : Nat}
    {c : Call} (hc : c ∈ (o.get i).headingCalls ++ (o.get i).contentCalls) :
    ∃ d ∈ calls, f d = f c := by
  obtain ⟨b, hb, hsections, -⟩ := buildWith_ok h
  have hi : i < o.size := by
    by_contra hle
    rw [get_eq_root (Nat.le_of_not_lt hle)] at hc
    cases hc
  have hmem : c ∈ filed (fun _ c => c) b.sections := by
    rw [← hsections, filed_unmarked, List.mem_flatMap]
    exact ⟨o.get i, get_mem hi, hc⟩
  rw [buildSections_folded hb] at hmem
  have hview : f c ∈ (Trail.folded {} [] calls).map f := by
    rw [← map_kept hf (fun _ _ => rfl) {} _]
    exact List.mem_map_of_mem hmem
  obtain ⟨d, hd, heq⟩ := List.mem_map.mp hview
  exact ⟨d, (Trail.perm_folded calls {} []).mem_iff.mp hd, heq⟩

end Outline

namespace Rendering

open Outline

variable {π σ : Type} {setup : Setup π σ} {target : Target}

theorem map_heading (hf : IgnoresAttributes f) (s : State π σ) (sec : Section) :
    (s.heading sec).1.map f = sec.headingCalls.map f := by
  unfold State.heading
  simp only
  cases sec.headingCalls with
  | nil => rfl
  | cons c cs => exact congrArg (· :: cs.map f) (hf c _ _)

/-- A heading is written as it is held. -/
theorem map_ownHeading (hf : IgnoresAttributes f) (s : State π σ) {sec : Section}
    (hroot : sec.isRoot = true → sec.headingCalls = []) :
    (ownHeading s sec).1.map f = sec.headingCalls.map f := by
  unfold ownHeading
  cases hr : sec.isRoot with
  | true => rw [hroot hr, if_pos rfl]
  | false => exact map_heading hf s sec

/-- Of the text that is merged into the root one call may be changed, a sourced image
that is hidden. -/
theorem captureFeaturedImage_calls (setup : Setup π σ) (s : State π σ) (sec : Section) :
    (captureFeaturedImage setup s sec).1 = sec.contentCalls ∨
      ∃ i c, sec.contentCalls[i]? = some c ∧ c.tag.isMedia = true ∧
        (captureFeaturedImage setup s sec).1 =
          sec.contentCalls.modify i fun c => c.withAttribute "display" (.string "none") := by
  unfold captureFeaturedImage
  split
  · rename_i index _ hindex _
    split
    · exact .inl rfl
    · split
      · right
        unfold featuredImageIndex? at hindex
        obtain ⟨i, -, hindex⟩ := Option.bind_eq_some_iff.mp hindex
        obtain ⟨c, hc, hindex⟩ := Option.bind_eq_some_iff.mp hindex
        split at hindex
        · rename_i himage
          obtain rfl := Option.some.inj hindex
          simp only [isSourcedImage, Bool.and_eq_true] at himage
          exact ⟨i, c, hc, himage.1.1.1, rfl⟩
        · cases hindex
      · exact .inl rfl
  · exact .inl rfl

/-- A text is written as it is held. -/
theorem map_captureFeaturedImage (hf : IgnoresAttributes f) (setup : Setup π σ) (s : State π σ)
    (sec : Section) : (captureFeaturedImage setup s sec).1.map f = sec.contentCalls.map f := by
  rcases captureFeaturedImage_calls setup s sec with h | ⟨i, -, -, -, h⟩
  · rw [h]
  · rw [h, Builder.map_modify_eq f _ _ _ fun c _ => hf c _ _]

/-! ### What is added -/

theorem editButton_call {s : State π σ} {sec : Section} {headingId : Option String} {c : Call}
    (h : (editButton setup target s sec headingId).1 = some c) :
    c.tag = .editButton ∧ c.state = .special := by
  obtain ⟨_, _, -, -, rfl⟩ := editButton_eq h
  exact ⟨rfl, rfl⟩

/-! ### What a section is opened with -/

/-- The call that enters the division of a section. -/
def divisionOf (o : Outline) (i : Nat) : Call :=
  (Call.enter .division).withAttribute levelAttribute (.ofNat (o.get i).level)

/-- A section is opened with its division, and with what its portions hold, arranged with
an advertisement and an edit button if there are any. -/
theorem openSection_calls (setup : Setup π σ) (target : Target) (s : State π σ) (id : Nat) :
    ∃ (hasChildren : Bool) (marker button : Option Call),
      (openSection setup target s id).1.calls target = divisionOf setup.outline id ::
        arrange target hasChildren
          ((openSection setup target s id).1.portions.flatMap Portion.heading)
          ((openSection setup target s id).1.portions.flatMap Portion.content) marker button ∧
      (∀ c, marker = some c → c.tag = .adMarker ∧ c.state = .special) ∧
      (∀ c, button = some c → c.tag = .editButton ∧ c.state = .special) :=
  ⟨_, _, _, rfl, fun _ h => adMarker_call h, fun _ h => editButton_call h⟩

/-- A section into which nothing is merged gives its own portion only. -/
theorem openSection_alone {s : State π σ} {id : Nat}
    (hf : flattenedChild? setup target (setup.outline.get id) = none) :
    ∃ s₀ : State π σ, s₀.headingIds = s.headingIds ∧
      (openSection setup target s id).1.portions =
        [⟨id, (ownHeading s₀ (setup.outline.get id)).1, (setup.outline.get id).contentCalls⟩] ∧
      (openSection setup target s id).2.headingIds =
        (ownHeading s₀ (setup.outline.get id)).2.2.headingIds := by
  refine ⟨{ s with sectionOrdinal := s.sectionOrdinal + 1 }, rfl, ?_, ?_⟩
  · rw [openSection_eq]
    simp only [mergeChild_of_none hf]
    rfl
  · rw [openSection_eq]
    simp only [mergeChild_of_none hf, editButton_headingIds, adMarker_headingIds]

/-- The root gives its text and the portion of the section merged into it. -/
theorem openSection_together {s : State π σ} {id k : Nat}
    (hf : flattenedChild? setup target (setup.outline.get id) = some k) :
    ∃ s₀ s₁ : State π σ, (openSection setup target s id).1.portions =
      [⟨id, [], (setup.outline.get id).contentCalls⟩,
        ⟨k, (s₀.heading (setup.outline.get k)).1,
          (captureFeaturedImage setup s₁ (setup.outline.get k)).1⟩] := by
  have hroot := isRoot_of_flattenedChild? hf
  rw [openSection_eq]
  simp only [Opening.portions, mergeChild, hf, ownHeading, hroot, ↓reduceIte, Option.toList_some]
  exact ⟨_, _, rfl⟩

/-- In a full rendition a section with subsections has its heading and its text set apart. -/
theorem arrange_set_apart {heading content : List Call} (h : heading ≠ [] ∨ content ≠ [])
    (marker button : Option Call) :
    arrange .full true heading content marker button =
      Call.enter .header :: (heading ++ content ++ marker.toList ++ button.toList) ++
        [Call.exit .header] := by
  have hset : (Target.full == Target.full &&
      (!heading.isEmpty || !content.isEmpty || marker.isSome)) = true := by
    rw [show (Target.full == Target.full) = true from rfl, Bool.true_and]
    rcases h with h | h <;> simp [h]
  exact if_pos hset

/-- Of what is arranged around a heading and a text, a filter leaves what it leaves of each
part, if it leaves no header. -/
theorem filter_arrange {p : Call → Bool} (henter : p (Call.enter .header) = false)
    (hexit : p (Call.exit .header) = false) (target : Target) (hasChildren : Bool)
    (heading content : List Call) (marker button : Option Call) :
    (arrange target hasChildren heading content marker button).filter p =
      if hasChildren then
        heading.filter p ++ content.filter p ++ marker.toList.filter p ++ button.toList.filter p
      else
        marker.toList.filter p ++ heading.filter p ++ content.filter p ++
          button.toList.filter p := by
  unfold arrange
  cases hasChildren with
  | false => simp only [Bool.not_false, ↓reduceIte, List.filter_append, Bool.false_eq_true]
  | true =>
    simp only [Bool.not_true, Bool.false_eq_true, ↓reduceIte]
    split
    · simp only [List.filter_append, List.filter_cons, henter, hexit, Bool.false_eq_true,
        ↓reduceIte, List.cons_append, List.filter_nil, List.append_nil]
    · simp only [List.filter_append]

/-- Whatever the portions of a section hold looks like a call that a section holds. -/
theorem exists_of_mem_portions
    (hroot : ∀ i, (setup.outline.get i).isRoot = true → (setup.outline.get i).headingCalls = [])
    (hf : IgnoresAttributes f) (s : State π σ) (id : Nat) {c : Call}
    (hc : c ∈ (openSection setup target s id).1.portions.flatMap Portion.heading ++
      (openSection setup target s id).1.portions.flatMap Portion.content) :
    ∃ i, ∃ d ∈ (setup.outline.get i).headingCalls ++ (setup.outline.get i).contentCalls,
      f d = f c := by
  have hview : ∀ {cs ds : List Call}, cs.map f = ds.map f → c ∈ cs → ∃ d ∈ ds, f d = f c :=
    fun hmap hc => List.mem_map.mp (hmap ▸ List.mem_map_of_mem hc)
  cases hchild : flattenedChild? setup target (setup.outline.get id) with
  | none =>
    obtain ⟨s₀, -, hportions, -⟩ := openSection_alone (s := s) hchild
    rw [hportions, List.flatMap_singleton, List.flatMap_singleton] at hc
    refine ⟨id, hview ?_ hc⟩
    rw [List.map_append, List.map_append, map_ownHeading hf s₀ (hroot id)]
  | some k =>
    obtain ⟨s₀, s₁, hportions⟩ := openSection_together (s := s) hchild
    rw [hportions] at hc
    simp only [List.flatMap_cons, List.flatMap_nil, List.append_nil, List.nil_append,
      List.mem_append] at hc
    rcases hc with hc | hc | hc
    · obtain ⟨d, hd, heq⟩ := hview (map_heading hf s₀ _) hc
      exact ⟨k, d, List.mem_append_left _ hd, heq⟩
    · exact ⟨id, c, List.mem_append_right _ hc, rfl⟩
    · obtain ⟨d, hd, heq⟩ := hview (map_captureFeaturedImage hf setup s₁ _) hc
      exact ⟨k, d, List.mem_append_right _ hd, heq⟩

end Rendering

end WikiOutline
