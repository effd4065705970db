/-
# What the full rendition adds to the dynamic one

Without the headers, edit buttons and advertisements that it adds, the full rendition
of a page is the dynamic one.  Both do the same steps side by side, and where no
subsection is merged, what is written at each step differs by additions only
(`openSection_alike`, `performs_alike`).  Where the first section is merged into the
root, its heading comes before the text of the root, its own division is gone, and one
image of its text may be hidden; what comes below it is the same again.

Key definitions: `Rendering.withoutAdditions`, `Rendering.Merges`, `Rendering.PlainSections`.
Key theorems: `Rendering.withoutAdditions_opening`, `Rendering.performs_alike`,
`Rendering.performs_merged`, `Rendering.full_without_additions`.
-/
import WikiOutline.Proofs.Completion
import WikiOutline.Proofs.Shape

namespace WikiOutline

/-- A header, an edit button or an advertisement. -/
def Tag.isAdded : Tag → Bool
  | .header => true
  | .editButton => true
  | .adMarker => true
  | _ => false

namespace Rendering

open Outline

variable {π σ τ : Type} {setup : Setup π σ} {target : Target}

/-- The calls without the headers, edit buttons and advertisements among them. -/
def withoutAdditions (cs : List Call) : List Call := cs.filter fun c => !c.tag.isAdded

/-- The only subsection of the root is given level 1 and gives its heading to the
page. -/
def Merges (o : Outline) (options : Options) (k : Nat) : Prop :=
  options.captureHeaderMetadata = true ∧ (o.get 0).children = [k] ∧ (o.get k).level = 1 ∧
    (o.get k).declaredLevel = 1

instance (o : Outline) (options : Options) (k : Nat) : Decidable (Merges o options k) :=
  inferInstanceAs (Decidable (_ ∧ _ ∧ _ ∧ _))

/-- No call is a header, an edit button or an advertisement. -/
def Plain (cs : List Call) : Prop := ∀ c ∈ cs, c.tag.isAdded = false

/-! ### Leaving out what is added -/

theorem isAdded_ignores : IgnoresAttributes fun c => c.tag.isAdded := fun _ _ _ => rfl

theorem withoutAdditions_append (cs ds : List Call) :
    withoutAdditions (cs ++ ds) = withoutAdditions cs ++ withoutAdditions ds :=
  List.filter_append ..

theorem withoutAdditions_cons {c : Call} (h : c.tag.isAdded = false) (cs : List Call) :
    withoutAdditions (c :: cs) = c :: withoutAdditions cs :=
  List.filter_cons_of_pos (by rw [h]; rfl)

theorem withoutAdditions_of_plain {cs : List Call} (h : Plain cs) : withoutAdditions cs = cs :=
  List.filter_eq_self.mpr fun c hc => by rw [h c hc]; rfl

theorem withoutAdditions_of_added {c : Option Call} (h : ∀ d, c = some d → d.tag.isAdded = true) :
    withoutAdditions c.toList = [] := by
  cases c with
  | none => rfl
  | some d => exact List.filter_cons_of_neg (by rw [h d rfl]; decide)

theorem Plain.append {cs ds : List Call} (hc : Plain cs) (hd : Plain ds) : Plain (cs ++ ds) :=
  fun c h => (List.mem_append.mp h).elim (hc c) (hd c)

/-- What is arranged around a heading and a text is added. -/
theorem withoutAdditions_arrange {hasChildren : Bool} {heading content : List Call}
    {marker button : Option Call} (hh : Plain heading) (hc : Plain content)
    (hm : ∀ c, marker = some c → c.tag.isAdded = true)
    (hb : ∀ c, button = some c → c.tag.isAdded = true) :
    withoutAdditions (arrange target hasChildren heading content marker button) =
      heading ++ content := by
  have hparts := filter_arrange (p := fun c => !c.tag.isAdded) rfl rfl target hasChildren heading
    content marker button
  simp only [← withoutAdditions.eq_1] at hparts
  rw [hparts, withoutAdditions_of_added hm, withoutAdditions_of_added hb,
    withoutAdditions_of_plain hh, withoutAdditions_of_plain hc, List.nil_append, List.append_nil,
    List.append_nil, ite_self]

/-- The sections hold no call of those that are added, and the root has no heading. -/
structure PlainSections (o : Outline) : Prop where
  heading : ∀ i, Plain (o.get i).headingCalls
  content : ∀ i, Plain (o.get i).contentCalls
  root : ∀ i, (o.get i).isRoot = true → (o.get i).headingCalls = []

/-- The portions of a section hold no call of those that are added. -/
theorem portions_plain (h : PlainSections setup.outline) (s : State π σ) (id : Nat) :
    Plain ((openSection setup target s id).1.portions.flatMap Portion.heading) ∧
      Plain ((openSection setup target s id).1.portions.flatMap Portion.content) := by
  have hmem : Plain ((openSection setup target s id).1.portions.flatMap Portion.heading ++
      (openSection setup target s id).1.portions.flatMap Portion.content) := fun c hc => by
    obtain ⟨i, d, hd, heq⟩ := exists_of_mem_portions h.root isAdded_ignores s id hc
    rw [← heq]
    exact (h.heading i).append (h.content i) d hd
  exact ⟨fun c hc => hmem c (List.mem_append_left _ hc),
    fun c hc => hmem c (List.mem_append_right _ hc)⟩

/-- **What is written where a section is opened**, without what is added: its division,
and the headings and texts of its portions. -/
theorem withoutAdditions_opening (h : PlainSections setup.outline) (s : State π σ) (id : Nat) :
    withoutAdditions ((openSection setup target s id).1.calls target) =
      divisionOf setup.outline id ::
        ((openSection setup target s id).1.portions.flatMap Portion.heading ++
          (openSection setup target s id).1.portions.flatMap Portion.content) := by
  obtain ⟨hasChildren, marker, button, hcalls, hmarker, hbutton⟩ :=
    openSection_calls setup target s id
  obtain ⟨hheading, hcontent⟩ := portions_plain h s id
  rw [hcalls, withoutAdditions_cons rfl, withoutAdditions_arrange hheading hcontent]
  · intro c hc
    rw [(hmarker c hc).1]
    rfl
  · intro c hc
    rw [(hbutton c hc).1]
    rfl

/-! ### Both renditions side by side -/

/-- A heading depends on the ids given out before only. -/
theorem ownHeading_congr {s s' : State π σ} (hs : s.headingIds = s'.headingIds) (sec : Section) :
    (ownHeading s sec).1 = (ownHeading s' sec).1 ∧
      (ownHeading s sec).2.2.headingIds = (ownHeading s' sec).2.2.headingIds := by
  unfold ownHeading State.heading
  cases sec.isRoot with
  | true => exact ⟨rfl, hs⟩
  | false =>
    simp only [Bool.false_eq_true, ↓reduceIte, hs, and_self]

/-- In the dynamic rendition nothing is merged and nothing is added. -/
theorem opening_dynamic (s : State π σ) (id : Nat) :
    (openSection setup .dynamic s id).1.calls .dynamic =
      divisionOf setup.outline id ::
        ((openSection setup .dynamic s id).1.portions.flatMap Portion.heading ++
          (openSection setup .dynamic s id).1.portions.flatMap Portion.content) :=
  congrArg (divisionOf setup.outline id :: ·) (arrange_dynamic _ _ _)

/-- **Where nothing is merged**, a section is opened in either rendition alike but for
what is added. -/
theorem openSection_alike (h : PlainSections setup.outline) {s s' : State π σ} {id : Nat}
    (hs : s.headingIds = s'.headingIds)
    (hf : flattenedChild? setup .full (setup.outline.get id) = none) :
    withoutAdditions ((openSection setup .full s id).1.calls .full) =
        (openSection setup .dynamic s' id).1.calls .dynamic ∧
      (openSection setup .full s id).2.headingIds =
        (openSection setup .dynamic s' id).2.headingIds ∧
      (openSection setup .full s id).1.children =
        (openSection setup .dynamic s' id).1.children := by
  have hf' : flattenedChild? setup .dynamic (setup.outline.get id) = none := rfl
  obtain ⟨s₀, hs₀, hportions, hids⟩ := openSection_alone (s := s) hf
  obtain ⟨s₁, hs₁, hportions', hids'⟩ := openSection_alone (s := s') hf'
  obtain ⟨hheading, hnext⟩ := ownHeading_congr (hs₀.trans (hs.trans hs₁.symm))
    (setup.outline.get id)
  refine ⟨?_, ?_, ?_⟩
  · rw [withoutAdditions_opening h, opening_dynamic, hportions, hportions', hheading]
  · rw [hids, hids', hnext]
  · rw [openSection_children hf, openSection_children hf']

/-- **The steps of both renditions**: where nothing is merged, they write the same but
for what is added. -/
theorem performs_alike (h : PlainSections setup.outline)
    (hchild : ∀ i, ∀ j ∈ (setup.outline.get i).children,
      flattenedChild? setup .full (setup.outline.get j) = none)
    {todo : List Step} {s s₁ : State π σ} {es : List Event}
    (hfull : Performs setup .full todo s es s₁) :
    ∀ {s' s₁' : State π σ} {es' : List Event}, Performs setup .dynamic todo s' es' s₁' →
      s.headingIds = s'.headingIds →
      (∀ id, Step.opening id ∈ todo →
        flattenedChild? setup .full (setup.outline.get id) = none) →
      withoutAdditions (es.flatMap (Event.calls .full)) = es'.flatMap (Event.calls .dynamic) := by
  induction hfull with
  | done =>
    intro s' s₁' es' hdynamic _ _
    rw [hdynamic.of_nil.1]
    rfl
  | @opening id todo s s₁ es _ ih =>
    intro s' s₁' es' hdynamic hs hf
    obtain ⟨rest, rfl, hrest⟩ := hdynamic.of_opening
    have hid := hf id List.mem_cons_self
    obtain ⟨hcalls, hids, hchildren⟩ := openSection_alike h hs hid
    rw [← hchildren] at hrest
    rw [List.flatMap_cons, List.flatMap_cons, withoutAdditions_append, ih hrest hids]
    · exact congrArg (· ++ _) hcalls
    · intro j hj
      rcases List.mem_append.mp hj with hj | hj
      · obtain ⟨k, hk, hkj⟩ := List.mem_map.mp hj
        obtain rfl := Step.opening.inj hkj
        rw [openSection_children hid] at hk
        exact hchild id k hk
      · exact hf j (List.mem_cons_of_mem _ ((List.mem_cons.mp hj).resolve_left fun h => by cases h))
  | @closing todo s s₁ es _ ih =>
    intro s' s₁' es' hdynamic hs hf
    obtain ⟨rest, rfl, hrest⟩ := hdynamic.of_closing
    rw [List.flatMap_cons, List.flatMap_cons, withoutAdditions_append,
      ih hrest hs fun j hj => hf j (List.mem_cons_of_mem _ hj)]
    rfl

/-! ### Where the first section is merged into the root -/

/-- Of a plain page the sections are plain. -/
theorem plainSections {sink : Option (MetadataSink τ)} {calls : List Call} {t t' : τ} {o : Outline}
    (h : buildWith .strict sink calls t = .ok (o, t')) (hplain : Plain calls) :
    PlainSections o := by
  have hmem : ∀ {i : Nat} {c : Call}, c ∈ (o.get i).headingCalls ++ (o.get i).contentCalls →
      c.tag.isAdded = false := fun hc => by
    obtain ⟨d, hd, heq⟩ := exists_of_mem_section h isAdded_ignores hc
    rw [← heq]
    exact hplain d hd
  exact ⟨fun i c hc => hmem (List.mem_append_left _ hc),
    fun i c hc => hmem (List.mem_append_right _ hc),
    fun i hroot => (buildWith_sound h).1.headingCalls_of_isRoot hroot⟩

/-- A section is merged into the root where it is the only one below it. -/
theorem flattenedChild?_eq_some_iff (hroot : (setup.outline.get 0).isRoot = true) (k : Nat) :
    flattenedChild? setup .full (setup.outline.get 0) = some k ↔
      Merges setup.outline setup.options k := by
  have hfull : (Target.full == Target.full) = true := rfl
  unfold flattenedChild? Merges
  rw [hfull, hroot, Bool.true_and, Bool.and_true]
  cases setup.options.captureHeaderMetadata with
  | false => simp
  | true =>
    match (setup.outline.get 0).children with
    | [] => simp
    | [only] =>
      by_cases hl : (setup.outline.get only).level = 1 ∧ (setup.outline.get only).declaredLevel = 1
      · simp only [hl, decide_true, Bool.and_self, ↓reduceIte, Option.some.injEq, true_and,
          List.cons.injEq, and_true]
        exact ⟨fun h => h ▸ ⟨rfl, hl⟩, fun h => h.1⟩
      · simp only [Bool.and_eq_true, decide_eq_true_eq, hl, ↓reduceIte, reduceCtorEq, true_and,
          List.cons.injEq, and_true, false_iff]
        rintro ⟨rfl, h⟩
        exact hl h
    | _ :: _ :: _ => simp

/-- Behind the root no section takes a subsection. -/
theorem flattenedChild?_of_child {heads : List Call} (h : Tree heads setup.outline.nodes)
    {i j : Nat} (hj : j ∈ (setup.outline.get i).children) :
    flattenedChild? setup target (setup.outline.get j) = none :=
  flattenedChild?_of_not_root (h.isRoot_of_mem_children hj)

/-- Where the first section is merged into the root, the full rendition opens both as
one, and then what is below the first section. -/
theorem performs_merged_full {heads : List Call} (h : Tree heads setup.outline.nodes)
    (hp : PlainSections setup.outline)
    (hf : flattenedChild? setup .full (setup.outline.get 0) = some 1) {s s₁ : State π σ}
    {es : List Event} (hs : s.headingIds = setup.outline.idsBefore 0)
    (hperforms : Performs setup .full [.opening 0] s es s₁) :
    ∃ (s₀ s₂ s₃ : State π σ) (esBelow : List Event), s₂.headingIds = setup.outline.idsBefore 2 ∧
      Performs setup .full ((setup.outline.get 1).children.map Step.opening) s₂ esBelow s₃ ∧
      withoutAdditions (es.flatMap (Event.calls .full)) = divisionOf setup.outline 0 ::
        (setup.outline.headed 1 ++ (setup.outline.get 0).contentCalls ++
          (captureFeaturedImage setup s₀ (setup.outline.get 1)).1 ++
          withoutAdditions (esBelow.flatMap (Event.calls .full)) ++ [Call.exit .division]) := by
  have hsize : 0 < setup.outline.size := h.size_pos
  have hroot : setup.outline.headed 0 = [] := by
    rw [headed, (h.headingCalls_eq_nil hsize).mpr rfl]
    rfl
  obtain ⟨rest, rfl, hrest⟩ := hperforms.of_opening
  obtain ⟨⟨s₀, hmerged⟩, hids⟩ := openSection_merged h hs hf
  have hown := (openSection_opens h .full hsize hs).own
  have hopened : withoutAdditions ((openSection setup .full s 0).1.calls .full) =
      divisionOf setup.outline 0 :: (setup.outline.headed 1 ++
        ((setup.outline.get 0).contentCalls ++
          (captureFeaturedImage setup s₀ (setup.outline.get 1)).1)) := by
    rw [withoutAdditions_opening hp, Opening.portions, hmerged, hown, hroot]
    simp only [Option.toList_some, List.flatMap_cons, List.flatMap_nil, List.append_nil,
      List.nil_append]
  have hchildren : (openSection setup .full s 0).1.children = (setup.outline.get 1).children := by
    simp only [openSection, mergeChild, hf]
  rw [hchildren] at hrest
  obtain ⟨esBelow, esEnd, s₃, rfl, hbelow, hend⟩ := hrest.split rfl
  obtain ⟨_, rfl, hnil⟩ := hend.of_closing
  obtain ⟨rfl, -⟩ := hnil.of_nil
  refine ⟨s₀, _, s₃, esBelow, hids, hbelow, ?_⟩
  have hfirst : Event.calls .full (.opened (openSection setup .full s 0).1) =
      (openSection setup .full s 0).1.calls .full := rfl
  have hexit : withoutAdditions (Event.closed.calls .full) = [Call.exit .division] := rfl
  rw [List.flatMap_cons, List.flatMap_append, List.flatMap_singleton, withoutAdditions_append,
    withoutAdditions_append, hfirst, hopened, hexit]
  simp only [List.cons_append, List.append_assoc]

/-- There the dynamic rendition opens the root, then the first section, and then what is
below that. -/
theorem performs_merged_dynamic {heads : List Call} (h : Tree heads setup.outline.nodes)
    (hchildren : (setup.outline.get 0).children = [1]) {s s₁ : State π σ} {es : List Event}
    (hs : s.headingIds = setup.outline.idsBefore 0)
    (hperforms : Performs setup .dynamic [.opening 0] s es s₁) :
    ∃ (s₂ s₃ : State π σ) (esBelow : List Event), s₂.headingIds = setup.outline.idsBefore 2 ∧
      Performs setup .dynamic ((setup.outline.get 1).children.map Step.opening) s₂ esBelow s₃ ∧
      es.flatMap (Event.calls .dynamic) = divisionOf setup.outline 0 ::
        ((setup.outline.get 0).contentCalls ++ divisionOf setup.outline 1 ::
          (setup.outline.headed 1 ++ (setup.outline.get 1).contentCalls ++
            esBelow.flatMap (Event.calls .dynamic) ++
            [Call.exit .division, Call.exit .division])) := by
  obtain ⟨-, hsize, -⟩ := h.frontier_of_only_child hchildren
  have hroot : setup.outline.headed 0 = [] := by
    rw [headed, (h.headingCalls_eq_nil (by omega)).mpr rfl]
    rfl
  have hunmerged : ∀ i, flattenedChild? setup .dynamic (setup.outline.get i) = none := fun _ => rfl
  obtain ⟨rest, rfl, hrest⟩ := hperforms.of_opening
  have hopens := openSection_opens h .dynamic (by omega) hs
  obtain ⟨hnone, hids⟩ := openSection_unmerged h (by omega) hs (hunmerged 0)
  rw [openSection_children (hunmerged 0), hchildren] at hrest
  obtain ⟨rest', rfl, hrest'⟩ := hrest.of_opening
  have hopens' := openSection_opens h .dynamic hsize hids
  obtain ⟨hnone', hids'⟩ := openSection_unmerged h hsize hids (hunmerged 1)
  rw [openSection_children (hunmerged 1)] at hrest'
  obtain ⟨esBelow, esEnd, s₃, rfl, hbelow, hend⟩ := hrest'.split rfl
  obtain ⟨_, rfl, hend'⟩ := hend.of_closing
  obtain ⟨_, rfl, hnil⟩ := hend'.of_closing
  obtain ⟨rfl, -⟩ := hnil.of_nil
  refine ⟨_, s₃, esBelow, hids', hbelow, ?_⟩
  simp only [List.flatMap_cons, List.flatMap_append, List.flatMap_nil, List.append_nil,
    Event.calls, opening_dynamic, hopens.portions hnone, hopens'.portions hnone', hroot,
    List.nil_append, List.cons_append, List.append_assoc]

/-- **Where the first section is merged into the root**, its heading comes before the
text of the root and its division is gone; its text is written as the search for an
image leaves it, and what comes below it is the same. -/
theorem performs_merged {heads : List Call} (h : Tree heads setup.outline.nodes)
    (hp : PlainSections setup.outline)
    (hf : flattenedChild? setup .full (setup.outline.get 0) = some 1)
    {s s₁ s' s₁' : State π σ} {es es' : List Event}
    (hs : s.headingIds = setup.outline.idsBefore 0)
    (hs' : s'.headingIds = setup.outline.idsBefore 0)
    (hfull : Performs setup .full [.opening 0] s es s₁)
    (hdynamic : Performs setup .dynamic [.opening 0] s' es' s₁') :
    ∃ (s₀ : State π σ) (below : List Call),
      es'.flatMap (Event.calls .dynamic) = divisionOf setup.outline 0 ::
        ((setup.outline.get 0).contentCalls ++ divisionOf setup.outline 1 ::
          (setup.outline.headed 1 ++ (setup.outline.get 1).contentCalls ++ below ++
            [Call.exit .division, Call.exit .division])) ∧
      withoutAdditions (es.flatMap (Event.calls .full)) = divisionOf setup.outline 0 ::
        (setup.outline.headed 1 ++ (setup.outline.get 0).contentCalls ++
          (captureFeaturedImage setup s₀ (setup.outline.get 1)).1 ++ below ++
            [Call.exit .division]) := by
  obtain ⟨s₀, s₂, s₃, esBelow, hids, hbelow, hcalls⟩ := performs_merged_full h hp hf hs hfull
  obtain ⟨s₂', s₃', esBelow', hids', hbelow', hcalls'⟩ :=
    performs_merged_dynamic h (flattenedChild?_eq_some hf) hs' hdynamic
  have halike := performs_alike hp (fun i j hj => flattenedChild?_of_child h hj) hbelow hbelow'
    (hids.trans hids'.symm) fun id hid => by
      obtain ⟨j, hj, heq⟩ := List.mem_map.mp hid
      obtain rfl := Step.opening.inj heq
      exact flattenedChild?_of_child h hj
  rw [halike] at hcalls
  exact ⟨s₀, _, hcalls', hcalls⟩

/-! ### Whole renditions -/

/-- **The full rendition without what it adds** is the dynamic one, whatever the policies
and the sinks answer.  Where the first section is merged into the root, its heading comes
before the text of the root, its division is gone, and at most one image of its text is
hidden. -/
theorem full_without_additions {sink : Option (MetadataSink τ)} {calls : List Call} {t t' : τ}
    {o : Outline} (h : buildWith .strict sink calls t = .ok (o, t'))
    (hplain : ∀ c ∈ calls, c.tag.isAdded = false) (options : Options)
    (policy : Option (AdPolicy π)) (sink' : Option (MetadataSink σ)) (p p' : π) (s s' : σ) :
    let full := withoutAdditions (run ⟨o, options, policy, sink'⟩ .full p s).1.calls
    let dynamic := (run ⟨o, options, policy, sink'⟩ .dynamic p' s').1.calls
    ((∀ k, ¬ Merges o options k) → full = dynamic) ∧
      ∀ k, Merges o options k → ∃ text below : List Call,
        dynamic = divisionOf o 0 :: ((o.get 0).contentCalls ++ divisionOf o k ::
          (o.headed k ++ (o.get k).contentCalls ++ below ++
            [Call.exit .division, Call.exit .division])) ∧
        full = divisionOf o 0 :: (o.headed k ++ (o.get 0).contentCalls ++ text ++ below ++
          [Call.exit .division]) ∧
        (text = (o.get k).contentCalls ∨ ∃ i c, (o.get k).contentCalls[i]? = some c ∧
          c.tag.isMedia = true ∧ text = (o.get k).contentCalls.modify i fun c =>
            c.withAttribute "display" (.string "none")) := by
  set setup : Setup π σ := ⟨o, options, policy, sink'⟩
  have ht : Tree _ setup.outline.nodes := (buildWith_sound h).1
  have hsections : PlainSections setup.outline := plainSections h hplain
  have hroot : (setup.outline.get 0).isRoot = true := by
    rw [ht.isRoot ht.size_pos]
    rfl
  have hfull := events_performs ht .full p s
  have hdynamic := events_performs ht .dynamic p' s'
  refine ⟨fun hnone => ?_, fun k hk => ?_⟩
  · have hf : flattenedChild? setup .full (setup.outline.get 0) = none :=
      Option.eq_none_iff_forall_ne_some.mpr fun k hk =>
        hnone k ((flattenedChild?_eq_some_iff hroot k).mp hk)
    refine performs_alike hsections (fun i j hj => flattenedChild?_of_child ht hj) hfull hdynamic
      rfl fun id hid => ?_
    obtain rfl := Step.opening.inj (List.mem_singleton.mp hid)
    exact hf
  · have hf := (flattenedChild?_eq_some_iff hroot k).mpr hk
    obtain ⟨rfl, -, -⟩ := ht.frontier_of_only_child (flattenedChild?_eq_some hf)
    obtain ⟨s₀, below, h1, h2⟩ := performs_merged ht hsections hf rfl rfl hfull hdynamic
    exact ⟨_, below, h1, h2, captureFeaturedImage_calls setup s₀ _⟩

/-- A page with a text before its first section, which opens with an image and holds
another section. -/
def pictured : List Call :=
  let heading (level : Int64) : Call := ((Call.enter (.heading .atx)).withContext
    Call.outlineContext).withAttribute levelAttribute (.int level)
  [Call.text "Welcome", heading 1, Call.text "News", Call.exit (.heading .atx),
    (Call.special .media).withAttribute "src" (.string "sun.png"), Call.text "Today", heading 2,
    Call.text "Older", Call.exit (.heading .atx), Call.text "Yesterday"]

theorem full_without_additions_of_pictured :
    ∃ o, buildWith .strict (none : Option (MetadataSink Unit)) pictured () = .ok (o, ()) ∧
      (∀ c ∈ pictured, c.tag.isAdded = false) ∧ Merges o {} 1 ∧
      ∃ text below : List Call,
        withoutAdditions (run ⟨o, {}, some (IntervalAdPolicy.policy {}), some PageMetadata.sink⟩
            .full () {}).1.calls =
          divisionOf o 0 :: (o.headed 1 ++ [Call.text "Welcome"] ++ text ++ below ++
            [Call.exit .division]) ∧
        (text = (o.get 1).contentCalls ∨ ∃ i c, (o.get 1).contentCalls[i]? = some c ∧
          c.tag.isMedia = true ∧ text = (o.get 1).contentCalls.modify i fun c =>
            c.withAttribute "display" (.string "none")) := by
  have hb : buildWith .strict (none : Option (MetadataSink Unit)) pictured () = .ok (_, ()) := rfl
  have hplain : ∀ c ∈ pictured, c.tag.isAdded = false := by decide
  refine ⟨_, hb, hplain, ⟨rfl, rfl, rfl, rfl⟩, ?_⟩
  obtain ⟨text, below, -, h, htext⟩ := (full_without_additions hb hplain {}
    (some (IntervalAdPolicy.policy {})) (some PageMetadata.sink) () () {} {}).2 1
    ⟨rfl, rfl, rfl, rfl⟩
  exact ⟨text, below, h, htext⟩

end Rendering

end WikiOutline
