/-
# A rendition is a recursion over the sections

A rendition keeps a list of what is still to be done, and puts the sections to be opened on
top of it.  It writes the same as if every section wrote its division, with what it has of
its own in it and its subsections behind that, each by the same rule (`written`).  For a
section that is opened the list grows by its subsections and by the closing of its division.
When these are done all that belongs to the section is written, and what waits below them
was not looked at (`performs_written`).  The sections of an outline are a tree
(`Tree.exists_holds`), so the recursion ends, and so does the list.

Key definitions: `SectionTree`, `SectionTree.Holds`, `Rendering.written`,
`Rendering.Event.signed`.
Key theorems: `Outline.Tree.exists_holds`, `Rendering.written_node`, `Rendering.performs_written`,
`Rendering.run_recursive`.
-/
import WikiOutline.Proofs.Completion
import WikiOutline.Proofs.Shape

namespace WikiOutline

/-! ### Sections as a tree -/

/-- A section and all below it. -/
inductive SectionTree where
  | node (id : Nat) (below : List SectionTree)

namespace SectionTree

/-- The section on top. -/
def id : SectionTree → Nat
  | .node id _ => id

mutual

/-- The tree is that of a section of an outline. -/
def Holds (o : Outline) : SectionTree → Prop
  | .node id below => below.map SectionTree.id = (o.get id).children ∧ HoldAll o below

/-- The trees are those of some sections of an outline. -/
def HoldAll (o : Outline) : List SectionTree → Prop
  | [] => True
  | t :: ts => t.Holds o ∧ HoldAll o ts

end

/-- Some sections have trees if each one has. -/
theorem exists_holdAll {o : Outline} : ∀ {ids : List Nat},
    (∀ i ∈ ids, ∃ t : SectionTree, t.id = i ∧ t.Holds o) →
    ∃ ts, ts.map SectionTree.id = ids ∧ HoldAll o ts
  | [], _ => ⟨[], rfl, trivial⟩
  | i :: ids, h => by
    obtain ⟨t, hid, ht⟩ := h i List.mem_cons_self
    obtain ⟨ts, hids, hts⟩ := exists_holdAll fun j hj => h j (List.mem_cons_of_mem _ hj)
    exact ⟨t :: ts, by rw [List.map_cons, hid, hids], ht, hts⟩

end SectionTree

namespace Outline

/-- The subsections of a section come behind it. -/
theorem Tree.lt_of_mem_children {heads : List Call} {o : Outline} (h : Tree heads o.nodes)
    {i j : Nat} (hj : j ∈ (o.get i).children) : i < j ∧ j < o.size := by
  rw [← nodeAt_children] at hj
  obtain ⟨hlt, hparent⟩ := h.mem_children.mp hj
  exact ⟨(h.below_of_parent hlt hparent).1, by rwa [length_nodes] at hlt⟩

/-- **The sections are a tree**: from every section one comes to an end. -/
theorem Tree.exists_holds {heads : List Call} {o : Outline} (h : Tree heads o.nodes) (i : Nat) :
    ∃ t : SectionTree, t.id = i ∧ t.Holds o := by
  have hbelow : ∀ j ∈ (o.get i).children, ∃ t : SectionTree, t.id = j ∧ t.Holds o :=
    fun j hj => h.exists_holds j
  obtain ⟨ts, hids, hts⟩ := SectionTree.exists_holdAll hbelow
  exact ⟨.node i ts, rfl, hids, hts⟩
  termination_by o.size - i
  decreasing_by
    have := h.lt_of_mem_children hj
    omega

end Outline

namespace Rendering

open Outline

variable {π σ τ : Type}

/-! ### The recursion -/

/-- A division with some calls in it. -/
def division (level : Nat) (inside : List Call) : List Call :=
  (Call.enter .division).withAttribute levelAttribute (.ofNat level) ::
    inside ++ [Call.exit .division]

/-- The calls of its own that a section shows. -/
def shown (target : Target) (isLeaf : Bool) (heading content marker button : List Call) :
    List Call :=
  if isLeaf then marker ++ heading ++ content ++ button
  else
    let own := heading ++ content ++ marker ++ button
    if target = .full ∧ (heading ≠ [] ∨ content ≠ [] ∨ marker ≠ []) then
      Call.enter .header :: own ++ [Call.exit .header]
    else own

/-- What a section has of its own, with the advertisement and the edit button. -/
def writtenOwn (setup : Setup π σ) (target : Target) (s : State π σ) (id ordinal lines : Nat)
    (headingId : Option String) (isLeaf : Bool) (heading content : List Call) :
    List Call × State π σ :=
  let (marker, s) := adMarker setup target s id ordinal lines
  let (button, s) := editButton setup target s (setup.outline.get id) headingId
  (shown target isLeaf heading content marker.toList button.toList, s)

mutual

/-- What a section writes with all that is below it. -/
def written (setup : Setup π σ) (target : Target) :
    SectionTree → State π σ → List Call × State π σ
  | .node id below, s =>
    let sec := setup.outline.get id
    let ordinal := s.sectionOrdinal
    let (heading, headingId, s) := ownHeading { s with sectionOrdinal := ordinal + 1 } sec
    match flattenedChild? setup target sec, below with
    | some only, [.node _ deeper] =>
      -- the root shows the heading of the only subsection, and its text behind its own
      let sub := setup.outline.get only
      let (heading, _, s) := s.heading sub
      let (content, s) := captureFeaturedImage setup s sub
      let (own, s) := writtenOwn setup target s id ordinal (sec.filledLines + sub.filledLines)
        headingId deeper.isEmpty heading (sec.contentCalls ++ content)
      let (inner, s) := writtenAll setup target deeper s
      (division sec.level (own ++ inner), s)
    | _, below =>
      let (own, s) := writtenOwn setup target s id ordinal sec.filledLines
        headingId below.isEmpty heading sec.contentCalls
      let (inner, s) := writtenAll setup target below s
      (division sec.level (own ++ inner), s)

/-- What sections write one behind the other. -/
def writtenAll (setup : Setup π σ) (target : Target) :
    List SectionTree → State π σ → List Call × State π σ
  | [], s => ([], s)
  | t :: ts, s =>
    let (first, s) := written setup target t s
    let (rest, s) := writtenAll setup target ts s
    (first ++ rest, s)

end

/-! ### One section -/

theorem shown_eq_arrange (target : Target) (isLeaf : Bool) (heading content : List Call)
    (marker button : Option Call) :
    shown target isLeaf heading content marker.toList button.toList =
      arrange target (!isLeaf) heading content marker button := by
  unfold shown arrange
  cases isLeaf with
  | true => rfl
  | false =>
    have hset :
        (target == .full && (!heading.isEmpty || !content.isEmpty || marker.isSome)) = true ↔
          target = .full ∧ (heading ≠ [] ∨ content ≠ [] ∨ marker.toList ≠ []) := by
      cases target with
      | full =>
        rw [show (Target.full == Target.full) = true from rfl]
        cases marker <;> simp
      | dynamic =>
        rw [show (Target.dynamic == Target.full) = false from rfl]
        simp
    simp only [Bool.not_false, Bool.not_true, Bool.false_eq_true, ↓reduceIte, hset]

variable {setup : Setup π σ} {target : Target}

theorem writtenOwn_eq (s : State π σ) (id ordinal lines : Nat) (headingId : Option String)
    (isLeaf : Bool) (heading content : List Call) :
    let ad := adMarker setup target s id ordinal lines
    let edit := editButton setup target ad.2 (setup.outline.get id) headingId
    writtenOwn setup target s id ordinal lines headingId isLeaf heading content =
      (arrange target (!isLeaf) heading content ad.1 edit.1, edit.2) :=
  Prod.ext (shown_eq_arrange target isLeaf heading content _ _) rfl

/-- What a section is opened with, when nothing is merged into it. -/
theorem opened_alone {id : Nat}
    (hf : flattenedChild? setup target (setup.outline.get id) = none) (s : State π σ) :
    let sec := setup.outline.get id
    let own := ownHeading { s with sectionOrdinal := s.sectionOrdinal + 1 } sec
    let all := writtenOwn setup target own.2.2 id s.sectionOrdinal sec.filledLines own.2.1
      sec.children.isEmpty own.1 sec.contentCalls
    (openSection setup target s id).1.calls target = divisionOf setup.outline id :: all.1 ∧
      (openSection setup target s id).1.children = sec.children ∧
      (openSection setup target s id).2 = all.2 := by
  intro sec own all
  have hall : all = _ := writtenOwn_eq own.2.2 id s.sectionOrdinal sec.filledLines own.2.1
    sec.children.isEmpty own.1 sec.contentCalls
  rw [openSection_eq, hall]
  simp only [mergeChild_of_none hf, Opening.calls, Opening.portions, Option.toList_none,
    List.flatMap_singleton]
  exact ⟨rfl, rfl, rfl⟩

/-- What the root is opened with, when its only subsection is merged into it. -/
theorem opened_merged {id only : Nat}
    (hf : flattenedChild? setup target (setup.outline.get id) = some only) (s : State π σ) :
    let sec := setup.outline.get id
    let sub := setup.outline.get only
    let own := ownHeading { s with sectionOrdinal := s.sectionOrdinal + 1 } sec
    let taken := own.2.2.heading sub
    let text := captureFeaturedImage setup taken.2.2 sub
    let all := writtenOwn setup target text.2 id s.sectionOrdinal
      (sec.filledLines + sub.filledLines) own.2.1 sub.children.isEmpty taken.1
      (sec.contentCalls ++ text.1)
    (openSection setup target s id).1.calls target = divisionOf setup.outline id :: all.1 ∧
      (openSection setup target s id).1.children = sub.children ∧
      (openSection setup target s id).2 = all.2 := by
  intro sec sub own taken text all
  have hall : all = _ := writtenOwn_eq text.2 id s.sectionOrdinal
    (sec.filledLines + sub.filledLines) own.2.1 sub.children.isEmpty taken.1
    (sec.contentCalls ++ text.1)
  -- the root has no heading of its own
  have hown : own.1 = [] := by
    show (ownHeading _ sec).1 = []
    rw [ownHeading, if_pos (isRoot_of_flattenedChild? hf)]
  rw [openSection_eq, hall]
  simp only [mergeChild, hf, Opening.calls, Opening.portions, Option.toList_some,
    List.flatMap_cons, List.flatMap_nil, List.append_nil]
  rw [show (ownHeading _ _).1 = [] from hown, List.nil_append]
  exact ⟨rfl, rfl, rfl⟩

/-- **A section that is written** is opened, then the sections to be opened next are written,
and its division is closed. -/
theorem written_node {id : Nat} {below : List SectionTree}
    (h : (SectionTree.node id below).Holds setup.outline) (s : State π σ) :
    let opened := openSection setup target s id
    ∃ next, opened.1.children = next.map SectionTree.id ∧
      SectionTree.HoldAll setup.outline next ∧ sizeOf next < sizeOf (SectionTree.node id below) ∧
      written setup target (.node id below) s =
        (opened.1.calls target ++ (writtenAll setup target next opened.2).1 ++
          [Call.exit .division], (writtenAll setup target next opened.2).2) := by
  intro opened
  obtain ⟨hids, hbelow⟩ := h
  cases hf : flattenedChild? setup target (setup.outline.get id) with
  | none =>
    obtain ⟨hcalls, hchildren, hstate⟩ := opened_alone hf s
    have hleaf : (setup.outline.get id).children.isEmpty = below.isEmpty := by
      rw [← hids, List.isEmpty_map]
    refine ⟨below, hchildren.trans hids.symm, hbelow, by simp, ?_⟩
    rw [hcalls, hstate, hleaf]
    unfold written
    simp only [hf]
    rfl
  | some only =>
    obtain ⟨hcalls, hchildren, hstate⟩ := opened_merged hf s
    -- the tree below the root is that of the subsection
    rw [flattenedChild?_eq_some hf] at hids
    obtain ⟨⟨sub, deeper⟩, rfl, hsub⟩ := List.map_eq_singleton_iff.mp hids
    obtain rfl : sub = only := hsub
    obtain ⟨⟨hdeeper, hholds⟩, -⟩ := hbelow
    have hleaf : (setup.outline.get sub).children.isEmpty = deeper.isEmpty := by
      rw [← hdeeper, List.isEmpty_map]
    refine ⟨deeper, hchildren.trans hdeeper.symm, hholds, by simp; omega, ?_⟩
    rw [hcalls, hstate, hleaf]
    unfold written
    simp only [hf]
    rfl

/-! ### What is still to be done -/

mutual

/-- **With a section on the list** of what is still to be done, the section is written, and
then all is done that waits below it. -/
theorem performs_written : ∀ (t : SectionTree) {s s' : State π σ} {todo : List Step}
    {es : List Event}, t.Holds setup.outline →
    Performs setup target todo (written setup target t s).2 es s' →
    ∃ made, Performs setup target (.opening t.id :: todo) s (made ++ es) s' ∧
      made.flatMap (Event.calls target) = (written setup target t s).1
  | .node id below, s, s', todo, es, ht, h => by
    obtain ⟨next, hchildren, hnext, hsmaller, hwritten⟩ := written_node ht s
    rw [hwritten] at h ⊢
    -- behind the subsections the division is closed
    obtain ⟨made, hmade, hcalls⟩ := performs_writtenAll next hnext (.closing h)
    rw [← List.map_map, ← hchildren] at hmade
    refine ⟨.opened (openSection setup target s id).1 :: made ++ [.closed], ?_, ?_⟩
    · rw [List.append_assoc, List.cons_append, List.singleton_append]
      exact .opening hmade
    · rw [List.flatMap_append, List.flatMap_cons, hcalls]
      rfl
  termination_by t => sizeOf t
  decreasing_by exact hsmaller

/-- With several sections on the list they are written one behind the other. -/
theorem performs_writtenAll : ∀ (ts : List SectionTree) {s s' : State π σ} {todo : List Step}
    {es : List Event}, SectionTree.HoldAll setup.outline ts →
    Performs setup target todo (writtenAll setup target ts s).2 es s' →
    ∃ made, Performs setup target (ts.map (Step.opening ∘ SectionTree.id) ++ todo) s
        (made ++ es) s' ∧
      made.flatMap (Event.calls target) = (writtenAll setup target ts s).1
  | [], s, s', todo, es, _, h => ⟨[], h, rfl⟩
  | t :: ts, s, s', todo, es, ⟨ht, hts⟩, h => by
    obtain ⟨rest, hrest, hcalls⟩ := performs_writtenAll ts hts h
    obtain ⟨first, hfirst, hcalls'⟩ := performs_written t ht hrest
    refine ⟨first ++ rest, ?_, ?_⟩
    · rw [List.append_assoc]
      exact hfirst
    · rw [List.flatMap_append, hcalls, hcalls']
      rfl
  termination_by ts => sizeOf ts

end

/-! ### For whom a call is written -/

/-- The calls of what was done, with the section that they are written for when it is
opened. -/
def Event.signed (target : Target) : Event → List (Option Nat × Call)
  | .opened o => (o.calls target).map fun c => (some o.own.id, c)
  | .closed => [(none, Call.exit .division)]

theorem map_signed (target : Target) (es : List Event) :
    (es.flatMap (Event.signed target)).map Prod.snd = es.flatMap (Event.calls target) := by
  rw [List.map_flatMap]
  refine List.flatMap_congr fun e _ => ?_
  cases e with
  | opened o => rw [Event.signed, List.map_map]; exact List.map_id _
  | closed => rfl

/-- A call is written for a section when that one is opened, and so are those around it. -/
theorem exists_of_signed {e : Event} {i : Nat} {c : Call} (h : (some i, c) ∈ e.signed target) :
    ∃ o, e = .opened o ∧ o.own.id = i ∧ ∀ x ∈ e.signed target, x.1 = some i := by
  cases e with
  | opened o =>
    obtain ⟨_, -, heq⟩ := List.mem_map.mp h
    refine ⟨o, rfl, Option.some.inj (congrArg Prod.fst heq), fun x hx => ?_⟩
    obtain ⟨_, -, rfl⟩ := List.mem_map.mp hx
    exact congrArg Prod.fst heq
  | closed => cases congrArg Prod.fst (List.mem_singleton.mp h)

theorem mem_signed {es : List Event} {i : Nat} {c : Call}
    (h : (some i, c) ∈ es.flatMap (Event.signed target)) :
    i ∈ (openings es).map fun o => o.own.id := by
  obtain ⟨e, he, hc⟩ := List.mem_flatMap.mp h
  obtain ⟨o, rfl, rfl, -⟩ := exists_of_signed hc
  exact List.mem_map_of_mem (List.mem_filterMap.mpr ⟨_, he, rfl⟩)

/-- **Between two calls for a section** there are none for another one, if no section is
opened twice. -/
theorem signed_between : ∀ {es : List Event}, ((openings es).map fun o => o.own.id).Nodup →
    ∀ {before inside behind : List (Option Nat × Call)} {i : Nat} {c d : Call},
      es.flatMap (Event.signed target) = before ++ (some i, c) :: inside ++ (some i, d) :: behind →
      ∀ x ∈ inside, x.1 = some i
  | [], _, before, inside, behind, i, c, d, h => by
    rw [List.append_assoc] at h
    cases (List.append_eq_nil_iff.mp h.symm).2
  | e :: es, hids, before, inside, behind, i, c, d, h => by
    have hrest : ((openings es).map fun o => o.own.id).Nodup := by
      cases e with
      | opened o => exact (List.nodup_cons.mp hids).2
      | closed => exact hids
    rw [List.flatMap_cons, List.append_assoc, List.cons_append, List.append_eq_append_iff] at h
    rcases h with ⟨before', rfl, h⟩ | ⟨block, hblock, h⟩
    · have hsplit : es.flatMap (Event.signed target) =
          before' ++ (some i, c) :: inside ++ (some i, d) :: behind := by
        rw [h, List.append_assoc, List.cons_append]
      exact signed_between hrest hsplit
    · cases block with
      | nil =>
        have hsplit : es.flatMap (Event.signed target) =
          [] ++ (some i, c) :: inside ++ (some i, d) :: behind := h.symm
        exact signed_between hrest hsplit
      | cons first block =>
        -- the first call is written where the first section is opened, and so is the second
        obtain ⟨rfl, hinside⟩ := List.cons.inj h
        have hmem : (some i, c) ∈ e.signed target := by
          rw [hblock]
          exact List.mem_append_right _ List.mem_cons_self
        obtain ⟨o, rfl, rfl, hfor⟩ := exists_of_signed hmem
        rcases List.append_eq_append_iff.mp hinside with ⟨more, rfl, -⟩ | ⟨more, -, hlater⟩
        · intro x hx
          apply hfor
          rw [hblock]
          exact List.mem_append_right _ (List.mem_cons_of_mem _ (List.mem_append_left _ hx))
        · have hagain : (some o.own.id, d) ∈ es.flatMap (Event.signed target) := by
            rw [hlater]
            exact List.mem_append_right _ List.mem_cons_self
          exact absurd (mem_signed hagain) (List.nodup_cons.mp hids).1

/-! ### Whole renditions -/

theorem length_visits_le {heads : List Call} (h : Tree heads setup.outline.nodes)
    (target : Target) : (visits setup target).length ≤ setup.outline.size := by
  have hpos := h.size_pos
  unfold visits
  split
  · rw [List.length_range']
  · rw [List.length_cons, List.length_range']
    omega

/-- No section is opened twice. -/
theorem nodup_openings {heads : List Call} (h : Tree heads setup.outline.nodes) (target : Target)
    (p : π) (t : σ) :
    ((openings (events setup target p t).1).map fun o => o.own.id).Nodup := by
  rw [show openings _ = _ from (events_openAll h target p t).1, map_openAll]
  unfold visits
  split
  · exact List.nodup_range'
  · refine List.nodup_cons.mpr ⟨fun hzero => ?_, List.nodup_range'⟩
    have := List.mem_range'_1.mp hzero
    omega

/-- **A rendition is the recursion over the sections.**  What is to be done comes to an end
and more fuel changes nothing.  The sections are a tree, and what the recursion over it
writes is the rendition, with its warnings and with the states of the policy and the sink.
Between the ends of a header all is written for the section that the header is written for. -/
theorem run_recursive {strictness : Strictness} {titled : Option (MetadataSink τ)}
    {calls : List Call} {u u' : τ} {o : Outline}
    (hb : buildWith strictness titled calls u = .ok (o, u')) (options : Options)
    (policy : Option (AdPolicy π)) (sink : Option (MetadataSink σ)) (target : Target) (p : π)
    (t : σ) :
    let setup : Setup π σ := ⟨o, options, policy, sink⟩
    let start : State π σ := { policyState := p, sinkState := t }
    let done := events setup target p t
    let signed := done.1.flatMap (Event.signed target)
    (Performs setup target [.opening 0] start done.1 done.2 ∧
      ∀ fuel, 2 * o.size ≤ fuel → perform setup target fuel [.opening 0] start = done) ∧
    (∃ tree : SectionTree, tree.id = 0 ∧ tree.Holds o) ∧
    (∀ tree : SectionTree, tree.id = 0 → tree.Holds o →
      let whole := written setup target tree start
      run setup target p t =
        (⟨whole.1, whole.2.warnings⟩, whole.2.policyState, whole.2.sinkState)) ∧
    signed.map Prod.snd = (run setup target p t).1.calls ∧
    ∀ before i inside behind,
      signed = before ++ (some i, Call.enter .header) :: inside ++
        (some i, Call.exit .header) :: behind →
      ∀ x ∈ inside, x.1 = some i := by
  intro setup start done signed
  have ht : Tree _ setup.outline.nodes := (buildWith_sound hb).1
  have hdone : Performs setup target [.opening 0] start done.1 done.2 :=
    events_performs ht target p t
  have hlength : done.1.length ≤ 2 * o.size := by
    rw [(events_openAll ht target p t).2.2]
    exact Nat.mul_le_mul_left 2 (length_visits_le ht target)
  refine ⟨⟨hdone, fun fuel hfuel => hdone.perform_eq fuel (hlength.trans hfuel)⟩,
    ht.exists_holds 0, fun tree hid hholds => ?_, map_signed target done.1,
    fun before i inside behind h => signed_between (nodup_openings ht target p t) h⟩
  intro whole
  obtain ⟨made, hmade, hcalls⟩ := performs_written tree hholds
    (Performs.done (s := (written setup target tree start).2))
  rw [hid, List.append_nil] at hmade
  -- with fuel for both the same is done
  have hboth : (made, whole.2) = done :=
    (hmade.perform_eq (max made.length done.1.length) (le_max_left _ _)).symm.trans
      (hdone.perform_eq _ (le_max_right _ _))
  have hrun : run setup target p t =
      (⟨done.1.flatMap (Event.calls target), done.2.warnings⟩, done.2.policyState,
        done.2.sinkState) := rfl
  rw [hrun, ← hboth]
  exact congrArg (fun cs : List Call => ((⟨cs, whole.2.warnings⟩ : Rendition), whole.2.policyState,
    whole.2.sinkState)) hcalls

/-- A page with a text, a heading of level 1, and two below it. -/
def forecast : List Call :=
  let heading (level : Int64) (label : String) : Call :=
    (((Call.special (.heading .atx)).withContext Call.outlineContext).withAttribute
      levelAttribute (.int level)).withPayload label
  [Call.text "Welcome", heading 1 "Home", Call.text "Weather", heading 2 "Today",
    Call.text "Rain", heading 2 "Tomorrow"]

/-- Its sections. -/
def forecastTree : SectionTree := .node 0 [.node 1 [.node 2 [], .node 3 []]]

/-- The second section is merged into the first one, and the others are written below it. -/
theorem run_recursive_forecast :
    ∃ o, buildWith .strict (none : Option (MetadataSink Unit)) forecast () = .ok (o, ()) ∧
      forecastTree.id = 0 ∧ forecastTree.Holds o ∧
      (run (π := Unit) (σ := Unit) ⟨o, {}, none, none⟩ .full () ()).1.calls =
        (written (π := Unit) (σ := Unit) ⟨o, {}, none, none⟩ .full forecastTree
          { policyState := (), sinkState := () }).1 := by
  have hb : buildWith .strict (none : Option (MetadataSink Unit)) forecast () = .ok (_, ()) := rfl
  obtain ⟨-, -, hrun, -⟩ := run_recursive hb {} (none : Option (AdPolicy Unit))
    (none : Option (MetadataSink Unit)) .full () ()
  refine ⟨_, hb, rfl, ?_⟩
  suffices hholds : forecastTree.Holds _ from
    ⟨hholds, congrArg (fun r => r.1.calls) (hrun forecastTree rfl hholds)⟩
  exact ⟨rfl, ⟨rfl, ⟨rfl, trivial⟩, ⟨rfl, trivial⟩, trivial⟩, trivial⟩

end Rendering

end WikiOutline
