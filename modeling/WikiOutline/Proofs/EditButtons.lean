/-
# Edit buttons name the sections that can be edited

A full rendition numbers its edit buttons: the sections whose start is known get the
numbers from one on, in the order of the page; the root gets none, and neither does a
section that is merged into it.  Opening a section takes the next number just when the
section can be edited (`openSection_button`), so the sections opened one behind the other
take them without gaps (`openAll_buttons`).  A button stands at the end of what its section
has of its own, so the exit of a header or of a division is next (`performs_exits`).

Key definitions: `Rendering.editable`, `Rendering.ExitsBehind`.
Key theorems: `Rendering.openSection_button`, `Rendering.events_buttons`,
`Rendering.performs_exits`, `Rendering.edit_buttons`.
-/
import WikiOutline.Proofs.Additions
import WikiOutline.Proofs.Insertions
import WikiOutline.Proofs.Origins

namespace WikiOutline

namespace Rendering

open Outline

variable {π σ τ : Type} {setup : Setup π σ} {target : Target}

/-- A section with a heading of its own and a known start. -/
def canEdit (o : Outline) (i : Nat) : Bool := !(o.get i).isRoot && (o.get i).startPos.isSome

/-- The sections that can be edited, in the order of the page; not the one that is merged
into the root. -/
def editable (o : Outline) (options : Options) : List Nat :=
  o.preOrder.filter fun i => canEdit o i && !decide (Merges o options i)

/-! ### Which sections get a button -/

/-- Where nothing is merged, all sections with a known start can be edited. -/
theorem editable_of_none {heads : List Call} (h : Tree heads setup.outline.nodes)
    (hroot : (setup.outline.get 0).isRoot = true)
    (hf : flattenedChild? setup .full (setup.outline.get 0) = none) :
    editable setup.outline setup.options =
      (List.range' 0 setup.outline.size).filter (canEdit setup.outline) := by
  rw [editable, preOrder_eq h, List.range_eq_range']
  refine List.filter_congr fun i _ => ?_
  have hnot : ¬ Merges setup.outline setup.options i := fun hm => by
    rw [(flattenedChild?_eq_some_iff hroot i).mpr hm] at hf
    cases hf
  rw [decide_eq_false hnot, Bool.not_false, Bool.and_true]

/-- Where the first section is merged, those behind it. -/
theorem editable_of_merged {heads : List Call} (h : Tree heads setup.outline.nodes)
    (hf : flattenedChild? setup .full (setup.outline.get 0) = some 1) :
    editable setup.outline setup.options =
      (List.range' 2 (setup.outline.size - 2)).filter (canEdit setup.outline) := by
  have hroot : (setup.outline.get 0).isRoot = true := isRoot_of_flattenedChild? hf
  have hmerges : Merges setup.outline setup.options 1 := (flattenedChild?_eq_some_iff hroot 1).mp hf
  obtain ⟨-, hsize, -⟩ := h.frontier_of_only_child (flattenedChild?_eq_some hf)
  have hbehind : ∀ i ∈ List.range' 2 (setup.outline.size - 2),
      ¬ Merges setup.outline setup.options i := fun i hi hm => by
    obtain rfl := List.cons.inj (hm.2.1.symm.trans hmerges.2.1) |>.1
    have := (List.mem_range'_1.mp hi).1
    omega
  rw [editable, preOrder_eq h, List.range_eq_range',
    show setup.outline.size = setup.outline.size - 2 + 1 + 1 by omega, List.range'_succ,
    List.range'_succ, List.filter_cons_of_neg, List.filter_cons_of_neg]
  · refine List.filter_congr fun i hi => ?_
    rw [decide_eq_false (hbehind i hi), Bool.not_false, Bool.and_true]
  · rw [decide_eq_true hmerges, Bool.not_true, Bool.and_false]
    exact Bool.false_ne_true
  · rw [canEdit, hroot]
    exact Bool.false_ne_true

/-! ### The buttons are numbered -/

/-- **A section that is opened** takes the next number if it can be edited. -/
theorem openSection_button {heads : List Call} (h : Tree heads setup.outline.nodes) {i : Nat}
    (hi : i < setup.outline.size) {s : State π σ} (hs : s.headingIds = setup.outline.idsBefore i)
    (hedit : setup.options.editButtons = true) :
    (openSection setup .full s i).1.button =
        (if canEdit setup.outline i then
          some (buttonCall setup.outline setup.options i (s.editSequence + 1)) else none) ∧
      (openSection setup .full s i).2.editSequence =
        if canEdit setup.outline i then s.editSequence + 1 else s.editSequence := by
  set opened : State π σ := { s with sectionOrdinal := s.sectionOrdinal + 1 }
  have hown := ownHeading_eq h hi (s := opened) hs
  have hsequence := adMarker_editSequence_eq setup .full s i
  rw [openSection_eq]
  simp only at hsequence ⊢
  rw [show (ownHeading opened (setup.outline.get i)).2.1 = _ from congrArg (·.2.1) hown, canEdit,
    h.isRoot hi]
  unfold editButton
  rw [hedit]
  by_cases h0 : i = 0
  · subst h0
    exact ⟨rfl, hsequence⟩
  · rw [if_neg h0, beq_false_of_ne h0, Bool.not_false, Bool.true_and]
    cases hstart : (setup.outline.get i).startPos with
    | none => exact ⟨rfl, hsequence⟩
    | some start =>
      simp only [hsequence, Option.isSome_some, ↓reduceIte, and_true, buttonCall, sectionButton,
        hstart, Option.getD_some]
      rfl

/-- **Sections opened one behind the other** take the numbers without gaps. -/
theorem openAll_buttons {heads : List Call} (h : Tree heads setup.outline.nodes)
    (hedit : setup.options.editButtons = true) : ∀ k i (s : State π σ),
      i + k ≤ setup.outline.size → s.headingIds = setup.outline.idsBefore i →
      Unmerged setup .full (List.range' i k) →
      (openAll setup .full (List.range' i k) s).1.filterMap Opening.button =
        (((List.range' i k).filter (canEdit setup.outline)).zipIdx (s.editSequence + 1)).map
          fun ik => buttonCall setup.outline setup.options ik.1 ik.2
  | 0, _, _, _, _, _ => rfl
  | k + 1, i, s, hi, hs, hu => by
    rw [List.range'_succ] at hu ⊢
    obtain ⟨-, hids⟩ := openSection_unmerged h (by omega) hs (hu i List.mem_cons_self)
    obtain ⟨hbutton, hsequence⟩ := openSection_button h (by omega) hs hedit
    have hrest := openAll_buttons h hedit k (i + 1) (openSection setup .full s i).2 (by omega) hids
      fun j hj => hu j (List.mem_cons_of_mem _ hj)
    rw [hsequence] at hrest
    simp only [openAll, List.filterMap_cons, hbutton]
    cases hcan : canEdit setup.outline i with
    | true =>
      rw [hcan, if_pos rfl] at hrest
      rw [List.filter_cons_of_pos hcan, List.zipIdx_cons, List.map_cons, ← hrest]
      rfl
    | false =>
      rw [hcan, if_neg Bool.false_ne_true] at hrest
      rw [List.filter_cons_of_neg (by rw [hcan]; exact Bool.false_ne_true), ← hrest]
      rfl

/-- **The buttons of a full rendition** are those of the sections that can be edited,
numbered from one on. -/
theorem events_buttons {heads : List Call} (h : Tree heads setup.outline.nodes)
    (hedit : setup.options.editButtons = true) (p : π) (t : σ) :
    (openings (events setup .full p t).1).filterMap Opening.button =
      ((editable setup.outline setup.options).zipIdx 1).map
        fun ik => buttonCall setup.outline setup.options ik.1 ik.2 := by
  have h0 : 0 < setup.outline.size := h.size_pos
  have hroot : (setup.outline.get 0).isRoot = true := by
    rw [h.isRoot h0]
    rfl
  have hids : ({ policyState := p, sinkState := t } : State π σ).headingIds =
      setup.outline.idsBefore 0 := rfl
  rw [openings, (events_openAll h .full p t).1]
  unfold visits
  cases hf : flattenedChild? setup .full (setup.outline.get 0) with
  | none =>
    rw [editable_of_none h hroot hf]
    exact openAll_buttons h hedit _ 0 _ (by omega) hids (unmerged_all h hf)
  | some k =>
    obtain ⟨rfl, hlt, -⟩ := h.frontier_of_only_child (flattenedChild?_eq_some hf)
    have hcan : canEdit setup.outline 0 = false := by rw [canEdit, hroot]; rfl
    obtain ⟨-, hnext⟩ := openSection_merged h hids hf
    obtain ⟨hbutton, hsequence⟩ := openSection_button h h0 hids hedit
    rw [hcan, if_neg Bool.false_ne_true] at hbutton hsequence
    have hrest := openAll_buttons h hedit (setup.outline.size - 2) 2 _ (by omega) hnext
      (unmerged_range' h .full (by omega))
    rw [hsequence] at hrest
    simp only [openAll, List.filterMap_cons, hbutton]
    rw [editable_of_merged h hf]
    exact hrest

/-! ### What comes behind a button -/

/-- Right behind each edit button comes the exit of a header or of a division. -/
def ExitsBehind : List Call → Prop
  | [] => True
  | c :: cs =>
    (c.tag.isEditButton = true → ∃ d ∈ cs.head?, d = Call.exit .header ∨ d = Call.exit .division) ∧
      ExitsBehind cs

theorem ExitsBehind.append {cs ds : List Call} (hc : ∀ c ∈ cs, c.tag.isEditButton = false)
    (hd : ExitsBehind ds) : ExitsBehind (cs ++ ds) := by
  induction cs with
  | nil => exact hd
  | cons c cs ih =>
    refine ⟨fun hbutton => ?_, ih fun d hd => hc d (List.mem_cons_of_mem c hd)⟩
    rw [hc c List.mem_cons_self] at hbutton
    cases hbutton

/-- Wherever a button stands, there is an exit behind it. -/
theorem ExitsBehind.next {before behind : List Call} {c : Call}
    (h : ExitsBehind (before ++ c :: behind)) (hc : c.tag.isEditButton = true) :
    ∃ d rest, behind = d :: rest ∧ (d = Call.exit .header ∨ d = Call.exit .division) := by
  induction before with
  | nil =>
    obtain ⟨d, hd, hexit⟩ := h.1 hc
    obtain ⟨rest, hrest⟩ := List.head?_eq_some_iff.mp hd
    exact ⟨d, rest, hrest, hexit⟩
  | cons b before ih => exact ih h.2

/-- An exit may come behind a button. -/
theorem ExitsBehind.button {c d : Call} {cs : List Call}
    (hd : d = Call.exit .header ∨ d = Call.exit .division) (h : ExitsBehind (d :: cs)) :
    ExitsBehind (c :: d :: cs) :=
  ⟨fun _ => ⟨d, rfl, hd⟩, h⟩

/-- Only in a full rendition, and only with a heading, a section gets a button. -/
theorem full_of_button {heads : List Call} (h : Tree heads setup.outline.nodes) {s : State π σ}
    {id : Nat} {c : Call} (hc : (openSection setup target s id).1.button = some c) :
    target = .full ∧ setup.options.editButtons = true ∧
      (openSection setup target s id).1.own.heading ≠ [] := by
  rw [openSection_eq] at hc ⊢
  simp only at hc ⊢
  refine ⟨?_, ?_, fun hnil => ?_⟩
  · cases target with
    | full => rfl
    | dynamic => cases hc
  · unfold editButton at hc
    split at hc
    · assumption
    · cases hc
  · obtain ⟨_, _, hid, -⟩ := editButton_eq hc
    unfold ownHeading at hid hnil
    cases hroot : (setup.outline.get id).isRoot with
    | true =>
      rw [hroot] at hid
      cases hid
    | false =>
      have hcalls : (setup.outline.get id).headingCalls = [] := by
        rw [hroot] at hnil
        simp only [Bool.false_eq_true, ↓reduceIte, State.heading] at hnil
        split at hnil
        · assumption
        · cases hnil
      have hsize : id < setup.outline.size := by
        by_contra hle
        rw [get_eq_root (Nat.le_of_not_lt hle)] at hroot
        cases hroot
      rw [h.isRoot hsize, (h.headingCalls_eq_nil hsize).mp hcalls] at hroot
      cases hroot

/-- Where no buttons are wanted there are none. -/
theorem no_buttons {heads : List Call} (h : Tree heads setup.outline.nodes)
    (hlacks : Lacks Tag.isEditButton setup.outline)
    (hnot : ¬ (target = .full ∧ setup.options.editButtons = true)) (p : π) (t : σ) :
    ∀ c ∈ (run setup target p t).1.calls, c.tag.isEditButton = false := by
  have hopenings : ∀ op ∈ openings (events setup target p t).1, op.button = none := by
    intro op hop
    obtain ⟨s, id, rfl⟩ := (events_performs h target p t).exists_opened hop
    by_contra hsome
    obtain ⟨c, hc⟩ := Option.ne_none_iff_exists'.mp hsome
    obtain ⟨hfull, hedit, -⟩ := full_of_button h hc
    exact hnot ⟨hfull, hedit⟩
  have hbuttons := buttons_of_run h hlacks target p t
  rw [List.filterMap_eq_nil_iff.mpr hopenings] at hbuttons
  exact fun c hc => Bool.eq_false_iff.mpr (List.filter_eq_nil_iff.mp hbuttons c hc)

/-- Before the only call that passes a test there are others only. -/
theorem others_before {test : Call → Bool} {before after : List Call} {c : Call}
    (hc : test c = true) (h : (before ++ c :: after).filter test = [c]) :
    ∀ d ∈ before, test d = false := by
  rw [List.filter_append, List.filter_cons_of_pos hc] at h
  have hnone : before.filter test = [] := by
    rw [← List.length_eq_zero_iff]
    have := congrArg List.length h
    simp only [List.length_append, List.length_cons, List.length_nil] at this
    omega
  exact fun d hd => Bool.eq_false_iff.mpr (List.filter_eq_nil_iff.mp hnone d hd)

/-- The button is the last call that a section with a heading has of its own. -/
theorem calls_of_button {op : Opening} {c : Call} (hbutton : op.button = some c)
    (hheading : op.own.heading ≠ []) :
    ∃ before, op.children = [] ∧ op.calls .full = before ++ [c] ∨
      op.calls .full = before ++ [c, Call.exit .header] := by
  set division := (Call.enter .division).withAttribute levelAttribute (.ofNat op.level)
  set heading := op.portions.flatMap Portion.heading with hportions
  set content := op.portions.flatMap Portion.content
  cases hchildren : op.children with
  | nil =>
    refine ⟨division :: (op.marker.toList ++ heading ++ content), .inl ⟨rfl, ?_⟩⟩
    rw [Opening.calls, hchildren, hbutton]
    rfl
  | cons child children =>
    have hfilled : heading ≠ [] := fun hnil => by
      rw [hportions, Opening.portions, List.flatMap_cons, List.append_eq_nil_iff] at hnil
      exact hheading hnil.1
    refine ⟨division :: Call.enter .header :: (heading ++ content ++ op.marker.toList), .inr ?_⟩
    have hown : arrange .full true heading content op.marker (some c) = _ :=
      arrange_set_apart (.inl hfilled) op.marker (some c)
    rw [Opening.calls, hchildren, hbutton]
    refine (congrArg (division :: ·) hown).trans ?_
    simp only [List.cons_append, List.append_assoc, List.nil_append, Option.toList_some]

/-- **A section that is opened** has at most one button, at the end of what it has of its
own. -/
theorem opened_exits {heads : List Call} (h : Tree heads setup.outline.nodes)
    (hlacks : Lacks Tag.isEditButton setup.outline) (s : State π σ) (id : Nat) {behind : List Call}
    (hbehind : ExitsBehind behind)
    (hleaf : (openSection setup target s id).1.children = [] →
      ∃ rest, behind = Call.exit .division :: rest) :
    ExitsBehind ((openSection setup target s id).1.calls target ++ behind) := by
  set op := (openSection setup target s id).1
  have hfilter : (op.calls target).filter (fun c => c.tag.isEditButton) = op.button.toList :=
    buttons_of_opened h hlacks s id
  cases hbutton : op.button with
  | none =>
    rw [hbutton] at hfilter
    have hother := List.filter_eq_nil_iff.mp hfilter
    exact .append (fun c hc => Bool.eq_false_iff.mpr (hother c hc)) hbehind
  | some c =>
    obtain ⟨rfl, -, hheading⟩ := full_of_button h hbutton
    have htag : c.tag.isEditButton = true := by
      rw [(kinds_of_opened setup .full s id).2 c hbutton]
      rfl
    rw [hbutton] at hfilter
    obtain ⟨before, ⟨hchildren, hcalls⟩ | hcalls⟩ := calls_of_button hbutton hheading
    · -- the division of a section without subsections is left next
      obtain ⟨rest, rfl⟩ := hleaf hchildren
      rw [hcalls] at hfilter
      rw [hcalls, List.append_assoc]
      exact .append (others_before htag hfilter) (.button (.inr rfl) hbehind)
    · rw [hcalls] at hfilter
      rw [hcalls, List.append_assoc]
      refine .append (others_before htag hfilter) (.button (.inl rfl) ⟨fun hexit => ?_, hbehind⟩)
      cases hexit

/-- **Behind every edit button** of what is done comes an exit. -/
theorem performs_exits {heads : List Call} (h : Tree heads setup.outline.nodes)
    (hlacks : Lacks Tag.isEditButton setup.outline) {todo : List Step} {s s' : State π σ}
    {es : List Event} (hperforms : Performs setup target todo s es s') :
    ExitsBehind (es.flatMap (Event.calls target)) := by
  induction hperforms with
  | done => trivial
  | @opening id todo s s' es hrest ih =>
    rw [List.flatMap_cons]
    refine opened_exits h hlacks s id ih fun hchildren => ?_
    rw [hchildren] at hrest
    obtain ⟨rest, rfl, -⟩ := Performs.of_closing hrest
    exact ⟨_, rfl⟩
  | closing _ ih =>
    refine ⟨fun hexit => ?_, ih⟩
    cases hexit

/-! ### All together -/

/-- A section that can be edited has a start. -/
theorem exists_start_of_editable {o : Outline} {options : Options} {i : Nat}
    (hi : i ∈ editable o options) : ∃ start, (o.get i).startPos = some start := by
  have hcan := (List.mem_filter.mp hi).2
  simp only [canEdit, Bool.and_eq_true] at hcan
  exact Option.isSome_iff_exists.mp hcan.1.2

/-- There are no more sections that can be edited than sections. -/
theorem length_editable_le {heads : List Call} {o : Outline} (h : Tree heads o.nodes)
    (options : Options) : (editable o options).length ≤ o.size := by
  have hfilter : (editable o options).length ≤ o.preOrder.length := List.length_filter_le _ _
  rw [preOrder_eq h, List.length_range] at hfilter
  exact hfilter

/-- **Edit buttons name the sections that can be edited**, in the order of the page and
numbered from one on, with the ids that stand on the headings of these sections; right
behind each one comes the exit of a header or of a division.  Where they are not wanted
there are none, and there are none in a dynamic rendition. -/
theorem edit_buttons {strictness : Strictness} {sink : Option (MetadataSink τ)} {calls : List Call}
    {u u' : τ} {o : Outline} (hb : buildWith strictness sink calls u = .ok (o, u'))
    (hcalls : ∀ c ∈ calls, c.tag.isEditButton = false) (options : Options)
    (policy : Option (AdPolicy π)) (sink' : Option (MetadataSink σ)) (p : π) (t : σ) :
    let full := (run ⟨o, options, policy, sink'⟩ .full p t).1.calls
    let dynamic := (run ⟨o, options, policy, sink'⟩ .dynamic p t).1.calls
    (∃ ids : Nat → String, Composes o options ids o.headedSections (List.range o.size) full ∧
      (options.editButtons = true →
        List.Forall₂ (fun c ik => Edits o options ids c ik.1 ik.2)
          (full.filter fun c => c.tag.isEditButton) ((editable o options).zipIdx 1))) ∧
      (∀ before c behind, full = before ++ c :: behind → c.tag.isEditButton = true →
        ∃ d rest, behind = d :: rest ∧ (d = Call.exit .header ∨ d = Call.exit .division)) ∧
      (options.editButtons = false → ∀ c ∈ full, c.tag.isEditButton = false) ∧
      ∀ c ∈ dynamic, c.tag.isEditButton = false := by
  set setup : Setup π σ := ⟨o, options, policy, sink'⟩
  have ht : Tree _ setup.outline.nodes := (buildWith_sound hb).1
  have hlacks : Lacks Tag.isEditButton setup.outline := lacks_of_build hb hcalls
  refine ⟨⟨o.anchor, composes_run ht .full p t, fun hedit => ?_⟩,
    fun before c behind hsplit hc => ?_, fun hedit => ?_, ?_⟩
  · rw [buttons_of_run ht hlacks, events_buttons ht hedit, List.forall₂_map_left_iff,
      List.forall₂_same]
    intro ik hik
    obtain ⟨start, hstart⟩ := exists_start_of_editable (List.fst_mem_of_mem_zipIdx hik)
    have hnumber := List.snd_lt_add_of_mem_zipIdx hik
    have hmost : (editable setup.outline setup.options).length ≤ o.size :=
      length_editable_le ht options
    exact edits_buttonCall hstart (by omega)
  · have hexits : ExitsBehind (run setup .full p t).1.calls :=
      performs_exits ht hlacks (events_performs ht .full p t)
    rw [hsplit] at hexits
    exact hexits.next hc
  · refine no_buttons ht hlacks (fun ⟨_, hwanted⟩ => ?_) p t
    rw [show setup.options.editButtons = false from hedit] at hwanted
    cases hwanted
  · exact no_buttons ht hlacks (fun ⟨hfull, _⟩ => by cases hfull) p t

/-- A page whose first section is merged into the root, with a section without a start. -/
def startMissing : List Call :=
  let heading (level : Int64) (label : String) : Call :=
    (((Call.special (.heading .atx)).withContext Call.outlineContext).withAttribute
      levelAttribute (.int level)).withPayload label
  [(heading 1 "Home").withSpan 0 5, heading 2 "Aside", (heading 2 "News").withSpan 9 14,
    (heading 3 "Today").withSpan 20 26, Call.text "Sunny"]

theorem edit_buttons_start_missing :
    ∃ o, buildWith .strict (none : Option (MetadataSink Unit)) startMissing () = .ok (o, ()) ∧
      (∀ c ∈ startMissing, c.tag.isEditButton = false) ∧ editable o {} = [3, 4] ∧
      ∃ c d, (run (π := Unit) (σ := Unit) ⟨o, {}, none, none⟩ .full () ()).1.calls.filter
          (fun c => c.tag.isEditButton) = [c, d] ∧
        c.attributes.getInt? "secid" = some 1 ∧ d.attributes.getInt? "secid" = some 2 := by
  have hb : buildWith .strict (none : Option (MetadataSink Unit)) startMissing () =
      .ok (_, ()) := rfl
  have hcalls : ∀ c ∈ startMissing, c.tag.isEditButton = false := by decide
  obtain ⟨⟨ids, -, hbuttons⟩, -⟩ := edit_buttons hb hcalls {} (none : Option (AdPolicy Unit))
    (none : Option (MetadataSink Unit)) () ()
  refine ⟨_, hb, hcalls, by decide, ?_⟩
  obtain ⟨c, _, hc, hrest, hcs⟩ := List.forall₂_cons_right_iff.mp (hbuttons rfl)
  obtain ⟨d, _, hd, hnil, hds⟩ := List.forall₂_cons_right_iff.mp hrest
  rw [List.forall₂_nil_right_iff.mp hnil] at hds
  exact ⟨c, d, hcs.trans (congrArg (c :: ·) hds), hc.exact (by decide), hd.exact (by decide)⟩

end Rendering

end WikiOutline
