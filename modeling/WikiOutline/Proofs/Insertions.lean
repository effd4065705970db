/-
# Edit buttons and advertisements among the calls

A rendition writes edit buttons and advertisements between the calls of the page.  Where
the page has no such calls itself, those that are written are those that the sections are
opened with, in order (`filter_run`): the edit buttons (`buttons_of_run`), and the
advertisements (`markers_of_run`).

Key definitions: `Tag.isEditButton`, `Tag.isAdMarker`, `Rendering.Lacks`.
Key theorems: `Rendering.filter_run`, `Rendering.buttons_of_run`,
`Rendering.markers_of_run`.
-/
import WikiOutline.Proofs.Completion
import WikiOutline.Proofs.Shape

namespace WikiOutline

/-- The tag is an edit button. -/
def Tag.isEditButton : Tag → Bool
  | .editButton => true
  | _ => false

/-- The tag is an advertisement. -/
def Tag.isAdMarker : Tag → Bool
  | .adMarker => true
  | _ => false

namespace Rendering

open Outline

variable {π σ τ : Type} {setup : Setup π σ} {target : Target}

/-! ### Calls of one kind -/

/-- The sections hold no call of a kind. -/
def Lacks (kind : Tag → Bool) (o : Outline) : Prop :=
  ∀ i, ∀ c ∈ (o.get i).headingCalls ++ (o.get i).contentCalls, kind c.tag = false

/-- Of a page without calls of a kind the sections hold none. -/
theorem lacks_of_build {kind : Tag → Bool} {strictness : Strictness}
    {sink : Option (MetadataSink τ)} {calls : List Call} {t t' : τ} {o : Outline}
    (h : buildWith strictness sink calls t = .ok (o, t'))
    (hcalls : ∀ c ∈ calls, kind c.tag = false) : Lacks kind o := fun i c hc => by
  obtain ⟨d, hd, htag⟩ := exists_of_mem_section h (f := Call.tag) (fun _ _ _ => rfl) hc
  rw [← htag]
  exact hcalls d hd

/-- Whatever is opened is a section, opened from some state. -/
theorem Performs.exists_opened {todo : List Step} {s s' : State π σ} {es : List Event}
    (h : Performs setup target todo s es s') {o : Opening} (ho : o ∈ openings es) :
    ∃ s id, o = (openSection setup target s id).1 := by
  induction h with
  | done => cases ho
  | opening _ ih =>
    rcases List.mem_cons.mp ho with rfl | ho
    · exact ⟨_, _, rfl⟩
    · exact ih ho
  | closing _ ih => exact ih ho

/-- Among calls of other kinds there is none of a kind. -/
theorem filter_eq_nil {kind : Tag → Bool} {cs : List Call} (h : ∀ c ∈ cs, kind c.tag = false) :
    cs.filter (fun c => kind c.tag) = [] :=
  List.filter_eq_nil_iff.mpr fun c hc => by
    rw [h c hc]
    exact Bool.false_ne_true

/-- A call is of a kind by its tag. -/
theorem filter_toList (kind : Tag → Bool) {c : Option Call} {tag : Tag}
    (h : ∀ d, c = some d → d.tag = tag) :
    c.toList.filter (fun d => kind d.tag) = if kind tag then c.toList else [] := by
  cases c with
  | none => split <;> rfl
  | some d => rw [Option.toList_some, List.filter_singleton, h d rfl, cond_eq_ite]

/-- Of what a section is opened with, only the advertisement and the edit button may be of a
kind that its portions lack. -/
theorem filter_opened {heads : List Call} (h : Tree heads setup.outline.nodes)
    {kind : Tag → Bool} (hlacks : Lacks kind setup.outline) (hdivision : kind .division = false)
    (hheader : kind .header = false) (s : State π σ) (id : Nat) :
    let o := (openSection setup target s id).1
    (o.calls target).filter (fun c => kind c.tag) =
      (o.marker.toList ++ o.button.toList).filter fun c => kind c.tag := by
  intro o
  have hportions : ∀ c ∈ o.portions.flatMap Portion.heading ++ o.portions.flatMap Portion.content,
      kind c.tag = false := fun c hc => by
    obtain ⟨i, d, hd, htag⟩ := exists_of_mem_portions (fun _ => h.headingCalls_of_isRoot)
      (f := Call.tag) (fun _ _ _ => rfl) s id hc
    rw [← htag]
    exact hlacks i d hd
  have hheading := filter_eq_nil fun c hc => hportions c (List.mem_append_left _ hc)
  have hcontent := filter_eq_nil fun c hc => hportions c (List.mem_append_right _ hc)
  have harranged := filter_arrange (p := fun c => kind c.tag) hheader hheader target
    (!o.children.isEmpty) (o.portions.flatMap Portion.heading)
    (o.portions.flatMap Portion.content) o.marker o.button
  rw [hheading, hcontent] at harranged
  have hcalls : (o.calls target).filter (fun c => kind c.tag) =
      (arrange target (!o.children.isEmpty) (o.portions.flatMap Portion.heading)
        (o.portions.flatMap Portion.content) o.marker o.button).filter fun c => kind c.tag :=
    List.filter_cons_of_neg (Bool.eq_false_iff.mp hdivision)
  rw [hcalls, harranged, List.filter_append]
  split <;> simp only [List.nil_append, List.append_nil]

/-- A section is opened with calls of two kinds. -/
theorem kinds_of_opened (setup : Setup π σ) (target : Target) (s : State π σ) (id : Nat) :
    (∀ c, (openSection setup target s id).1.marker = some c → c.tag = .adMarker) ∧
      ∀ c, (openSection setup target s id).1.button = some c → c.tag = .editButton := by
  rw [openSection_eq]
  exact ⟨fun _ h => (adMarker_call h).1, fun _ h => (editButton_call h).1⟩

/-- Of edit buttons, a section is opened with its own. -/
theorem buttons_of_opened {heads : List Call} (h : Tree heads setup.outline.nodes)
    (hlacks : Lacks Tag.isEditButton setup.outline) (s : State π σ) (id : Nat) :
    ((openSection setup target s id).1.calls target).filter (fun c => c.tag.isEditButton) =
      (openSection setup target s id).1.button.toList := by
  obtain ⟨hmarker, hbutton⟩ := kinds_of_opened setup target s id
  rw [filter_opened h hlacks rfl rfl, List.filter_append, filter_toList _ hmarker,
    filter_toList _ hbutton]
  rfl

/-- Of advertisements, a section is opened with its own. -/
theorem markers_of_opened {heads : List Call} (h : Tree heads setup.outline.nodes)
    (hlacks : Lacks Tag.isAdMarker setup.outline) (s : State π σ) (id : Nat) :
    ((openSection setup target s id).1.calls target).filter (fun c => c.tag.isAdMarker) =
      (openSection setup target s id).1.marker.toList := by
  obtain ⟨hmarker, hbutton⟩ := kinds_of_opened setup target s id
  rw [filter_opened h hlacks rfl rfl, List.filter_append, filter_toList _ hmarker,
    filter_toList _ hbutton]
  exact List.append_nil _

/-- **The calls of a kind**, divisions apart, are written where sections are opened. -/
theorem filter_run {kind : Tag → Bool} (hdivision : kind .division = false) (setup : Setup π σ)
    (target : Target) (p : π) (t : σ) :
    (run setup target p t).1.calls.filter (fun c => kind c.tag) =
      (openings (events setup target p t).1).flatMap fun o =>
        (o.calls target).filter fun c => kind c.tag := by
  have hexit : [Call.exit .division].filter (fun c => kind c.tag) = [] :=
    List.filter_cons_of_neg (Bool.eq_false_iff.mp hdivision)
  have hopened : ∀ es : List Event, (es.flatMap (Event.calls target)).filter (fun c => kind c.tag) =
      (openings es).flatMap fun o => (o.calls target).filter fun c => kind c.tag := by
    intro es
    induction es with
    | nil => rfl
    | cons e es ih =>
      rw [List.flatMap_cons, List.filter_append, ih]
      cases e with
      | opened o => rfl
      | closed =>
        rw [Event.calls, hexit]
        rfl
  exact hopened _

/-- **The edit buttons** of a rendition are those that its sections are opened with. -/
theorem buttons_of_run {heads : List Call} (h : Tree heads setup.outline.nodes)
    (hlacks : Lacks Tag.isEditButton setup.outline) (target : Target) (p : π) (t : σ) :
    (run setup target p t).1.calls.filter (fun c => c.tag.isEditButton) =
      (openings (events setup target p t).1).filterMap Opening.button := by
  rw [filter_run rfl, List.filterMap_eq_flatMap_toList]
  refine List.flatMap_congr fun o ho => ?_
  obtain ⟨s, id, rfl⟩ := (events_performs h target p t).exists_opened ho
  exact buttons_of_opened h hlacks s id

/-- **The advertisements** of a rendition are those that its sections are opened with. -/
theorem markers_of_run {heads : List Call} (h : Tree heads setup.outline.nodes)
    (hlacks : Lacks Tag.isAdMarker setup.outline) (target : Target) (p : π) (t : σ) :
    (run setup target p t).1.calls.filter (fun c => c.tag.isAdMarker) =
      (openings (events setup target p t).1).filterMap Opening.marker := by
  rw [filter_run rfl, List.filterMap_eq_flatMap_toList]
  refine List.flatMap_congr fun o ho => ?_
  obtain ⟨s, id, rfl⟩ := (events_performs h target p t).exists_opened ho
  exact markers_of_opened h hlacks s id

end Rendering

end WikiOutline
