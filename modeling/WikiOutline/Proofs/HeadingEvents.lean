/-
# Where the headings among events come from

The headings among the events of a block are those of the heading blocks in it.  Inline
content has none: whatever the pieces of a passage turn out to be, its nodes are text,
code, HTML, breaks, emphasis, links and images (`headingStarts_passage`).  So what holds of
the headings of blocks holds of those of the block that they are put in
(`Block.Headed`).

Key definitions: `Markdown.headingStarts`, `Markdown.HeadingFree`, `Markdown.Block.Headed`.
Key theorems: `Markdown.headingFree_resolve`, `Markdown.PassageReader.Free.readPiece`,
`Markdown.headingStarts_passage`, `Markdown.headingStarts_blocks`.
-/
import WikiOutline.Markdown.Document
import WikiOutline.Proofs.Elements

namespace WikiOutline

namespace Markdown

/-- The headings that some events start, in their order. -/
def headingStarts (events : List (Event × Span)) : List HeadingStart :=
  events.filterMap fun e => e.1.heading? [] e.2

/-- Nodes that no heading is among. -/
def HeadingFree (nodes : List Inline) : Prop := ∀ node ∈ nodes, headingStarts node.events = []

/-! ### Events around others -/

theorem headingStarts_append (events more : List (Event × Span)) :
    headingStarts (events ++ more) = headingStarts events ++ headingStarts more :=
  List.filterMap_append

theorem headingStarts_cons {event : Event} {span : Span} (events : List (Event × Span)) :
    headingStarts ((event, span) :: events) =
      (event.heading? [] span).toList ++ headingStarts events := by
  unfold headingStarts
  rw [List.filterMap_cons]
  cases event.heading? [] span <;> rfl

theorem Element.heading?_start {element : Element} (h : element.isHeading = false) (span : Span) :
    (Event.start element).heading? [] span = none := by
  cases element with
  | heading => cases h
  | _ => rfl

/-- An element that is no heading has the headings of its content. -/
theorem headingStarts_wrap {element : Element} (h : element.isHeading = false) (span : Span)
    (inner : List (Event × Span)) :
    headingStarts (wrapEvents element span inner) = headingStarts inner := by
  rw [wrapEvents, List.cons_append, headingStarts_cons, Element.heading?_start h,
    headingStarts_append]
  exact List.append_nil _

theorem headingStarts_flatMap {α : Type} {f : α → List (Event × Span)} {xs : List α}
    (h : ∀ x ∈ xs, headingStarts (f x) = []) : headingStarts (xs.flatMap f) = [] := by
  induction xs with
  | nil => rfl
  | cons x xs ih =>
    rw [List.flatMap_cons, headingStarts_append, h x List.mem_cons_self,
      ih fun y hy => h y (List.mem_cons_of_mem _ hy), List.nil_append]

/-! ### Nodes -/

variable {nodes more : List Inline} {node : Inline}

theorem HeadingFree.nil : HeadingFree [] := nofun

theorem HeadingFree.append (h : HeadingFree nodes) (h' : HeadingFree more) :
    HeadingFree (nodes ++ more) := List.forall_mem_append.mpr ⟨h, h'⟩

theorem HeadingFree.cons (h : headingStarts node.events = []) (h' : HeadingFree nodes) :
    HeadingFree (node :: nodes) := List.forall_mem_cons.mpr ⟨h, h'⟩

theorem HeadingFree.reverse (h : HeadingFree nodes) : HeadingFree nodes.reverse :=
  fun node hnode => h node (List.mem_reverse.mp hnode)

theorem headingStarts_nodes (h : HeadingFree nodes) :
    headingStarts (Inline.eventsOfList nodes) = [] := by
  induction nodes with
  | nil => simp [Inline.eventsOfList, headingStarts]
  | cons node nodes ih =>
    rw [Inline.eventsOfList, headingStarts_append, (List.forall_mem_cons.mp h).1,
      ih (List.forall_mem_cons.mp h).2, List.nil_append]

theorem headingStarts_leaf {event : Event} {span : Span} (h : event.heading? [] span = none) :
    headingStarts (Inline.leaf event span).events = [] := by
  rw [Inline.events, headingStarts_cons, h]
  rfl

theorem headingStarts_delimiters (run : Delimiters) :
    headingStarts (Inline.delimiters run).events = [] := by
  rw [Inline.events, Delimiters.texts, headingStarts, List.filterMap_map]
  exact List.filterMap_eq_nil_iff.mpr fun _ _ => rfl

theorem headingStarts_nested {element : Element} (h : element.isHeading = false) (span : Span)
    (hnodes : HeadingFree nodes) : headingStarts (Inline.nested element span nodes).events = [] := by
  rw [Inline.events]
  exact (headingStarts_wrap h span _).trans (headingStarts_nodes hnodes)

/-! ### Emphasis -/

namespace Emphasis

/-- The nodes so far have no heading among them. -/
structure State.Free (s : State) : Prop where
  base : HeadingFree s.base
  openers : ∀ o ∈ s.openers, HeadingFree o.inner

theorem State.Free.push {s : State} (h : s.Free) (hnode : headingStarts node.events = []) :
    (s.push node).Free := by
  unfold State.push
  split
  · rename_i hnone
    exact ⟨.cons hnode h.base, by simp [hnone]⟩
  · rename_i o outer hopeners
    have hall := h.openers
    rw [hopeners, List.forall_mem_cons] at hall
    exact ⟨h.base, List.forall_mem_cons.mpr ⟨.cons hnode hall.1, hall.2⟩⟩

theorem State.Free.pushAll {s : State} (h : s.Free) (hnodes : HeadingFree nodes) :
    (nodes.foldl State.push s).Free :=
  List.foldlRecOn nodes _ h fun _ hs node hnode => hs.push (hnodes node hnode)

theorem State.Free.toList {s : State} (h : s.Free) : HeadingFree s.toList := by
  refine h.base.reverse.append (List.foldlRecOn s.openers _ .nil fun nodes hnodes o ho => ?_)
  exact (HeadingFree.cons (headingStarts_delimiters o.run) (h.openers o ho).reverse).append hnodes

theorem headingFree_findOpener? {closer run : Delimiters} {inner : List Inline}
    {outer : List Opener} : ∀ (openers : List Opener) (behind : List Inline),
      (∀ o ∈ openers, HeadingFree o.inner) → HeadingFree behind →
      findOpener? closer openers behind = some (run, inner, outer) →
      HeadingFree inner ∧ ∀ o ∈ outer, HeadingFree o.inner
  | [], _, _, _, h => nomatch h
  | o :: openers, behind, hopeners, hbehind, h => by
    rw [List.forall_mem_cons] at hopeners
    have hinner := hopeners.1.reverse.append hbehind
    unfold findOpener? at h
    simp only at h
    split at h
    · obtain ⟨-, rfl, rfl⟩ := by simpa using h
      exact ⟨hinner, hopeners.2⟩
    · exact headingFree_findOpener? openers _ hopeners.2
        (.cons (headingStarts_delimiters o.run) hinner) h

theorem isHeading_elementOf (mark : Char) (double : Bool) :
    (elementOf mark double).isHeading = false := by
  unfold elementOf
  split
  · rfl
  · split <;> rfl

theorem headingFree_wrap (mark : Char) : ∀ (n start stop : Nat) {nodes : List Inline},
    HeadingFree nodes → HeadingFree (wrap mark n start stop nodes)
  | 0, _, _, _, h => h
  | 1, _, _, _, h => .cons (headingStarts_nested (isHeading_elementOf _ _) _ h) .nil
  | n + 2, _, _, _, h =>
    headingFree_wrap mark n _ _
      (.cons (headingStarts_nested (isHeading_elementOf _ _) _ h) .nil)

theorem State.Free.closeRun : ∀ (fuel : Nat) (run : Delimiters) {s : State}, s.Free →
    (closeRun fuel run s).Free
  | 0, _, _, h => h
  | fuel + 1, run, s, h => by
    unfold Emphasis.closeRun
    simp only
    split
    · rename_i opener inner outer hfound
      obtain ⟨hinner, houter⟩ : HeadingFree inner ∧ ∀ o ∈ outer, HeadingFree o.inner := by
        split at hfound
        · exact headingFree_findOpener? _ _
            (fun o ho => h.openers o (List.mem_of_mem_take ho)) .nil hfound
        · cases hfound
      have houter' : ∀ reach, ∀ o ∈ outer ++ s.openers.drop reach, HeadingFree o.inner :=
        fun reach => List.forall_mem_append.mpr
          ⟨houter, fun o ho => h.openers o (List.mem_of_mem_drop ho)⟩
      have hnodes : ∀ n, HeadingFree
          (wrap run.mark n (opener.start + opener.count) run.start inner) :=
        fun n => headingFree_wrap run.mark n _ _ hinner
      -- what the opener keeps of its signs stays open around the new element
      have hstate : ∀ (n reach floor : Nat) (left : Delimiters) (keeps : Prop) [Decidable keeps],
          State.Free (if keeps then
            { s with
              openers := ⟨left, (wrap run.mark n (opener.start + opener.count) run.start
                inner).reverse⟩ :: (outer ++ s.openers.drop reach)
              tildeFloor := floor }
          else
            (wrap run.mark n (opener.start + opener.count) run.start inner).foldl State.push
              { s with openers := outer ++ s.openers.drop reach, tildeFloor := floor }) := by
        intro n reach floor left keeps _
        split
        · exact ⟨h.base, List.forall_mem_cons.mpr ⟨(hnodes n).reverse, houter' reach⟩⟩
        · exact State.Free.pushAll ⟨h.base, houter' reach⟩ (hnodes n)
      split
      · exact hstate _ _ _ _ _
      · exact State.Free.closeRun fuel _ (hstate _ _ _ _ _)
    · have hfloor : (if (run.closes && run.mark == '~') = true then
          { s with tildeFloor := s.openers.length } else s).Free := by
        split
        · exact ⟨h.base, h.openers⟩
        · exact h
      split
      · exact ⟨hfloor.base, List.forall_mem_cons.mpr ⟨.nil, hfloor.openers⟩⟩
      · exact hfloor.push (headingStarts_delimiters run)

/-- **Emphasis** puts no heading among nodes. -/
theorem headingFree_resolve (h : HeadingFree nodes) : HeadingFree (resolve nodes) := by
  refine State.Free.toList (List.foldlRecOn nodes _ ⟨.nil, fun _ ho => by cases ho⟩ ?_)
  intro s hs node hnode
  cases node with
  | delimiters run => exact hs.closeRun _ run
  | leaf | nested => exact hs.push (h _ hnode)

end Emphasis

/-! ### Passages -/

/-- The nodes of a passage as it is being read have no heading among them. -/
structure PassageReader.Free (s : PassageReader) : Prop where
  base : HeadingFree s.base
  brackets : ∀ b ∈ s.brackets, HeadingFree b.inner

namespace PassageReader

variable {s : PassageReader} {b : Bracket} {outer : List Bracket}

theorem Free.push (h : s.Free) (hnode : headingStarts node.events = []) : (s.push node).Free := by
  unfold PassageReader.push
  split
  · rename_i hnone
    exact ⟨.cons hnode h.base, by simp [hnone]⟩
  · rename_i b outer hbrackets
    have hall := h.brackets
    rw [hbrackets, List.forall_mem_cons] at hall
    exact ⟨h.base, List.forall_mem_cons.mpr ⟨.cons hnode hall.1, hall.2⟩⟩

theorem Free.leaf (h : s.Free) {event : Event} {span : Span}
    (hevent : event.heading? [] span = none) : (s.push (.leaf event span)).Free :=
  h.push (headingStarts_leaf hevent)

theorem Free.pushAll (h : s.Free) (hnodes : HeadingFree nodes) :
    (nodes.foldl PassageReader.push s).Free :=
  List.foldlRecOn nodes _ h fun _ hs node hnode => hs.push (hnodes node hnode)

theorem Free.pushPiece (h : s.Free) (p : Piece) : (s.pushPiece p).Free := h.leaf rfl

theorem Free.allNodes (h : s.Free) : HeadingFree s.allNodes := by
  refine List.foldlRecOn s.brackets.reverse _ h.base fun nodes hnodes b hb => ?_
  exact (h.brackets b (List.mem_reverse.mp hb)).append (.cons (headingStarts_leaf rfl) hnodes)

theorem inner_silence (b : Bracket) : (Bracket.silence b).inner = b.inner := by
  unfold Bracket.silence
  split <;> rfl

theorem Free.giveUp (h : s.Free) (hb : HeadingFree b.inner)
    (houter : ∀ b ∈ outer, HeadingFree b.inner) : (s.giveUp b outer).Free :=
  Free.pushAll (Free.pushPiece (s := { s with brackets := outer }) ⟨h.base, houter⟩ b.piece)
    hb.reverse

theorem Free.finishLink (h : s.Free) (hb : HeadingFree b.inner)
    (houter : ∀ b ∈ outer, HeadingFree b.inner) (target : Target) (stop : Nat) :
    (s.finishLink b outer target stop).Free := by
  have hsilenced : ∀ o ∈ (if b.kind == .link then outer.map Bracket.silence else outer),
      HeadingFree o.inner := by
    split
    · simpa [inner_silence] using houter
    · exact houter
  have helement : (if b.kind == .image then Element.image target.destination target.title
      else .link target.destination target.title).isHeading = false := by
    split <;> rfl
  exact Free.push ⟨h.base, hsilenced⟩
    (headingStarts_nested helement _ (Emphasis.headingFree_resolve hb.reverse))

theorem Free.closeBracket (h : s.Free) (p : Piece) (mayRefer : Bool) (pieces : List Piece) :
    (s.closeBracket p mayRefer pieces).1.Free := by
  unfold PassageReader.closeBracket
  split
  · exact h.pushPiece p
  · rename_i b outer hbrackets
    have hall := h.brackets
    rw [hbrackets, List.forall_mem_cons] at hall
    obtain ⟨hb, houter⟩ := hall
    have hfailed := (h.giveUp hb houter).pushPiece p
    have hlink := h.finishLink hb houter
    simp only
    split
    · exact hfailed
    · split
      · exact hlink _ _
      · split
        · split
          · exact hfailed
          · split
            · exact hfailed
            · exact hlink _ _
        · split
          · exact hfailed
          · split
            · exact hfailed
            · exact hlink _ _
        · split
          · exact hlink _ _
          · exact hfailed

theorem Free.lessThan (h : s.Free) (p : Piece) (pieces : List Piece) :
    (s.lessThan p pieces).1.Free := by
  unfold PassageReader.lessThan
  split
  · exact h.pushPiece p
  · simp only
    split
    · exact h.push (headingStarts_nested rfl _ (.cons (headingStarts_leaf rfl) .nil))
    · split
      · exact h.leaf rfl
      · exact h.pushPiece p

theorem Free.backticks (h : s.Free) (p : Piece) (count : Nat) (escaped : Bool)
    (pieces : List Piece) : (s.backticks p count escaped pieces).1.Free := by
  unfold PassageReader.backticks
  simp only
  split
  · exact h.pushPiece p
  · refine Free.leaf ?_ rfl
    split
    · exact h.leaf rfl
    · exact h

/-- **One piece** adds no heading to the nodes. -/
theorem Free.readPiece (h : s.Free) (p : Piece) (pieces : List Piece) :
    (s.readPiece p pieces).1.Free := by
  unfold PassageReader.readPiece
  simp only
  split
  · exact h.pushPiece p
  · exact h.leaf rfl
  · exact h.push (headingStarts_delimiters _)
  · exact h.backticks p _ _ pieces
  · exact h.lessThan p pieces
  · exact ⟨h.base, List.forall_mem_cons.mpr ⟨.nil, h.brackets⟩⟩
  · exact ⟨h.base, List.forall_mem_cons.mpr ⟨.nil, h.brackets⟩⟩
  · exact h.closeBracket p _ pieces
  · exact h.leaf rfl
  · exact h.leaf rfl
  · exact h.leaf rfl

theorem Free.readPieces : ∀ (fuel : Nat) (pieces : List Piece) {s : PassageReader}, s.Free →
    (readPieces fuel pieces s).Free
  | 0, _, _, h => h
  | _ + 1, [], _, h => h
  | fuel + 1, p :: pieces, _, h => Free.readPieces fuel _ (h.readPiece p pieces)

end PassageReader

/-- **A passage** has no heading among its events. -/
theorem headingStarts_passage (definitions : Definitions) (p : Passage) :
    headingStarts (p.events definitions) = [] := by
  have hread := PassageReader.Free.readPieces p.pieces.length p.pieces
    (s := { passage := p, definitions }) ⟨.nil, nofun⟩
  exact headingStarts_nodes (Emphasis.headingFree_resolve hread.allNodes.reverse)

/-! ### Blocks -/

/-- All headings among the events of a block have a property, whatever the definitions and
whether or not it stands in a tight list. -/
def Block.Headed (P : HeadingStart → Prop) (b : Block) : Prop :=
  ∀ definitions tight, ∀ h ∈ headingStarts (b.events definitions tight), P h

variable {P : HeadingStart → Prop} {blocks : List Block}

theorem headingStarts_blocks (h : ∀ b ∈ blocks, b.Headed P) (definitions : Definitions)
    (tight : Bool) : ∀ h ∈ headingStarts (Block.eventsOfList definitions tight blocks), P h := by
  induction blocks with
  | nil => simp [Block.eventsOfList, headingStarts]
  | cons b blocks ih =>
    rw [List.forall_mem_cons] at h
    rw [Block.eventsOfList, headingStarts_append, List.forall_mem_append]
    exact ⟨h.1 definitions tight, ih h.2⟩

/-- The headings of an open block that ends are those of the blocks in it. -/
theorem headed_toBlock {f : Frame} (h : ∀ b ∈ f.children, b.Headed P) (stop : Nat) :
    (f.toBlock stop).Headed P := by
  have hchildren : ∀ b ∈ f.children.reverse, b.Headed P := fun b hb => h b (List.mem_reverse.mp hb)
  intro definitions tight
  unfold Frame.toBlock
  split <;>
  · rw [Block.events, headingStarts_wrap rfl]
    exact headingStarts_blocks hchildren definitions _

theorem headed_of_none {b : Block}
    (h : ∀ definitions tight, headingStarts (b.events definitions tight) = []) : b.Headed P := by
  intro definitions tight
  rw [h definitions tight]
  exact nofun

theorem headed_paragraph (span : Span) (p : Passage) : (Block.paragraph span p).Headed P := by
  refine headed_of_none fun definitions tight => ?_
  rw [Block.events]
  split
  · exact headingStarts_passage definitions p
  · rw [headingStarts_wrap rfl, headingStarts_passage]

theorem headed_heading {span : Span} {level : HeadingLevel} {id : Option String} (p : Passage)
    (h : P ⟨level, id, span⟩) : (Block.heading span level id p).Headed P := by
  intro definitions tight
  rw [Block.events, wrapEvents, List.cons_append, headingStarts_cons, headingStarts_append,
    headingStarts_passage]
  intro start hstart
  obtain rfl := List.mem_singleton.mp hstart
  exact h

theorem headed_verbatim {element : Element} {lines : List (Event × Span)} (span : Span)
    (helement : element.isHeading = false) (hlines : headingStarts lines = []) :
    (Block.verbatim span element lines).Headed P := by
  refine headed_of_none fun definitions tight => ?_
  rw [Block.events, headingStarts_wrap helement, hlines]

theorem headed_rule (span : Span) : (Block.rule span).Headed P :=
  headed_of_none fun _ _ => by
    rw [Block.events]
    rfl

theorem headed_taskMarker (span : Span) (checked : Bool) :
    (Block.taskMarker span checked).Headed P :=
  headed_of_none fun _ _ => by
    rw [Block.events]
    rfl

theorem headingStarts_cells (definitions : Definitions) (row : Row) :
    headingStarts (row.cellEvents definitions) = [] :=
  headingStarts_flatMap fun cell _ => by
    rw [headingStarts_wrap rfl, headingStarts_passage]

theorem headed_table (span : Span) (rows : List Row) : (Block.table span rows).Headed P := by
  refine headed_of_none fun definitions tight => ?_
  rw [Block.events, headingStarts_wrap rfl]
  cases rows with
  | nil => rfl
  | cons head rows =>
    rw [rowEvents, headingStarts_append, headingStarts_wrap rfl, headingStarts_cells,
      headingStarts_flatMap fun row _ => by rw [headingStarts_wrap rfl, headingStarts_cells]]
    rfl

end Markdown

end WikiOutline
