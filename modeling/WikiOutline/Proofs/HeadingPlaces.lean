/-
# Where headings stand in the text

A heading is written in one of two ways.  Number signs at the start of a line make that line
a heading (`AtxAt`), and a line of equal signs or hyphens makes one of the lines of text
above it (`UnderlinedAt`).  Every heading among the events of a text starts where its first
line does, behind the signs of containers and the indentation, and is written in one of the
two ways there (`written_of_mem_events`).

Each block that is read keeps this of all blocks that are open or done
(`Reading.Headed.readBlock`), so it holds when the text has been read.

Key definitions: `Markdown.IsAtxLine`, `Markdown.IsUnderline`, `Markdown.AtxAt`,
`Markdown.UnderlinedAt`, `Markdown.Reading.Headed`.
Key theorems: `Markdown.isAtxLine_iff`, `Markdown.isUnderline_of_underline?`,
`Markdown.Reading.behind_paragraphLines`, `Markdown.Reading.Headed.readBlock`,
`Markdown.written_of_mem_events`.
-/
import WikiOutline.Proofs.HeadingEvents
import WikiOutline.Proofs.Places

namespace WikiOutline

namespace Markdown

open Markdown.Cursor

/-! ### Two ways of writing a heading -/

/-- A line that is a heading by itself: up to three spaces, as many number signs as its
level says, and nothing or a blank behind them. -/
def IsAtxLine (level : HeadingLevel) (line : List Char) : Prop :=
  ∃ indent behind, indent ≤ 3 ∧
    line = List.replicate indent ' ' ++ List.replicate level.toNat '#' ++ behind ∧
    ∀ c ∈ behind.head?, isAsciiBlank c = true

/-- The sign of the lines that underline headings of a level. -/
def underlineSign? : HeadingLevel → Option Char
  | .one => some '='
  | .two => some '-'
  | _ => none

/-- A line that underlines a heading, with what comes behind it. -/
def IsUnderline (level : HeadingLevel) (line behind : List Char) : Prop :=
  ∃ sign n blanks lineEnd, underlineSign? level = some sign ∧
    line = List.replicate (n + 1) sign ++ blanks ++ lineEnd ∧ blanks.all isInlineBlank = true ∧
    (lineEnd ∈ [['\n'], ['\r'], ['\r', '\n']] ∨ lineEnd = [] ∧ behind = [])

/-- The heading starts with a line that is a heading by itself. -/
def AtxAt (source : List Char) (h : HeadingStart) : Prop :=
  ∃ line, textFrom? h.span.start source = some line ∧ IsAtxLine h.level line

/-- The heading is lines of text and the line that underlines them.  The first line is no
heading by itself. -/
def UnderlinedAt (source : List Char) (h : HeadingStart) (text : List Char) : Prop :=
  ∃ lead line behind, textFrom? h.span.start source = some (text ++ lead ++ line ++ behind) ∧
    h.span.stop = h.span.start + byteLength (text ++ lead ++ line) ∧
    (∃ b ∈ text.getLast?, isLineBreak b = true) ∧ lead.all Cursor.isLead = true ∧
    IsUnderline h.level line behind ∧ text.head? ≠ some ' ' ∧
    ∀ level, ¬ IsAtxLine level (text ++ lead ++ line ++ behind)

/-- The heading is written in one of the two ways. -/
def WrittenAt (source : List Char) (h : HeadingStart) : Prop :=
  AtxAt source h ∨ ∃ text, UnderlinedAt source h text

/-! ### Kinds of lines -/

theorem HeadingLevel.ofNat?_eq_some {n : Nat} {level : HeadingLevel} :
    HeadingLevel.ofNat? n = some level ↔ n = level.toNat := by
  constructor
  · intro h
    unfold HeadingLevel.ofNat? at h
    split at h <;> first | cases h; rfl | cases h
  · rintro rfl
    cases level <;> rfl

theorem takeWhile_beq (c : Char) (cs : List Char) :
    cs.takeWhile (· == c) = List.replicate (runLength c cs) c :=
  List.eq_replicate_iff.mpr
    ⟨rfl, fun _ hx => beq_iff_eq.mp (List.mem_takeWhile_imp (p := (· == c)) hx)⟩

/-- A run is all there is of its sign at the start of a text. -/
theorem runLength_replicate {c : Char} {behind : List Char} (n : Nat) (h : behind.head? ≠ some c) :
    runLength c (List.replicate n c ++ behind) = n := by
  have hbehind : behind.takeWhile (· == c) = [] := by
    cases behind with
    | nil => rfl
    | cons d behind => simpa using fun hd : d = c => h (by rw [hd]; rfl)
  rw [runLength, List.takeWhile_append_of_pos (by simp), hbehind, List.append_nil,
    List.length_replicate]

theorem take_runLength (c : Char) (cs : List Char) :
    cs.take (runLength c cs) = List.replicate (runLength c cs) c := by
  rw [← takeWhile_beq]
  exact (List.prefix_iff_eq_take.mp (List.takeWhile_prefix _)).symm

theorem isAsciiBlank_ne_sign {c : Char} (h : isAsciiBlank c = true) : c ≠ '#' := by
  rintro rfl
  exact absurd h (by decide)

/-- The level that is read off a line is that of the heading which the line is. -/
theorem isAtxLine_iff {cs : List Char} {level : HeadingLevel} (h : cs.head? ≠ some ' ') :
    IsAtxLine level cs ↔ atxLevel? cs = some level := by
  constructor
  · rintro ⟨indent, behind, -, rfl, hbehind⟩
    obtain rfl : indent = 0 := by
      by_contra hindent
      obtain ⟨n, rfl⟩ := Nat.exists_eq_succ_of_ne_zero hindent
      exact h rfl
    have hrun : runLength '#' (List.replicate level.toNat '#' ++ behind) = level.toNat :=
      runLength_replicate _ fun hhead => isAsciiBlank_ne_sign (hbehind _ hhead) rfl
    rw [List.replicate_zero, List.nil_append, atxLevel?, hrun,
      List.drop_left' List.length_replicate]
    cases behind with
    | nil => exact HeadingLevel.ofNat?_eq_some.mpr rfl
    | cons c behind =>
      simp only [hbehind c rfl, ↓reduceIte]
      exact HeadingLevel.ofNat?_eq_some.mpr rfl
  · intro hlevel
    have hline := take_runLength '#' cs
    unfold atxLevel? at hlevel
    simp only at hlevel
    refine ⟨0, cs.drop (runLength '#' cs), by omega, ?_, ?_⟩
    · have hn : runLength '#' cs = level.toNat := by
        split at hlevel
        · exact HeadingLevel.ofNat?_eq_some.mp hlevel
        · split at hlevel
          · exact HeadingLevel.ofNat?_eq_some.mp hlevel
          · cases hlevel
      rw [List.replicate_zero, List.nil_append, ← hn, ← hline, List.take_append_drop]
    · split at hlevel
      · rename_i hdrop
        simp [hdrop]
      · rename_i c more hdrop
        intro d hd
        obtain rfl : c = d := by simpa [hdrop] using hd
        by_contra hblank
        rw [if_neg hblank] at hlevel
        cases hlevel

theorem take_lineEnd? {cs : List Char} {n : Nat} (h : lineEnd? cs = some n) :
    cs.take n ∈ [['\n'], ['\r'], ['\r', '\n']] ∨ cs.take n = [] ∧ cs.drop n = [] := by
  unfold lineEnd? at h
  split at h
  · cases h
    simp
  · cases h
    simp
  · cases h
    simp
  · cases h
    simp
  · cases h

/-- The line whose length is read is one that underlines a heading. -/
theorem isUnderline_of_underline? {cs : List Char} {level : HeadingLevel} {n : Nat}
    (h : underline? cs = some (level, n)) : IsUnderline level (cs.take n) (cs.drop n) := by
  unfold underline? at h
  split at h
  · cases h
  · rename_i sign cs
    simp only at h
    -- the run has the sign that it starts with
    obtain ⟨m, hm⟩ : ∃ m, runLength sign (sign :: cs) = m + 1 :=
      ⟨runLength sign cs, by simp [runLength]⟩
    have hsigns := take_runLength sign (sign :: cs)
    rw [hm] at h hsigns
    have hline : ∀ {k}, blankLine? ((sign :: cs).drop (m + 1)) = some k →
        underlineSign? level = some sign →
        IsUnderline level ((sign :: cs).take (m + 1 + k)) ((sign :: cs).drop (m + 1 + k)) := by
      intro k hk hlevel
      generalize hrest : (sign :: cs).drop (m + 1) = rest at hk
      obtain ⟨e, he, rfl⟩ := Option.map_eq_some_iff.mp hk
      refine ⟨sign, m, rest.takeWhile isInlineBlank,
        (rest.drop (rest.takeWhile isInlineBlank).length).take e, hlevel, ?_, List.all_takeWhile,
        ?_⟩
      · rw [List.take_add, hsigns, hrest, List.take_add,
          ← List.prefix_iff_eq_take.mp (List.takeWhile_prefix _), List.append_assoc]
      · rw [← List.drop_drop, hrest, ← List.drop_drop]
        exact take_lineEnd? he
    split at h
    · obtain ⟨rfl, rfl⟩ := by simpa using h
      exact hline ‹_› rfl
    · obtain ⟨rfl, rfl⟩ := by simpa using h
      exact hline ‹_› rfl
    · cases h

/-! ### Paragraphs -/

/-- Lines of text, and behind them a line that underlines them, come before a place. -/
def Cursor.Underlined (c : Cursor) (level : HeadingLevel) (next : Cursor) : Prop :=
  ∃ text lead line, c.Passes (text ++ lead ++ line) next ∧
    (∃ b ∈ text.getLast?, isLineBreak b = true) ∧ lead.all Cursor.isLead = true ∧
    IsUnderline level line next.rest

variable {c d next : Cursor} {level : HeadingLevel} {passed : List Char}

theorem Cursor.Underlined.reaches (h : c.Underlined level next) : c.Reaches next := by
  obtain ⟨text, lead, line, hpass, -⟩ := h
  exact hpass.reaches

/-- More lines before lines that are underlined. -/
theorem Cursor.Underlined.of_passes (hpass : c.Passes passed d) (h : d.Underlined level next) :
    c.Underlined level next := by
  obtain ⟨text, lead, line, hline, ⟨b, hlast, hb⟩, hlead, hunder⟩ := h
  refine ⟨passed ++ text, lead, line, ?_, ⟨b, ?_, hb⟩, hlead, hunder⟩
  · simpa using hpass.trans hline
  · rw [List.getLast?_append, Option.mem_def.mp hlast]
    rfl

/-- A line that is underlined ends at a line break. -/
theorem Cursor.underlined_of_line {mode : LineMode} {line : Line} {n : Nat}
    (hmode : mode ≠ .cell) (hpass : c.Passes passed line.next) (hends : EndsLine mode passed line)
    (hhead : ∀ columns, line.ending ≠ .tableHead columns) (hlead : line.next.Leads d)
    (hunder : underline? d.rest = some (level, n)) : c.Underlined level (d.advance n) := by
  rcases hends with hcell | ⟨columns, htable⟩ | hrest | ⟨text, b, rfl, hb⟩
  · exact absurd hcell hmode
  · exact absurd htable (hhead columns)
  · rw [hlead.reaches.rest_eq_nil hrest] at hunder
    cases hunder
  · obtain ⟨lead, hlead, hsigns⟩ := hlead
    refine ⟨text ++ [b], lead, d.rest.take n, ?_, ⟨b, by simp, hb⟩, hsigns, ?_⟩
    · exact (hpass.trans hlead).trans (passes_advance d n)
    · rw [rest_advance]
      exact isUnderline_of_underline? hunder

namespace Reading

/-- What a paragraph turns out to be goes on behind its start. -/
def ParagraphEnd.Behind (c : Cursor) : ParagraphEnd → Prop
  | .plain _ next => c.Reaches next
  | .heading _ level next => c.Underlined level next
  | .table _ body => c.Reaches body

theorem ParagraphEnd.Behind.of_passes {p : ParagraphEnd} (hpass : c.Passes passed d)
    (h : p.Behind d) : p.Behind c := by
  cases p with
  | plain => exact hpass.reaches.trans h
  | heading => exact Cursor.Underlined.of_passes hpass h
  | table => exact hpass.reaches.trans h

/-- **The lines of a paragraph** are passed; if one of them underlines the others, those are
a heading. -/
theorem behind_paragraphLines (dialect : Dialect) (containers : List Container) :
    ∀ (fuel : Nat) {mode : LineMode} (c : Cursor) (pieces : List Piece), mode ≠ .cell →
      (paragraphLines dialect containers fuel mode c pieces).Behind c
  | 0, _, c, _, _ => .refl c
  | fuel + 1, mode, c, pieces, hmode => by
    obtain ⟨passed, hpass, hends⟩ := passes_readLine dialect mode containers none pieces c
    unfold paragraphLines
    simp only
    generalize readLine dialect mode containers none pieces c = line at hpass hends
    split
    · exact hpass.reaches
    · rename_i hhead
      have hlead := (LineStart.leads_enter containers (.ofCursor line.next)).trans
        (LineStart.leads_takeSpaces 4 _)
      split
      · rename_i level n hunder
        split at hunder
        · exact Cursor.underlined_of_line hmode hpass hends hhead hlead hunder
        · cases hunder
      · split
        · exact hpass.reaches
        · split
          · exact hpass.reaches
          · obtain ⟨lead, hlead, -⟩ := hlead.trans (LineStart.leads_takeAll _)
            exact ParagraphEnd.Behind.of_passes (hpass.trans hlead)
              (behind_paragraphLines dialect containers fuel _ _ (by decide))

/-! ### Headings and paragraphs as blocks -/

variable {source : List Char}

/-- A heading with its sign at a place. -/
theorem heading_readHeading (r : Reading) (start : Cursor) (level : HeadingLevel) :
    ∃ stop id p, (r.readHeading start level).1 = .heading ⟨start.offset, stop⟩ level id p ∧
      start.Reaches (r.readHeading start level).2 := by
  have hsigns := reaches_advance start level.toNat
  unfold Reading.readHeading
  simp only
  split
  · exact ⟨_, _, _, rfl, hsigns.trans (reaches_advance _ _)⟩
  · exact ⟨_, _, _, rfl, (hsigns.trans (reaches_dropWhile _ _)).trans (reaches_nextLine _)⟩

/-- A heading of the lines from a place on. -/
theorem heading_underlinedHeading (containers : List Container) (start : Cursor)
    (pieces : List Piece) (level : HeadingLevel) (stop : Nat) :
    ∃ id p, underlinedHeading containers start pieces level stop =
      .heading ⟨start.offset, stop⟩ level id p := ⟨_, _, rfl⟩

/-- A heading with its sign is written where it starts. -/
theorem headed_readHeading (r : Reading) {start : Cursor} (h : (ofText source).Reaches start)
    (hblank : start.rest.head? ≠ some ' ') (hlevel : atxLevel? start.rest = some level) :
    (r.readHeading start level).1.Headed (WrittenAt source) := by
  obtain ⟨stop, id, p, hblock, -⟩ := heading_readHeading r start level
  rw [hblock]
  exact headed_heading p (.inl ⟨_, h.textFrom?, (isAtxLine_iff hblank).mpr hlevel⟩)

/-- Lines that are underlined, the first of which is no heading by itself. -/
theorem underlinedAt_of_underlined {start next : Cursor} {level : HeadingLevel}
    (h : (ofText source).Reaches start) (hblank : start.rest.head? ≠ some ' ')
    (hlevel : atxLevel? start.rest = none) (hunder : start.Underlined level next)
    (id : Option String) :
    ∃ text, UnderlinedAt source ⟨level, id, ⟨start.offset, next.offset⟩⟩ text := by
  obtain ⟨text, lead, line, hpass, ⟨b, hlast, hb⟩, hlead, hline⟩ := hunder
  have hhead : text.head? = start.rest.head? := by
    cases text with
    | nil => cases hlast
    | cons x text =>
      rw [hpass.1]
      rfl
  refine ⟨text, lead, line, next.rest, ?_, hpass.2, ⟨b, hlast, hb⟩, hlead, hline,
    hhead ▸ hblank, fun level' hatx => ?_⟩
  · rw [← hpass.1]
    exact h.textFrom?
  · rw [← hpass.1, isAtxLine_iff hblank, hlevel] at hatx
    cases hatx

/-- A paragraph, or a heading that is written where the paragraph starts. -/
theorem headed_readParagraph (r : Reading) {start : Cursor}
    (h : (ofText source).Reaches start) (hblank : start.rest.head? ≠ some ' ')
    (hlevel : atxLevel? start.rest = none) :
    (r.readParagraph start).1.Headed (WrittenAt source) ∧
      start.Reaches (r.readParagraph start).2 := by
  have hmode : (if r.dialect.offers .tables then LineMode.first else .plain) ≠ .cell := by
    split <;> decide
  have hbehind := behind_paragraphLines r.dialect r.containers (start.rest.length + 1) start
    r.task.toList hmode
  unfold Reading.readParagraph
  simp only
  split
  · rename_i pieces next hlines
    rw [hlines] at hbehind
    exact ⟨headed_paragraph _ _, hbehind⟩
  · rename_i pieces level next hlines
    rw [hlines] at hbehind
    obtain ⟨id, p, hblock⟩ :=
      heading_underlinedHeading r.containers start pieces level next.offset
    rw [hblock]
    exact ⟨headed_heading p (.inr (underlinedAt_of_underlined h hblank hlevel hbehind id)),
      Cursor.Underlined.reaches hbehind⟩
  · rename_i columns body hlines
    rw [hlines] at hbehind
    refine ⟨?_, Reaches.trans hbehind (reaches_readTable r.dialect r.containers columns start body)⟩
    unfold readTable
    exact headed_table _ _

/-! ### Open blocks -/

/-- All headings of the blocks that are open or done have a property. -/
structure Headed (P : HeadingStart → Prop) (r : Reading) : Prop where
  spine : ∀ f ∈ r.spine, ∀ b ∈ f.children, b.Headed P
  blocks : ∀ b ∈ r.blocks, b.Headed P

variable {P : HeadingStart → Prop} {r : Reading}

theorem Headed.append (h : r.Headed P) {b : Block} (hb : b.Headed P) : (r.append b).Headed P := by
  unfold Reading.append
  split
  · rename_i hspine
    exact ⟨by simp [hspine], List.forall_mem_cons.mpr ⟨hb, h.blocks⟩⟩
  · rename_i f outer hspine
    have hall := h.spine
    rw [hspine, List.forall_mem_cons] at hall
    exact ⟨List.forall_mem_cons.mpr ⟨List.forall_mem_cons.mpr ⟨hb, hall.1⟩, hall.2⟩, h.blocks⟩

theorem Headed.openFrame (h : r.Headed P) (kind : FrameKind) (start : Nat) :
    (r.openFrame kind start).Headed P :=
  ⟨List.forall_mem_cons.mpr ⟨nofun, h.spine⟩, h.blocks⟩

/-- A block that ends goes to those around it. -/
theorem Headed.close (h : r.Headed P) (stop : Nat) : (r.close stop).Headed P := by
  unfold Reading.close
  split
  · exact h
  · rename_i f outer hspine
    have hall := h.spine
    rw [hspine, List.forall_mem_cons] at hall
    have hclosed : ({ r with spine := outer }.append (f.toBlock stop)).Headed P :=
      Headed.append (r := { r with spine := outer }) ⟨hall.2, h.blocks⟩ (headed_toBlock hall.1 stop)
    simp only
    split
    · exact ⟨hclosed.spine, hclosed.blocks⟩
    · exact hclosed

theorem Headed.closeContainers (stop : Nat) : ∀ (frames : List Frame) (n : Nat) {r : Reading},
    r.Headed P → (closeContainers stop frames n r).Headed P
  | [], _, _, h => h
  | _ :: _, 0, _, h => h
  | _ :: frames, _ + 1, _, h => Headed.closeContainers stop frames _ (h.close stop)

theorem Headed.closeAll (h : r.Headed P) (stop : Nat) : (r.closeAll stop).Headed P :=
  List.foldlRecOn r.spine _ h fun _ hr _ _ => hr.close stop

/-! ### Lists -/

theorem children_loosen (f : Frame) : (loosen f).children = f.children := by
  unfold loosen
  split <;> rfl

theorem Headed.finishEmptyItem (h : r.Headed P) : r.finishEmptyItem.Headed P := by
  have hended : ∀ {r' : Reading}, r'.Headed P → Headed P { r' with emptyItem := none } :=
    fun h => ⟨h.spine, h.blocks⟩
  unfold Reading.finishEmptyItem
  apply hended
  split
  · exact h.close _
  · exact h

theorem Headed.finishList (h : r.Headed P) (stop : Nat) : (r.finishList stop).Headed P := by
  have hlist : (if r.finishEmptyItem.inList then r.finishEmptyItem.close stop
      else r.finishEmptyItem).Headed P := by
    split
    · exact h.finishEmptyItem.close stop
    · exact h.finishEmptyItem
  unfold Reading.finishList
  simp only
  generalize (if r.finishEmptyItem.inList then r.finishEmptyItem.close stop
    else r.finishEmptyItem) = r' at hlist
  split
  · refine ⟨?_, hlist.blocks⟩
    split
    · rename_i f g outer hspine
      have hall := hlist.spine
      simp only [hspine, List.forall_mem_cons] at hall
      simp only [List.forall_mem_cons, children_loosen]
      exact hall
    · exact hlist.spine
  · exact hlist

theorem Headed.continueList (h : r.Headed P) (start : Nat) (marker : ListMarker) :
    (r.continueList start marker).Headed P := by
  have hempty := h.finishEmptyItem
  have hopened := (hempty.finishList start).openFrame (.list marker.mark marker.number true) start
  have hfresh : Headed P
      { (r.finishEmptyItem.finishList start).openFrame (.list marker.mark marker.number true) start
        with afterBlank := false } := ⟨hopened.spine, hopened.blocks⟩
  unfold Reading.continueList
  simp only
  split
  · rename_i f outer hspine
    split
    · split
      · split
        · refine ⟨?_, hempty.blocks⟩
          have hall := hempty.spine
          simp only [hspine, List.forall_mem_cons] at hall
          simp only [List.forall_mem_cons, children_loosen]
          exact hall
        · exact hempty
      · exact hfresh
    · exact hfresh
  · exact hfresh

/-! ### New containers -/

/-- What is left of a line lies behind its start, and the blocks read have a property. -/
def Opened.Behind (P : HeadingStart → Prop) (c : Cursor) : Opened → Prop
  | .nothing next r => c.Reaches next ∧ r.Headed P
  | .content _ l r => c.Reaches l.cursor ∧ r.Headed P

theorem Opened.Behind.of_reaches {o : Opened} (hreach : c.Reaches d) (h : o.Behind P d) :
    o.Behind P c := by
  cases o with
  | nothing => exact ⟨hreach.trans h.1, h.2⟩
  | content => exact ⟨hreach.trans h.1, h.2⟩

theorem Headed.openItem (h : r.Headed P) (start : Nat) (marker : ListMarker) (behind : LineStart) :
    (r.openItem start marker behind).1.Headed P ∧
      (match (r.openItem start marker behind).2 with
        | .inl next => behind.cursor.Reaches next
        | .inr l => behind.cursor.Reaches l.cursor) := by
  have hitem := (h.continueList start marker).openFrame (.item marker.indent) start
  unfold Reading.openItem
  simp only
  split
  · exact ⟨⟨hitem.spine, hitem.blocks⟩, reaches_advance _ _⟩
  · split
    · exact ⟨hitem, .refl _⟩
    · rename_i checked content hbox
      have hcontent : behind.cursor.Reaches content.cursor := by
        split at hbox
        · exact LineStart.reaches_taskBox? hbox
        · cases hbox
      split
      · have hmarked := hitem.append
          (headed_taskMarker ⟨behind.cursor.offset, content.cursor.offset⟩ checked)
        exact ⟨⟨hmarked.spine, hmarked.blocks⟩, hcontent.trans (reaches_advance _ _)⟩
      · exact ⟨⟨hitem.spine, hitem.blocks⟩, hcontent⟩

theorem Headed.afterAlert (h : r.Headed P) (next : Cursor) :
    (r.afterAlert next).Behind P next := by
  have hlead := (LineStart.leads_enter r.containers (.ofCursor next)).trans
    (LineStart.leads_takeSpaces 4 _)
  unfold Reading.afterAlert
  simp only
  split
  · exact ⟨.refl next, h⟩
  · exact ⟨hlead.reaches.trans (LineStart.reaches_takeAll _), h⟩

/-- **The containers that a line opens** hold nothing yet. -/
theorem Headed.openContainers : ∀ (fuel start : Nat) (l : LineStart) {r : Reading}, r.Headed P →
    (openContainers fuel start l r).Behind P l.cursor
  | 0, _, l, _, h => ⟨.refl l.cursor, h⟩
  | fuel + 1, start, l, r, h => by
    have hindent := (LineStart.leads_takeUpTo 4 l).reaches
    unfold Reading.openContainers
    simp only
    split
    · exact ⟨.refl _, h⟩
    · split
      · rename_i marker behind hmarker
        have hbehind := hindent.trans (LineStart.reaches_listMarker? hmarker)
        have hitem := h.openItem ((l.takeUpTo 4).2.cursor.offset - (l.takeUpTo 4).1) marker behind
        split
        · rename_i r' next hopen
          rw [hopen] at hitem
          exact ⟨hbehind.trans hitem.2, hitem.1⟩
        · rename_i r' l' hopen
          rw [hopen] at hitem
          exact Opened.Behind.of_reaches (hbehind.trans hitem.2)
            (Headed.openContainers fuel start l' hitem.1)
      · split
        · exact ⟨.refl _, h⟩
        · rename_i behind hquote
          have hbehind := hindent.trans (LineStart.leads_quoteMarker? hquote).reaches
          have hopened := (h.finishList start).openFrame .quote (l.takeUpTo 4).2.cursor.offset
          split
          · rename_i alert halert
            have hline : behind.cursor.Reaches alert.cursor := by
              split at halert
              · exact LineStart.reaches_alertLine? halert
              · cases halert
            exact Opened.Behind.of_reaches (hbehind.trans hline) (hopened.afterAlert _)
          · exact Opened.Behind.of_reaches hbehind
              (Headed.openContainers fuel start behind hopened)

theorem Headed.noteBlank (h : r.Headed P) : r.noteBlank.Headed P := by
  unfold Reading.noteBlank
  split
  · exact ⟨h.spine, h.blocks⟩
  · rename_i f outer hspine
    have hall := h.spine
    rw [hspine, List.forall_mem_cons] at hall
    split
    · exact h
    · split
      · exact ⟨List.forall_mem_cons.mpr hall, h.blocks⟩
      · exact ⟨h.spine, h.blocks⟩
    · exact ⟨h.spine, h.blocks⟩

/-! ### Blocks -/

/-- Behind less than so many columns of space comes no space. -/
theorem head_takeColumns (n offset origin : Nat) (cs : List Char)
    (h : (LineStart.takeColumns n offset origin cs).1 ≠ 0) :
    (LineStart.takeColumns n offset origin cs).2.cursor.rest.head? ≠ some ' ' := by
  fun_induction LineStart.takeColumns n offset origin cs with
  | case1 | case5 => exact absurd rfl h
  | case2 => exact (Option.some_ne_none ' ').symm
  | case3 _ _ _ _ _ _ ih | case4 _ _ _ _ _ _ _ _ _ ih => exact ih h
  | case6 n offset origin x cs hspace => simpa using hspace

theorem head_takeSpaces {l : LineStart} {n : Nat} (h : (l.takeSpaces n).1 ≠ 0) :
    (l.takeSpaces n).2.cursor.rest.head? ≠ some ' ' := by
  unfold LineStart.takeSpaces at h ⊢
  split
  · rename_i hspare
    rw [if_pos hspare] at h
    exact absurd rfl h
  · rename_i hspare
    rw [if_neg hspare] at h
    exact head_takeColumns _ _ _ _ h

theorem head_takeUpTo {l : LineStart} {n : Nat} (h : (l.takeUpTo n).1 ≠ n) :
    (l.takeUpTo n).2.cursor.rest.head? ≠ some ' ' := by
  refine head_takeSpaces fun hnone => h ?_
  show n - (l.takeSpaces n).1 = n
  rw [hnone, Nat.sub_zero]

/-- The events of the lines of code are text. -/
theorem headingStarts_code (pieces : List Piece) : headingStarts (pieces.map codeEvent) = [] := by
  unfold headingStarts
  rw [List.filterMap_map]
  exact List.filterMap_eq_nil_iff.mpr fun _ _ => rfl

theorem headingStarts_htmlLine (indent : Nat) (start : Cursor) (stop : Nat) :
    headingStarts (htmlLine indent start stop) = [] := by
  have hparts : ∀ parts : List (Cursor × Nat), headingStarts (parts.map fun part =>
      (Event.html (String.ofList (part.1.before part.2)), Span.mk part.1.offset part.2)) = [] := by
    intro parts
    unfold headingStarts
    rw [List.filterMap_map]
    exact List.filterMap_eq_nil_iff.mpr fun _ _ => rfl
  unfold htmlLine
  simp only
  split
  · exact hparts _
  · rw [headingStarts_cons, hparts]
    rfl

theorem headingStarts_htmlLines (containers : List Container) (ending : HtmlEnd) :
    ∀ (fuel : Nat) (c : Cursor) (indent : Nat),
      headingStarts (htmlLines containers ending fuel c indent).1 = []
  | 0, _, _ => rfl
  | fuel + 1, c, indent => by
    have hline := headingStarts_htmlLine indent c c.nextLine.offset
    unfold htmlLines
    simp only
    split
    · exact hline
    · split
      · exact hline
      · split
        · exact hline
        · rw [headingStarts_append, hline, headingStarts_htmlLines containers ending fuel,
            List.nil_append]

/-- **The block** behind some indentation: the headings in it are written where they
start. -/
theorem Headed.readLeaf (h : r.Headed (WrittenAt source)) {l : LineStart}
    (hl : (ofText source).Reaches l.cursor) :
    (ofText source).Reaches (r.readLeaf l).1 ∧ (r.readLeaf l).2.Headed (WrittenAt source) := by
  have hstart := hl.trans (LineStart.leads_takeUpTo 4 l).reaches
  unfold Reading.readLeaf
  simp only
  split
  · refine ⟨hstart.trans (reaches_indentedCode _ _ _), h.append ?_⟩
    unfold indentedCode
    exact headed_verbatim _ rfl (headingStarts_code _)
  · rename_i hindent
    have hblank := head_takeUpTo hindent
    split
    · refine ⟨hstart.trans (reaches_htmlBlock _ _ _ _), h.append ?_⟩
      unfold htmlBlock
      exact headed_verbatim _ rfl (headingStarts_htmlLines _ _ _ _ _)
    · exact ⟨hstart.trans (reaches_advance _ _), h.append (headed_rule _)⟩
    · rename_i level _ _ hlevel
      obtain ⟨-, -, -, -, hnext⟩ := heading_readHeading r (l.takeUpTo 4).2.cursor level
      exact ⟨hstart.trans hnext, h.append (headed_readHeading r hstart hblank hlevel)⟩
    · refine ⟨hstart.trans (reaches_fencedCode _ _ _), h.append ?_⟩
      unfold fencedCode
      exact headed_verbatim _ rfl (headingStarts_code _)
    · rename_i hlevel _
      split
      · rename_i label target behind hdefinition
        exact ⟨(hstart.trans (reaches_definition? hdefinition)).trans (reaches_passBlankLine _),
          h.spine, h.blocks⟩
      · obtain ⟨hblock, hnext⟩ := headed_readParagraph r hstart hblank hlevel
        exact ⟨hstart.trans hnext, Headed.append (r := { r with task := none })
          ⟨h.spine, h.blocks⟩ hblock⟩

/-- **One block** more: where the next one starts, and the headings so far. -/
theorem Headed.readBlock (h : r.Headed (WrittenAt source)) {c : Cursor}
    (hc : (ofText source).Reaches c) :
    (ofText source).Reaches (r.readBlock c).1 ∧ (r.readBlock c).2.Headed (WrittenAt source) := by
  have hline := (LineStart.leads_enter r.containers (.ofCursor c)).reaches
  have hclosed := Headed.closeContainers c.offset r.spine
    ((LineStart.ofCursor c).enter r.containers).1.length h
  have hopened := Opened.Behind.of_reaches (hc.trans hline) (Headed.openContainers
    (c.rest.length + 1) c.offset ((LineStart.ofCursor c).enter r.containers).2 hclosed)
  unfold Reading.readBlock
  simp only
  split
  · rename_i next r' hnothing
    rw [hnothing] at hopened
    exact hopened
  · rename_i start l r' hcontent
    rw [hcontent] at hopened
    split
    · exact ⟨hopened.1.trans (reaches_advance _ _), hopened.2.noteBlank⟩
    · exact (hopened.2.finishList start).readLeaf hopened.1

/-- **All blocks** of a text. -/
theorem Headed.readFrom : ∀ (fuel : Nat) (c : Cursor) {r : Reading},
    r.Headed (WrittenAt source) → (ofText source).Reaches c →
    (readFrom fuel c r).Headed (WrittenAt source)
  | 0, c, _, h, _ => h.closeAll c.offset
  | fuel + 1, c, r, h, hc => by
    unfold Markdown.readFrom
    split
    · exact h.closeAll c.offset
    · obtain ⟨hnext, hread⟩ := h.readBlock hc
      exact Headed.readFrom fuel _ hread hnext

end Reading

/-- **Every heading** among the events of a text is written where its span starts, in one of
the two ways. -/
theorem written_of_mem_events (dialect : Dialect) (source : List Char) :
    ∀ h ∈ headingStarts (events dialect source), WrittenAt source h := by
  have hread : (readFrom (source.length + 1) (.ofText source) { dialect }).Headed
      (WrittenAt source) := Reading.Headed.readFrom _ _ ⟨nofun, nofun⟩ (.refl _)
  unfold events readBlocks
  exact headingStarts_blocks (fun b hb => hread.blocks b (List.mem_reverse.mp hb)) _ false

end Markdown

end WikiOutline
