/-
# Places that a reading of Markdown comes to

A reader goes through a text from one place to the next.  It passes characters and counts
their bytes (`Cursor.Passes`), and it never goes back: wherever a line, the signs of a
container, a row of a table, a block of code or a definition ends, that place is reached
from where it starts (`Cursor.Reaches`).  What a line passes before its content belongs to
containers, and is blank or the sign of a quote (`Cursor.Leads`).

So every place of a reading is one of the text: its offset is that of its characters
(`Cursor.Reaches.textFrom?`).

Key definitions: `Markdown.Cursor.Passes`, `Markdown.Cursor.Reaches`,
`Markdown.Cursor.Leads`, `Markdown.EndsLine`.
Key theorems: `Markdown.LineStart.leads_enter`, `Markdown.passes_readLine`,
`Markdown.reaches_readTable`, `Markdown.reaches_definition?`,
`Markdown.Cursor.Reaches.textFrom?`.
-/
import Mathlib.Data.List.TakeWhile
import WikiOutline.Markdown.Document

namespace WikiOutline

namespace Markdown

/-! ### Bytes -/

theorem byteLength_nil : byteLength [] = 0 := rfl

theorem byteLength_cons (c : Char) (cs : List Char) :
    byteLength (c :: cs) = c.utf8Size + byteLength cs := rfl

theorem byteLength_append (cs ds : List Char) :
    byteLength (cs ++ ds) = byteLength cs + byteLength ds := by
  induction cs with
  | nil => rw [List.nil_append, byteLength_nil, Nat.zero_add]
  | cons c cs ih => rw [List.cons_append, byteLength_cons, byteLength_cons, ih, Nat.add_assoc]

/-! ### Places -/

namespace Cursor

/-- Some characters come between two places. -/
def Passes (c : Cursor) (passed : List Char) (d : Cursor) : Prop :=
  c.rest = passed ++ d.rest ∧ d.offset = c.offset + byteLength passed

/-- A place lies at or behind another one. -/
def Reaches (c d : Cursor) : Prop := ∃ passed, c.Passes passed d

/-- A character that a line may have before its content: a blank, or the sign of a
quote. -/
def isLead (x : Char) : Bool := x == ' ' || x == '\t' || x == '>'

/-- Nothing but signs of containers and indentation comes between two places. -/
def Leads (c d : Cursor) : Prop := ∃ lead, c.Passes lead d ∧ lead.all isLead = true

variable {c d e : Cursor} {cs ds : List Char}

theorem Passes.refl (c : Cursor) : c.Passes [] c := ⟨rfl, rfl⟩

theorem Passes.trans (h : c.Passes cs d) (h' : d.Passes ds e) : c.Passes (cs ++ ds) e :=
  ⟨by rw [h.1, h'.1, List.append_assoc], by rw [h'.2, h.2, byteLength_append, Nat.add_assoc]⟩

/-- One character is passed. -/
theorem passes_cons (offset : Nat) (x : Char) (cs : List Char) :
    Passes ⟨offset, x :: cs⟩ [x] ⟨offset + x.utf8Size, cs⟩ := ⟨rfl, rfl⟩

theorem Passes.reaches (h : c.Passes cs d) : c.Reaches d := ⟨cs, h⟩

theorem Reaches.refl (c : Cursor) : c.Reaches c := ⟨[], .refl c⟩

theorem Reaches.trans (h : c.Reaches d) (h' : d.Reaches e) : c.Reaches e := by
  obtain ⟨cs, hcs⟩ := h
  obtain ⟨ds, hds⟩ := h'
  exact ⟨cs ++ ds, hcs.trans hds⟩

theorem Leads.refl (c : Cursor) : c.Leads c := ⟨[], .refl c, rfl⟩

theorem Leads.trans (h : c.Leads d) (h' : d.Leads e) : c.Leads e := by
  obtain ⟨cs, hcs, hlead⟩ := h
  obtain ⟨ds, hds, hlead'⟩ := h'
  exact ⟨cs ++ ds, hcs.trans hds, by rw [List.all_append, hlead, hlead']; rfl⟩

theorem Leads.reaches (h : c.Leads d) : c.Reaches d := by
  obtain ⟨lead, hlead, -⟩ := h
  exact hlead.reaches

/-- Behind the end of a text nothing comes. -/
theorem Reaches.rest_eq_nil (h : c.Reaches d) (hc : c.rest = []) : d.rest = [] := by
  obtain ⟨passed, hpassed, -⟩ := h
  rw [hc] at hpassed
  exact (List.nil_eq_append_iff.mp hpassed).2

/-- What stands at a place that is reached is told by its offset. -/
theorem Passes.textFrom? (h : c.Passes cs d) :
    textFrom? (byteLength cs) c.rest = some d.rest := by
  rw [h.1]
  generalize d.rest = rest
  clear h
  induction cs with
  | nil => simp only [byteLength_nil, List.nil_append, Markdown.textFrom?]
  | cons x cs ih =>
    have hsize : 0 < x.utf8Size := Char.utf8Size_pos x
    obtain ⟨n, hn⟩ : ∃ n, byteLength (x :: cs) = n + 1 :=
      ⟨byteLength (x :: cs) - 1, by rw [byteLength_cons]; omega⟩
    have hcs : byteLength (x :: cs) - x.utf8Size = byteLength cs := by
      rw [byteLength_cons]
      omega
    have hle : x.utf8Size ≤ byteLength (x :: cs) := by
      rw [byteLength_cons]
      omega
    rw [hn] at hcs hle ⊢
    rw [List.cons_append, Markdown.textFrom?, if_pos hle, hcs, ih]

/-- A place that a reading of a text comes to is a place of the text. -/
theorem Reaches.textFrom? {text : List Char} (h : (ofText text).Reaches c) :
    textFrom? c.offset text = some c.rest := by
  obtain ⟨passed, hpassed⟩ := h
  have hoffset : c.offset = byteLength passed := by rw [hpassed.2, ofText, Nat.zero_add]
  rw [hoffset]
  exact hpassed.textFrom?

/-! ### Moves -/

theorem passes_skip : ∀ (n offset : Nat) (cs : List Char),
    Passes ⟨offset, cs⟩ (cs.take n) (skip n offset cs)
  | 0, _, _ => .refl _
  | _ + 1, _, [] => .refl _
  | n + 1, offset, x :: cs => (passes_cons offset x cs).trans (passes_skip n _ cs)

theorem passes_advance (c : Cursor) (n : Nat) : c.Passes (c.rest.take n) (c.advance n) :=
  passes_skip n c.offset c.rest

theorem reaches_advance (c : Cursor) (n : Nat) : c.Reaches (c.advance n) :=
  (passes_advance c n).reaches

theorem passes_dropWhile (p : Char → Bool) (c : Cursor) :
    c.Passes (c.rest.takeWhile p) (c.dropWhile p) := by
  have h := passes_advance c (c.rest.takeWhile p).length
  rwa [← List.prefix_iff_eq_take.mp (List.takeWhile_prefix p)] at h

theorem reaches_dropWhile (p : Char → Bool) (c : Cursor) : c.Reaches (c.dropWhile p) :=
  reaches_advance c _

theorem reaches_nextLine (c : Cursor) : c.Reaches c.nextLine := reaches_advance c _

theorem reaches_passBlankLine (c : Cursor) : c.Reaches c.passBlankLine := reaches_advance c _

theorem rest_advance (c : Cursor) (n : Nat) : (c.advance n).rest = c.rest.drop n := by
  have h := (passes_advance c n).1
  rw [← List.take_append_drop n c.rest] at h
  have hlength : (c.rest.take n).length =
      ((c.rest.take n ++ c.rest.drop n).take n).length := by rw [List.take_append_drop]
  exact ((List.append_inj h hlength).2).symm

end Cursor

/-! ### The start of a line -/

namespace LineStart

open Markdown.Cursor

/-- Taking columns passes spaces and tabs. -/
theorem leads_takeColumns (n offset origin : Nat) (cs : List Char) :
    Leads ⟨offset, cs⟩ (takeColumns n offset origin cs).2.cursor := by
  fun_induction takeColumns n offset origin cs with
  | case1 | case2 => exact .refl _
  | case3 n offset origin x cs hspace ih =>
    obtain rfl : x = ' ' := by simpa using hspace
    exact Leads.trans ⟨_, passes_cons offset ' ' cs, rfl⟩ ih
  | case4 n offset origin x cs _ htab width _ ih =>
    obtain rfl : x = '\t' := by simpa using htab
    exact Leads.trans ⟨_, passes_cons offset '\t' cs, rfl⟩ ih
  | case5 n offset origin x cs _ htab width _ =>
    obtain rfl : x = '\t' := by simpa using htab
    exact ⟨_, passes_cons offset '\t' cs, rfl⟩
  | case6 => exact .refl _

theorem leads_takeSpaces (n : Nat) (l : LineStart) : l.cursor.Leads (l.takeSpaces n).2.cursor := by
  unfold takeSpaces
  split
  · exact .refl _
  · exact leads_takeColumns _ _ _ _

theorem leads_takeUpTo (n : Nat) (l : LineStart) : l.cursor.Leads (l.takeUpTo n).2.cursor :=
  leads_takeSpaces n l

theorem leads_takeAll (l : LineStart) : l.cursor.Leads l.takeAll.cursor := by
  refine ⟨_, passes_dropWhile _ l.cursor, List.all_eq_true.mpr fun x hx => ?_⟩
  rw [isLead, List.mem_takeWhile_imp hx, Bool.true_or]

theorem reaches_takeAll (l : LineStart) : l.cursor.Reaches l.takeAll.cursor :=
  (leads_takeAll l).reaches

variable {l l' : LineStart}

theorem leads_quoteMarker? (h : l.quoteMarker? = some l') : l.cursor.Leads l'.cursor := by
  unfold quoteMarker? at h
  split at h
  · rename_i cs hrest
    obtain rfl := Option.some.inj h
    have hpass := passes_advance l.cursor 1
    rw [hrest] at hpass
    exact Leads.trans ⟨_, hpass, rfl⟩ (leads_takeSpaces 1 (l.advance 1))
  · cases h

theorem leads_enter? {c : Container} (h : l.enter? c = some l') : l.cursor.Leads l'.cursor := by
  cases c with
  | quote => exact (leads_takeSpaces 3 l).trans (leads_quoteMarker? h)
  | item indent =>
    unfold enter? at h
    simp only at h
    split at h
    · obtain rfl := Option.some.inj h
      exact leads_takeSpaces indent l
    · cases h

/-- A line that goes on in some containers passes their signs. -/
theorem leads_enter : ∀ (containers : List Container) (l : LineStart),
    l.cursor.Leads (l.enter containers).2.cursor
  | [], l => .refl _
  | c :: containers, l => by
    unfold enter
    split
    · rename_i l' hl'
      exact (leads_enter? hl').trans (leads_enter containers l')
    · exact .refl _

theorem leads_enterAll? {containers : List Container} (h : l.enterAll? containers = some l') :
    l.cursor.Leads l'.cursor := by
  unfold enterAll? at h
  split at h
  · rename_i l'' henter
    obtain rfl := Option.some.inj h
    have hlead := leads_enter containers l
    rwa [henter] at hlead
  · cases h

/-- The next line is reached behind the signs of its containers. -/
theorem reaches_enterAll? {containers : List Container} {c : Cursor}
    (h : (ofCursor c).enterAll? containers = some l') : c.Reaches l'.cursor :=
  (leads_enterAll? h).reaches

/-! ### Markers -/

theorem reaches_alertLine? (h : l.alertLine? = some l') : l.cursor.Reaches l'.cursor := by
  unfold alertLine? at h
  split at h
  · simp only at h
    split at h
    · split at h
      · obtain ⟨n, -, rfl⟩ := Option.map_eq_some_iff.mp h
        exact reaches_advance _ _
      · cases h
    · cases h
  · cases h

theorem reaches_finishMarker? {mark : Char} {number indent : Nat} {m : ListMarker}
    (h : l.finishMarker? mark number indent = some (m, l')) : l.cursor.Reaches l'.cursor := by
  have hspace := (leads_takeSpaces 1 l).reaches
  unfold finishMarker? at h
  simp only at h
  split at h
  · split at h
    · obtain ⟨-, rfl⟩ := Prod.mk.inj (Option.some.inj h)
      exact hspace
    · split at h
      · obtain ⟨-, rfl⟩ := Prod.mk.inj (Option.some.inj h)
        exact hspace.trans (leads_takeUpTo 4 _).reaches
      · obtain ⟨-, rfl⟩ := Prod.mk.inj (Option.some.inj h)
        exact hspace
  · cases h

theorem reaches_listMarker? {outer : Nat} {m : ListMarker}
    (h : l.listMarker? outer = some (m, l')) : l.cursor.Reaches l'.cursor := by
  unfold listMarker? at h
  split at h
  · cases h
  · split at h
    · cases h
    · exact (reaches_advance l.cursor _).trans (reaches_finishMarker? h)

theorem reaches_taskBox? {checked : Bool} (h : l.taskBox? = some (checked, l')) :
    l.cursor.Reaches l'.cursor := by
  have hspace := (leads_takeUpTo 3 l).reaches
  unfold taskBox? at h
  simp only at h
  split at h
  · split at h
    · cases h
    · split at h
      · obtain ⟨-, rfl⟩ := Prod.mk.inj (Option.some.inj h)
        exact hspace.trans (reaches_advance _ 3)
      · split at h
        · obtain ⟨-, rfl⟩ := Prod.mk.inj (Option.some.inj h)
          exact hspace.trans (reaches_advance _ 3)
        · cases h
  · cases h

end LineStart

/-! ### Lines -/

open Markdown.Cursor

/-- A line ends at a line break, unless the text ends before; a cell ends at its bar, and a
line that is the head of a table goes on with the row below it. -/
def EndsLine (mode : LineMode) (passed : List Char) (line : Line) : Prop :=
  mode = .cell ∨ (∃ columns, line.ending = .tableHead columns) ∨ line.next.rest = [] ∨
    ∃ text b, passed = text ++ [b] ∧ isLineBreak b = true

theorem eq_cell {mode : LineMode} (h : (mode == .cell) = true) : mode = .cell := by
  cases mode with
  | plain | first => cases h
  | cell => rfl

/-- A line end passes line breaks only. -/
theorem passes_lineEnd {x : Char} (hx : isLineBreak x = true) (offset : Nat) (cs : List Char) :
    ∃ text b, Passes ⟨offset, x :: cs⟩ (text ++ [b])
        (Cursor.advance ⟨offset, x :: cs⟩ ((lineEnd? (x :: cs)).getD 0)) ∧
      isLineBreak b = true := by
  have hpass := fun n => passes_advance ⟨offset, x :: cs⟩ n
  rcases (by simpa [isLineBreak] using hx : x = '\n' ∨ x = '\r') with rfl | rfl
  · exact ⟨[], '\n', hpass 1, rfl⟩
  · rcases cs with - | ⟨y, cs⟩
    · exact ⟨[], '\r', hpass 1, rfl⟩
    · by_cases hy : y = '\n'
      · subst hy
        exact ⟨['\r'], '\n', hpass 2, rfl⟩
      · have hend : lineEnd? ('\r' :: y :: cs) = some 1 := by
          unfold lineEnd?
          split <;> simp_all
        rw [hend]
        exact ⟨[], '\r', hpass 1, rfl⟩

theorem reaches_tableHead? {ctx : LineContext} {scan : LineScan} {behind next : Cursor}
    {columns : Nat} (h : scan.tableHead? ctx behind = some (columns, next)) :
    behind.Reaches next := by
  unfold LineScan.tableHead? at h
  split at h
  · obtain ⟨row, hrow, h⟩ := Option.bind_eq_some_iff.mp h
    obtain ⟨⟨columns', length⟩, -, h⟩ := Option.bind_eq_some_iff.mp h
    simp only at h
    split at h
    · obtain ⟨-, rfl⟩ := Prod.mk.inj (Option.some.inj h)
      exact (LineStart.reaches_enterAll? hrow).trans (reaches_advance _ _)
    · cases h
  · cases h

/-- A line that ends at a line break. -/
theorem passes_endLine (ctx : LineContext) (scan : LineScan) {x : Char}
    (hx : isLineBreak x = true) (offset : Nat) (cs : List Char) :
    ∃ passed, Passes ⟨offset, x :: cs⟩ passed (scan.endLine ctx ⟨offset, x :: cs⟩).next ∧
      EndsLine ctx.mode passed (scan.endLine ctx ⟨offset, x :: cs⟩) := by
  obtain ⟨text, b, hpass, hb⟩ := passes_lineEnd hx offset cs
  have hbreak : ∀ line : Line, line.next =
      Cursor.advance ⟨offset, x :: cs⟩ ((lineEnd? (x :: cs)).getD 0) →
        ∃ passed, Passes ⟨offset, x :: cs⟩ passed line.next ∧ EndsLine ctx.mode passed line := by
    intro line hline
    exact ⟨_, hline ▸ hpass, .inr (.inr (.inr ⟨text, b, rfl, hb⟩))⟩
  -- where no backslash ends the line, it may be the head of a table
  have hblank : ∃ passed,
      Passes ⟨offset, x :: cs⟩ passed (LineScan.endLine.endBlankLine ctx ⟨offset, x :: cs⟩ scan
        (Cursor.advance ⟨offset, x :: cs⟩ ((lineEnd? (x :: cs)).getD 0))).next ∧
      EndsLine ctx.mode passed (LineScan.endLine.endBlankLine ctx ⟨offset, x :: cs⟩ scan
        (Cursor.advance ⟨offset, x :: cs⟩ ((lineEnd? (x :: cs)).getD 0))) := by
    unfold LineScan.endLine.endBlankLine
    split
    · rename_i columns next hhead
      obtain ⟨row, hrow⟩ := reaches_tableHead? hhead
      exact ⟨_, hpass.trans hrow, .inr (.inl ⟨columns, rfl⟩)⟩
    · split
      · split <;> exact hbreak _ rfl
      · exact hbreak _ rfl
  unfold LineScan.endLine
  simp only
  split
  · rename_i hcell
    exact ⟨[], .refl _, .inl (eq_cell hcell)⟩
  · split
    · split
      · exact hbreak _ rfl
      · exact hblank
    · exact hblank

/-- **A line** goes on to a place behind it. -/
theorem passes_readLineFrom (ctx : LineContext) (skip : Nat) (scan : LineScan) (offset : Nat)
    (cs : List Char) : ∃ passed,
      Passes ⟨offset, cs⟩ passed (readLineFrom ctx skip scan offset cs).next ∧
        EndsLine ctx.mode passed (readLineFrom ctx skip scan offset cs) := by
  -- one character more before the rest of the line
  have hcons : ∀ {offset : Nat} {x : Char} {cs : List Char} {line : Line},
      (∃ passed, Passes ⟨offset + x.utf8Size, cs⟩ passed line.next ∧
        EndsLine ctx.mode passed line) →
      ∃ passed, Passes ⟨offset, x :: cs⟩ passed line.next ∧ EndsLine ctx.mode passed line := by
    rintro offset x cs line ⟨passed, hpass, hend⟩
    refine ⟨_, (passes_cons offset x cs).trans hpass, hend.imp_right (.imp_right (.imp_right ?_))⟩
    rintro ⟨text, b, rfl, hb⟩
    exact ⟨x :: text, b, rfl, hb⟩
  fun_induction readLineFrom ctx skip scan offset cs with
  | case1 => exact ⟨[], .refl _, .inr (.inr (.inl rfl))⟩
  | case2 skip scan offset x cs ih => exact hcons ih
  | case3 scan offset x cs here hx => exact passes_endLine ctx scan hx offset cs
  | case4 scan offset x cs here _ hcell =>
    exact ⟨[], .refl _, .inl (eq_cell (Bool.and_eq_true_iff.mp hcell).2)⟩
  | case5 scan offset x cs here _ _ scan' skip _ ih => exact hcons ih
  | case6 scan offset x cs here _ _ _ ih => exact hcons ih

theorem passes_readLine (dialect : Dialect) (mode : LineMode) (containers : List Container)
    (beyond : Option Char) (pieces : List Piece) (start : Cursor) : ∃ passed,
      start.Passes passed (readLine dialect mode containers beyond pieces start).next ∧
        EndsLine mode passed (readLine dialect mode containers beyond pieces start) :=
  passes_readLineFrom _ _ _ _ _

/-! ### Tables -/

theorem reaches_readCells (dialect : Dialect) (containers : List Container) :
    ∀ (fuel : Nat) (c : Cursor), c.Reaches (readCells dialect containers fuel c).2
  | 0, c => .refl c
  | fuel + 1, c => by
    have hbar : c.Reaches (if c.rest.head? == some '|' then c.advance 1 else c) := by
      split
      · exact reaches_advance c 1
      · exact .refl c
    have hcontent := hbar.trans (reaches_dropWhile isInlineBlank _)
    unfold readCells
    simp only
    split
    · exact hcontent.trans (reaches_advance _ _)
    · obtain ⟨passed, hline, -⟩ := passes_readLine dialect .cell containers none []
        (Cursor.dropWhile isInlineBlank (if c.rest.head? == some '|' then c.advance 1 else c))
      exact (hcontent.trans hline.reaches).trans (reaches_readCells dialect containers fuel _)

theorem reaches_readRow {dialect : Dialect} {containers : List Container} {columns : Nat}
    {start next : Cursor} {row : Row}
    (h : readRow dialect containers columns start = some (row, next)) : start.Reaches next := by
  unfold readRow at h
  simp only at h
  split at h
  · cases h
  · obtain ⟨-, rfl⟩ := Prod.mk.inj (Option.some.inj h)
    exact reaches_readCells dialect containers _ start

theorem reaches_readRows (dialect : Dialect) (containers : List Container) (columns : Nat) :
    ∀ (fuel : Nat) (c : Cursor), c.Reaches (readRows dialect containers columns fuel c).2
  | 0, c => .refl c
  | fuel + 1, c => by
    unfold readRows
    split
    · exact .refl c
    · rename_i l hl
      have hstart := (LineStart.reaches_enterAll? hl).trans (LineStart.reaches_takeAll l)
      simp only
      split
      · exact .refl c
      · split
        · exact .refl c
        · rename_i row next hrow
          exact (hstart.trans (reaches_readRow hrow)).trans
            (reaches_readRows dialect containers columns fuel next)

theorem reaches_readTable (dialect : Dialect) (containers : List Container) (columns : Nat)
    (head body : Cursor) : body.Reaches (readTable dialect containers columns head body).2 := by
  unfold readTable
  exact reaches_readRows dialect containers columns _ body

/-! ### Code and HTML -/

theorem reaches_closedBy? {f : Fence} {l : LineStart} {stop : Cursor}
    (h : f.closedBy? l = some stop) : l.cursor.Reaches stop := by
  unfold Fence.closedBy? at h
  simp only at h
  split at h
  · cases h
  · obtain ⟨n, -, rfl⟩ := Option.map_eq_some_iff.mp h
    exact (LineStart.leads_takeSpaces _ l).reaches.trans (reaches_advance _ n)

theorem reaches_fencedLines (containers : List Container) (f : Fence) :
    ∀ (fuel : Nat) (c : Cursor) (pieces : List Piece),
      c.Reaches (fencedLines containers f fuel c pieces).2.2
  | 0, c, _ => .refl c
  | fuel + 1, c, pieces => by
    unfold fencedLines
    split
    · exact .refl c
    · rename_i l hl
      have hcode := (LineStart.reaches_enterAll? hl).trans
        (LineStart.leads_takeSpaces f.indent l).reaches
      simp only
      split
      · rename_i stop hstop
        exact (hcode.trans (reaches_closedBy? hstop)).trans (reaches_passBlankLine stop)
      · exact (hcode.trans (reaches_nextLine _)).trans
          (reaches_fencedLines containers f fuel _ _)

theorem reaches_fencedCode (containers : List Container) (start : Cursor) (f : Fence) :
    start.Reaches (fencedCode containers start f).2 := by
  have hnext := ((reaches_advance start f.length).trans (reaches_dropWhile isInlineBlank _)).trans
    (reaches_nextLine _)
  unfold fencedCode
  exact hnext.trans (reaches_fencedLines containers f _ _ [])

theorem reaches_indentedLines (containers : List Container) :
    ∀ (fuel : Nat) (c : Cursor) (indent : Nat) (pieces : List Piece) (kept : List Piece × Nat),
      c.Reaches (indentedLines containers fuel c indent pieces kept).2.2
  | 0, c, _, _, _ => .refl c
  | fuel + 1, c, indent, pieces, kept => by
    have hnext := reaches_nextLine c
    unfold indentedLines
    simp only
    split
    · exact hnext
    · rename_i l hl
      split
      · exact hnext
      · exact ((hnext.trans (LineStart.reaches_enterAll? hl)).trans
          (LineStart.leads_takeSpaces 4 l).reaches).trans
          (reaches_indentedLines containers fuel _ _ _ _)

theorem reaches_indentedCode (containers : List Container) (start : Cursor) (indent : Nat) :
    start.Reaches (indentedCode containers start indent).2 := by
  unfold indentedCode
  exact reaches_indentedLines containers _ start indent [] _

theorem reaches_htmlLines (containers : List Container) (ending : HtmlEnd) :
    ∀ (fuel : Nat) (c : Cursor) (indent : Nat),
      c.Reaches (htmlLines containers ending fuel c indent).2.2
  | 0, c, _ => .refl c
  | fuel + 1, c, indent => by
    have hnext := reaches_nextLine c
    unfold htmlLines
    simp only
    split
    · exact hnext
    · rename_i l hl
      split
      · exact hnext
      · split
        · exact hnext
        · exact (hnext.trans (LineStart.reaches_enterAll? hl)).trans
            (reaches_htmlLines containers ending fuel _ _)

theorem reaches_htmlBlock (containers : List Container) (start : Cursor) (indent : Nat)
    (ending : HtmlEnd) : start.Reaches (htmlBlock containers start indent ending).2 := by
  unfold htmlBlock
  exact reaches_htmlLines containers ending _ start indent

/-! ### Definitions -/

theorem reaches_continueParagraph? {dialect : Dialect} {containers : List Container}
    {start next : Cursor} (h : continueParagraph? dialect containers start = some next) :
    start.Reaches next := by
  have hline := (LineStart.leads_enter containers (.ofCursor start)).trans
    (LineStart.leads_takeSpaces 4 _)
  unfold continueParagraph? at h
  simp only at h
  split at h
  · obtain rfl := Option.some.inj h
    exact hline.reaches
  · split at h
    · cases h
    · obtain rfl := Option.some.inj h
      exact hline.reaches

theorem reaches_definitionBlanks? {dialect : Dialect} {containers : List Container}
    {start next : Cursor} {broke : Bool}
    (h : definitionBlanks? dialect containers start = some (next, broke)) :
    start.Reaches next := by
  have hblank := reaches_dropWhile isInlineBlank start
  unfold definitionBlanks? at h
  simp only at h
  split at h
  · obtain ⟨rfl, -⟩ := Prod.mk.inj (Option.some.inj h)
    exact hblank
  · split at h
    · cases h
    · split at h
      · cases h
      · rename_i place hplace
        split at h
        · cases h
        · obtain ⟨rfl, -⟩ := Prod.mk.inj (Option.some.inj h)
          exact ((hblank.trans (reaches_advance _ _)).trans
            (reaches_continueParagraph? hplace)).trans (reaches_dropWhile _ _)

theorem reaches_titleFrom? {dialect : Dialect} {containers : List Container} {close : Char}
    {skip : Nat} {escaped : Bool} {kept : List Char} {offset : Nat} {cs : List Char}
    {title : List Char} {next : Cursor}
    (h : titleFrom? dialect containers close skip escaped kept offset cs = some (title, next)) :
    Cursor.Reaches ⟨offset, cs⟩ next := by
  have hcons : ∀ {offset : Nat} {x : Char} {cs : List Char} {next : Cursor},
      Cursor.Reaches ⟨offset + x.utf8Size, cs⟩ next → Cursor.Reaches ⟨offset, x :: cs⟩ next :=
    fun h => (passes_cons _ _ _).reaches.trans h
  fun_induction titleFrom? dialect containers close skip escaped kept offset cs with
  | case1 => cases h
  | case2 skip escaped kept offset x cs ih => exact hcons (ih h)
  | case8 escaped kept offset x cs =>
    obtain ⟨-, rfl⟩ := Prod.mk.inj (Option.some.inj h)
    exact (passes_cons offset x cs).reaches
  | case4 | case5 | case9 => cases h
  | case3 | case6 | case7 | case10 =>
    rename_i ih
    exact hcons (ih h)

theorem reaches_definitionTitle? {dialect : Dialect} {containers : List Container}
    {start next : Cursor} {title : List Char}
    (h : definitionTitle? dialect containers start = some (title, next)) :
    start.Reaches next := by
  unfold definitionTitle? at h
  split at h
  · cases h
  · rename_i x cs hrest
    obtain ⟨close, -, h⟩ := Option.bind_eq_some_iff.mp h
    have htitle := reaches_titleFrom? h
    obtain ⟨offset, rest⟩ := start
    obtain rfl : rest = x :: cs := hrest
    exact (passes_cons offset x cs).reaches.trans htitle

theorem reaches_definitionLabel? {dialect : Dialect} {containers : List Container}
    {start next : Cursor} {label : List Char}
    (h : definitionLabel? dialect containers start = some (label, next)) :
    start.Reaches next := by
  obtain ⟨⟨label', rest⟩, -, h⟩ := Option.map_eq_some_iff.mp h
  obtain ⟨-, rfl⟩ := Prod.mk.inj h
  exact reaches_advance start _

/-- **A definition** ends at a place behind its start. -/
theorem reaches_definition? {dialect : Dialect} {containers : List Container}
    {start next : Cursor} {label : List Char} {target : Target}
    (h : definition? dialect containers start = some (label, target, next)) :
    start.Reaches next := by
  unfold definition? at h
  obtain ⟨⟨label', colon⟩, hlabel, h⟩ := Option.bind_eq_some_iff.mp h
  simp only at h
  split at h
  · cases h
  · obtain ⟨⟨place, broke⟩, hplace, h⟩ := Option.bind_eq_some_iff.mp h
    obtain ⟨⟨destination, rest⟩, -, h⟩ := Option.bind_eq_some_iff.mp h
    simp only at h
    -- the definition without a title
    have hbare := (((reaches_definitionLabel? hlabel).trans (reaches_advance colon 1)).trans
      (reaches_definitionBlanks? hplace)).trans
      (reaches_advance place (place.rest.length - rest.length))
    split at h
    · cases h
    · split at h
      · split at h
        · obtain ⟨-, -, rfl⟩ := by simpa using h
          exact hbare
        · cases h
      · rename_i title' broke' htitle'
        have hplace' := hbare.trans (reaches_definitionBlanks? htitle')
        split at h
        · cases h
        · split at h
          · rename_i titled htitled
            obtain ⟨-, -, rfl⟩ := by simpa using h
            have htitled := (Option.filter_eq_some_iff.mp htitled).1
            exact hplace'.trans (reaches_definitionTitle? htitled)
          · split at h
            · obtain ⟨-, -, rfl⟩ := by simpa using h
              exact hbare
            · cases h

end Markdown

end WikiOutline
