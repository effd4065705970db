/-
# Reading what was written

A tree that a text can stand for in full reads back from the text that is written for
it.  This holds also where angle brackets are spelled as escapes, since they occur in
strings only: a string reads back however its characters are spelled
(`scanStringBody_of_spelled`), and what stands around the strings of a tree is the same
in either text.  So two such trees are never written alike.

Key definitions: `Json.Spelled`, `Json.Respelling`, `Json.Exact`, `Json.text`.
Key theorems: `Json.scanStringBody_of_spelled`, `Json.scanNumber_digits`,
`Json.reads_list`, `Json.reads_record`, `Json.scanValue_text`, `Json.read_text`,
`Json.print_injective`.
-/
import Mathlib
import WikiOutline.Json.Reader
import WikiOutline.Json.Writer

namespace WikiOutline

namespace Json

/-! ### Strings -/

/-- The first characters, inside quotes, spell the others. -/
inductive Spelled : List Char → List Char → Prop
  | nil : Spelled [] []
  | plain {c : Char} {cs s : List Char} :
    c ≠ '"' → c ≠ '\\' → 32 ≤ c.toNat → Spelled cs s → Spelled (c :: cs) (c :: s)
  | short {e c : Char} {cs s : List Char} :
    simpleEscape? e = some c → Spelled cs s → Spelled ('\\' :: e :: cs) (c :: s)
  | byNumber {n : Nat} {cs s : List Char} :
    n < 0xD800 → Spelled cs s → Spelled ('\\' :: 'u' :: (hexFour n ++ cs)) (Char.ofNat n :: s)

theorem Spelled.append {cs s ds t : List Char} (h : Spelled cs s) (h' : Spelled ds t) :
    Spelled (cs ++ ds) (s ++ t) := by
  induction h with
  | nil => exact h'
  | plain h1 h2 h3 _ ih => exact .plain h1 h2 h3 ih
  | short he _ ih => exact .short he ih
  | byNumber hn _ ih =>
    simp only [List.cons_append, List.append_assoc]
    exact .byNumber hn ih

theorem hexValue?_hexDigit : ∀ n < 16, hexValue? (hexDigit n) = some n := by decide

/-- The four digits of a number name it. -/
theorem scanHexFour_hexFour {n : Nat} (h : n < 0x10000) (rest : List Char) :
    scanHexFour (hexFour n ++ rest) = .ok (n, rest) := by
  have hdigit : ∀ m, hexValue? (hexDigit (m % 16)) = some (m % 16) := fun m =>
    hexValue?_hexDigit _ (Nat.mod_lt _ (by decide))
  simp only [hexFour, List.cons_append, List.nil_append, scanHexFour, hdigit, Except.ok.injEq,
    Prod.mk.injEq, and_true]
  omega

theorem scanUnicodeEscape_hexFour {n : Nat} (h : n < 0xD800) (rest : List Char) :
    scanUnicodeEscape (hexFour n ++ rest) = .ok (Char.ofNat n, rest) := by
  have hread := scanHexFour_hexFour (show n < 0x10000 by omega) rest
  have htrail : ¬ ((decide (0xDC00 ≤ n) && decide (n ≤ 0xDFFF)) = true) := by simp; omega
  have hlead : (decide (n < 0xD800) || decide (0xDBFF < n)) = true := by simp [h]
  unfold scanUnicodeEscape
  rw [hread]
  show (if _ then _ else _) = _
  rw [if_neg htrail, if_pos hlead]

/-- **A string reads back**, however its characters are spelled. -/
theorem scanStringBody_of_spelled {cs s : List Char} (h : Spelled cs s) :
    ∀ (fuel : Nat) (rest : List Char), cs.length < fuel →
      scanStringBody fuel (cs ++ '"' :: rest) = .ok (s, rest) := by
  induction h with
  | nil =>
    intro fuel rest hf
    obtain ⟨fuel, rfl⟩ : ∃ k, fuel = k + 1 := ⟨fuel - 1, by simp at hf; omega⟩
    rfl
  | @plain c cs s h1 h2 h3 _ ih =>
    intro fuel rest hf
    obtain ⟨fuel, rfl⟩ : ∃ k, fuel = k + 1 := ⟨fuel - 1, by simp at hf; omega⟩
    have hrest := ih fuel rest (by simpa using hf)
    rw [List.cons_append, scanStringBody, if_neg (by omega), hrest]
    · rfl
    · exact h1
    -- no escape begins here
    · exact fun h _ => h2 h
    · exact fun _ h _ => h2 h
    · exact fun _ _ h _ => h2 h
  | @short e c cs s he _ ih =>
    intro fuel rest hf
    obtain ⟨fuel, rfl⟩ : ∃ k, fuel = k + 1 := ⟨fuel - 1, by simp at hf; omega⟩
    have hrest := ih fuel rest (by simp at hf; omega)
    have hu : e ≠ 'u' := by
      rintro rfl
      cases he
    rw [List.cons_append, List.cons_append, scanStringBody, he]
    · simp only [hrest]
      rfl
    · exact hu
  | @byNumber n cs s hn _ ih =>
    intro fuel rest hf
    obtain ⟨fuel, rfl⟩ : ∃ k, fuel = k + 1 := ⟨fuel - 1, by simp at hf; omega⟩
    have hrest := ih fuel rest (by simp at hf; omega)
    simp only [List.cons_append, List.append_assoc]
    rw [scanStringBody, scanUnicodeEscape_hexFour hn]
    show (scanStringBody _ _ >>= _) = _
    rw [hrest]
    rfl

/-- Spells angle brackets anew, and leaves all else as it is. -/
structure Respelling (g : Char → List Char) : Prop where
  other : ∀ c, c ≠ '<' → c ≠ '>' → g c = [c]
  less : Spelled (g '<') ['<']
  greater : Spelled (g '>') ['>']

/-- Brackets may stand for themselves. -/
theorem respelling_self : Respelling fun c => [c] where
  other := fun _ _ _ => rfl
  less := .plain (by decide) (by decide) (by decide) .nil
  greater := .plain (by decide) (by decide) (by decide) .nil

/-- The characters are no angle brackets. -/
def Bracketless (cs : List Char) : Prop := ∀ c ∈ cs, c ≠ '<' ∧ c ≠ '>'

theorem Respelling.flatMap_eq {g : Char → List Char} (hg : Respelling g) {cs : List Char}
    (h : Bracketless cs) : cs.flatMap g = cs := by
  induction cs with
  | nil => rfl
  | cons c cs ih =>
    obtain ⟨h1, h2⟩ := h c List.mem_cons_self
    rw [List.flatMap_cons, hg.other c h1 h2, ih fun d hd => h d (List.mem_cons_of_mem c hd)]
    rfl

theorem hexDigit_bracketless : ∀ n < 16, hexDigit n ≠ '<' ∧ hexDigit n ≠ '>' := by decide

theorem hexFour_bracketless (n : Nat) : Bracketless (hexFour n) := by
  have hdigit : ∀ m, hexDigit (m % 16) ≠ '<' ∧ hexDigit (m % 16) ≠ '>' := fun m =>
    hexDigit_bracketless _ (Nat.mod_lt _ (by decide))
  intro c hc
  simp only [hexFour, List.mem_cons, List.not_mem_nil, or_false] at hc
  rcases hc with rfl | rfl | rfl | rfl <;> exact hdigit _

/-- A character is escaped by a letter or by its number, or stands for itself. -/
theorem escapeChar_cases (c : Char) :
    (∃ e, escapeChar c = ['\\', e] ∧ simpleEscape? e = some c) ∨
      (c.toNat < 32 ∧ escapeChar c = '\\' :: 'u' :: hexFour c.toNat) ∨
      (c ≠ '"' ∧ c ≠ '\\' ∧ 32 ≤ c.toNat ∧ escapeChar c = [c]) := by
  have hnumber : ∀ {n : Nat}, c.toNat = n → c = Char.ofNat n := fun h => by
    rw [← h, Char.ofNat_toNat]
  unfold escapeChar
  split_ifs with h1 h2 h3 h4 h5 h6 h7 h8
  · exact .inl ⟨'"', rfl, by rw [h1]; rfl⟩
  · exact .inl ⟨'\\', rfl, by rw [h2]; rfl⟩
  · exact .inl ⟨'n', rfl, by rw [h3]; rfl⟩
  · exact .inl ⟨'r', rfl, by rw [h4]; rfl⟩
  · exact .inl ⟨'t', rfl, by rw [h5]; rfl⟩
  · exact .inl ⟨'b', rfl, by rw [hnumber h6]; rfl⟩
  · exact .inl ⟨'f', rfl, by rw [hnumber h7]; rfl⟩
  · exact .inr (.inl ⟨h8, rfl⟩)
  · exact .inr (.inr ⟨h1, h2, Nat.le_of_not_lt h8, rfl⟩)

/-- An escaped character spells the character, also when brackets are spelled anew. -/
theorem Respelling.spelled_escapeChar {g : Char → List Char} (hg : Respelling g) (c : Char) :
    Spelled ((escapeChar c).flatMap g) [c] := by
  rcases escapeChar_cases c with ⟨e, heq, he⟩ | ⟨hlt, heq⟩ | ⟨h1, h2, h3, heq⟩
  · have hb : Bracketless ['\\', e] := fun x hx => by
      rcases List.mem_pair.mp hx with rfl | rfl
      · decide
      · constructor <;> rintro rfl <;> cases he
    rw [heq, hg.flatMap_eq hb]
    exact .short he .nil
  · have hb : Bracketless ('\\' :: 'u' :: hexFour c.toNat) := fun x hx => by
      rcases List.mem_cons.mp hx with rfl | hx
      · decide
      rcases List.mem_cons.mp hx with rfl | hx
      · decide
      exact hexFour_bracketless _ x hx
    have hs := Spelled.byNumber (n := c.toNat) (by omega) .nil
    rw [List.append_nil, Char.ofNat_toNat] at hs
    rwa [heq, hg.flatMap_eq hb]
  · rw [heq, List.flatMap_singleton]
    by_cases hl : c = '<'
    · exact hl ▸ hg.less
    by_cases hr : c = '>'
    · exact hr ▸ hg.greater
    rw [hg.other c hl hr]
    exact .plain h1 h2 h3 .nil

theorem Respelling.spelled_escape {g : Char → List Char} (hg : Respelling g) :
    ∀ cs : List Char, Spelled ((escape cs).flatMap g) cs
  | [] => .nil
  | c :: cs => by
    have h := (hg.spelled_escapeChar c).append (hg.spelled_escape cs)
    rwa [← List.flatMap_append] at h

/-- A quoted string reads back, behind its opening quote. -/
theorem Respelling.scanString_quote {g : Char → List Char} (hg : Respelling g) (s : String)
    (rest : List Char) :
    scanString ((escape s.toList).flatMap g ++ '"' :: rest) = .ok (s, rest) := by
  have hbody := scanStringBody_of_spelled (hg.spelled_escape s.toList)
    (((escape s.toList).flatMap g ++ '"' :: rest).length + 1) rest (by simp)
  unfold scanString
  rw [hbody]
  show Except.ok (String.ofList s.toList, rest) = _
  rw [String.ofList_toList]

/-! ### Numbers -/

/-- No number goes on with the characters. -/
def EndsNumber (rest : List Char) : Prop :=
  ∀ c, rest.head? = some c → c.isDigit = false ∧ c ≠ '.' ∧ c ≠ 'e' ∧ c ≠ 'E'

theorem endsNumber_nil : EndsNumber [] := fun _ h => by cases h

/-- The decimal digits of a number. -/
def digits (n : Nat) : List Char := (toString n).toList

theorem digits_eq (n : Nat) : digits n = Nat.toDigits 10 n := Nat.toList_repr

theorem isDigit_of_mem_digits {n : Nat} {c : Char} (h : c ∈ digits n) : c.isDigit = true :=
  Nat.isDigit_of_mem_toDigits (by decide) (by decide) (digits_eq n ▸ h)

theorem digits_ne_nil (n : Nat) : digits n ≠ [] := by
  rw [digits_eq]
  exact Nat.toDigits_ne_nil

/-- Only the number 0 begins with the digit 0. -/
theorem digits_head (n : Nat) : (digits n).head? = some '0' → n = 0 := by
  rw [digits_eq]
  induction n using Nat.strong_induction_on with
  | _ n ih =>
    rcases Nat.lt_or_ge n 10 with h | h
    · rw [Nat.toDigits_of_lt_base h]
      have hall : ∀ m < 10, m.digitChar = '0' → m = 0 := by decide
      intro heq
      exact hall n h (Option.some.inj heq)
    · rw [Nat.toDigits_of_base_le (by decide) h, List.head?_append_of_ne_nil _ Nat.toDigits_ne_nil]
      intro heq
      have := ih (n / 10) (by omega) heq
      omega

theorem le_ofDigitChars (ds : List Char) (n : Nat) : n ≤ Nat.ofDigitChars 10 ds n := by
  rw [Nat.ofDigitChars_eq_ofDigitChars_zero]
  have : 1 * n ≤ 10 ^ ds.length * n := Nat.mul_le_mul_right n (Nat.one_le_pow _ _ (by decide))
  omega

/-- Digits within 64 bits are all gathered. -/
theorem gatherDigits_eq : ∀ (ds : List Char) (n : Nat), Nat.ofDigitChars 10 ds n ≤ Word.maxNat →
    gatherDigits n ds = (Nat.ofDigitChars 10 ds n, 0)
  | [], _, _ => rfl
  | d :: ds, n, h => by
    rw [Nat.ofDigitChars_cons] at h ⊢
    have hd : 10 * n + Word.digitValue d ≤ Word.maxNat := (le_ofDigitChars ds _).trans h
    rw [gatherDigits, if_pos hd]
    exact gatherDigits_eq ds _ h

theorem gatherDigits_digits {n : Nat} (h : n ≤ Word.maxNat) : gatherDigits 0 (digits n) = (n, 0) := by
  have hvalue : Nat.ofDigitChars 10 (digits n) 0 = n := by
    rw [digits_eq]
    exact Nat.ofDigitChars_ten_toDigits
  rw [gatherDigits_eq _ _ (by rwa [hvalue]), hvalue]

theorem spanDigits_digits (n : Nat) {rest : List Char} (h : EndsNumber rest) :
    spanDigits (digits n ++ rest) = (digits n, rest) := by
  have hall : ∀ c ∈ digits n, c.isDigit = true := fun c hc => isDigit_of_mem_digits hc
  have hrest : rest.takeWhile Char.isDigit = [] ∧ rest.dropWhile Char.isDigit = rest := by
    cases rest with
    | nil => exact ⟨rfl, rfl⟩
    | cons c rest =>
      have hc := (h c rfl).1
      exact ⟨List.takeWhile_cons_of_neg (by rw [hc]; decide),
        List.dropWhile_cons_of_neg (by rw [hc]; decide)⟩
  unfold spanDigits
  rw [List.takeWhile_append_of_pos hall, List.dropWhile_append_of_pos hall, hrest.1, hrest.2,
    List.append_nil]

theorem scanFraction_none {rest : List Char} (h : EndsNumber rest) :
    scanFraction rest = .ok (none, rest) := by
  unfold scanFraction
  split
  · exact absurd rfl (h _ rfl).2.1
  · rfl

theorem scanExponent_none {rest : List Char} (h : EndsNumber rest) :
    scanExponent rest = .ok (none, rest) := by
  unfold scanExponent
  cases rest with
  | nil => rfl
  | cons c rest =>
    obtain ⟨-, -, h1, h2⟩ := h c rfl
    simp only [h1, h2, decide_false, Bool.or_self, Bool.false_eq_true, ↓reduceIte]

/-- The digits of a number are read as its whole part. -/
theorem scanNumeral_digits (n : Nat) {rest : List Char} (h : EndsNumber rest) :
    scanNumeral (digits n ++ rest) = .ok (⟨digits n, none, none⟩, rest) := by
  unfold scanNumeral
  rw [spanDigits_digits n h]
  simp only
  split
  · rename_i heq
    exact absurd (Prod.mk.inj heq).1 (digits_ne_nil n)
  · rename_i heq
    exact absurd (Prod.mk.inj heq).1 (digits_ne_nil n)
  · -- only 0 begins with the digit 0, and it has no other digit
    rename_i heq
    have hd := (Prod.mk.inj heq).1
    have h0 := digits_head n (by rw [hd]; rfl)
    rw [h0] at hd
    exact absurd (congrArg List.length hd) (by simp [digits_eq, Nat.toDigits_zero])
  · rename_i heq
    obtain ⟨rfl, rfl⟩ := Prod.mk.inj heq
    show (scanFraction rest >>= _) = _
    rw [scanFraction_none h]
    show (scanExponent rest >>= _) = _
    rw [scanExponent_none h]
    rfl

/-- **A number within 64 bits reads back.** -/
theorem scanNumber_digits {n : Nat} (hn : n ≤ Word.maxNat) {rest : List Char} (h : EndsNumber rest) :
    scanNumber false (digits n ++ rest) = (.number (.natural n), rest) := by
  have hvalue : (Numeral.mk (digits n) none none).value? false = some (.natural n) := by
    simp [Numeral.value?, Numeral.parts, gatherDigits_digits hn]
  unfold scanNumber
  rw [scanNumeral_digits n h]
  simp only [hvalue]

/-- A number below zero reads back behind its sign. -/
theorem scanNumber_minus_digits {n : Nat} (h0 : 0 < n) (hn : Word.minInt ≤ -(n : Int))
    {rest : List Char} (h : EndsNumber rest) :
    scanNumber true (digits n ++ rest) = (.number (.negative n), rest) := by
  have hmax : n ≤ Word.maxNat := by
    have h1 : Word.minInt = -0x8000000000000000 := rfl
    have h2 : Word.maxNat = 0xffffffffffffffff := rfl
    omega
  have hvalue : (Numeral.mk (digits n) none none).value? true = some (.negative n) := by
    simp [Numeral.value?, Numeral.parts, gatherDigits_digits hmax, h0, hn]
  unfold scanNumber
  rw [scanNumeral_digits n h]
  simp only [hvalue]

/-! ### Trees -/

/-- A text can stand for the tree in full: its numbers are whole and within 64 bits, and
nothing in it is unreadable or left open. -/
inductive Exact : Json → Prop
  | null : Exact .null
  | bool (b : Bool) : Exact (.bool b)
  | natural {n : Nat} : n ≤ Word.maxNat → Exact (ofNat n)
  | negative {n : Nat} : 0 < n → Word.minInt ≤ -(n : Int) → Exact (.number (.negative n))
  | string (s : String) : Exact (.string s)
  | list {items : List Json} : (∀ v ∈ items, Exact v) → Exact (list items)
  | record {members : List (String × Json)} : (∀ m ∈ members, Exact m.2) →
    Exact (record members)

/-- The text of a tree, the angle brackets in it spelled anew. -/
def text (g : Char → List Char) (j : Json) : List Char := j.chars.flatMap g

theorem skipItems_eq_none : ∀ {items : List Json}, (∀ v ∈ items, skip v = none) →
    skipItems items = none
  | [], _ => rfl
  | v :: vs, h => by
    rw [skipItems, h v List.mem_cons_self, skipItems_eq_none fun w hw => h w (List.mem_cons_of_mem v hw)]
    rfl

theorem skipMembers_eq_none : ∀ {members : List (Name × Json)},
    (∀ m ∈ members, skip m.2 = none) → skipMembers members = none
  | [], _ => rfl
  | m :: ms, h => by
    rw [skipMembers, h m List.mem_cons_self,
      skipMembers_eq_none fun w hw => h w (List.mem_cons_of_mem m hw)]
    rfl

/-- Nothing stops a reader that skips the tree. -/
theorem Exact.skip_eq_none {j : Json} (h : Exact j) : j.skip = none := by
  induction h with
  | null | bool | natural | negative | string => rfl
  | list _ ih => simp [Json.list, skip, skipItems_eq_none ih]
  | @record members _ ih =>
    have hall : skipMembers (members.map fun m => (Name.known m.1, m.2)) = none :=
      skipMembers_eq_none fun m hm => by
        obtain ⟨m', hm', rfl⟩ := List.mem_map.mp hm
        exact ih m' hm'
    simp [Json.record, skip, hall]

/-! ### The parts of a text -/

theorem charsItems_cons (v : Json) : ∀ vs : List Json,
    charsItems (v :: vs) = v.chars ++ vs.flatMap fun w => ',' :: w.chars
  | [] => by simp [charsItems]
  | w :: vs => by
    rw [charsItems, charsItems_cons w vs]
    · simp
    · exact fun h => by cases h

theorem charsMembers_cons (m : Name × Json) : ∀ ms : List (Name × Json),
    charsMembers (m :: ms) = m.1.chars ++ ':' :: m.2.chars ++
      ms.flatMap fun m => ',' :: (m.1.chars ++ ':' :: m.2.chars)
  | [] => by simp [charsMembers]
  | m' :: ms => by
    rw [charsMembers, charsMembers_cons m' ms]
    · simp
    · exact fun h => by cases h

variable {g : Char → List Char}

/-- A string in quotes, with what comes behind its opening quote apart. -/
def closedString (g : Char → List Char) (s : String) : List Char :=
  (escape s.toList).flatMap g ++ ['"']

/-- A member behind the opening quote of its name. -/
def memberText (g : Char → List Char) (m : String × Json) : List Char :=
  closedString g m.1 ++ ':' :: m.2.text g

theorem length_text_le_memberText (g : Char → List Char) (m : String × Json) :
    (m.2.text g).length ≤ (memberText g m).length := by
  simp only [memberText, List.length_append, List.length_cons]
  omega

theorem Respelling.apply (hg : Respelling g) {c : Char} (h : c ≠ '<' ∧ c ≠ '>') : g c = [c] :=
  hg.other c h.1 h.2

theorem Respelling.flatMap_quote (hg : Respelling g) (s : String) :
    (quote s).flatMap g = '"' :: closedString g s := by
  have hq : g '"' = ['"'] := hg.apply (by decide)
  simp [quote, closedString, hq]

theorem Respelling.text_list_nil (hg : Respelling g) : text g (list []) = ['[', ']'] :=
  hg.flatMap_eq (show Bracketless ['[', ']'] by simp [Bracketless])

theorem Respelling.text_list_cons (hg : Respelling g) (v : Json) (vs : List Json) :
    text g (list (v :: vs)) =
      '[' :: (v.text g ++ ((vs.flatMap fun w => ',' :: w.text g) ++ [']'])) := by
  have h1 : g '[' = ['['] := hg.apply (by decide)
  have h2 : g ',' = [','] := hg.apply (by decide)
  have h3 : g ']' = [']'] := hg.apply (by decide)
  simp [text, list, chars, charsItems_cons, List.flatMap_assoc, h1, h2, h3]

theorem Respelling.text_record_nil (hg : Respelling g) : text g (record []) = ['{', '}'] :=
  hg.flatMap_eq (show Bracketless ['{', '}'] by simp [Bracketless])

theorem Respelling.text_record_cons (hg : Respelling g) (m : String × Json)
    (ms : List (String × Json)) :
    text g (record (m :: ms)) = '{' :: '"' :: (memberText g m ++
      ((ms.flatMap fun m => ',' :: '"' :: memberText g m) ++ ['}'])) := by
  have h1 : g '{' = ['{'] := hg.apply (by decide)
  have h2 : g ',' = [','] := hg.apply (by decide)
  have h3 : g '}' = ['}'] := hg.apply (by decide)
  have h4 : g ':' = [':'] := hg.apply (by decide)
  simp [text, record, chars, charsMembers_cons, memberText, Name.chars, hg.flatMap_quote,
    List.flatMap_assoc, List.flatMap_map, h1, h2, h3, h4]

theorem digits_bracketless (n : Nat) : Bracketless (digits n) := fun c hc => by
  have hd := isDigit_of_mem_digits hc
  constructor <;> rintro rfl <;> exact absurd hd (by decide)

theorem Respelling.text_natural (hg : Respelling g) (n : Nat) : text g (ofNat n) = digits n :=
  hg.flatMap_eq (digits_bracketless n)

theorem Respelling.text_negative (hg : Respelling g) (n : Nat) :
    text g (.number (.negative n)) = '-' :: digits n := by
  have hm : g '-' = ['-'] := hg.apply (by decide)
  show List.flatMap g ('-' :: digits n) = _
  rw [List.flatMap_cons, hm, hg.flatMap_eq (digits_bracketless n)]
  rfl

theorem isSpace_of_isDigit {c : Char} (h : c.isDigit = true) : isSpace c = false := by
  by_contra hs
  simp only [isSpace, Bool.not_eq_false, Bool.or_eq_true, beq_iff_eq] at hs
  rcases hs with ((rfl | rfl) | rfl) | rfl <;> exact absurd h (by decide)

/-- A text begins neither with a blank nor with the end of an array. -/
theorem Exact.text_head (hg : Respelling g) {j : Json} (h : Exact j) :
    ∃ c cs, j.text g = c :: cs ∧ isSpace c = false ∧ c ≠ ']' := by
  cases h with
  | null => exact ⟨_, _, hg.flatMap_eq (show Bracketless ['n', 'u', 'l', 'l'] by simp [Bracketless]), rfl, by decide⟩
  | bool b =>
    cases b with
    | true => exact ⟨_, _, hg.flatMap_eq (show Bracketless ['t', 'r', 'u', 'e'] by simp [Bracketless]), rfl, by decide⟩
    | false => exact ⟨_, _, hg.flatMap_eq (show Bracketless ['f', 'a', 'l', 's', 'e'] by simp [Bracketless]), rfl, by decide⟩
  | @natural n _ =>
    obtain ⟨d, ds, hd⟩ := List.exists_cons_of_ne_nil (digits_ne_nil n)
    have hdigit : d.isDigit = true :=
      isDigit_of_mem_digits (n := n) (by rw [hd]; exact List.mem_cons_self)
    refine ⟨d, ds, (hg.text_natural n).trans hd, isSpace_of_isDigit hdigit, ?_⟩
    rintro rfl
    exact absurd hdigit (by decide)
  | @negative n _ _ => exact ⟨_, _, hg.text_negative n, rfl, by decide⟩
  | string s => exact ⟨_, _, hg.flatMap_quote s, rfl, by decide⟩
  | @list items _ =>
    cases items with
    | nil => exact ⟨_, _, hg.text_list_nil, rfl, by decide⟩
    | cons v vs => exact ⟨_, _, hg.text_list_cons v vs, rfl, by decide⟩
  | @record members _ =>
    cases members with
    | nil => exact ⟨_, _, hg.text_record_nil, rfl, by decide⟩
    | cons m ms => exact ⟨_, _, hg.text_record_cons m ms, rfl, by decide⟩

/-! ### Reading a text -/

theorem dropSpace_cons {c : Char} (h : isSpace c = false) (cs : List Char) :
    dropSpace (c :: cs) = c :: cs :=
  List.dropWhile_cons_of_neg (by rw [h]; decide)

/-- A value that begins with a digit is a number. -/
theorem scanValue_of_isDigit {c : Char} (h : c.isDigit = true) (fuel : Nat) (cs : List Char) :
    scanValue (fuel + 1) (c :: cs) = scanNumber false (c :: cs) := by
  have hne : ∀ d : Char, d.isDigit = false → c ≠ d := by
    rintro d hd rfl
    rw [hd] at h
    cases h
  rw [scanValue, dropSpace_cons (isSpace_of_isDigit h)]
  split
  · rename_i heq
    cases heq
  all_goals
    rename_i heq
    obtain ⟨h1, h2⟩ := List.cons.inj heq
  · exact absurd h1 (hne _ rfl)
  · exact absurd h1 (hne _ rfl)
  · exact absurd h1 (hne _ rfl)
  · exact absurd h1 (hne _ rfl)
  · exact absurd h1 (hne _ rfl)
  · exact absurd h1 (hne _ rfl)
  · exact absurd h1 (hne _ rfl)
  · rw [← h1, ← h2, if_pos h]

/-- An array that does not end at once has a first item. -/
theorem scanItems_first {c : Char} (hspace : isSpace c = false) (hc : c ≠ ']') (fuel : Nat)
    (cs : List Char) : scanItems (fuel + 1) true (c :: cs) = scanItem fuel (c :: cs) := by
  unfold scanItems
  rw [dropSpace_cons hspace]
  simp only [List.cons.injEq, hc, false_and, IsEmpty.forall_iff, implies_true]

/-- The text of a tree is read as the tree, whatever else comes behind it. -/
def Reads (g : Char → List Char) (j : Json) : Prop :=
  ∀ (fuel : Nat) (rest : List Char), EndsNumber rest → 3 * (j.text g).length ≤ fuel →
    scanValue fuel (j.text g ++ rest) = (j, rest)

theorem endsNumber_of_mem {c : Char} (h : c ∈ [',', ']', '}']) (cs : List Char) :
    EndsNumber (c :: cs) := by
  intro d hd
  obtain rfl := Option.some.inj hd
  simp only [List.mem_cons, List.not_mem_nil, or_false] at h
  rcases h with rfl | rfl | rfl <;> decide

/-- An item is read, and those behind it. -/
theorem scanItem_text {v : Json} (hv : Reads g v) (hskip : v.skip = none) {fuel : Nat}
    {after rest : List Char} {vs : List Json} (hends : EndsNumber after)
    (hf : 3 * (v.text g).length ≤ fuel)
    (hrest : scanItems fuel false after = (.array vs none, rest)) :
    scanItem (fuel + 1) (v.text g ++ after) = (.array (v :: vs) none, rest) := by
  simp only [scanItem, hv fuel _ hends hf, hskip, hrest]

/-- Items behind the first one are read up to the end of the array. -/
theorem scanItems_text : ∀ {vs : List Json}, (∀ v ∈ vs, Reads g v ∧ v.skip = none) →
    ∀ (fuel : Nat) (rest : List Char),
      3 * ((vs.flatMap fun w => ',' :: w.text g) ++ [']']).length ≤ fuel →
      scanItems fuel false ((vs.flatMap fun w => ',' :: w.text g) ++ ']' :: rest) =
        (.array vs none, rest)
  | [], _, fuel, rest, hf => by
    obtain ⟨fuel, rfl⟩ : ∃ k, fuel = k + 1 := ⟨fuel - 1, by simp at hf; omega⟩
    rfl
  | v :: vs, hall, fuel, rest, hf => by
    simp only [List.flatMap_cons, List.cons_append, List.length_cons, List.append_assoc,
      List.length_append, List.length_nil] at hf ⊢
    obtain ⟨fuel, rfl⟩ : ∃ k, fuel = k + 2 := ⟨fuel - 2, by omega⟩
    obtain ⟨hv, hskip⟩ := hall v List.mem_cons_self
    have hends : EndsNumber ((vs.flatMap fun w => ',' :: w.text g) ++ ']' :: rest) := by
      cases vs <;> exact endsNumber_of_mem (by decide) _
    have hrest := scanItems_text (fun w hw => hall w (List.mem_cons_of_mem v hw)) fuel rest
      (by simp only [List.length_append, List.length_cons, List.length_nil]; omega)
    have hitem := scanItem_text hv hskip hends (by omega) hrest
    simp only [scanItems, dropSpace_cons (c := ',') rfl, hitem]

/-- A member is read, and those behind it. -/
theorem scanMember_text (hg : Respelling g) {m : String × Json} (hm : Reads g m.2)
    (hskip : m.2.skip = none) {fuel : Nat} {after rest : List Char} {ms : List (Name × Json)}
    (hends : EndsNumber after) (hf : 3 * (m.2.text g).length ≤ fuel)
    (hrest : scanMembers fuel false after = (.object ms none, rest)) :
    scanMember (fuel + 1) (memberText g m ++ after) =
      (.object ((.known m.1, m.2) :: ms) none, rest) := by
  have hname : scanName (memberText g m ++ after) =
      (.known m.1, .ok (':' :: (m.2.text g ++ after))) := by
    have h := hg.scanString_quote m.1 (':' :: (m.2.text g ++ after))
    unfold scanName memberText closedString
    simp only [List.append_assoc, List.cons_append, List.nil_append, h]
  simp only [scanMember, hname, dropSpace_cons (c := ':') rfl, hm fuel _ hends hf, hskip, hrest]

/-- Members behind the first one are read up to the end of the object. -/
theorem scanMembers_text (hg : Respelling g) : ∀ {ms : List (String × Json)},
    (∀ m ∈ ms, Reads g m.2 ∧ m.2.skip = none) → ∀ (fuel : Nat) (rest : List Char),
      3 * ((ms.flatMap fun m => ',' :: '"' :: memberText g m) ++ ['}']).length ≤ fuel →
      scanMembers fuel false ((ms.flatMap fun m => ',' :: '"' :: memberText g m) ++ '}' :: rest) =
        (record ms, rest)
  | [], _, fuel, rest, hf => by
    obtain ⟨fuel, rfl⟩ : ∃ k, fuel = k + 1 := ⟨fuel - 1, by simp at hf; omega⟩
    rfl
  | m :: ms, hall, fuel, rest, hf => by
    have hlen := length_text_le_memberText g m
    simp only [List.flatMap_cons, List.cons_append, List.length_cons, List.append_assoc,
      List.length_append, List.length_nil] at hf ⊢
    obtain ⟨fuel, rfl⟩ : ∃ k, fuel = k + 2 := ⟨fuel - 2, by omega⟩
    obtain ⟨hm, hskip⟩ := hall m List.mem_cons_self
    have hends : EndsNumber ((ms.flatMap fun m => ',' :: '"' :: memberText g m) ++ '}' :: rest) := by
      cases ms <;> exact endsNumber_of_mem (by decide) _
    have hrest := scanMembers_text hg (fun w hw => hall w (List.mem_cons_of_mem m hw)) fuel rest
      (by simp only [List.length_append, List.length_cons, List.length_nil]; omega)
    have hmember := scanMember_text hg hm hskip hends (by omega) hrest
    simp only [scanMembers, dropSpace_cons (c := ',') rfl, dropSpace_cons (c := '"') rfl, hmember]
    rfl

/-! ### Each kind of tree -/

theorem reads_null (hg : Respelling g) : Reads g .null := by
  intro fuel rest _ hf
  have ht : text g .null = "null".toList :=
    hg.flatMap_eq (show Bracketless ['n', 'u', 'l', 'l'] by simp [Bracketless])
  rw [ht] at hf ⊢
  obtain ⟨fuel, rfl⟩ : ∃ k, fuel = k + 1 := ⟨fuel - 1, by simp at hf; omega⟩
  rfl

theorem reads_bool (hg : Respelling g) (b : Bool) : Reads g (.bool b) := by
  intro fuel rest _ hf
  have ht : text g (.bool b) = (if b then "true" else "false").toList := by
    cases b
    · exact hg.flatMap_eq (show Bracketless ['f', 'a', 'l', 's', 'e'] by simp [Bracketless])
    · exact hg.flatMap_eq (show Bracketless ['t', 'r', 'u', 'e'] by simp [Bracketless])
  rw [ht] at hf ⊢
  obtain ⟨fuel, rfl⟩ : ∃ k, fuel = k + 1 := ⟨fuel - 1, by cases b <;> simp at hf <;> omega⟩
  cases b <;> rfl

theorem reads_natural (hg : Respelling g) {n : Nat} (hn : n ≤ Word.maxNat) :
    Reads g (ofNat n) := by
  intro fuel rest hrest hf
  rw [hg.text_natural] at hf ⊢
  have hread := scanNumber_digits hn hrest
  obtain ⟨d, ds, hd⟩ := List.exists_cons_of_ne_nil (digits_ne_nil n)
  have hdigit : d.isDigit = true :=
    isDigit_of_mem_digits (n := n) (by rw [hd]; exact List.mem_cons_self)
  rw [hd] at hf hread ⊢
  obtain ⟨fuel, rfl⟩ : ∃ k, fuel = k + 1 := ⟨fuel - 1, by simp at hf; omega⟩
  rw [List.cons_append, scanValue_of_isDigit hdigit]
  exact hread

theorem reads_negative (hg : Respelling g) {n : Nat} (h0 : 0 < n) (hn : Word.minInt ≤ -(n : Int)) :
    Reads g (.number (.negative n)) := by
  intro fuel rest hrest hf
  rw [hg.text_negative] at hf ⊢
  obtain ⟨fuel, rfl⟩ : ∃ k, fuel = k + 1 := ⟨fuel - 1, by simp at hf; omega⟩
  simp only [List.cons_append, scanValue, dropSpace_cons (c := '-') rfl,
    scanNumber_minus_digits h0 hn hrest]

theorem reads_string (hg : Respelling g) (s : String) : Reads g (.string s) := by
  intro fuel rest _ hf
  have ht : text g (.string s) = '"' :: closedString g s := hg.flatMap_quote s
  rw [ht] at hf ⊢
  obtain ⟨fuel, rfl⟩ : ∃ k, fuel = k + 1 := ⟨fuel - 1, by simp at hf; omega⟩
  have hread := hg.scanString_quote s rest
  simp only [List.cons_append, scanValue, dropSpace_cons (c := '"') rfl, scanText, closedString,
    List.append_assoc, List.nil_append, hread]

/-- An array is read if its items are. -/
theorem reads_list (hg : Respelling g) {items : List Json} (hexact : ∀ v ∈ items, Exact v)
    (hitems : ∀ v ∈ items, Reads g v) : Reads g (list items) := by
  intro fuel rest _ hf
  cases items with
  | nil =>
    rw [hg.text_list_nil] at hf ⊢
    obtain ⟨fuel, rfl⟩ : ∃ k, fuel = k + 2 := ⟨fuel - 2, by simp at hf; omega⟩
    rfl
  | cons v vs =>
    obtain ⟨hv, hvs⟩ := List.forall_mem_cons.mp hexact
    obtain ⟨hread, hreads⟩ := List.forall_mem_cons.mp hitems
    rw [hg.text_list_cons] at hf ⊢
    simp only [List.length_cons, List.length_append, List.length_nil] at hf
    obtain ⟨fuel, rfl⟩ : ∃ k, fuel = k + 3 := ⟨fuel - 3, by omega⟩
    set after := (vs.flatMap fun w => ',' :: w.text g) ++ ']' :: rest with hafter
    have hends : EndsNumber after := by
      cases vs <;> exact endsNumber_of_mem (by decide) _
    have hrest : scanItems fuel false after = (.array vs none, rest) :=
      scanItems_text (fun w hw => ⟨hreads w hw, (hvs w hw).skip_eq_none⟩) fuel rest
        (by simp only [List.length_append, List.length_cons, List.length_nil]; omega)
    have hitem := scanItem_text hread hv.skip_eq_none hends (by omega) hrest
    -- the array does not end at once, as a text does not begin with a bracket that closes
    obtain ⟨c, cs, hc, hspace, hne⟩ := hv.text_head hg
    rw [hc] at hitem
    simp only [List.cons_append, List.append_assoc, List.nil_append, ← hafter]
    rw [scanValue, dropSpace_cons rfl, hc]
    show scanItems (fuel + 2) true (c :: (cs ++ after)) = _
    rw [scanItems_first hspace hne]
    exact hitem

/-- An object is read if the values of its members are. -/
theorem reads_record (hg : Respelling g) {members : List (String × Json)}
    (hexact : ∀ m ∈ members, Exact m.2) (hmembers : ∀ m ∈ members, Reads g m.2) :
    Reads g (record members) := by
  intro fuel rest _ hf
  cases members with
  | nil =>
    rw [hg.text_record_nil] at hf ⊢
    obtain ⟨fuel, rfl⟩ : ∃ k, fuel = k + 2 := ⟨fuel - 2, by simp at hf; omega⟩
    rfl
  | cons m ms =>
    obtain ⟨hm, hms⟩ := List.forall_mem_cons.mp hexact
    obtain ⟨hread, hreads⟩ := List.forall_mem_cons.mp hmembers
    have hlen := length_text_le_memberText g m
    rw [hg.text_record_cons] at hf ⊢
    simp only [List.length_cons, List.length_append, List.length_nil] at hf
    obtain ⟨fuel, rfl⟩ : ∃ k, fuel = k + 3 := ⟨fuel - 3, by omega⟩
    set after := (ms.flatMap fun m => ',' :: '"' :: memberText g m) ++ '}' :: rest with hafter
    have hends : EndsNumber after := by
      cases ms <;> exact endsNumber_of_mem (by decide) _
    have hrest : scanMembers fuel false after = (record ms, rest) :=
      scanMembers_text hg (fun w hw => ⟨hreads w hw, (hms w hw).skip_eq_none⟩) fuel rest
        (by simp only [List.length_append, List.length_cons, List.length_nil]; omega)
    have hmember := scanMember_text hg hread hm.skip_eq_none hends (by omega) hrest
    simp only [List.cons_append, List.append_assoc, List.nil_append, ← hafter]
    rw [scanValue, dropSpace_cons rfl]
    simp only [scanMembers, dropSpace_cons (c := '"') rfl, hmember]
    rfl

/-- **A tree reads back** from its text. -/
theorem scanValue_text (hg : Respelling g) {j : Json} (h : Exact j) : Reads g j := by
  induction h with
  | null => exact reads_null hg
  | bool b => exact reads_bool hg b
  | natural hn => exact reads_natural hg hn
  | negative h0 hn => exact reads_negative hg h0 hn
  | string s => exact reads_string hg s
  | list hexact ih => exact reads_list hg hexact ih
  | record hexact ih => exact reads_record hg hexact ih

/-- **A text is read as the tree that it was written for**, with nothing behind it. -/
theorem read_text (hg : Respelling g) {j : Json} (h : Exact j) :
    read (String.ofList (j.text g)) = ⟨j, true⟩ := by
  have hread := scanValue_text hg h (3 * (j.text g).length + 3) [] endsNumber_nil (by omega)
  rw [List.append_nil] at hread
  unfold read
  rw [String.toList_ofList]
  simp only [hread]
  rfl

theorem text_self (j : Json) : (j.text fun c => [c]) = j.chars := by
  simp [text]

theorem read_print {j : Json} (h : Exact j) : read j.print = ⟨j, true⟩ := by
  have hread := read_text respelling_self h
  rwa [text_self] at hread

/-- **Different trees are written differently.** -/
theorem print_injective {j j' : Json} (h : Exact j) (h' : Exact j') (heq : j.print = j'.print) :
    j = j' := by
  have hread := read_print h
  rw [heq, read_print h'] at hread
  exact congrArg Document.root hread.symm

end Json

end WikiOutline
