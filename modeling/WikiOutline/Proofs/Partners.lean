/-
# Enters and exits find each other

The moves between an enter and its exit look at the calls of one name only.  Forward and
backward they find the same: calls `i` and `j` are partners (`Partners`) if one enters and
the other exits an element of one name and the calls of that name in between are balanced.
So one move undoes the other, whatever the calls are.

Of balanced calls, bracketed calls of all names lie between the enter and the exit of an
element, hence also balanced calls of its name: the partners are the ends of the elements.
These are what the balance check pairs (`pairing`), and each enter and each exit is an end
of one element.

Key definitions: `between`, `Partners`, `pairing`, `CallSequence.standing`.
Key theorems: `matchOffset?_forward`, `matchOffset?_backward`,
`CallSequence.toClosing_iff`, `CallSequence.toOpening_iff`, `Bracketed.partners_iff`,
`exists_pairing`, `enters_and_exits_paired`.
-/
import WikiOutline.Proofs.BalanceCheck
import WikiOutline.Proofs.CursorSafety

namespace WikiOutline

/-- The calls of one name. -/
def named (name : String) (calls : List Call) : List Call := calls.filter (·.name == name)

/-- The calls between two places. -/
def between (calls : List Call) (i j : Nat) : List Call := (calls.take j).drop (i + 1)

/-- Call `i` enters an element of some name, call `j` exits one of that name, and the calls
of that name in between are balanced. -/
def Partners (calls : List Call) (i j : Nat) : Prop :=
  ∃ a b, calls[i]? = some a ∧ calls[j]? = some b ∧ a.state = .enter ∧ b.state = .exit ∧
    b.name = a.name ∧ i < j ∧ Balanced (named a.name (between calls i j))

/-- The balance check with the places of the calls that it pairs. -/
def pairingFrom (index : Nat) (opened : List (String × Nat)) :
    List Call → Except SequenceError (List (Nat × Nat))
  | [] =>
    match opened with
    | [] => .ok []
    | (name, i) :: _ => .error (.noClosingCall name i)
  | c :: cs =>
    match c.state with
    | .enter => pairingFrom (index + 1) ((c.name, index) :: opened) cs
    | .exit =>
      match opened with
      | [] => .error (.noOpeningCall c.name index)
      | (name, i) :: outer =>
        if name == c.name then (pairingFrom (index + 1) outer cs).map ((i, index) :: ·)
        else .error (.unbalanced index name c.name)
    | _ => pairingFrom (index + 1) opened cs

/-- The enters and the exits that the balance check pairs. -/
def pairing (calls : List Call) : Except SequenceError (List (Nat × Nat)) := pairingFrom 0 [] calls

/-- The sequence of some calls with the cursor on one of them. -/
def CallSequence.standing (calls : List Call) (i : Nat) : CallSequence := { calls, cursor := .at i }

variable {calls cs ds read : List Call} {c : Call} {i j k depth : Nat} {name : String}
  {opened : List (String × Nat)} {pairs : List (Nat × Nat)}

/-! ### Calls of one name -/

theorem named_cons_self (c : Call) (cs : List Call) :
    named c.name (c :: cs) = c :: named c.name cs := List.filter_cons_of_pos (beq_self_eq_true _)

theorem named_cons_ne (h : c.name ≠ name) : named name (c :: cs) = named name cs :=
  List.filter_cons_of_neg (by simpa using h)

theorem named_append (name : String) (cs ds : List Call) :
    named name (cs ++ ds) = named name cs ++ named name ds := List.filter_append _ _

/-- Of bracketed calls, those of one name are bracketed. -/
theorem Bracketed.named (h : Bracketed cs) (name : String) : Bracketed (named name cs) := by
  induction h with
  | nil => exact .nil
  | @leaf c cs hstate _ ih =>
    by_cases hname : c.name = name
    · subst hname
      rw [named_cons_self]
      exact .leaf hstate ih
    · rwa [named_cons_ne hname]
  | @element a b inner rest ha hb hab _ _ ihinner ihrest =>
    by_cases hname : a.name = name
    · subst hname
      rw [named_cons_self, named_append, ← hab, named_cons_self, hab]
      exact .element ha hb hab ihinner ihrest
    · rw [named_cons_ne hname, named_append, named_cons_ne (hab.trans_ne hname)]
      exact ihinner.append ihrest

/-! ### One step of a search -/

section

variable {nests closes : CallState} {wanted : Option String}

theorem matchOffset?_skip (h : c.counts wanted = true → c.state ≠ nests ∧ c.state ≠ closes) :
    matchOffset? nests closes wanted depth (c :: cs) =
      (matchOffset? nests closes wanted depth cs).map (· + 1) := by
  by_cases hc : c.counts wanted = true
  · simp [matchOffset?, hc, h hc]
  · simp [matchOffset?, hc]

theorem matchOffset?_nests (hc : c.counts wanted = true) (h : c.state = nests) :
    matchOffset? nests closes wanted depth (c :: cs) =
      (matchOffset? nests closes wanted (depth + 1) cs).map (· + 1) := by
  simp [matchOffset?, hc, h]

theorem matchOffset?_closes_zero (hne : nests ≠ closes) (hc : c.counts wanted = true)
    (h : c.state = closes) : matchOffset? nests closes wanted 0 (c :: cs) = some 0 := by
  simp [matchOffset?, hc, h, hne.symm]

theorem matchOffset?_closes_succ (hne : nests ≠ closes) (hc : c.counts wanted = true)
    (h : c.state = closes) : matchOffset? nests closes wanted (depth + 1) (c :: cs) =
      (matchOffset? nests closes wanted depth cs).map (· + 1) := by
  simp [matchOffset?, hc, h, hne.symm]

end

theorem map_succ_eq_succ {o : Option Nat} : o.map (· + 1) = some (k + 1) ↔ o = some k := by
  cases o <;> simp

/-! ### Searching forward and backward -/

/-- Forward, the search finds the first exit of the name before which all is exited that was
open and all that is entered on the way. -/
theorem matchOffset?_forward (name : String) : ∀ (cs : List Call) (depth k : Nat),
    matchOffset? .enter .exit (some name) depth cs = some k ↔
      (∃ c, cs[k]? = some c ∧ c.state = .exit ∧ c.name = name) ∧
        openBehind? (List.replicate depth name) (named name (cs.take k)) = some []
  | [], depth, k => by simp [matchOffset?]
  | c :: cs, depth, k => by
    have ih := matchOffset?_forward name cs
    by_cases hname : c.name = name
    · subst hname
      have hcounts : c.counts (some c.name) = true := beq_self_eq_true _
      cases hc : c.state with
      | enter =>
        rw [matchOffset?_nests hcounts hc]
        cases k with
        | zero => simp [hc]
        | succ k =>
          rw [map_succ_eq_succ, ih, List.take_succ_cons, named_cons_self, openBehind?_cons,
            Call.openBehind?_enter hc]
          rfl
      | exit =>
        cases depth with
        | zero =>
          rw [matchOffset?_closes_zero (by decide) hcounts hc]
          cases k with
          | zero => simp [hc, named, openBehind?]
          | succ k =>
            rw [List.take_succ_cons, named_cons_self, openBehind?_cons, List.replicate_zero,
              Call.openBehind?_exit_nil hc]
            simp
        | succ depth =>
          rw [matchOffset?_closes_succ (by decide) hcounts hc]
          cases k with
          | zero => simp [named, openBehind?]
          | succ k =>
            rw [map_succ_eq_succ, ih, List.take_succ_cons, named_cons_self, openBehind?_cons,
              List.replicate_succ, Call.openBehind?_exit hc, if_pos rfl]
            rfl
      | special | unmatched =>
        rw [matchOffset?_skip fun _ => by simp [hc]]
        cases k with
        | zero => simp [hc]
        | succ k =>
          rw [map_succ_eq_succ, ih, List.take_succ_cons, named_cons_self, openBehind?_cons,
            Call.openBehind?_leaf (by simp [hc])]
          rfl
    · rw [matchOffset?_skip fun h => absurd (beq_iff_eq.mp h) hname]
      cases k with
      | zero => simp [hname]
      | succ k =>
        rw [map_succ_eq_succ, ih, List.take_succ_cons, named_cons_ne hname]
        rfl

theorem bind_exit_eq_some (hc : c.state = .exit) {inner? : Option (List String)}
    {outer : List String} :
    inner?.bind c.openBehind? = some outer ↔ inner? = some (c.name :: outer) := by
  rcases inner? with - | (- | ⟨name, inner⟩)
  · simp
  · simp [Call.openBehind?_exit_nil hc]
  · simp [Call.openBehind?_exit hc]

theorem bind_enter_eq_some (hc : c.state = .enter) {inner? : Option (List String)}
    {outer : List String} :
    inner?.bind c.openBehind? = some outer ↔ ∃ inner, inner? = some inner ∧ c.name :: inner = outer := by
  cases inner? <;> simp [Call.openBehind?_enter hc]

theorem openBehind?_concat (outer : List String) (cs : List Call) (c : Call) :
    openBehind? outer (cs ++ [c]) = (openBehind? outer cs).bind c.openBehind? := by
  rw [openBehind?_append]
  congr 1
  funext inner
  rw [openBehind?_cons]
  exact Option.bind_fun_some _

/-- Backward, the search finds the last enter of the name behind which, read forward, all
is exited that is entered but for the elements that are to be exited later. -/
theorem matchOffset?_backward (name : String) : ∀ (cs : List Call) (depth k : Nat),
    matchOffset? .exit .enter (some name) depth cs = some k ↔
      (∃ c, cs[k]? = some c ∧ c.state = .enter ∧ c.name = name) ∧
        openBehind? [] (named name (cs.take k).reverse) = some (List.replicate depth name)
  | [], depth, k => by simp [matchOffset?]
  | c :: cs, depth, k => by
    have ih := matchOffset?_backward name cs
    by_cases hname : c.name = name
    · subst hname
      have hcounts : c.counts (some c.name) = true := beq_self_eq_true _
      -- the call is read behind those that the search comes to later
      have hread : ∀ k, openBehind? [] (named c.name ((c :: cs).take (k + 1)).reverse) =
          (openBehind? [] (named c.name (cs.take k).reverse)).bind c.openBehind? := by
        intro k
        rw [List.take_succ_cons, List.reverse_cons, named_append, named_cons_self]
        exact openBehind?_concat _ _ c
      cases hc : c.state with
      | exit =>
        rw [matchOffset?_nests hcounts hc]
        cases k with
        | zero => simp [hc]
        | succ k =>
          rw [map_succ_eq_succ, ih, hread, bind_exit_eq_some hc]
          rfl
      | enter =>
        cases depth with
        | zero =>
          rw [matchOffset?_closes_zero (by decide) hcounts hc]
          cases k with
          | zero => simp [hc, named, openBehind?]
          | succ k =>
            rw [hread, bind_enter_eq_some hc]
            simp
        | succ depth =>
          rw [matchOffset?_closes_succ (by decide) hcounts hc]
          cases k with
          | zero => simp [named, openBehind?]
          | succ k =>
            rw [map_succ_eq_succ, ih, hread, bind_enter_eq_some hc]
            simp [List.replicate_succ]
      | special | unmatched =>
        rw [matchOffset?_skip fun _ => by simp [hc]]
        cases k with
        | zero => simp [hc]
        | succ k =>
          have hleaf : c.openBehind? = some :=
            funext fun outer => Call.openBehind?_leaf (by simp [hc]) outer
          rw [map_succ_eq_succ, ih, hread, hleaf, Option.bind_fun_some]
          rfl
    · rw [matchOffset?_skip fun h => absurd (beq_iff_eq.mp h) hname]
      cases k with
      | zero => simp [hname]
      | succ k =>
        rw [map_succ_eq_succ, ih, List.take_succ_cons, List.reverse_cons, named_append,
          named_cons_ne hname]
        simp [named]

/-! ### Searching from a place -/

/-- The calls behind a place, up to another one. -/
theorem take_drop_eq_between (calls : List Call) (i k : Nat) :
    (calls.drop (i + 1)).take k = between calls i (i + 1 + k) := by
  rw [between, List.take_drop]

/-- The calls before a place, back to another one. -/
theorem take_reverse_eq_between {calls : List Call} {j : Nat} (hj : j ≤ calls.length)
    (hij : i < j) :
    ((calls.take j).reverse.take (j - 1 - i)).reverse = between calls i j := by
  rw [List.take_reverse, List.reverse_reverse, List.length_take, Nat.min_eq_left hj, between,
    show j - (j - 1 - i) = i + 1 by omega]

theorem closingIndex?_iff : closingIndex? calls i (some name) = some j ↔
    i < j ∧ (∃ b, calls[j]? = some b ∧ b.state = .exit ∧ b.name = name) ∧
      Balanced (named name (between calls i j)) := by
  unfold closingIndex?
  rw [Option.map_eq_some_iff]
  constructor
  · rintro ⟨k, hk, rfl⟩
    rw [matchOffset?_forward, List.getElem?_drop, take_drop_eq_between] at hk
    exact ⟨by omega, hk.1, hk.2⟩
  · rintro ⟨hij, hexit, hbetween⟩
    obtain ⟨k, rfl⟩ : ∃ k, j = i + 1 + k := ⟨j - (i + 1), by omega⟩
    refine ⟨k, ?_, rfl⟩
    rw [matchOffset?_forward, List.getElem?_drop, take_drop_eq_between]
    exact ⟨hexit, hbetween⟩

theorem openingIndex?_iff (hj : j ≤ calls.length) :
    openingIndex? calls j (some name) = some i ↔
      i < j ∧ (∃ a, calls[i]? = some a ∧ a.state = .enter ∧ a.name = name) ∧
        Balanced (named name (between calls i j)) := by
  have hget : ∀ {k}, k < j → (calls.take j).reverse[k]? = calls[j - 1 - k]? := by
    intro k hk
    have hlen : (calls.take j).length = j := by rw [List.length_take, Nat.min_eq_left hj]
    rw [List.getElem?_reverse (by omega), hlen, List.getElem?_take_of_lt (by omega)]
  unfold openingIndex?
  rw [Option.map_eq_some_iff]
  constructor
  · rintro ⟨k, hk, rfl⟩
    have hlt : k < j := by
      have := matchOffset?_lt _ _ _ _ _ _ hk
      rw [List.length_reverse, List.length_take] at this
      omega
    rw [matchOffset?_backward, hget hlt] at hk
    refine ⟨by omega, hk.1, ?_⟩
    rw [← take_reverse_eq_between hj (by omega), show j - 1 - (j - 1 - k) = k by omega]
    exact hk.2
  · rintro ⟨hij, henter, hbetween⟩
    refine ⟨j - 1 - i, ?_, by omega⟩
    rw [matchOffset?_backward, hget (by omega), show j - 1 - (j - 1 - i) = i by omega,
      take_reverse_eq_between hj hij]
    exact ⟨henter, hbetween⟩

/-! ### The moves -/

namespace CallSequence

theorem calls_standing (calls : List Call) (i : Nat) : (standing calls i).calls = calls := rfl

theorem moveTo_standing (calls : List Call) (i : Nat) :
    (standing calls i).moveTo = standing calls := rfl

theorem current?_standing (calls : List Call) (i : Nat) :
    (standing calls i).current? = calls[i]? := rfl

theorem index?_standing (h : i < calls.length) : (standing calls i).index? = some i := if_pos h

theorem standing_inj : standing calls i = standing calls j ↔ i = j := by simp [standing]

/-- From an enter the cursor goes where the search forward ends. -/
theorem toClosing_eq_ok : (standing calls i).toClosing = .ok (standing calls j) ↔
    ∃ a, calls[i]? = some a ∧ a.state = .enter ∧
      closingIndex? calls i (some a.name) = some j := by
  unfold toClosing
  rw [current?_standing]
  cases ha : calls[i]? with
  | none => simp
  | some a =>
    have hi : i < calls.length := (List.getElem?_eq_some_iff.mp ha).1
    simp only [index?_standing hi]
    by_cases henter : a.state = .enter
    · rw [calls_standing, moveTo_standing]
      cases hk : closingIndex? calls i (some a.name) with
      | none => simp [Call.isEnter, henter, hk]
      | some k => simp [Call.isEnter, henter, hk, standing_inj]
    · simp [Call.isEnter, henter]

/-- From an exit the cursor goes where the search backward ends. -/
theorem toOpening_eq_ok : (standing calls j).toOpening = .ok (standing calls i) ↔
    ∃ b, calls[j]? = some b ∧ b.state = .exit ∧
      openingIndex? calls j (some b.name) = some i := by
  have hindex : (standing calls j).exitIndex? = some j := rfl
  simp only [toOpening_eq, hindex, calls_standing, moveTo_standing]
  cases hb : calls[j]? with
  | none => simp
  | some b =>
    by_cases hexit : b.state = .exit
    · cases hk : openingIndex? calls j (some b.name) with
      | none => simp [Call.isExit, hexit, hk]
      | some k => simp [Call.isExit, hexit, hk, standing_inj]
    · simp [Call.isExit, hexit]

/-- **From an enter** the cursor goes to its partner. -/
theorem toClosing_iff : (standing calls i).toClosing = .ok (standing calls j) ↔
    Partners calls i j := by
  rw [toClosing_eq_ok]
  constructor
  · rintro ⟨a, ha, henter, hj⟩
    obtain ⟨hij, ⟨b, hb, hexit, hname⟩, hbetween⟩ := closingIndex?_iff.mp hj
    exact ⟨a, b, ha, hb, henter, hexit, hname, hij, hbetween⟩
  · rintro ⟨a, b, ha, hb, henter, hexit, hname, hij, hbetween⟩
    exact ⟨a, ha, henter, closingIndex?_iff.mpr ⟨hij, ⟨b, hb, hexit, hname⟩, hbetween⟩⟩

/-- **From an exit** the cursor goes to its partner. -/
theorem toOpening_iff : (standing calls j).toOpening = .ok (standing calls i) ↔
    Partners calls i j := by
  rw [toOpening_eq_ok]
  constructor
  · rintro ⟨b, hb, hexit, hi⟩
    have hj : j < calls.length := (List.getElem?_eq_some_iff.mp hb).1
    obtain ⟨hij, ⟨a, ha, henter, hname⟩, hbetween⟩ := (openingIndex?_iff hj.le).mp hi
    exact ⟨a, b, ha, hb, henter, hexit, hname.symm, hij, hname ▸ hbetween⟩
  · rintro ⟨a, b, ha, hb, henter, hexit, hname, hij, hbetween⟩
    have hj : j < calls.length := (List.getElem?_eq_some_iff.mp hb).1
    refine ⟨b, hb, hexit, (openingIndex?_iff hj.le).mpr ?_⟩
    exact ⟨hij, ⟨a, ha, henter, hname.symm⟩, hname ▸ hbetween⟩

end CallSequence

/-! ### Partners of bracketed calls -/

open CallSequence

/-- What is between the ends of an element is bracketed. -/
theorem IsElement.between (h : IsElement calls i j) : Bracketed (between calls i j) := by
  obtain ⟨before, a, inner, b, behind, rfl, rfl, rfl, -, -, -, hinner⟩ := h
  have hbetween : WikiOutline.between (before ++ a :: (inner ++ b :: behind)) before.length
      (before.length + 1 + inner.length) = inner := by
    rw [← take_drop_eq_between, ← List.drop_drop, List.drop_left]
    simp
  rwa [hbetween]

/-- The ends of an element are partners. -/
theorem IsElement.partners (h : IsElement calls i j) : Partners calls i j := by
  obtain ⟨a, b, ha, hb, henter, hexit, hname⟩ := h.ends
  exact ⟨a, b, ha, hb, henter, hexit, hname, h.lt.1, (h.between.named a.name).balanced⟩

theorem Partners.exit_unique (hj : Partners calls i j) (hk : Partners calls i k) : j = k := by
  rw [← toClosing_iff] at hj hk
  exact standing_inj.mp (Except.ok.inj (hj.symm.trans hk))

theorem Partners.enter_unique (hi : Partners calls i k) (hj : Partners calls j k) : i = j := by
  rw [← toOpening_iff] at hi hj
  exact standing_inj.mp (Except.ok.inj (hi.symm.trans hj))

/-- Of bracketed calls the partners are the ends of the elements. -/
theorem Bracketed.partners_iff (h : Bracketed calls) : Partners calls i j ↔ IsElement calls i j := by
  refine ⟨fun hij => ?_, IsElement.partners⟩
  obtain ⟨a, b, ha, -, henter, -⟩ := id hij
  obtain ⟨k, hk⟩ := h.exists_exit ha henter
  obtain rfl := hij.exit_unique hk.partners
  exact hk

/-! ### What the check pairs -/

/-- The check with the pairs says what the check says. -/
theorem pairingFrom_checks : ∀ (cs : List Call) (index : Nat) (opened : List (String × Nat)),
    (pairingFrom index opened cs).map (fun _ => ()) = checkBalanceFrom index opened cs
  | [], index, opened => by
    cases opened <;> rfl
  | c :: cs, index, opened => by
    have ih := pairingFrom_checks cs
    unfold pairingFrom checkBalanceFrom
    cases hc : c.state with
    | enter => exact ih _ _
    | exit =>
      cases opened with
      | nil => rfl
      | cons e outer =>
        obtain ⟨name, i⟩ := e
        by_cases hname : name = c.name
        · simp only [hname, beq_self_eq_true, ↓reduceIte, ← ih]
          cases pairingFrom (index + 1) outer cs <;> rfl
        · simp only [beq_iff_eq, if_neg hname]
          rfl
    | special => exact ih _ _
    | unmatched => exact ih _ _

/-- The pairs that are still to come are the elements that end behind the calls read. -/
theorem mem_pairingFrom_iff : ∀ {cs read : List Call} {opened : List (String × Nat)}
    {pairs : List (Nat × Nat)}, OpenStack opened read →
    pairingFrom read.length opened cs = .ok pairs →
      ((i, j) ∈ pairs ↔ read.length ≤ j ∧ IsElement (read ++ cs) i j)
  | [], read, opened, pairs, hstack, hpairs => by
    cases opened with
    | cons e outer => cases hpairs
    | nil =>
      cases hpairs
      rw [List.append_nil]
      refine ⟨fun h => (by cases h), fun ⟨hj, hij⟩ => ?_⟩
      have := hij.lt
      omega
  | c :: cs, read, opened, pairs, hstack, hpairs => by
    have hlen : (read ++ [c]).length = read.length + 1 := List.length_append
    have hcalls : read ++ [c] ++ cs = read ++ c :: cs := List.append_assoc _ _ _
    -- an element does not end with a call that is no exit
    have hlater : ∀ {opened'}, c.state ≠ .exit → OpenStack opened' (read ++ [c]) →
        pairingFrom (read.length + 1) opened' cs = .ok pairs →
        ((i, j) ∈ pairs ↔ read.length ≤ j ∧ IsElement (read ++ c :: cs) i j) := by
      intro opened' hc hstack' hpairs'
      rw [← hlen] at hpairs'
      rw [mem_pairingFrom_iff hstack' hpairs', hlen, hcalls]
      refine ⟨fun ⟨hj, hij⟩ => ⟨by omega, hij⟩, fun ⟨hj, hij⟩ => ⟨?_, hij⟩⟩
      rcases Nat.eq_or_lt_of_le hj with rfl | hlt
      · obtain ⟨-, b, -, hb, -, hexit, -⟩ := hij.ends
        obtain rfl : c = b := by simpa using hb
        exact absurd hexit hc
      · exact hlt
    unfold pairingFrom at hpairs
    cases hc : c.state with
    | enter =>
      rw [hc] at hpairs
      exact hlater (by simp [hc]) (hstack.enter hc) hpairs
    | special =>
      rw [hc] at hpairs
      exact hlater (by simp [hc]) (hstack.leaf (.inl hc)) hpairs
    | unmatched =>
      rw [hc] at hpairs
      exact hlater (by simp [hc]) (hstack.leaf (.inr hc)) hpairs
    | exit =>
      rw [hc] at hpairs
      cases opened with
      | nil => cases hpairs
      | cons e outer =>
        obtain ⟨name, h⟩ := e
        by_cases hname : name = c.name
        · subst hname
          simp only [beq_self_eq_true, ↓reduceIte] at hpairs
          cases hrest : pairingFrom (read.length + 1) outer cs with
          | error e =>
            rw [hrest] at hpairs
            cases hpairs
          | ok later =>
            rw [hrest] at hpairs
            obtain rfl := Except.ok.inj hpairs
            have hself : IsElement (read ++ c :: cs) h read.length := by
              obtain ⟨before, a, inner, rfl, rfl, ha, hab, hinner, -⟩ := hstack
              refine ⟨before, a, inner, c, cs, by simp, rfl, ?_, ha, hc, hab.symm, hinner⟩
              simp only [List.length_append, List.length_cons]
              omega
            rw [← hlen] at hrest
            rw [List.mem_cons, mem_pairingFrom_iff (hstack.exit hc) hrest, hlen, hcalls]
            constructor
            · rintro (heq | ⟨hj, hij⟩)
              · obtain ⟨rfl, rfl⟩ := Prod.mk.inj heq
                exact ⟨le_rfl, hself⟩
              · exact ⟨by omega, hij⟩
            · rintro ⟨hj, hij⟩
              rcases Nat.eq_or_lt_of_le hj with rfl | hlt
              · obtain rfl := hij.partners.enter_unique hself.partners
                exact .inl rfl
              · exact .inr ⟨hlt, hij⟩
        · simp only [beq_iff_eq, if_neg hname] at hpairs
          cases hpairs

/-- Calls that are accepted are paired, and the pairs are the elements. -/
theorem exists_pairing (h : checkBalance calls = .ok ()) :
    ∃ pairs, pairing calls = .ok pairs ∧ ∀ i j, (i, j) ∈ pairs ↔ IsElement calls i j := by
  have hchecks := pairingFrom_checks calls 0 []
  cases hpairs : pairingFrom 0 [] calls with
  | error e =>
    rw [hpairs, show checkBalanceFrom 0 [] calls = .ok () from h] at hchecks
    cases hchecks
  | ok pairs =>
    refine ⟨pairs, hpairs, fun i j => ?_⟩
    have hmem := mem_pairingFrom_iff (i := i) (j := j) (show OpenStack [] [] from .nil) hpairs
    simpa using hmem

/-- **Enters and exits are paired.** From an enter the cursor goes to an exit just when it
comes back from there, to a later call of the same name, whatever the calls are.  Of
balanced calls every enter and every exit has such a partner; it is the one that the
balance check pairs it with, and the calls in between are balanced. -/
theorem enters_and_exits_paired (calls : List Call) :
    (∀ i j, (standing calls i).toClosing = .ok (standing calls j) ↔
      (standing calls j).toOpening = .ok (standing calls i)) ∧
    (∀ i j, (standing calls i).toClosing = .ok (standing calls j) →
      i < j ∧ ∃ a b, calls[i]? = some a ∧ calls[j]? = some b ∧ a.isEnter = true ∧
        b.isExit = true ∧ a.name = b.name) ∧
    (pairing calls).map (fun _ => ()) = checkBalance calls ∧
    (checkBalance calls = .ok () → ∃ pairs, pairing calls = .ok pairs ∧
      (∀ i j, (i, j) ∈ pairs ↔ (standing calls i).toClosing = .ok (standing calls j)) ∧
      (∀ i a, calls[i]? = some a → a.isEnter = true → ∃ j, (i, j) ∈ pairs) ∧
      (∀ j b, calls[j]? = some b → b.isExit = true → ∃ i, (i, j) ∈ pairs) ∧
      ∀ i j, (i, j) ∈ pairs → checkBalance (between calls i j) = .ok ()) := by
  refine ⟨fun i j => toClosing_iff.trans toOpening_iff.symm, fun i j hij => ?_,
    pairingFrom_checks calls 0 [], fun hbalance => ?_⟩
  · obtain ⟨a, b, ha, hb, henter, hexit, hname, hlt, -⟩ := toClosing_iff.mp hij
    exact ⟨hlt, a, b, ha, hb, by simp [Call.isEnter, henter], by simp [Call.isExit, hexit],
      hname.symm⟩
  · have hcalls := (checkBalance_balanceLaw calls).accepted.mp hbalance
    obtain ⟨pairs, hpairs, hmem⟩ := exists_pairing hbalance
    refine ⟨pairs, hpairs, fun i j => ?_, fun i a ha henter => ?_, fun j b hb hexit => ?_,
      fun i j hij => ?_⟩
    · rw [hmem, toClosing_iff, hcalls.partners_iff]
    · obtain ⟨j, hj⟩ := hcalls.exists_exit ha (by simpa [Call.isEnter] using henter)
      exact ⟨j, (hmem i j).mpr hj⟩
    · obtain ⟨i, hi⟩ := hcalls.exists_enter hb (by simpa [Call.isExit] using hexit)
      exact ⟨i, (hmem i j).mpr hi⟩
    · rw [checkBalance_eq_ok]
      exact ((hmem i j).mp hij).between.balanced

/-- An element with another one of its name in it, though of another kind. -/
def headingInHeading : List Call :=
  [Call.enter (.heading .atx), Call.enter (.other "heading"), Call.text "News",
    Call.exit (.heading .wiki), Call.exit (.heading .atx)]

theorem enters_and_exits_paired_nested :
    checkBalance headingInHeading = .ok () ∧
      ∃ pairs, pairing headingInHeading = .ok pairs ∧
        (∀ i j, (i, j) ∈ pairs ↔
          (standing headingInHeading i).toClosing = .ok (standing headingInHeading j)) ∧
        (∃ j, (0, j) ∈ pairs) ∧ (∃ i, (i, 3) ∈ pairs) ∧
        ∀ i j, (i, j) ∈ pairs → checkBalance (between headingInHeading i j) = .ok () := by
  have h : checkBalance headingInHeading = .ok () := rfl
  obtain ⟨-, -, -, hbalanced⟩ := enters_and_exits_paired headingInHeading
  obtain ⟨pairs, hpairs, hmoves, henter, hexit, hbetween⟩ := hbalanced h
  exact ⟨h, pairs, hpairs, hmoves, henter 0 _ rfl rfl, hexit 3 _ rfl rfl, hbetween⟩

end WikiOutline
