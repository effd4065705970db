/-
# Balanced calls

Calls are balanced when every exit closes the innermost element that is open, and no
element stays open behind them.  What is open can be followed call by call, so balanced
calls can be put one behind the other, wrapped in an element, or inserted between calls
that are balanced together; and where as many elements are closed as entered, a page
that is balanced can be cut.

Key definitions: `Call.openBehind?`, `openBehind?`, `Balanced`.
Key theorems: `checkBalance_eq_ok`, `Balanced.insert`, `Balanced.take`.
-/
import WikiOutline.CallSequence
import WikiOutline.Proofs.Shape

namespace WikiOutline

/-- The elements open behind a call, the innermost first; none where it exits an element
that is not the innermost one. -/
def Call.openBehind? (outer : List String) (c : Call) : Option (List String) :=
  match c.state with
  | .enter => some (c.name :: outer)
  | .exit =>
    match outer with
    | [] => none
    | name :: outer => if name == c.name then some outer else none
  | _ => some outer

/-- The elements open behind some calls. -/
def openBehind? (outer : List String) (cs : List Call) : Option (List String) :=
  cs.foldlM Call.openBehind? outer

/-- Behind the calls all is closed that they enter. -/
def Balanced (cs : List Call) : Prop := openBehind? [] cs = some []

/-! ### What is open -/

theorem Call.openBehind?_enter {c : Call} (h : c.state = .enter) (outer : List String) :
    c.openBehind? outer = some (c.name :: outer) := by simp [Call.openBehind?, h]

/-- Where nothing is open, nothing can be exited. -/
theorem Call.openBehind?_exit_nil {c : Call} (h : c.state = .exit) : c.openBehind? [] = none := by
  simp [Call.openBehind?, h]

theorem Call.openBehind?_exit {c : Call} (h : c.state = .exit) (name : String)
    (outer : List String) :
    c.openBehind? (name :: outer) = if name = c.name then some outer else none := by
  simp [Call.openBehind?, h]

/-- Text and elements without content leave open what was open. -/
theorem Call.openBehind?_leaf {c : Call} (h : c.state = .special ∨ c.state = .unmatched)
    (outer : List String) : c.openBehind? outer = some outer := by
  rcases h with h | h <;> simp [Call.openBehind?, h]

theorem openBehind?_cons (outer : List String) (c : Call) (cs : List Call) :
    openBehind? outer (c :: cs) = (c.openBehind? outer).bind fun inner => openBehind? inner cs :=
  rfl

theorem openBehind?_append (outer : List String) (cs ds : List Call) :
    openBehind? outer (cs ++ ds) =
      (openBehind? outer cs).bind fun inner => openBehind? inner ds :=
  List.foldlM_append

/-- What is open further out does not matter. -/
theorem Call.openBehind?_frame {c : Call} {outer inner : List String}
    (h : c.openBehind? outer = some inner) (more : List String) :
    c.openBehind? (outer ++ more) = some (inner ++ more) := by
  unfold Call.openBehind? at h ⊢
  split at h
  · obtain rfl := Option.some.inj h
    rfl
  · cases outer with
    | nil => cases h
    | cons name outer =>
      simp only [List.cons_append] at h ⊢
      split at h
      · rename_i hname
        rw [if_pos hname, Option.some.inj h]
      · cases h
  · rw [Option.some.inj h]

theorem openBehind?_frame {cs : List Call} : ∀ {outer inner : List String},
    openBehind? outer cs = some inner →
    ∀ more, openBehind? (outer ++ more) cs = some (inner ++ more) := by
  induction cs with
  | nil =>
    intro outer inner h more
    rw [Option.some.inj (show some outer = some inner from h)]
    rfl
  | cons c cs ih =>
    intro outer inner h more
    rw [openBehind?_cons] at h ⊢
    obtain ⟨next, hc, hcs⟩ := Option.bind_eq_some_iff.mp h
    rw [Call.openBehind?_frame hc more]
    exact ih hcs more

/-- The elements are followed by name and state alone. -/
theorem openBehind?_congr {cs ds : List Call}
    (h : cs.map (fun c => (c.name, c.state)) = ds.map fun c => (c.name, c.state)) :
    ∀ outer, openBehind? outer cs = openBehind? outer ds := by
  induction cs generalizing ds with
  | nil =>
    intro outer
    rw [List.map_eq_nil_iff.mp h.symm]
  | cons c cs ih =>
    intro outer
    obtain ⟨d, ds, rfl, hd, hds⟩ := List.map_eq_cons_iff.mp h.symm
    obtain ⟨hname, hstate⟩ := Prod.mk.inj hd
    have hstep : c.openBehind? outer = d.openBehind? outer := by
      unfold Call.openBehind?
      rw [hname, hstate]
    rw [openBehind?_cons, openBehind?_cons, hstep]
    congr 1
    exact funext fun inner => ih hds.symm inner

/-- As many elements are open as are entered and not exited. -/
theorem openBehind?_length {cs : List Call} : ∀ {outer inner : List String},
    openBehind? outer cs = some inner →
    inner.length + cs.countP Call.isExit = outer.length + cs.countP Call.isEnter := by
  induction cs with
  | nil =>
    intro outer inner h
    rw [Option.some.inj (show some outer = some inner from h)]
    rfl
  | cons c cs ih =>
    intro outer inner h
    rw [openBehind?_cons] at h
    obtain ⟨next, hc, hcs⟩ := Option.bind_eq_some_iff.mp h
    have hrest := ih hcs
    rw [List.countP_cons, List.countP_cons]
    unfold Call.openBehind? at hc
    unfold Call.isExit Call.isEnter at *
    cases hs : c.state with
    | enter =>
      rw [hs] at hc
      obtain rfl := Option.some.inj hc
      simp only [List.length_cons] at hrest
      simp
      omega
    | exit =>
      rw [hs] at hc
      cases outer with
      | nil => cases hc
      | cons name outer =>
        simp only at hc
        split at hc
        · obtain rfl := Option.some.inj hc
          simp
          omega
        · cases hc
    | special =>
      rw [hs] at hc
      obtain rfl := Option.some.inj hc
      simpa using hrest
    | unmatched =>
      rw [hs] at hc
      obtain rfl := Option.some.inj hc
      simpa using hrest

/-! ### Balanced calls -/

/-- Calls are accepted just when they are balanced. -/
theorem checkBalanceFrom_eq_ok {cs : List Call} : ∀ (index : Nat) (opened : List (String × Nat)),
    checkBalanceFrom index opened cs = .ok () ↔ openBehind? (opened.map Prod.fst) cs = some [] := by
  induction cs with
  | nil =>
    intro index opened
    cases opened with
    | nil => exact ⟨fun _ => rfl, fun _ => rfl⟩
    | cons e opened => exact ⟨fun h => (by cases h), fun h => (by cases h)⟩
  | cons c cs ih =>
    intro index opened
    rw [openBehind?_cons]
    unfold checkBalanceFrom Call.openBehind?
    cases c.state with
    | enter => exact ih (index + 1) ((c.name, index) :: opened)
    | exit =>
      cases opened with
      | nil => exact ⟨fun h => (by cases h), fun h => (by cases h)⟩
      | cons e opened =>
        by_cases hname : (e.1 == c.name) = true
        · simp only [List.map_cons, if_pos hname]
          exact ih (index + 1) opened
        · simp only [List.map_cons, if_neg hname]
          exact ⟨fun h => (by cases h), fun h => (by cases h)⟩
    | special => exact ih (index + 1) opened
    | unmatched => exact ih (index + 1) opened

theorem checkBalance_eq_ok (cs : List Call) : checkBalance cs = .ok () ↔ Balanced cs :=
  checkBalanceFrom_eq_ok 0 []

theorem Balanced.nil : Balanced [] := rfl

/-- Balanced calls leave open what was open. -/
theorem Balanced.openBehind? {cs : List Call} (h : Balanced cs) (outer : List String) :
    openBehind? outer cs = some outer :=
  openBehind?_frame h outer

theorem Balanced.append {cs ds : List Call} (hc : Balanced cs) (hd : Balanced ds) :
    Balanced (cs ++ ds) := by
  unfold Balanced
  rw [openBehind?_append, hc]
  exact hd

theorem Balanced.flatMap {α : Type} {l : List α} {f : α → List Call}
    (h : ∀ a ∈ l, Balanced (f a)) : Balanced (l.flatMap f) := by
  induction l with
  | nil => exact .nil
  | cons a l ih =>
    exact (h a List.mem_cons_self).append (ih fun b hb => h b (List.mem_cons_of_mem a hb))

/-- Balanced calls can be inserted anywhere. -/
theorem Balanced.insert {cs ds es : List Call} (h : Balanced (cs ++ ds)) (he : Balanced es) :
    Balanced (cs ++ (es ++ ds)) := by
  unfold Balanced at h ⊢
  rw [openBehind?_append] at h ⊢
  obtain ⟨inner, hc, hd⟩ := Option.bind_eq_some_iff.mp h
  rw [hc, Option.bind_some, openBehind?_append, he.openBehind? inner]
  exact hd

/-- Balanced calls can be wrapped in an element. -/
theorem Balanced.wrap {cs : List Call} (h : Balanced cs) (tag : Tag) :
    Balanced (Call.enter tag :: cs ++ [Call.exit tag]) := by
  have henter : (Call.enter tag).openBehind? [] = some [tag.name] := rfl
  have hexit : WikiOutline.openBehind? [tag.name] [Call.exit tag] = some [] := by
    simp [WikiOutline.openBehind?, Call.openBehind?, Call.exit, Call.name]
  unfold Balanced
  rw [List.cons_append, openBehind?_cons, henter, Option.bind_some, openBehind?_append,
    h.openBehind?]
  exact hexit

theorem Balanced.of_special {c : Option Call} (h : ∀ d, c = some d → d.state = .special) :
    Balanced c.toList := by
  cases c with
  | none => exact .nil
  | some d =>
    have hstep : d.openBehind? [] = some [] := by
      unfold Call.openBehind?
      rw [h d rfl]
    exact (openBehind?_cons [] d []).trans (by rw [hstep]; rfl)

theorem Balanced.congr {cs ds : List Call} (h : Balanced ds)
    (hm : cs.map (fun c => (c.name, c.state)) = ds.map fun c => (c.name, c.state)) :
    Balanced cs :=
  (openBehind?_congr hm []).trans h

/-- What follows balanced calls in a balanced page is balanced. -/
theorem Balanced.of_append {cs ds : List Call} (h : Balanced (cs ++ ds)) (hc : Balanced cs) :
    Balanced ds := by
  unfold Balanced at h
  rw [openBehind?_append, hc] at h
  exact h

/-- Where as many elements are exited as entered, a balanced page can be cut. -/
theorem Balanced.take {cs ds : List Call} (h : Balanced (cs ++ ds))
    (hc : cs.countP Call.isEnter = cs.countP Call.isExit) : Balanced cs := by
  unfold Balanced at h
  rw [openBehind?_append] at h
  obtain ⟨inner, hinner, -⟩ := Option.bind_eq_some_iff.mp h
  have hlength := openBehind?_length hinner
  have hnil : inner = [] := List.length_eq_zero_iff.mp (by simpa [hc] using hlength)
  exact hinner.trans (by rw [hnil])

theorem nesting_ignores : IgnoresAttributes fun c => (c.name, c.state) := fun _ _ _ => rfl

end WikiOutline
