/-
# Decoding what was made

Decoders meet trees that were made for the values they read.  A decoder goes one level
deeper for every array and every object that is open, so it needs no more depth than the
tree nests.  The fields of a record are read in the order they were written, each of them
once.

Key definitions: `Json.nesting`.
Key theorems: `Json.nesting_lt_of_mem_record`, `Json.deeper_of_lt`, `Json.foldFields_cons`,
`Json.decodeArray_list`.
-/
import Mathlib
import WikiOutline.Call.Json
import WikiOutline.Proofs.JsonText

namespace WikiOutline

namespace Json

/-! ### Nesting -/

mutual

/-- How many arrays and objects lie inside one another at most. -/
def nesting : Json → Nat
  | .array items _ => nestingOfItems items + 1
  | .object members _ => nestingOfMembers members + 1
  | _ => 0

/-- The deepest nesting among items. -/
def nestingOfItems : List Json → Nat
  | [] => 0
  | v :: vs => max (nesting v) (nestingOfItems vs)

/-- The deepest nesting among members. -/
def nestingOfMembers : List (Name × Json) → Nat
  | [] => 0
  | m :: ms => max (nesting m.2) (nestingOfMembers ms)

end

@[simp] theorem nesting_string (s : String) : nesting (.string s) = 0 := rfl

@[simp] theorem nesting_list (items : List Json) :
    nesting (list items) = nestingOfItems items + 1 := rfl

@[simp] theorem nesting_record_one (name : String) (v : Json) :
    nesting (record [(name, v)]) = nesting v + 1 := by
  simp [record, nesting, nestingOfMembers]

theorem nesting_le_nestingOfItems {v : Json} : ∀ {items : List Json}, v ∈ items →
    nesting v ≤ nestingOfItems items
  | w :: ws, h => by
    rw [nestingOfItems]
    rcases List.mem_cons.mp h with rfl | h
    · exact le_max_left _ _
    · exact (nesting_le_nestingOfItems h).trans (le_max_right _ _)

theorem nesting_le_nestingOfMembers {m : Name × Json} : ∀ {members : List (Name × Json)},
    m ∈ members → nesting m.2 ≤ nestingOfMembers members
  | n :: ns, h => by
    rw [nestingOfMembers]
    rcases List.mem_cons.mp h with rfl | h
    · exact le_max_left _ _
    · exact (nesting_le_nestingOfMembers h).trans (le_max_right _ _)

/-- A member of a record nests less deep than the record. -/
theorem nesting_lt_of_mem_record {name : String} {v : Json} {members : List (String × Json)}
    (h : (name, v) ∈ members) : nesting v < nesting (record members) := by
  have hmem : (Name.known name, v) ∈ members.map fun m => (Name.known m.1, m.2) :=
    List.mem_map.mpr ⟨(name, v), h, rfl⟩
  exact Nat.lt_succ_of_le (nesting_le_nestingOfMembers hmem)

/-! ### Decoding -/

section
variable {α : Type}

theorem exact_option {f : α → Json} {o : Option α}
    (h : ∀ a ∈ o, (f a).Exact) : (option f o).Exact := by
  cases o with
  | none => exact .null
  | some a => exact h a rfl

@[simp] theorem asString_string (depth : Nat) (s : String) : asString depth (.string s) = .ok s :=
  rfl

@[simp] theorem asNat_ofNat (depth n : Nat) : asNat depth (ofNat n) = .ok n := rfl

theorem deeper_of_lt {depth : Nat} (h : 1 < depth) (f : Nat → Except Problem α) :
    deeper depth f = f (depth - 1) := by
  obtain ⟨d, rfl⟩ : ∃ d, depth = d + 2 := ⟨depth - 2, by omega⟩
  rfl

theorem asOption_string (depth : Nat) (o : Option String) :
    asOption asString depth (option Json.string o) = .ok o := by
  cases o <;> rfl

theorem asOption_nat (depth : Nat) (o : Option Nat) :
    asOption asNat depth (option ofNat o) = .ok o := by
  cases o <;> rfl

/-- A name decodes as what it names. -/
theorem decodeNamed_string {ofText? : String → Option α} {s : String} {a : α}
    (h : ofText? s = some a) (depth : Nat) : decodeNamed ofText? depth (.string s) = .ok a := by
  unfold decodeNamed
  simp only [h]

/-- A wanted field that has not come yet is read. -/
theorem foldFields_cons {σ : Type} {fields seen : List String}
    {step : σ → String → Json → Except Problem σ} {s s' : σ} {name : String} {v : Json}
    (ms : List (Name × Json)) (hwanted : fields.contains name = true)
    (hnew : seen.contains name = false) (hstep : step s name v = .ok s') :
    foldFields fields step seen s ((.known name, v) :: ms) =
      foldFields fields step (name :: seen) s' ms := by
  rw [foldFields]
  show (if fields.contains name = true then _ else _) = _
  rw [if_pos hwanted, if_neg (by rw [hnew]; decide), hstep]
  rfl

/-- A record with one field decodes as its field does. -/
theorem foldFields_one {name : String} {v : Json} {a : α} {f : Json → Except Problem α}
    (h : f v = .ok a) :
    foldFields [name] (fun _ _ v => (f v).map some) [] none [(.known name, v)] =
      .ok (some a) := by
  have hstep : (f v).map some = .ok (some a) := by
    rw [h]
    rfl
  rw [foldFields_cons [] (by simp) rfl hstep]
  rfl

theorem mapM_ok {β : Type} {f : β → Except Problem α} {g : α → β} : ∀ {as : List α},
    (∀ a ∈ as, f (g a) = .ok a) → (as.map g).mapM f = .ok as
  | [], _ => rfl
  | a :: as, h => by
    have hrest := mapM_ok fun b hb => h b (List.mem_cons_of_mem a hb)
    rw [List.map_cons, List.mapM_cons, h a List.mem_cons_self]
    show ((as.map g).mapM f >>= fun as => pure (a :: as)) = _
    rw [hrest]
    rfl

/-- An array of what is read item by item decodes as the list. -/
theorem decodeArray_list {f : Nat → Json → Except Problem α} {g : α → Json} {as : List α}
    {depth : Nat} (hdepth : 1 < depth) (h : ∀ a ∈ as, f (depth - 1) (g a) = .ok a) :
    decodeArray f depth (list (as.map g)) = .ok as := by
  unfold decodeArray list
  simp only [deeper_of_lt hdepth]
  rw [mapM_ok h]
  rfl

end

end Json

end WikiOutline
