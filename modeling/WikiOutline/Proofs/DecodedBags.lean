/-
# The bags of a decoded call

A reader of calls takes the entries of an attribute bag as they are written and does not set
them one by one.  So the bags of a decoded call, those of the calls in its templates too, have
the keys that the document writes for them, in order and with every repetition; and such a bag
is a map just if the document writes no key twice for it.

What a document writes is told from the tree alone: fields are found in objects by name and in
arrays by place, and the calls of a template are the items of an array.

Key definitions: `Json.WritesBag`, `Call.HasBag`, `Call.BagLaw`.
Key theorems: `Json.foldFields_field`, `Attributes.keys_of_decoder`, `Call.decoderUpTo_written`,
`Call.writesBag_of_hasBag`, `Call.hasBag_of_writesBag`, `Call.bagLaw_of_ofText`.
-/
import Mathlib
import WikiOutline.Call.Json
import WikiOutline.Proofs.AttributeEdits

namespace WikiOutline

/-! ### What a document writes -/

namespace Json

/-- The value of a field, in an object by its name and in an array by its place. -/
def field? (name : String) (place : Nat) : Json → Option Json
  | .object members _ => members.lookup (.known name)
  | .array items _ => items[place]?
  | _ => none

/-- The items of an array. -/
def elements : Json → List Json
  | .array items _ => items
  | _ => []

/-- The argument of a template. -/
def templateArgument? : Json → Option Json
  | .object [(.known name, v)] _ => if name = "template" then some v else none
  | _ => none

/-- The entries written for the bag of a call. -/
def entries? (j : Json) : Option (List Json) :=
  ((j.field? "attributes" 2).bind (field? "items" 0)).map elements

/-- The calls that a tag written as a template holds. -/
def templateCalls (t : Json) : List Json :=
  ((t.templateArgument?.bind (field? "children" 0)).map elements).getD []

/-- The calls written inside a call. -/
def children (j : Json) : List Json := ((j.field? "tag" 0).map templateCalls).getD []

/-- A call, or one inside it, is written with these entries. -/
inductive WritesBag : Json → List Json → Prop
  | own {j : Json} {entries : List Json} : j.entries? = some entries → WritesBag j entries
  | inner {j d : Json} {entries : List Json} :
    d ∈ j.children → WritesBag d entries → WritesBag j entries

/-- The key of an entry. -/
def entryKey? : Json → Option String
  | .array (.string k :: _) _ => some k
  | _ => none

end Json

/-- The calls that a tag holds. -/
def Tag.calls : Tag → List Call
  | .template cs => cs
  | _ => []

namespace Call

/-- The calls inside a call. -/
def children (c : Call) : List Call := c.tag.calls

/-- The bag of a call, or of one inside it. -/
inductive HasBag : Call → Attributes → Prop
  | own (c : Call) : HasBag c c.attributes
  | inner {c d : Call} {a : Attributes} : d ∈ c.children → HasBag d a → HasBag c a

end Call

/-! ### Decoders that give a value -/

namespace Json

section
variable {α β : Type}

theorem bind_eq_ok {x : Except Problem α} {f : α → Except Problem β} {b : β}
    (h : (x >>= f) = .ok b) : ∃ a, x = .ok a ∧ f a = .ok b := by
  cases x with
  | error e => cases h
  | ok a => exact ⟨a, rfl, h⟩

theorem map_eq_ok {x : Except Problem α} {f : α → β} {b : β} (h : x.map f = .ok b) :
    ∃ a, x = .ok a ∧ f a = b := by
  cases x with
  | error e => cases h
  | ok a => exact ⟨a, rfl, by cases h; rfl⟩

theorem deeper_eq_ok {depth : Nat} {f : Nat → Except Problem α} {a : α}
    (h : deeper depth f = .ok a) : ∃ d, f d = .ok a := by
  match depth, h with
  | d + 2, h => exact ⟨d + 1, h⟩

theorem not_wrongType_eq_ok {wanted : String} {j : Json} {a : α} : ¬wrongType wanted j = .ok a := by
  intro h
  obtain ⟨found, -, hfound⟩ := bind_eq_ok h
  cases hfound

theorem asName_eq_ok {n : Name} {s : String} (h : asName n = .ok s) : n = .known s := by
  cases n with
  | known _ =>
    cases h
    rfl
  | unreadable _ => cases h

theorem asString_eq_ok {depth : Nat} {j : Json} {s : String} (h : asString depth j = .ok s) :
    j = .string s := by
  unfold asString at h
  split at h
  · cases h
    rfl
  · exact absurd h not_wrongType_eq_ok

theorem required_eq_ok {name : String} {o : Option α} {a : α} (h : required name o = .ok a) :
    o = some a := by
  cases o with
  | none => cases h
  | some b =>
    cases h
    rfl

theorem eq_ok_of_stopAt {x : Except Problem α} {stop : Option Fault} {a : α}
    (h : (do let b ← x; stopAt stop; .ok b) = .ok a) : x = .ok a := by
  obtain ⟨b, hb, hstop⟩ := bind_eq_ok h
  obtain ⟨_, -, heq⟩ := bind_eq_ok hstop
  cases heq
  exact hb

theorem exists_of_mem_left {γ : Type} {R : α → γ → Prop} {a : α} :
    ∀ {as : List α} {cs : List γ}, List.Forall₂ R as cs → a ∈ as → ∃ c ∈ cs, R a c
  | _, _, .cons h hs, hmem => by
    rcases List.mem_cons.mp hmem with rfl | hmem
    · exact ⟨_, List.mem_cons_self, h⟩
    · obtain ⟨c, hc, hac⟩ := exists_of_mem_left hs hmem
      exact ⟨c, List.mem_cons_of_mem _ hc, hac⟩

theorem mapM_eq_ok {f : α → Except Problem β} : ∀ {as : List α} {bs : List β},
    as.mapM f = .ok bs → List.Forall₂ (fun a b => f a = .ok b) as bs
  | [], bs, h => by
    cases h
    exact .nil
  | a :: as, bs, h => by
    rw [List.mapM_cons] at h
    obtain ⟨b, hb, h⟩ := bind_eq_ok h
    obtain ⟨bs', hbs, h⟩ := bind_eq_ok h
    cases h
    exact .cons hb (mapM_eq_ok hbs)

end

/-! ### Fields -/

/-- What is done with the first member of an object that is read to its end. -/
theorem foldFields_cons_eq_ok {σ : Type} {step : σ → String → Json → Except Problem σ}
    {fields seen : List String} {n : Name} {v : Json} {members : List (Name × Json)} {s s' : σ}
    (h : foldFields fields step seen s ((n, v) :: members) = .ok s') :
    ∃ m, n = .known m ∧
      (m ∈ fields ∧ m ∉ seen ∧
          (∃ s₁, step s m v = .ok s₁ ∧ foldFields fields step (m :: seen) s₁ members = .ok s') ∨
        m ∉ fields ∧ foldFields fields step seen s members = .ok s') := by
  rw [foldFields] at h
  obtain ⟨m, hm, hrest⟩ := bind_eq_ok h
  refine ⟨m, asName_eq_ok hm, ?_⟩
  by_cases hwanted : m ∈ fields
  · rw [if_pos (by simpa using hwanted)] at hrest
    by_cases hseen : m ∈ seen
    · rw [if_pos (by simpa using hseen)] at hrest
      cases hrest
    · rw [if_neg (by simpa using hseen)] at hrest
      exact .inl ⟨hwanted, hseen, bind_eq_ok hrest⟩
  · rw [if_neg (by simpa using hwanted)] at hrest
    obtain ⟨-, -, hrest⟩ := bind_eq_ok hrest
    exact .inr ⟨hwanted, hrest⟩

theorem lookup_known_ne {name m : String} (h : ¬m = name) (v : Json) (members : List (Name × Json)) :
    List.lookup (Name.known name) ((.known m, v) :: members) = members.lookup (.known name) := by
  rw [List.lookup_cons, beq_false_of_ne]
  exact fun he => h (Name.known.inj he).symm

theorem lookup_zip {name : String} : ∀ {names : List String} {items : List Json} {i : Nat},
    names.Nodup → names[i]? = some name → (names.zip items).lookup name = items[i]?
  | [], _, _, _, h => by cases h
  | _ :: _, [], _, _, _ => rfl
  | n :: names, j :: items, 0, _, h => by
    cases h
    exact List.lookup_cons_self
  | n :: names, j :: items, i + 1, hnodup, h => by
    rw [List.nodup_cons] at hnodup
    have hne : name ≠ n := fun he => hnodup.1 (he ▸ List.mem_of_getElem? h)
    rw [List.zip_cons_cons, List.lookup_cons, beq_false_of_ne hne, List.getElem?_cons_succ]
    exact lookup_zip hnodup.2 h

section
variable {σ α : Type} {fields : List String} {step : σ → String → Json → Except Problem σ}
  {name : String} {f : Json → Except Problem α} {view : σ → Option α}

/-- A field is decoded from a value, if it was written, or else left as it was. -/
def Decoded (f : Json → Except Problem α) (written : Option Json) (before after : Option α) : Prop :=
  written = none ∧ after = before ∨ ∃ v a, written = some v ∧ f v = .ok a ∧ after = some a

omit step in
theorem Decoded.of_none {written : Option Json} {a : α} (h : Decoded f written none (some a)) :
    ∃ v, written = some v ∧ f v = .ok a := by
  rcases h with ⟨-, hnone⟩ | ⟨v, b, hv, hb, heq⟩
  · cases hnone
  · cases heq
    exact ⟨v, hv, hb⟩

variable (fields) (view)
  (hname : ∀ s v s', step s name v = .ok s' → ∃ a, f v = .ok a ∧ view s' = some a)
  (hother : ∀ s, ∀ n ∈ fields, ∀ v s', n ≠ name → step s n v = .ok s' → view s' = view s)

include hname hother

/-- The fields of an object are read in order, each of them at most once. -/
theorem foldFields_field (hfields : name ∈ fields) :
    ∀ {members : List (Name × Json)} {seen : List String} {s s' : σ},
      foldFields fields step seen s members = .ok s' →
      (name ∈ seen → view s' = view s) ∧
      (name ∉ seen → Decoded f (members.lookup (.known name)) (view s) (view s'))
  | [], _, s, _, h => by
    cases h
    exact ⟨fun _ => rfl, fun _ => .inl ⟨rfl, rfl⟩⟩
  | (n, v) :: members, seen, s, s', h => by
    obtain ⟨m, rfl, ⟨hwanted, hnew, s₁, hstep, hrest⟩ | ⟨hunwanted, hrest⟩⟩ := foldFields_cons_eq_ok h
    · have ih := foldFields_field hfields hrest
      by_cases hm : m = name
      · subst hm
        obtain ⟨a, ha, hview⟩ := hname s v s₁ hstep
        refine ⟨fun hmem => absurd hmem hnew, fun _ => .inr ⟨v, a, ?_, ha, ?_⟩⟩
        · exact List.lookup_cons_self
        · exact (ih.1 List.mem_cons_self).trans hview
      · rw [lookup_known_ne hm, ← hother s m hwanted v s₁ hm hstep]
        refine ⟨fun hmem => ih.1 (List.mem_cons_of_mem m hmem), fun hmem => ih.2 fun h => ?_⟩
        rcases List.mem_cons.mp h with h | h
        · exact hm h.symm
        · exact hmem h
    · have hm : ¬m = name := fun h => hunwanted (h ▸ hfields)
      rw [lookup_known_ne hm]
      exact foldFields_field hfields hrest

/-- The fields of an array are read in order. -/
theorem foldlM_field : ∀ {pairs : List (String × Json)} {s s' : σ}, (pairs.map (·.1)).Nodup →
    (∀ p ∈ pairs, p.1 ∈ fields) → pairs.foldlM (fun s p => step s p.1 p.2) s = .ok s' →
    Decoded f (pairs.lookup name) (view s) (view s')
  | [], _, _, _, _, h => by
    cases h
    exact .inl ⟨rfl, rfl⟩
  | (m, v) :: pairs, s, s', hnodup, hfields, h => by
    rw [List.map_cons, List.nodup_cons] at hnodup
    rw [List.forall_mem_cons] at hfields
    rw [List.foldlM_cons] at h
    obtain ⟨s₁, hs₁, h⟩ := bind_eq_ok h
    have ih := foldlM_field hnodup.2 hfields.2 h
    by_cases hm : m = name
    · subst hm
      obtain ⟨a, ha, hview⟩ := hname s v s₁ hs₁
      have hnone : pairs.lookup m = none := by
        rw [List.lookup_eq_none_iff]
        intro p hp
        simpa using fun h => hnodup.1 (List.mem_map.mpr ⟨p, hp, h.symm⟩)
      rw [hnone] at ih
      rcases ih with ⟨-, ih⟩ | ⟨_, _, h, -⟩
      · exact .inr ⟨v, a, List.lookup_cons_self, ha, ih.trans hview⟩
      · cases h
    · have hview : view s₁ = view s := hother s m hfields.1 v s₁ hm hs₁
      rw [List.lookup_cons, beq_false_of_ne fun h => hm h.symm, ← hview]
      exact ih

end

/-- An object with one field is read by that field. -/
theorem foldFields_single {α : Type} {name : String} {f : Json → Except Problem α} {a : α}
    {members : List (Name × Json)}
    (h : foldFields [name] (fun _ _ v => (f v).map some) [] none members = .ok (some a)) :
    ∃ v, members.lookup (.known name) = some v ∧ f v = .ok a := by
  refine Decoded.of_none ((foldFields_field [name] (id : Option α → Option α) ?_ ?_
    List.mem_cons_self h).2 List.not_mem_nil)
  · intro s v s' hs
    obtain ⟨b, hb, rfl⟩ := map_eq_ok hs
    exact ⟨b, hb, rfl⟩
  · intro s n hn v s' hne
    exact absurd (List.mem_singleton.mp hn) hne

end Json

/-! ### Attribute bags -/

namespace Attributes

theorem entryKey?_of_decodeItem {depth : Nat} {j : Json} {e : String × AttributeValue}
    (h : decodeItem depth j = .ok e) : j.entryKey? = some e.1 := by
  unfold decodeItem at h
  split at h
  · obtain ⟨d, h⟩ := Json.deeper_eq_ok h
    split at h
    · rename_i k v
      obtain ⟨key, hkey, h⟩ := Json.bind_eq_ok h
      obtain ⟨value, -, h⟩ := Json.bind_eq_ok h
      obtain ⟨-, -, h⟩ := Json.bind_eq_ok h
      cases h
      rw [Json.asString_eq_ok hkey]
      rfl
    · cases h
  · exact absurd h Json.not_wrongType_eq_ok

/-- The entries of a bag are decoded one by one. -/
theorem keys_of_decodeItems {depth : Nat} {j : Json} {es : List (String × AttributeValue)}
    (h : decodeItems depth j = .ok es) :
    j.elements.map Json.entryKey? = es.map fun e => some e.1 := by
  unfold decodeItems at h
  split at h
  · rename_i items stop
    obtain ⟨d, h⟩ := Json.deeper_eq_ok h
    obtain ⟨es', hes, h⟩ := Json.bind_eq_ok h
    obtain ⟨-, -, h⟩ := Json.bind_eq_ok h
    cases h
    have hkeys := (Json.mapM_eq_ok hes).imp fun j e he => entryKey?_of_decodeItem he
    rw [← List.forall₂_eq_eq_eq, List.forall₂_map_left_iff, List.forall₂_map_right_iff]
    exact hkeys
  · exact absurd h Json.not_wrongType_eq_ok

/-- A decoded bag has the keys that are written, in order. -/
theorem keys_of_decoder {depth : Nat} {j : Json} {a : Attributes} (h : decoder depth j = .ok a) :
    ∃ entries, (j.field? "items" 0).map Json.elements = some entries ∧
      entries.map Json.entryKey? = a.keys.map some := by
  suffices hitems : ∃ d i, j.field? "items" 0 = some i ∧ decodeItems d i = .ok a.items by
    obtain ⟨d, i, hfield, hi⟩ := hitems
    refine ⟨i.elements, by rw [hfield]; rfl, ?_⟩
    rw [keys_of_decodeItems hi, keys, List.map_map]
    rfl
  unfold decoder at h
  split at h
  · rename_i members stop
    obtain ⟨d, h⟩ := Json.deeper_eq_ok h
    obtain ⟨items, hitems, h⟩ := Json.bind_eq_ok h
    obtain ⟨-, -, h⟩ := Json.bind_eq_ok h
    obtain ⟨es, hes, h⟩ := Json.bind_eq_ok h
    rw [Json.required_eq_ok hes] at hitems
    cases h
    obtain ⟨i, hfield, hi⟩ := Json.foldFields_single hitems
    exact ⟨d, i, hfield, hi⟩
  · rename_i items stop
    obtain ⟨d, h⟩ := Json.deeper_eq_ok h
    obtain ⟨es, hes, h⟩ := Json.bind_eq_ok h
    obtain ⟨-, -, h⟩ := Json.bind_eq_ok h
    cases h
    exact ⟨d, items, rfl, hes⟩
  · cases h
  · exact absurd h Json.not_wrongType_eq_ok

end Attributes

/-! ### Calls -/

theorem Json.forall₂_of_decodeArray {α : Type} {f : Nat → Json → Except Json.Problem α}
    {depth : Nat} {j : Json} {xs : List α} (h : decodeArray f depth j = .ok xs) :
    ∃ d, List.Forall₂ (fun j x => f d j = .ok x) j.elements xs := by
  unfold decodeArray at h
  split at h
  · obtain ⟨d, h⟩ := deeper_eq_ok h
    obtain ⟨ys, hys, h⟩ := bind_eq_ok h
    obtain ⟨_, -, h⟩ := bind_eq_ok h
    cases h
    exact ⟨d, mapM_eq_ok hys⟩
  · exact absurd h not_wrongType_eq_ok

namespace Tag

variable {decodeCall : Nat → Json → Except Json.Problem Call} {depth : Nat}

theorem calls_of_ofText? {s : String} {tag : Tag} (h : ofText? s = some tag) : tag.calls = [] := by
  unfold ofText? at h
  split at h <;> cases h <;> rfl

theorem forall₂_of_decodeChildren {j : Json} {cs : List Call}
    (h : decodeChildren decodeCall depth j = .ok cs) :
    ∃ d i, j.field? "children" 0 = some i ∧
      List.Forall₂ (fun j c => decodeCall d j = .ok c) i.elements cs := by
  suffices hchildren : ∃ d i, j.field? "children" 0 = some i ∧
      Json.decodeArray decodeCall d i = .ok cs by
    obtain ⟨d, i, hfield, hi⟩ := hchildren
    obtain ⟨d', hcalls⟩ := Json.forall₂_of_decodeArray hi
    exact ⟨d', i, hfield, hcalls⟩
  unfold decodeChildren at h
  split at h
  · obtain ⟨d, h⟩ := Json.deeper_eq_ok h
    obtain ⟨children, hchildren, h⟩ := Json.bind_eq_ok h
    obtain ⟨_, -, h⟩ := Json.bind_eq_ok h
    rw [Json.required_eq_ok h] at hchildren
    obtain ⟨i, hfield, hi⟩ := Json.foldFields_single hchildren
    exact ⟨d, i, hfield, hi⟩
  · rename_i i stop
    obtain ⟨d, h⟩ := Json.deeper_eq_ok h
    obtain ⟨children, hchildren, h⟩ := Json.bind_eq_ok h
    obtain ⟨_, -, h⟩ := Json.bind_eq_ok h
    cases h
    exact ⟨d, i, rfl, hchildren⟩
  · cases h
  · exact absurd h Json.not_wrongType_eq_ok

/-- A decoded tag holds the calls that are written for its template, decoded one by one. -/
theorem forall₂_of_decoderWith {t : Json} {tag : Tag}
    (h : decoderWith decodeCall depth t = .ok tag) :
    ∃ d, List.Forall₂ (fun j c => decodeCall d j = .ok c) t.templateCalls tag.calls := by
  unfold decoderWith at h
  split at h
  · split at h
    · rename_i htext
      cases h
      exact ⟨0, calls_of_ofText? htext ▸ .nil⟩
    · cases h
  · rename_i name v stop
    obtain ⟨d, h⟩ := Json.deeper_eq_ok h
    obtain ⟨m, hm, htag⟩ := Json.bind_eq_ok h
    obtain rfl := Json.asName_eq_ok hm
    clear h hm
    dsimp only at htag
    split at htag
    · obtain ⟨style, -, rfl⟩ := Json.map_eq_ok (Json.eq_ok_of_stopAt htag)
      exact ⟨0, .nil⟩
    · obtain ⟨cs, hcs, rfl⟩ := Json.map_eq_ok (Json.eq_ok_of_stopAt htag)
      obtain ⟨d', i, hfield, hcalls⟩ := forall₂_of_decodeChildren hcs
      have hwritten : (Json.object [(.known "template", v)] stop).templateCalls = i.elements := by
        simp [Json.templateCalls, Json.templateArgument?, hfield]
      rw [hwritten]
      exact ⟨d', hcalls⟩
    · obtain ⟨s, -, rfl⟩ := Json.map_eq_ok (Json.eq_ok_of_stopAt htag)
      exact ⟨0, .nil⟩
    · rename_i hheading htemplate hother
      split at htag
      · rename_i htext
        cases Json.eq_ok_of_stopAt htag
        have hwritten : (Json.object [(.known m, Json.null)] stop).templateCalls = [] := by
          simp [Json.templateCalls, Json.templateArgument?, show ¬m = "template" from htemplate]
        rw [hwritten, calls_of_ofText? htext]
        exact ⟨0, .nil⟩
      · cases Json.eq_ok_of_stopAt htag
  · cases h

end Tag

namespace Call

section
variable {decodeTag : Json → Except Json.Problem Tag} {depth : Nat}

theorem Draft.readField_tag (d : Draft) (v : Json) (d' : Draft)
    (h : d.readField decodeTag depth "tag" v = .ok d') :
    ∃ t, decodeTag v = .ok t ∧ d'.tag = some t := by
  obtain ⟨t, ht, rfl⟩ := Json.map_eq_ok h
  exact ⟨t, ht, rfl⟩

theorem Draft.readField_attributes (d : Draft) (v : Json) (d' : Draft)
    (h : d.readField decodeTag depth "attributes" v = .ok d') :
    ∃ a, Attributes.decoder depth v = .ok a ∧ d'.attributes = some a := by
  obtain ⟨a, ha, rfl⟩ := Json.map_eq_ok h
  exact ⟨a, ha, rfl⟩

/-- A field leaves the others as they are. -/
theorem Draft.readField_ne {d d' : Draft} {name : String} {v : Json}
    (h : d.readField decodeTag depth name v = .ok d') :
    (name ≠ "tag" → d'.tag = d.tag) ∧ (name ≠ "attributes" → d'.attributes = d.attributes) := by
  unfold Draft.readField at h
  split at h
  · obtain ⟨_, -, rfl⟩ := Json.map_eq_ok h
    exact ⟨fun hne => absurd rfl hne, fun _ => rfl⟩
  · obtain ⟨_, -, rfl⟩ := Json.map_eq_ok h
    exact ⟨fun _ => rfl, fun _ => rfl⟩
  · obtain ⟨_, -, rfl⟩ := Json.map_eq_ok h
    exact ⟨fun _ => rfl, fun hne => absurd rfl hne⟩
  iterate 4
    · obtain ⟨_, -, rfl⟩ := Json.map_eq_ok h
      exact ⟨fun _ => rfl, fun _ => rfl⟩
  · cases h
    exact ⟨fun _ => rfl, fun _ => rfl⟩

theorem Draft.readField_keeps_tag (d : Draft) (name : String) (_ : name ∈ fieldNames) (v : Json)
    (d' : Draft) (hne : name ≠ "tag") (h : d.readField decodeTag depth name v = .ok d') :
    d'.tag = d.tag :=
  (readField_ne h).1 hne

theorem Draft.readField_keeps_attributes (d : Draft) (name : String) (_ : name ∈ fieldNames)
    (v : Json) (d' : Draft) (hne : name ≠ "attributes")
    (h : d.readField decodeTag depth name v = .ok d') : d'.attributes = d.attributes :=
  (readField_ne h).2 hne

end

theorem Draft.finish_eq_ok {d : Draft} {c : Call} (h : d.finish = .ok c) :
    d.tag = some c.tag ∧ d.attributes = some c.attributes := by
  obtain ⟨tag, htag, h⟩ := Json.bind_eq_ok h
  obtain ⟨state, -, h⟩ := Json.bind_eq_ok h
  obtain ⟨attributes, hattributes, h⟩ := Json.bind_eq_ok h
  cases h
  exact ⟨Json.required_eq_ok htag, Json.required_eq_ok hattributes⟩

/-- The tag and the bag of a decoded call are decoded from the fields written for them. -/
theorem fields_of_decoderWith {decodeTag : Nat → Json → Except Json.Problem Tag} {depth : Nat}
    {j : Json} {c : Call} (h : decoderWith decodeTag depth j = .ok c) :
    ∃ d t b, j.field? "tag" 0 = some t ∧ decodeTag d t = .ok c.tag ∧
      j.field? "attributes" 2 = some b ∧ Attributes.decoder d b = .ok c.attributes := by
  suffices hdraft : ∃ d draft, Draft.finish draft = .ok c ∧
      Json.Decoded (decodeTag d) (j.field? "tag" 0) none draft.tag ∧
      Json.Decoded (Attributes.decoder d) (j.field? "attributes" 2) none draft.attributes by
    obtain ⟨d, draft, hfinish, htags, hbags⟩ := hdraft
    obtain ⟨htag, hbag⟩ := Draft.finish_eq_ok hfinish
    rw [htag] at htags
    rw [hbag] at hbags
    obtain ⟨t, ht, htag⟩ := htags.of_none
    obtain ⟨b, hb, hbag⟩ := hbags.of_none
    exact ⟨d, t, b, ht, htag, hb, hbag⟩
  unfold decoderWith at h
  split at h
  · obtain ⟨d, h⟩ := Json.deeper_eq_ok h
    obtain ⟨draft, hread, h⟩ := Json.bind_eq_ok h
    obtain ⟨_, -, h⟩ := Json.bind_eq_ok h
    refine ⟨d, draft, h, ?_, ?_⟩
    · exact (Json.foldFields_field fieldNames Draft.tag Draft.readField_tag
        Draft.readField_keeps_tag (by decide) hread).2 List.not_mem_nil
    · exact (Json.foldFields_field fieldNames Draft.attributes Draft.readField_attributes
        Draft.readField_keeps_attributes (by decide) hread).2 List.not_mem_nil
  · rename_i items stop
    obtain ⟨d, h⟩ := Json.deeper_eq_ok h
    obtain ⟨draft, hread, h⟩ := Json.bind_eq_ok h
    by_cases hless : items.length < fieldNames.length
    · rw [if_pos hless] at h
      obtain ⟨_, -, h⟩ := Json.bind_eq_ok h
      cases h
    · rw [if_neg hless] at h
      by_cases hmore : fieldNames.length < items.length
      · rw [if_pos hmore] at h
        cases h
      · rw [if_neg hmore] at h
        obtain ⟨_, -, h⟩ := Json.bind_eq_ok h
        have hnames : (fieldNames.zip items).map (·.1) = fieldNames :=
          List.map_fst_zip (not_lt.mp hless)
        have hnodup : ((fieldNames.zip items).map (·.1)).Nodup := by
          rw [hnames]
          decide
        have hfields : ∀ p ∈ fieldNames.zip items, p.1 ∈ fieldNames := fun p hp =>
          (List.of_mem_zip hp).1
        have htags := Json.foldlM_field fieldNames Draft.tag Draft.readField_tag
          Draft.readField_keeps_tag hnodup hfields hread
        have hbags := Json.foldlM_field fieldNames Draft.attributes Draft.readField_attributes
          Draft.readField_keeps_attributes hnodup hfields hread
        rw [Json.lookup_zip (by decide) (show fieldNames[0]? = some "tag" from rfl)] at htags
        rw [Json.lookup_zip (by decide) (show fieldNames[2]? = some "attributes" from rfl)] at hbags
        exact ⟨d, draft, h, htags, hbags⟩
  · exact absurd h Json.not_wrongType_eq_ok

/-- A decoded call has the bag and the calls that are written for it. -/
theorem decoderUpTo_written {fuel depth : Nat} {j : Json} {c : Call}
    (h : decoderUpTo fuel depth j = .ok c) :
    (∃ entries, j.entries? = some entries ∧
      entries.map Json.entryKey? = c.attributes.keys.map some) ∧
    ∃ fuel' depth',
      List.Forall₂ (fun d e => decoderUpTo fuel' depth' d = .ok e) j.children c.children := by
  cases fuel with
  | zero => cases h
  | succ fuel =>
    obtain ⟨d, t, b, ht, htag, hb, hbag⟩ := fields_of_decoderWith h
    obtain ⟨entries, hentries, hkeys⟩ := Attributes.keys_of_decoder hbag
    obtain ⟨d', hcalls⟩ := Tag.forall₂_of_decoderWith htag
    refine ⟨⟨entries, ?_, hkeys⟩, fuel, d', ?_⟩
    · rw [Json.entries?, hb]
      exact hentries
    · rw [Json.children, ht]
      exact hcalls

theorem writesBag_of_hasBag {c : Call} {a : Attributes} (h : c.HasBag a) :
    ∀ {fuel depth : Nat} {j : Json}, decoderUpTo fuel depth j = .ok c →
      ∃ entries, j.WritesBag entries ∧ entries.map Json.entryKey? = a.keys.map some := by
  induction h with
  | own c =>
    intro fuel depth j hread
    obtain ⟨⟨entries, hentries, hkeys⟩, -⟩ := decoderUpTo_written hread
    exact ⟨entries, .own hentries, hkeys⟩
  | inner hmem _ ih =>
    intro fuel depth j hread
    obtain ⟨-, fuel', depth', hcalls⟩ := decoderUpTo_written hread
    obtain ⟨d, hd, hread'⟩ := Json.exists_of_mem_left hcalls.flip hmem
    obtain ⟨entries, hwrites, hkeys⟩ := ih hread'
    exact ⟨entries, .inner hd hwrites, hkeys⟩

theorem hasBag_of_writesBag {j : Json} {entries : List Json} (h : j.WritesBag entries) :
    ∀ {fuel depth : Nat} {c : Call}, decoderUpTo fuel depth j = .ok c →
      ∃ a, c.HasBag a ∧ entries.map Json.entryKey? = a.keys.map some := by
  induction h with
  | own hentries =>
    intro fuel depth c hread
    obtain ⟨⟨entries', hentries', hkeys⟩, -⟩ := decoderUpTo_written hread
    rw [hentries'] at hentries
    cases hentries
    exact ⟨c.attributes, .own c, hkeys⟩
  | inner hmem _ ih =>
    intro fuel depth c hread
    obtain ⟨-, fuel', depth', hcalls⟩ := decoderUpTo_written hread
    obtain ⟨e, he, hread'⟩ := Json.exists_of_mem_left hcalls hmem
    obtain ⟨a, ha, hkeys⟩ := ih hread'
    exact ⟨a, .inner he ha, hkeys⟩

/-- What can be told of the bags of a call from the document it is decoded from. -/
structure BagLaw (j : Json) (c : Call) : Prop where
  /-- The bags have the keys that are written for them, in order. -/
  written : ∀ keys : List String, (∃ a, c.HasBag a ∧ a.keys = keys) ↔
    ∃ entries, j.WritesBag entries ∧ entries.map Json.entryKey? = keys.map some
  /-- No bag has two entries of a key just if none is written with two. -/
  nodup_iff : (∀ a, c.HasBag a → a.keys.Nodup) ↔
    ∀ entries, j.WritesBag entries → (entries.map Json.entryKey?).Nodup
  /-- A bag has no two entries of a key just if a key that is removed is gone. -/
  removed_iff : ∀ a, c.HasBag a →
    (a.keys.Nodup ↔ ∀ k, (a.remove k).2.contains k = false)
  /-- A bag has no two entries of a key just if it reads behind all edits as a map does. -/
  map_iff : ∀ a, c.HasBag a → (a.keys.Nodup ↔ ∀ edits,
    (Attributes.performAll edits a).get? = edits.foldl (fun m e => e.update m) a.get?)

theorem bagLaw_of_decoderUpTo {fuel depth : Nat} {j : Json} {c : Call}
    (h : decoderUpTo fuel depth j = .ok c) : BagLaw j c where
  written keys := by
    constructor
    · rintro ⟨a, ha, rfl⟩
      exact writesBag_of_hasBag ha h
    · rintro ⟨entries, hwrites, hkeys⟩
      obtain ⟨a, ha, hkeys'⟩ := hasBag_of_writesBag hwrites h
      have hsome : a.keys.map some = keys.map some := hkeys' ▸ hkeys
      exact ⟨a, ha, (Option.some_injective String).list_map hsome⟩
  nodup_iff := by
    constructor
    · intro hnodup entries hwrites
      obtain ⟨a, ha, hkeys⟩ := hasBag_of_writesBag hwrites h
      rw [hkeys]
      exact (hnodup a ha).map (Option.some_injective String)
    · intro hnodup a ha
      obtain ⟨entries, hwrites, hkeys⟩ := writesBag_of_hasBag ha h
      have hsome := hnodup entries hwrites
      rw [hkeys] at hsome
      exact hsome.of_map some
  removed_iff a _ := a.nodup_iff_contains_remove
  map_iff a _ := a.nodup_iff_get?_performAll

/-- **The bags of a decoded call are as they are written.**  They are maps just if no key is
written twice for one of them. -/
theorem bagLaw_of_ofText {text : String} {c : Call} (h : ofText text = .ok c) :
    BagLaw (Json.read text).root c := by
  obtain ⟨d, hd, hend⟩ := Json.bind_eq_ok h
  have hread : d = c := by
    split at hend
    · cases hend
      rfl
    · cases hend
  rw [hread] at hd
  exact bagLaw_of_decoderUpTo hd

/-- A template around an image that is given its source twice. -/
def twoSourcesText : String :=
  "[\x7b\"template\": [[[\"media\", \"special\", [[[\"src\", \"a.png\"], [\"src\", \"b.png\"]]], " ++
    "null, null, null, null]]]\x7d, \"special\", [[]], null, null, null, null]"

/-- The image in it. -/
def twoSources : Call :=
  { tag := .media, state := .special,
    attributes := ⟨[("src", .string "a.png"), ("src", .string "b.png")]⟩ }

theorem ofText_twoSourcesText : ofText twoSourcesText = .ok (template [twoSources]) := by
  cbv

theorem hasBag_twoSources : (template [twoSources]).HasBag twoSources.attributes :=
  .inner List.mem_cons_self (.own twoSources)

theorem bagLaw_of_twoSourcesText : ofText twoSourcesText = .ok (template [twoSources]) ∧
    BagLaw (Json.read twoSourcesText).root (template [twoSources]) ∧
    (template [twoSources]).HasBag twoSources.attributes ∧
    (twoSources.attributes.remove "src").2.get? "src" = some (.string "b.png") :=
  ⟨ofText_twoSourcesText, bagLaw_of_ofText ofText_twoSourcesText, hasBag_twoSources, rfl⟩

/-- A decoded bag may have two entries of a key: removing the key uncovers the second. -/
theorem removed_source_remains : ¬ ∀ (text : String) (c : Call), ofText text = .ok c →
    ∀ a, c.HasBag a → a.keys.Nodup ∧ ∀ k, (a.remove k).2.contains k = false := by
  intro hall
  have hgone := (hall twoSourcesText _ ofText_twoSourcesText _ hasBag_twoSources).2 "src"
  revert hgone
  decide

end Call

end WikiOutline
