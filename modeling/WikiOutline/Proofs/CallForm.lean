/-
# The JSON form of calls

A call reads back from the JSON text that is written for it, if the text nests no deeper
than a reader follows.  The nesting of the tree bounds both the depth that a decoder needs
and how often templates can nest.  An attribute value reads back since the kinds of value
are kinds of JSON value, and an integer of the signed 64-bit range is written as one.

Key definitions: `Call.InWords`.
Key theorems: `AttributeValue.decoder_toJson`, `Attributes.decoder_toJson`,
`Call.decoderUpTo_toJson`, `Call.exact_toJson`, `Call.form_lossless`.
-/
import Mathlib
import WikiOutline.Call.Json
import WikiOutline.Proofs.Decoding

namespace WikiOutline

/-! ### Attribute values -/

namespace AttributeValue

/-- An integer of the signed 64-bit range is written as one. -/
theorem exact_ofInt (i : Int64) : Json.Exact (.ofInt i.toInt) := by
  have hlow : Word.minInt ≤ i.toInt := i.le_toInt
  have hhigh : i.toInt ≤ Word.maxInt := Int64.toInt_le i
  have hmax : Word.maxInt = 0x7fffffffffffffff := rfl
  have hword : Word.maxNat = 0xffffffffffffffff := rfl
  unfold Json.ofInt
  split_ifs with h
  · exact .natural (by omega)
  · exact .negative (by omega) (by omega)

/-- An integer of the signed 64-bit range reads back. -/
theorem decoder_ofInt (depth : Nat) (i : Int64) :
    decoder depth (.ofInt i.toInt) = .ok (.int i) := by
  have hhigh : i.toInt ≤ Word.maxInt := Int64.toInt_le i
  unfold Json.ofInt
  split_ifs with h
  · have hnat : (i.toInt.toNat : Int) = i.toInt := Int.toNat_of_nonneg h
    have hword : Int64.ofNat i.toInt.toNat = i := by
      rw [← Int64.ofInt_eq_ofNat, hnat, Int64.ofInt_toInt]
    rw [decoder, if_pos (by omega), hword]
  · have hneg : -((-i.toInt).toNat : Int) = i.toInt := by omega
    rw [decoder, hneg, Int64.ofInt_toInt]

mutual

/-- **An attribute value reads back.** -/
theorem decoder_toJson : ∀ (v : AttributeValue) (depth : Nat), v.toJson.nesting < depth →
    decoder depth v.toJson = .ok v
  | .bool _, _, _ => by
    rw [toJson, decoder]
  | .int i, depth, _ => decoder_ofInt depth i
  | .string _, _, _ => by
    rw [toJson, decoder]
  | .list vs, depth, h => by
    rw [toJson, Json.nesting_list] at h
    obtain ⟨d, rfl⟩ : ∃ d, depth = d + 2 := ⟨depth - 2, by omega⟩
    rw [toJson, Json.list, decoder, decodeList_toJsonList vs (d + 1) (by omega)]
    · rfl
    · omega

/-- A list of attribute values reads back. -/
theorem decodeList_toJsonList : ∀ (vs : List AttributeValue) (depth : Nat),
    Json.nestingOfItems (toJsonList vs) < depth → decodeList depth (toJsonList vs) = .ok vs
  | [], _, _ => by
    rw [toJsonList, decodeList]
  | v :: vs, depth, h => by
    rw [toJsonList, Json.nestingOfItems, max_lt_iff] at h
    rw [toJsonList, decodeList, decoder_toJson v depth h.1, decodeList_toJsonList vs depth h.2]
    rfl

end

mutual

theorem exact_toJson : ∀ v : AttributeValue, v.toJson.Exact
  | .bool b => by
    rw [toJson]
    exact .bool b
  | .int i => by
    rw [toJson]
    exact exact_ofInt i
  | .string s => by
    rw [toJson]
    exact .string s
  | .list vs => by
    rw [toJson]
    exact .list (exact_toJsonList vs)

theorem exact_toJsonList : ∀ vs : List AttributeValue, ∀ j ∈ toJsonList vs, j.Exact
  | [] => fun _ h => by
    rw [toJsonList] at h
    cases h
  | v :: vs => fun j h => by
    rw [toJsonList] at h
    rcases List.mem_cons.mp h with rfl | h
    · exact exact_toJson v
    · exact exact_toJsonList vs j h

end

end AttributeValue

/-! ### Attribute bags -/

namespace Attributes

/-- The JSON form of an entry. -/
def itemJson (e : String × AttributeValue) : Json := .list [.string e.1, e.2.toJson]

theorem decodeItem_itemJson {e : String × AttributeValue} {depth : Nat}
    (h : (itemJson e).nesting < depth) : decodeItem depth (itemJson e) = .ok e := by
  have hvalue : e.2.toJson.nesting < depth - 1 := by
    simp [itemJson, Json.nestingOfItems] at h
    omega
  unfold decodeItem itemJson Json.list
  simp only [Json.deeper_of_lt (show 1 < depth by omega), Json.asString_string,
    AttributeValue.decoder_toJson e.2 (depth - 1) hvalue]
  rfl

theorem nesting_toJson (a : Attributes) :
    a.toJson.nesting = Json.nestingOfItems (a.items.map itemJson) + 2 :=
  Json.nesting_record_one "items" (.list (a.items.map itemJson))

/-- **An attribute bag reads back**, repeated keys and all. -/
theorem decoder_toJson {a : Attributes} {depth : Nat} (h : a.toJson.nesting < depth) :
    decoder depth a.toJson = .ok a := by
  rw [nesting_toJson] at h
  have hitem : ∀ e ∈ a.items, decodeItem (depth - 1 - 1) (itemJson e) = .ok e := fun e he => by
    have hmem : itemJson e ∈ a.items.map itemJson := List.mem_map_of_mem he
    have hle := Json.nesting_le_nestingOfItems hmem
    exact decodeItem_itemJson (by omega)
  have hitems : decodeItems (depth - 1) (.list (a.items.map itemJson)) = .ok a.items := by
    unfold decodeItems Json.list
    simp only [Json.deeper_of_lt (show 1 < depth - 1 by omega)]
    rw [Json.mapM_ok hitem]
    rfl
  show decoder depth (.record [("items", .list (a.items.map itemJson))]) = _
  unfold decoder Json.record
  simp only [List.map_cons, List.map_nil, Json.deeper_of_lt (show 1 < depth by omega)]
  rw [Json.foldFields_one (f := decodeItems (depth - 1)) hitems]
  rfl

theorem exact_toJson (a : Attributes) : a.toJson.Exact := by
  refine .record fun m hm => ?_
  rw [List.mem_singleton.mp hm]
  refine .list fun v hv => ?_
  obtain ⟨e, -, rfl⟩ := List.mem_map.mp hv
  refine .list fun w hw => ?_
  rcases List.mem_pair.mp hw with rfl | rfl
  · exact .string _
  · exact e.2.exact_toJson

end Attributes

/-! ### Names -/

theorem CallState.ofText?_text (s : CallState) : ofText? s.text = some s := by
  cases s <;> rfl

theorem HeadingSyntax.ofText?_text (s : HeadingSyntax) : ofText? s.text = some s := by
  cases s <;> rfl

/-! ### Calls -/

theorem Call.toJsonList_eq : ∀ cs : List Call, toJsonList cs = cs.map Call.toJson
  | [] => by
    rw [toJsonList, List.map_nil]
  | c :: cs => by
    rw [toJsonList, List.map_cons, toJsonList_eq cs]

/-- The fields of a call read back in order, if its tag does. -/
theorem Call.foldFields_toJson {decodeTag : Json → Except Json.Problem Tag} {depth : Nat} (c : Call)
    (htag : decodeTag c.tag.toJson = .ok c.tag) (hattributes : c.attributes.toJson.nesting < depth) :
    ∃ members, c.toJson = .object members none ∧
      Json.foldFields fieldNames (Draft.readField decodeTag depth) [] {} members =
        .ok ⟨some c.tag, some c.state, some c.attributes, c.context, c.startPos, c.endPos,
          c.payload⟩ := by
  obtain ⟨tag, state, attributes, context, startPos, endPos, payload⟩ := c
  refine ⟨_, by rw [Call.toJson]; rfl, ?_⟩
  have h1 : Draft.readField decodeTag depth {} "tag" tag.toJson = .ok { tag := some tag } :=
    congrArg (Except.map _) htag
  have h2 : ∀ d : Draft, d.readField decodeTag depth "state" (.string state.text) =
      .ok { d with state := some state } := fun _ =>
    congrArg (Except.map _) (Json.decodeNamed_string state.ofText?_text depth)
  have h3 : ∀ d : Draft, d.readField decodeTag depth "attributes" attributes.toJson =
      .ok { d with attributes := some attributes } := fun _ =>
    congrArg (Except.map _) (Attributes.decoder_toJson hattributes)
  have h4 : ∀ d : Draft, d.readField decodeTag depth "context" (.option Json.string context) =
      .ok { d with context := context } := fun _ =>
    congrArg (Except.map _) (Json.asOption_string depth context)
  have h5 : ∀ d : Draft, d.readField decodeTag depth "start_pos" (.option Json.ofNat startPos) =
      .ok { d with startPos := startPos } := fun _ =>
    congrArg (Except.map _) (Json.asOption_nat depth startPos)
  have h6 : ∀ d : Draft, d.readField decodeTag depth "end_pos" (.option Json.ofNat endPos) =
      .ok { d with endPos := endPos } := fun _ =>
    congrArg (Except.map _) (Json.asOption_nat depth endPos)
  have h7 : ∀ d : Draft, d.readField decodeTag depth "payload" (.option Json.string payload) =
      .ok { d with payload := payload } := fun _ =>
    congrArg (Except.map _) (Json.asOption_string depth payload)
  simp only [List.map_cons, List.map_nil]
  rw [Json.foldFields_cons _ rfl rfl h1, Json.foldFields_cons _ rfl (by decide) (h2 _),
    Json.foldFields_cons _ rfl (by decide) (h3 _), Json.foldFields_cons _ rfl (by decide) (h4 _),
    Json.foldFields_cons _ rfl (by decide) (h5 _), Json.foldFields_cons _ rfl (by decide) (h6 _),
    Json.foldFields_cons _ rfl (by decide) (h7 _)]
  rfl

/-- A call reads back if its tag does. -/
theorem Call.decoderWith_toJson {decodeTag : Nat → Json → Except Json.Problem Tag} {depth : Nat}
    {c : Call} (hdepth : 1 < depth) (htag : decodeTag (depth - 1) c.tag.toJson = .ok c.tag)
    (hattributes : c.attributes.toJson.nesting < depth - 1) :
    decoderWith decodeTag depth c.toJson = .ok c := by
  obtain ⟨members, hform, hfields⟩ := c.foldFields_toJson htag hattributes
  unfold decoderWith
  rw [hform]
  simp only [Json.deeper_of_lt hdepth, hfields]
  cases c
  rfl

/-- The argument of a template reads back if the calls in it do. -/
theorem Tag.decodeChildren_toJson {decodeCall : Nat → Json → Except Json.Problem Call}
    {children : List Call} {depth : Nat} (hdepth : 2 < depth)
    (h : ∀ c ∈ children, decodeCall (depth - 2) c.toJson = .ok c) :
    decodeChildren decodeCall depth
      (.record [("children", .list (Call.toJsonList children))]) = .ok children := by
  have hlist : Json.decodeArray decodeCall (depth - 1) (.list (Call.toJsonList children)) =
      .ok children := by
    rw [Call.toJsonList_eq]
    exact Json.decodeArray_list (by omega) h
  unfold decodeChildren Json.record
  simp only [List.map_cons, List.map_nil, Json.deeper_of_lt (show 1 < depth by omega)]
  rw [Json.foldFields_one hlist]
  rfl

/-- A tag reads back if the calls in it do. -/
theorem Tag.decoderWith_toJson {decodeCall : Nat → Json → Except Json.Problem Call} (tag : Tag)
    {depth : Nat} (hdepth : tag.toJson.nesting < depth)
    (h : ∀ children, tag = .template children →
      ∀ c ∈ children, decodeCall (depth - 3) c.toJson = .ok c) :
    decoderWith decodeCall depth tag.toJson = .ok tag := by
  cases tag with
  | heading style =>
    rw [toJson, Json.nesting_record_one] at hdepth
    rw [toJson]
    show Json.deeper depth _ = _
    rw [Json.deeper_of_lt (by omega)]
    show (Except.map heading (Json.decodeNamed HeadingSyntax.ofText? (depth - 1) _) >>= _) = _
    rw [Json.decodeNamed_string style.ofText?_text]
    rfl
  | template children =>
    rw [toJson, Json.nesting_record_one, Json.nesting_record_one, Json.nesting_list] at hdepth
    have hchildren : decodeChildren decodeCall (depth - 1)
        (.record [("children", .list (Call.toJsonList children))]) = .ok children :=
      decodeChildren_toJson (by omega) (h children rfl)
    rw [toJson]
    show Json.deeper depth _ = _
    rw [Json.deeper_of_lt (by omega)]
    show (Except.map template (decodeChildren decodeCall (depth - 1) (.record _)) >>= _) = _
    rw [hchildren]
    rfl
  | other name =>
    rw [toJson, Json.nesting_record_one] at hdepth
    rw [toJson]
    show Json.deeper depth _ = _
    rw [Json.deeper_of_lt (by omega)]
    rfl
  | division | header | editButton | adMarker | paragraph | media =>
    rw [toJson]
    rfl

theorem Call.nesting_toJson (c : Call) :
    c.tag.toJson.nesting < c.toJson.nesting ∧ c.attributes.toJson.nesting < c.toJson.nesting := by
  obtain ⟨tag, state, attributes, context, startPos, endPos, payload⟩ := c
  rw [Call.toJson]
  exact ⟨Json.nesting_lt_of_mem_record (List.mem_cons_self),
    Json.nesting_lt_of_mem_record (show ("attributes", attributes.toJson) ∈ _ by simp)⟩

theorem Tag.nesting_child_lt {children : List Call} {c : Call} (h : c ∈ children) :
    c.toJson.nesting + 3 ≤ (Tag.template children).toJson.nesting := by
  have hmem : c.toJson ∈ Call.toJsonList children := by
    rw [Call.toJsonList_eq]
    exact List.mem_map_of_mem h
  have hle := Json.nesting_le_nestingOfItems hmem
  rw [Tag.toJson, Json.nesting_record_one, Json.nesting_record_one, Json.nesting_list]
  omega

/-- **A call reads back** wherever its nesting is allowed. -/
theorem Call.decoderUpTo_toJson : ∀ (fuel depth : Nat) (c : Call), c.toJson.nesting < fuel →
    c.toJson.nesting < depth → decoderUpTo fuel depth c.toJson = .ok c
  | 0, _, _, h, _ => absurd h (Nat.not_lt_zero _)
  | fuel + 1, depth, c, hfuel, hdepth => by
    obtain ⟨htag, hattributes⟩ := c.nesting_toJson
    refine decoderWith_toJson (by omega) (Tag.decoderWith_toJson c.tag (by omega) ?_) (by omega)
    intro children heq d hd
    rw [heq] at htag
    have hchild := Tag.nesting_child_lt hd
    exact decoderUpTo_toJson fuel _ d (by omega) (by omega)

/-- Different calls have different JSON forms. -/
theorem Call.toJson_injective {c d : Call} (h : c.toJson = d.toJson) : c = d := by
  have hc := decoderUpTo_toJson (c.toJson.nesting + 1) (c.toJson.nesting + 1) c (by omega) (by omega)
  have hd := decoderUpTo_toJson (d.toJson.nesting + 1) (d.toJson.nesting + 1) d (by omega) (by omega)
  rw [h, hd] at hc
  exact (Except.ok.inj hc).symm

/-! ### Texts -/

mutual

/-- The positions in a tag are numbers of 64 bits. -/
def Tag.InWords : Tag → Prop
  | .template children => Call.AllInWords children
  | _ => True

/-- The positions of a call, and of the calls inside it, are numbers of 64 bits. -/
def Call.InWords : Call → Prop
  | ⟨tag, _, _, _, startPos, endPos, _⟩ =>
    Tag.InWords tag ∧ (∀ p ∈ startPos, p ≤ Word.maxNat) ∧ ∀ p ∈ endPos, p ≤ Word.maxNat

/-- The positions of calls are numbers of 64 bits. -/
def Call.AllInWords : List Call → Prop
  | [] => True
  | c :: cs => Call.InWords c ∧ Call.AllInWords cs

end

mutual

theorem Tag.exact_toJson : ∀ tag : Tag, tag.InWords → tag.toJson.Exact
  | .heading style, _ => by
    rw [Tag.toJson]
    exact .record fun m hm => List.mem_singleton.mp hm ▸ .string _
  | .template children, h => by
    rw [Tag.InWords] at h
    rw [Tag.toJson]
    refine .record fun m hm => List.mem_singleton.mp hm ▸ ?_
    refine .record fun m hm => List.mem_singleton.mp hm ▸ ?_
    exact .list (Call.exact_toJsonList children h)
  | .other name, _ => by
    rw [Tag.toJson]
    exact .record fun m hm => List.mem_singleton.mp hm ▸ .string _
  | .division, _ | .header, _ | .editButton, _ | .adMarker, _ | .paragraph, _ | .media, _ => by
    rw [Tag.toJson]
    exact .string _

/-- A text can stand for the JSON form of a call in full. -/
theorem Call.exact_toJson : ∀ c : Call, c.InWords → c.toJson.Exact
  | ⟨tag, state, attributes, context, startPos, endPos, payload⟩, h => by
    rw [Call.InWords] at h
    obtain ⟨htag, hstart, hend⟩ := h
    rw [Call.toJson]
    refine .record fun m hm => ?_
    simp only [List.mem_cons, List.not_mem_nil, or_false] at hm
    rcases hm with rfl | rfl | rfl | rfl | rfl | rfl | rfl
    · exact Tag.exact_toJson tag htag
    · exact .string _
    · exact attributes.exact_toJson
    · exact Json.exact_option fun s _ => .string s
    · exact Json.exact_option fun p hp => .natural (hstart p hp)
    · exact Json.exact_option fun p hp => .natural (hend p hp)
    · exact Json.exact_option fun s _ => .string s

theorem Call.exact_toJsonList : ∀ cs : List Call, Call.AllInWords cs →
    ∀ j ∈ Call.toJsonList cs, j.Exact
  | [], _ => fun _ h => by
    rw [Call.toJsonList] at h
    cases h
  | c :: cs, h => fun j hj => by
    rw [Call.AllInWords] at h
    rw [Call.toJsonList] at hj
    rcases List.mem_cons.mp hj with rfl | hj
    · exact Call.exact_toJson c h.1
    · exact Call.exact_toJsonList cs h.2 j hj

end

/-- **The JSON form of calls is lossless.**  A call reads back from its text if the text
nests less deep than a reader follows, and different calls have different texts. -/
theorem Call.form_lossless :
    (∀ c : Call, c.InWords → c.toJson.nesting < Json.depthLimit →
      Call.ofText c.toJson.print = .ok c) ∧
    ∀ c d : Call, c.InWords → d.InWords → c.toJson.print = d.toJson.print → c = d := by
  constructor
  · intro c hwords hnesting
    have hread := Json.read_print (c.exact_toJson hwords)
    have hcall : Call.decoder Json.depthLimit c.toJson = .ok c :=
      decoderUpTo_toJson _ _ c (by omega) hnesting
    unfold ofText Json.decode
    rw [hread]
    simp only [hcall]
    rfl
  · intro c d hc hd h
    exact toJson_injective (Json.print_injective (c.exact_toJson hc) (d.exact_toJson hd) h)

/-- A template around a paragraph with one attribute, at the limits of what is counted. -/
def Call.boxed (value : AttributeValue) : Call :=
  template [{ tag := .other "p\n\"x", state := .unmatched,
              attributes := ⟨[("k", .list [.list [value], .int Int64.minValue])]⟩,
              startPos := some 0, endPos := some Word.maxNat }]

theorem Call.boxed_inWords (value : AttributeValue) : (boxed value).InWords := by
  simp [boxed, template, special, InWords, Tag.InWords, AllInWords]

theorem Call.form_lossless_boxed :
    (boxed (.int 0)).InWords ∧ (boxed (.int 0)).toJson.nesting < Json.depthLimit ∧
      Call.ofText (boxed (.int 0)).toJson.print = .ok (boxed (.int 0)) ∧
      (boxed (.int 0)).toJson.print ≠ (boxed (.string "0")).toJson.print := by
  have hnesting : (boxed (.int 0)).toJson.nesting < Json.depthLimit := by decide
  refine ⟨boxed_inWords _, hnesting, form_lossless.1 _ (boxed_inWords _) hnesting, fun h => ?_⟩
  have heq := form_lossless.2 _ _ (boxed_inWords _) (boxed_inWords _) h
  cases heq

end WikiOutline
