/-
# The tree law

Of a page that can be built, the sections are those its starting calls begin, in
their order; each one's level is the one read, or one below the section before if
that is less; it hangs below the nearest section before it that lies higher, and
lies right below it; and there is a warning for each level that skips some, and
no other.  A build never looks for a parent above the root.

Key definition: `Outline.TreeLaw`.
Key theorem: `Outline.treeLaw_of_build`.
-/
import WikiOutline.Proofs.Attributes
import WikiOutline.Proofs.Growth

namespace WikiOutline

/-- The finding is about skipped levels. -/
def Finding.isSkip : Finding → Bool
  | .skippedLevels _ _ => true
  | _ => false

namespace Outline

open Builder Reading

/-- The section some parents up from a section. -/
def sectionAbove? (o : Outline) : Nat → Nat → Option Nat
  | 0, i => some i
  | steps + 1, i => (o.get i).parent.bind (o.sectionAbove? steps)

/-- What the sections of an outline are to the heading calls that start them. -/
structure TreeLaw (heads : List Call) (o : Outline) : Prop where
  size : o.size = heads.length + 1
  root : (o.get 0).level = 0 ∧ (o.get 0).parent = none
  /-- The level is the one read, and at most one below the section before. -/
  level : ∀ i c, heads[i]? = some c →
    (o.get (i + 1)).declaredLevel = levelRead (o.get i).level c ∧
      (o.get (i + 1)).level = min (levelRead (o.get i).level c) ((o.get i).level + 1)
  /-- The parent is the nearest section before that lies higher. -/
  parent : ∀ i, 0 < i → i < o.size → ∃ p, (o.get i).parent = some p ∧
    IsGreatest {j | j < i ∧ (o.get j).level < (o.get i).level} p ∧
    (o.get i).level = (o.get p).level + 1
  children : ∀ p, (o.get p).children =
    (List.range o.size).filter fun i => (o.get i).parent = some p
  /-- The heading begins with its call, which carries the level. -/
  heading : ∀ i c, heads[i]? = some c → ∃ call rest,
    (o.get (i + 1)).headingCalls = call :: rest ∧
      call = leveled c (o.get (i + 1)).declaredLevel (o.get (i + 1)).level ∧
      ∃ w, call.attributes.get? levelAttribute = some (.int w) ∧
        w.toInt = (o.get (i + 1)).level
  /-- The warnings about skipped levels, in the order of the headings. -/
  skips : o.diagnostics.filter (fun d => d.finding.isSkip) =
    heads.zipIdx.filterMap fun ci => skip? (o.get ci.2).level ci.1
  /-- No heading looks above the root: counting parents from the section before, by
  the difference of the levels and one more, ends at the parent. -/
  above : ∀ i c, heads[i]? = some c → levelRead (o.get i).level c ≤ (o.get i).level →
    o.sectionAbove? ((o.get i).level - levelRead (o.get i).level c + 1) i =
      (o.get (i + 1)).parent
  grounded : ∀ d ∈ o.diagnostics, ∀ level, d.finding ≠ .noAncestor level

namespace Builder

/-! ### What a build notes -/

/-- Of skipped levels the findings name those of the heading calls, and no finding
says that a section has no parent. -/
structure Noted (heads : List Call) (ns : List Node) (ds : List Diagnostic) : Prop where
  skips : ds.filter (fun d => d.finding.isSkip) =
    heads.zipIdx.filterMap fun ci => skip? (nodeAt ns ci.2).level ci.1
  grounded : ∀ d ∈ ds, ∀ level, d.finding ≠ .noAncestor level

/-- A finding about neither changes nothing. -/
theorem Noted.append {heads : List Call} {ns : List Node} {ds : List Diagnostic}
    (h : Noted heads ns ds) {d : Diagnostic} (hs : d.finding.isSkip = false)
    (hg : ∀ level, d.finding ≠ .noAncestor level) : Noted heads ns (ds ++ [d]) := by
  constructor
  · rw [List.filter_append, h.skips]
    simp [hs]
  · intro e hm
    rcases List.mem_append.mp hm with hm | hm
    · exact h.grounded e hm
    · rw [List.mem_singleton.mp hm]
      exact hg

theorem levelFindings_filter (previous : Nat) (c : Call) :
    (levelFindings previous c).filter (fun d => d.finding.isSkip) = [] := by
  unfold levelFindings
  split
  · split <;> rfl
  · rfl

theorem skip?_filter (previous : Nat) (c : Call) :
    (skip? previous c).toList.filter (fun d => d.finding.isSkip) = (skip? previous c).toList := by
  unfold skip?
  split <;> rfl

theorem levelFindings_grounded {previous : Nat} {c : Call} {d : Diagnostic}
    (h : d ∈ levelFindings previous c) (level : Nat) : d.finding ≠ .noAncestor level := by
  unfold levelFindings at h
  split at h
  · split at h
    · cases h
    · rw [List.mem_singleton.mp h]
      exact fun hd => by cases hd
  · rw [List.mem_singleton.mp h]
    exact fun hd => by cases hd

theorem skip?_grounded {previous : Nat} {c : Call} {d : Diagnostic}
    (h : d ∈ (skip? previous c).toList) (level : Nat) : d.finding ≠ .noAncestor level := by
  unfold skip? at h
  split at h
  · rw [List.mem_singleton.mp h]
    exact fun hd => by cases hd
  · cases h

/-- A started section is noted. -/
theorem Started.noted {heads : List Call} {b b' : Builder} {c : Call} (h : Started heads b c b')
    (hb : Sound heads b) (hd : Noted heads b.nodes b.diagnostics) :
    Noted (heads ++ [c]) b'.nodes b'.diagnostics := by
  obtain ⟨p, hp, hgrow⟩ := h.nodes
  have hlen := hb.tree.length
  have hlevel : ∀ i < heads.length + 1, (nodeAt b'.nodes i).level = (nodeAt b.nodes i).level := by
    intro i hi
    rw [hgrow, (nodeAt_grow_eq _ hp (by omega)).1]
  rw [h.diagnostics]
  constructor
  · rw [List.filter_append, List.filter_append, hd.skips, levelFindings_filter, skip?_filter,
      List.append_nil, List.zipIdx_append, List.filterMap_append]
    congr 1
    · refine List.filterMap_congr fun ci hci => ?_
      have hlt := List.snd_lt_of_mem_zipIdx hci
      rw [hlevel _ (by omega)]
    · simp only [List.zipIdx_cons, List.zipIdx_nil, List.filterMap_cons, List.filterMap_nil]
      rw [hlevel _ (by omega), Nat.zero_add, ← hb.current, nodeAt_nodes_level]
      cases skip? (b.get b.current).level c <;> rfl
  · intro d hm
    rcases List.mem_append.mp hm with hm | hm
    · rcases List.mem_append.mp hm with hm | hm
      · exact hd.grounded d hm
      · exact levelFindings_grounded hm
    · exact skip?_grounded hm

theorem Step.noted {heads : List Call} {b b' : Builder} {taken rest : List Call}
    (h : Step b taken rest b') (hb : Sound heads b) (hd : Noted heads b.nodes b.diagnostics) :
    Noted (heads ++ startingCalls b.reading taken) b'.nodes b'.diagnostics := by
  rcases h.starts_or_quiet hb with ⟨c, rfl, hst, ho, heq⟩ | hq
  · have hs := startSection_sound (hb.noteEnd c) (by rw [noteEnd_openHeading, ho]) heq
    have hcall : startingCalls b.reading [c] = [c] := by simp [startingCalls, hst]
    rw [hcall]
    exact hs.noted (hb.noteEnd c) (by rwa [nodes_noteEnd, noteEnd_diagnostics])
  · rw [hq.starts, List.append_nil, hq.nodes]
    rcases hq.diagnostics with h | ⟨p, h⟩
    · rwa [h]
    · rw [h]
      exact hd.append rfl fun _ h => by cases h

/-- A strict step has read the level of the section it starts. -/
theorem Step.readable {heads : List Call} {b b' : Builder} {taken rest : List Call}
    (h : Step b taken rest b') (hb : Sound heads b) (hs : b.strictness = .strict) :
    ∀ c ∈ startingCalls b.reading taken, c.attributes.getInt? levelAttribute ≠ none := by
  rcases h.starts_or_quiet hb with ⟨c, rfl, hst, ho, heq⟩ | hq
  · have hstart := startSection_sound (hb.noteEnd c) (by rw [noteEnd_openHeading, ho]) heq
    intro d hd
    have hcall : startingCalls b.reading [c] = [c] := by simp [startingCalls, hst]
    rw [hcall, List.mem_singleton] at hd
    rw [hd]
    exact hstart.readable ((noteEnd_strictness b c).trans hs)
  · rw [hq.starts]
    exact fun c hc => by cases hc

/-! ### Whole builds -/

/-- What has been built has the tree of the calls that start a section, and notes
their levels; if it is strict, it has read them. -/
theorem buildSections_sound {strictness : Strictness} {calls : List Call} {b : Builder}
    (h : buildSections strictness calls = .ok b) :
    Tree (startingCalls {} calls) b.nodes ∧
      Noted (startingCalls {} calls) b.nodes b.diagnostics ∧
      (strictness = .strict → ∀ c ∈ startingCalls {} calls,
        c.attributes.getInt? levelAttribute ≠ none) := by
  obtain ⟨b₀, hr, hf⟩ := buildSections_run h
  obtain ⟨heads, hs, ⟨hn, -, hread⟩, heq⟩ := hr.grows
    (Q := fun heads b => Noted heads b.nodes b.diagnostics ∧ b.strictness = strictness ∧
      (strictness = .strict → ∀ c ∈ heads, c.attributes.getInt? levelAttribute ≠ none))
    (fun {heads b b' taken rest} h hb ⟨hn, hst, hread⟩ => by
      refine ⟨h.noted hb hn, (h.strictness hb).trans hst, fun hs c hc => ?_⟩
      rcases List.mem_append.mp hc with hc | hc
      · exact hread hs c hc
      · exact h.readable hb (hst.trans hs) c hc)
    (sound_init strictness)
    ⟨⟨rfl, fun _ h => by cases h⟩, rfl, fun _ _ h => by cases h⟩
  rw [reading_init, List.nil_append, startingCalls, List.append_nil] at heq
  obtain ⟨hnodes, -, hdiag⟩ := finish_eq hf
  rw [← heq, hnodes]
  refine ⟨hs.tree, ?_, hread⟩
  rcases hdiag with h | ⟨p, h⟩
  · rwa [h]
  · rw [h]
    exact hn.append rfl fun _ h => by cases h

/-- Why a build stops. -/
theorem buildSections_error {strictness : Strictness} {calls : List Call} {d : Diagnostic}
    (h : buildSections strictness calls = .error d) :
    (∃ level, d.finding = .missingLevel level) ∨ d.finding = .strayHeadingExit ∨
      d.finding = .unclosedHeading := by
  rcases buildSections_stop h with ⟨b, c, rest, hr, he⟩ | ⟨b, hr, he⟩
  · obtain ⟨heads, hs, -, -⟩ := hr.grows (Q := fun _ _ => True) (fun _ _ _ => trivial)
      (sound_init strictness) trivial
    obtain ⟨-, he | ⟨-, rfl⟩⟩ := accept_error he
    · obtain ⟨p, -, heq⟩ := startSection_eq (hs.noteEnd c) c
      rw [he] at heq
      split at heq
      · cases heq
        exact .inl ⟨_, rfl⟩
      · cases heq
    · exact .inr (.inl rfl)
  · exact .inr (.inr (finish_error he).2)

end Builder

theorem buildWith_sound {σ : Type} {strictness : Strictness} {sink : Option (MetadataSink σ)}
    {calls : List Call} {s s' : σ} {o : Outline}
    (h : buildWith strictness sink calls s = .ok (o, s')) :
    Tree (startingCalls {} calls) o.nodes ∧
      Noted (startingCalls {} calls) o.nodes o.diagnostics ∧
      (strictness = .strict → ∀ c ∈ startingCalls {} calls,
        c.attributes.getInt? levelAttribute ≠ none) := by
  obtain ⟨b, hb, hsections, hdiag⟩ := buildWith_ok h
  obtain ⟨ht, hn, hread⟩ := buildSections_sound hb
  have hnodes : o.nodes = b.nodes := congrArg (List.map Section.node) hsections
  rw [hnodes]
  refine ⟨ht, ?_, hread⟩
  rcases hdiag with h | ⟨reason, h⟩
  · rwa [h]
  · rw [h]
    exact hn.append rfl fun _ h => by cases h

/-! ### The law of a tree -/

/-- A level that is read is in the range of the integers, if the one before is. -/
theorem levelRead_le (previous : Nat) (c : Call) :
    (levelRead previous c : Int) ≤ max Word.maxInt previous := by
  have hmax : (1 : Int) ≤ Word.maxInt := by decide
  unfold levelRead
  split
  · rename_i level hv
    have := Attributes.getInt?_le hv
    split <;> omega
  · omega

/-- The levels stay in the range of the integers they are read from. -/
theorem Tree.level_le {heads : List Call} {ns : List Node} (h : Tree heads ns) :
    ∀ i, ((nodeAt ns i).level : Int) ≤ Word.maxInt
  | 0 => by
    rw [h.rootLevel]
    decide
  | i + 1 => by
    have ih := h.level_le i
    rcases Nat.lt_or_ge i heads.length with hi | hi
    · obtain ⟨-, hl, -⟩ := h.isFrom i _ (List.getElem?_eq_getElem hi)
      have hread := levelRead_le (nodeAt ns i).level heads[i]
      rw [hl, effectiveLevel]
      omega
    · rw [nodeAt_of_length_le (by rw [h.length]; omega)]
      decide

/-- Counting parents from the section before a heading, by the difference of the
levels and one more, ends at the parent of its section. -/
theorem Tree.ancestor_parent {heads : List Call} {ns : List Node} (h : Tree heads ns) {i : Nat}
    {c : Call} (hc : heads[i]? = some c)
    (hle : levelRead (nodeAt ns i).level c ≤ (nodeAt ns i).level) :
    ancestor? ns ((nodeAt ns i).level - levelRead (nodeAt ns i).level c + 1) i =
      (nodeAt ns (i + 1)).parent := by
  have hlt : i + 1 < ns.length := by
    have := (List.getElem?_eq_some_iff.mp hc).1
    rw [h.length]
    omega
  have hlevel : (nodeAt ns (i + 1)).level = levelRead (nodeAt ns i).level c :=
    (h.isFrom i c hc).2.1.trans (min_eq_left (by omega))
  obtain ⟨p, hp, hb⟩ := h.below (i + 1) (Nat.succ_pos i) hlt
  have h1 := one_le_levelRead (nodeAt ns i).level c
  obtain ⟨a, ha, hai, hal, hab⟩ := h.exists_ancestor
    ((nodeAt ns i).level - levelRead (nodeAt ns i).level c + 1) i (by omega) (by omega)
  have hbelow : Below ns (nodeAt ns (i + 1)).level a (i + 1) := by
    refine ⟨by omega, by omega, fun j hj hji => ?_⟩
    have := hab j hj (by omega)
    omega
  rw [ha, hp, hbelow.unique hb]

/-- Parents counted in the tree are parents counted in the outline. -/
theorem sectionAbove?_eq (o : Outline) :
    ∀ steps i, o.sectionAbove? steps i = ancestor? o.nodes steps i
  | 0, _ => rfl
  | steps + 1, i => by
    simp only [sectionAbove?, ancestor?, nodeAt_nodes, Section.node]
    congr 1
    exact funext fun j => sectionAbove?_eq o steps j

/-- The heading of a section begins with its call, at its level. -/
theorem Tree.exists_heading {heads : List Call} {o : Outline} (h : Tree heads o.nodes) {i : Nat}
    {c : Call} (hc : heads[i]? = some c) :
    ∃ call rest, (o.get (i + 1)).headingCalls = call :: rest ∧
      call = leveled c (o.get (i + 1)).declaredLevel (o.get (i + 1)).level ∧
      ∃ w, call.attributes.get? levelAttribute = some (.int w) ∧
        w.toInt = (o.get (i + 1)).level := by
  obtain ⟨h1, h2, -, hlead⟩ := h.isFrom i c hc
  obtain ⟨w, hw, hwn⟩ := AttributeValue.ofNat_eq_int (h.level_le (i + 1))
  rw [← h1, ← h2] at hlead
  simp only [nodeAt_nodes] at hlead hw hwn
  obtain ⟨rest, hrest⟩ := List.head?_eq_some_iff.mp hlead
  refine ⟨_, rest, hrest, rfl, w, ?_, hwn⟩
  show (Attributes.set _ _ _).get? _ = _
  rw [Attributes.get?_set_self]
  exact congrArg some hw

/-- An outline that has the tree of its headings obeys the law. -/
theorem TreeLaw.of_tree {heads : List Call} {o : Outline} (h : Tree heads o.nodes)
    (hn : Noted heads o.nodes o.diagnostics) : TreeLaw heads o := by
  have hget : ∀ i, nodeAt o.nodes i = (o.get i).node := nodeAt_nodes o
  have hsize : o.nodes.length = o.size := length_nodes o
  constructor
  · exact hsize.symm.trans h.length
  · have h1 := h.rootLevel
    have h2 := h.rootParent
    rw [hget] at h1 h2
    exact ⟨h1, h2⟩
  · intro i c hc
    obtain ⟨h1, h2, -⟩ := h.isFrom i c hc
    rw [hget, hget] at h1 h2
    exact ⟨h1, h2⟩
  · intro i h0 hi
    obtain ⟨p, hp, hb⟩ := h.below i h0 (by omega)
    have hgreatest := hb.isGreatest
    have hl := hb.2.1
    simp only [hget] at hp hgreatest hl
    exact ⟨p, hp, hgreatest, hl.symm⟩
  · intro p
    have hc := h.children p
    simp only [hget, hsize] at hc
    exact hc
  · exact fun i c hc => h.exists_heading hc
  · have hs := hn.skips
    simp only [hget] at hs
    exact hs
  · intro i c hc hle
    have ha := h.ancestor_parent hc (by rw [hget]; exact hle)
    rw [hget, hget] at ha
    rw [sectionAbove?_eq]
    exact ha
  · exact hn.grounded

/-- **The tree law**: whatever is built obeys it, a strict build has read the level of
every heading, and no build fails for want of a parent. -/
theorem treeLaw_of_build {σ : Type} (strictness : Strictness) (sink : Option (MetadataSink σ))
    (calls : List Call) (s : σ) :
    match buildWith strictness sink calls s with
    | .ok (o, _) => TreeLaw (startingCalls {} calls) o ∧
      (strictness = .strict → ∀ c ∈ startingCalls {} calls,
        c.attributes.getInt? levelAttribute ≠ none)
    | .error d => ∀ level, d.finding ≠ .noAncestor level := by
  split
  · rename_i o s' heq
    obtain ⟨ht, hn, hread⟩ := buildWith_sound heq
    exact ⟨.of_tree ht hn, hread⟩
  · rename_i d heq
    intro level hd
    rcases buildSections_error (buildWith_error heq).1 with ⟨l, h⟩ | h | h
    all_goals
      rw [h] at hd
      cases hd

end Outline

end WikiOutline
