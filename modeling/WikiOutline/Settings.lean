/-
# Settings

Settings come from a TOML text: first the text is read, then the variables in the
wiki id are expanded, then the values are checked.  A part or field that is
missing keeps its default, and one that is not known counts for nothing.  A part
may also be given as an array of its fields in order.

Key definitions: `Settings`, `Settings.ofText`, `Settings.check`,
`SettingsError.message`.
-/
import WikiOutline.Rendering
import WikiOutline.Settings.Expansion
import WikiOutline.Toml.Reader

namespace WikiOutline

/-- The settings of outlines. -/
structure OutlineSettings where
  editButtons : Bool := true
  headerMetadata : Bool := true
  wikiId : String := "start"
  strict : Option Bool := none
  deriving Repr, BEq, DecidableEq

/-- The settings of advertisements. -/
structure AdSettings where
  enabled : Bool := false
  minCumulativeLines : Nat := 25
  minSectionLines : Nat := 3
  maxAds : Nat := 4
  skipLastSection : Bool := true
  deriving Repr, BEq, DecidableEq

/-- All settings, and the file they came from. -/
structure Settings where
  outline : OutlineSettings := {}
  ads : AdSettings := {}
  path : Option String := none
  deriving Repr, BEq, DecidableEq

/-- A value that is not allowed. -/
inductive Violation where
  | emptyWikiId
  | blankInWikiId
  | tooManyAds
  deriving Repr, BEq, DecidableEq

/-- Why there are no settings. -/
inductive SettingsError where
  | notFound (path : String)
  | isDirectory
  | notText
  | malformed
  | unsetVariable (field name : String)
  | violation (v : Violation)
  deriving Repr, BEq, DecidableEq

namespace Settings

/-- The most advertisements on one page. -/
def maxAdsLimit : Nat := 100

/-- The name of the field whose variables are expanded. -/
def wikiIdField : String := "outline.wiki_id"

end Settings

/-- The violation in words. -/
def Violation.message : Violation → String
  | .emptyWikiId => "outline.wiki_id cannot be empty"
  | .blankInWikiId => "outline.wiki_id cannot contain whitespace"
  | .tooManyAds => "ads.max_ads cannot exceed " ++ toString Settings.maxAdsLimit

/-- The error in words; what is told about files and about the form of a text is
only its kind. -/
def SettingsError.message : SettingsError → String
  | .notFound path => "Configuration file not found: " ++ path
  | .isDirectory => "I/O error: is a directory"
  | .notText => "I/O error: not UTF-8 text"
  | .malformed => "TOML parse error"
  | .unsetVariable field name =>
    "Environment variable error in " ++ field ++ ": $\x7b" ++ name ++ "\x7d not set"
  | .violation v => "Configuration error: " ++ v.message

namespace Settings

/-! ### Fields -/

/-- A truth value. -/
def readBool : Toml → Option Bool
  | .boolean b => some b
  | _ => none

/-- A natural number of 64 bits. -/
def readNat : Toml → Option Nat
  | .integer i => if 0 ≤ i && i ≤ Word.maxNat then some i.toNat else none
  | _ => none

/-- A string. -/
def readString : Toml → Option String
  | .string s => some s
  | _ => none

/-- Reads one field of the outline settings. -/
def readOutlineField (s : OutlineSettings) (name : String) (v : Toml) : Option OutlineSettings :=
  match name with
  | "edit_buttons" => (readBool v).map fun b => { s with editButtons := b }
  | "header_metadata" => (readBool v).map fun b => { s with headerMetadata := b }
  | "wiki_id" => (readString v).map fun t => { s with wikiId := t }
  | "strict" => (readBool v).map fun b => { s with strict := some b }
  | _ => some s

/-- Reads one field of the advertisement settings. -/
def readAdField (s : AdSettings) (name : String) (v : Toml) : Option AdSettings :=
  match name with
  | "enabled" => (readBool v).map fun b => { s with enabled := b }
  | "min_cumulative_lines" => (readNat v).map fun n => { s with minCumulativeLines := n }
  | "min_section_lines" => (readNat v).map fun n => { s with minSectionLines := n }
  | "max_ads" => (readNat v).map fun n => { s with maxAds := n }
  | "skip_last_section" => (readBool v).map fun b => { s with skipLastSection := b }
  | _ => some s

/-- The fields of the outline settings, in order. -/
def outlineFields : List String := ["edit_buttons", "header_metadata", "wiki_id", "strict"]

/-- The fields of the advertisement settings, in order. -/
def adFields : List String :=
  ["enabled", "min_cumulative_lines", "min_section_lines", "max_ads", "skip_last_section"]

/-- Reads a part: a table of fields, or an array of the first ones in order. -/
def readPart {α : Type} (fields : List String) (readField : α → String → Toml → Option α)
    (start : α) : Toml → Option α
  | .table _ entries => entries.foldlM (fun s e => readField s e.1 e.2) start
  | .array items => (fields.zip items).foldlM (fun s e => readField s e.1 e.2) start
  | .tables elements =>
    (fields.zip elements).foldlM (fun s e => readField s e.1 (.table .defined e.2)) start
  | _ => none

/-- Reads one part of the settings. -/
def readEntry (s : Settings) (name : String) (v : Toml) : Option Settings :=
  match name with
  | "outline" =>
    (readPart outlineFields readOutlineField {} v).map fun o => { s with outline := o }
  | "ads" => (readPart adFields readAdField {} v).map fun a => { s with ads := a }
  | _ => some s

/-- The settings of a TOML text as they stand there. -/
def parse (text : String) : Except SettingsError Settings :=
  match (Toml.read text).bind fun entries =>
      entries.foldlM (fun s e => readEntry s e.1 e.2) {} with
  | some s => .ok s
  | none => .error .malformed

/-! ### Expansion and checks -/

/-- Expands the variables in the wiki id. -/
def expandVariables (env : String → Option String) (s : Settings) :
    Except SettingsError Settings :=
  match Expansion.expand env s.outline.wikiId with
  | .ok id => .ok { s with outline := { s.outline with wikiId := id } }
  | .error name => .error (.unsetVariable wikiIdField name)

/-- The first violation, if there is one. -/
def violation? (s : Settings) : Option Violation :=
  if s.outline.wikiId.isEmpty then some .emptyWikiId
  else if s.outline.wikiId.toList.any Text.isBlank then some .blankInWikiId
  else if maxAdsLimit < s.ads.maxAds then some .tooManyAds
  else none

/-- Refuses settings with a violation. -/
def check (s : Settings) : Except SettingsError Unit :=
  match s.violation? with
  | some v => .error (.violation v)
  | none => .ok ()

/-- The settings of a TOML text. -/
def ofText (env : String → Option String) (text : String) : Except SettingsError Settings := do
  let s ← parse text
  let s ← s.expandVariables env
  s.check
  .ok s

/-! ### What the settings say -/

/-- What renditions may add. -/
def renderingOptions (s : Settings) : Rendering.Options where
  editButtons := s.outline.editButtons
  captureHeaderMetadata := s.outline.headerMetadata
  wikiId := s.outline.wikiId

/-- How strict builds are. -/
def strictness (s : Settings) : Strictness :=
  match s.outline.strict with
  | some true => .strict
  | some false => .lenient
  | none => .default

/-- The policy about advertisements, if there are to be any. -/
def adPolicy? (s : Settings) : Option IntervalAdPolicy :=
  if s.ads.enabled then
    some
      { minCumulativeLines := s.ads.minCumulativeLines
        minSectionLines := s.ads.minSectionLines
        maxAds := s.ads.maxAds
        skipLastSection := s.ads.skipLastSection }
  else none

end Settings

end WikiOutline
