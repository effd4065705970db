import WikiOutline.AdPlacement
import WikiOutline.Anchor
import WikiOutline.Attributes
import WikiOutline.Call
import WikiOutline.Call.Json
import WikiOutline.CallSequence
import WikiOutline.CallSequence.Operation
import WikiOutline.Decimal.Binary64
import WikiOutline.EditButton
import WikiOutline.EditButton.Marker
import WikiOutline.FileTree
import WikiOutline.Json.Basic
import WikiOutline.Json.Decode
import WikiOutline.Json.Reader
import WikiOutline.Json.Writer
import WikiOutline.Markdown.Block
import WikiOutline.Markdown.Block.Reading
import WikiOutline.Markdown.Block.Table
import WikiOutline.Markdown.Block.Verbatim
import WikiOutline.Markdown.Cursor
import WikiOutline.Markdown.Definition
import WikiOutline.Markdown.Document
import WikiOutline.Markdown.Escape
import WikiOutline.Markdown.Event
import WikiOutline.Markdown.HeadingAttributes
import WikiOutline.Markdown.HtmlSyntax
import WikiOutline.Markdown.Inline
import WikiOutline.Markdown.Inline.Emphasis
import WikiOutline.Markdown.Inline.Passage
import WikiOutline.Markdown.Interruption
import WikiOutline.Markdown.LineKind
import WikiOutline.Markdown.LineStart
import WikiOutline.Markdown.Link
import WikiOutline.Markdown.NamedCharacter
import WikiOutline.Markdown.Piece
import WikiOutline.Markdown.Transcript
import WikiOutline.Outline.Basic
import WikiOutline.Outline.Builder
import WikiOutline.Outline.Diagnostic
import WikiOutline.Outline.Section
import WikiOutline.Outline.Walk
import WikiOutline.PageMetadata
import WikiOutline.Rendering
import WikiOutline.Settings
import WikiOutline.Settings.Discovery
import WikiOutline.Settings.Expansion
import WikiOutline.Text.Alphanumeric
import WikiOutline.Text.Blank
import WikiOutline.Text.CaseFold
import WikiOutline.Text.Display
import WikiOutline.Text.Integer
import WikiOutline.Text.Lowercase
import WikiOutline.Text.Punctuation
import WikiOutline.Text.Ranges
import WikiOutline.Toml.Basic
import WikiOutline.Toml.Reader
import WikiOutline.Toml.Scalar
import WikiOutline.Proofs.Attributes
import WikiOutline.Proofs.AttributeEdits
import WikiOutline.Proofs.Reading
import WikiOutline.Proofs.Steps
import WikiOutline.Proofs.Tree
import WikiOutline.Proofs.Effects
import WikiOutline.Proofs.Growth
import WikiOutline.Proofs.TreeLaw
import WikiOutline.Proofs.Filing
import WikiOutline.Proofs.Frontier
import WikiOutline.Proofs.Openings
import WikiOutline.Proofs.Anchors
import WikiOutline.Proofs.LetterCase
import WikiOutline.Proofs.Slugs
import WikiOutline.Proofs.SlugForm
import WikiOutline.Proofs.Headings
import WikiOutline.Proofs.Conservation
import WikiOutline.Proofs.Agreement
import WikiOutline.Proofs.Trail
import WikiOutline.Proofs.LenientOrder
import WikiOutline.Proofs.Completion
import WikiOutline.Proofs.Shape
import WikiOutline.Proofs.Insertions
import WikiOutline.Proofs.Additions
import WikiOutline.Proofs.Lockstep
import WikiOutline.Proofs.Containment
import WikiOutline.Proofs.AdSlots
import WikiOutline.Proofs.AdSpacing
import WikiOutline.Proofs.Nesting
import WikiOutline.Proofs.BalanceCheck
import WikiOutline.Proofs.Partners
import WikiOutline.Proofs.Kinship
import WikiOutline.Proofs.LastSection
import WikiOutline.Proofs.Balance
import WikiOutline.Proofs.Ends
import WikiOutline.Proofs.ExactEnds
import WikiOutline.Proofs.Spans
import WikiOutline.Proofs.Copies
import WikiOutline.Proofs.Composition
import WikiOutline.Proofs.NormalForm
import WikiOutline.Proofs.JsonText
import WikiOutline.Proofs.Decoding
import WikiOutline.Proofs.CallForm
import WikiOutline.Proofs.DecodedBags
import WikiOutline.Proofs.Markers
import WikiOutline.Proofs.Origins
import WikiOutline.Proofs.Links
import WikiOutline.Proofs.EditButtons
import WikiOutline.Proofs.CursorSafety
import WikiOutline.Proofs.RewritingPass
import WikiOutline.Proofs.Elements
import WikiOutline.Proofs.Passages
import WikiOutline.Proofs.Transcripts
import WikiOutline.Proofs.AuthorLevels
import WikiOutline.Proofs.LargestEnd
import WikiOutline.Proofs.LastSlot
import WikiOutline.Proofs.Recursion
import WikiOutline.Proofs.Traversals
import WikiOutline.Proofs.FeaturedImage
import WikiOutline.Proofs.TranscriptBalance
import WikiOutline.Proofs.Places
import WikiOutline.Proofs.HeadingEvents
import WikiOutline.Proofs.HeadingPlaces
import WikiOutline.Proofs.HeadingForms
import WikiOutline.Proofs.Paths
import WikiOutline.Proofs.SettingsSearch
