import MapEmbed.Attribute.Basic
import MapEmbed.Attribute.Coercion
import MapEmbed.Attribute.Reader
import MapEmbed.Block.Basic
import MapEmbed.Block.Tags
import MapEmbed.ClientGlobals
import MapEmbed.Command.Arguments
import MapEmbed.Command.Program
import MapEmbed.Command.VariableFile
import MapEmbed.File.Plan
import MapEmbed.File.Utf8
import MapEmbed.Html.Adoption
import MapEmbed.Html.AllowList
import MapEmbed.Html.Builder
import MapEmbed.Html.Element
import MapEmbed.Html.Forest
import MapEmbed.Html.Fragment
import MapEmbed.Html.Lexer
import MapEmbed.Html.Modes
import MapEmbed.Html.Node
import MapEmbed.Html.Reference
import MapEmbed.Html.Sanitizer
import MapEmbed.Html.Token
import MapEmbed.Json.Basic
import MapEmbed.Json.Printer
import MapEmbed.Json.Reader
import MapEmbed.Json.Written
import MapEmbed.Marker.Basic
import MapEmbed.Marker.Listing
import MapEmbed.Migration.Document
import MapEmbed.Migration.Fields
import MapEmbed.Number.Binary64
import MapEmbed.Number.Layout
import MapEmbed.Number.Shortest
import MapEmbed.OrderedMap
import MapEmbed.Page.BlockId
import MapEmbed.Page.Document
import MapEmbed.Page.Element
import MapEmbed.Settings.Basic
import MapEmbed.Settings.Decoding
import MapEmbed.Settings.Loading
import MapEmbed.Shortcode.Basic
import MapEmbed.Shortcode.Printer
import MapEmbed.Shortcode.Reader
import MapEmbed.Shortcode.Segmentation
import MapEmbed.Style.Builtin
import MapEmbed.Style.Catalog
import MapEmbed.Style.Dataset
import MapEmbed.Style.Dependency
import MapEmbed.Style.Provider
import MapEmbed.Style.Retired
import MapEmbed.Style.Service
import MapEmbed.Text.Basic
import MapEmbed.Text.Digits
import MapEmbed.Text.Edit
import MapEmbed.Text.Reference
import MapEmbed.Toml.Basic
import MapEmbed.Toml.Reader
import MapEmbed.Toml.Scalar
import MapEmbed.Unicode.Alphabetic
import MapEmbed.Unicode.CaseContext
import MapEmbed.Unicode.CaseRun
import MapEmbed.Unicode.Class
import MapEmbed.Unicode.Letter
import MapEmbed.Unicode.Lowercase
import MapEmbed.Unicode.Mark
import MapEmbed.Unicode.Numeral
import MapEmbed.Unicode.Ranges
import MapEmbed.Unicode.Separator
import MapEmbed.Unicode.Uppercase
import MapEmbed.Main
import MapEmbed.Proofs.Shortcode.Closing
import MapEmbed.Proofs.Shortcode.Standing
import MapEmbed.Proofs.Shortcode.Cutting
import MapEmbed.Proofs.Attribute.Lexeme
import MapEmbed.Proofs.Text.Escaping
import MapEmbed.Proofs.Text.SafeText
import MapEmbed.Proofs.Attribute.Reading
import MapEmbed.Proofs.Attribute.Reprint
import MapEmbed.Proofs.Migration.Rewriting
import MapEmbed.Proofs.Migration.Regrouping
import MapEmbed.Proofs.Migration.Structure
import MapEmbed.Proofs.Migration.Current
import MapEmbed.Proofs.Migration.Idempotence
import MapEmbed.Proofs.Html.References
import MapEmbed.Proofs.Html.Values
import MapEmbed.Proofs.Html.StartTags
import MapEmbed.Proofs.Json.Strings
import MapEmbed.Proofs.Page.MarkerData
import MapEmbed.Proofs.Attribute.EscapedValue
import MapEmbed.Proofs.Attribute.Joining
import MapEmbed.Proofs.Json.Escaping
import MapEmbed.Proofs.Page.EscapedAttributes
import MapEmbed.Proofs.Shortcode.Enclosing
import MapEmbed.Proofs.Page.OldMap
import MapEmbed.Proofs.Attribute.Separation
import MapEmbed.Proofs.File.Encoding
import MapEmbed.Proofs.Text.Slices
import MapEmbed.Proofs.Shortcode.Positions
import MapEmbed.Proofs.Shortcode.Grammar
import MapEmbed.Proofs.Page.Edits
import MapEmbed.Proofs.Migration.Report
import MapEmbed.Proofs.Migration.Looks
import MapEmbed.Proofs.Shortcode.Literal
import MapEmbed.Proofs.Page.Literal
import MapEmbed.Proofs.Shortcode.RoundTrip
import MapEmbed.Proofs.Shortcode.Case
import MapEmbed.Proofs.Page.Readers
import MapEmbed.Proofs.Migration.Markers
import MapEmbed.Proofs.Style.Construction
import MapEmbed.Proofs.Html.Tokens
import MapEmbed.Proofs.Page.Templates
import MapEmbed.Proofs.Html.Written
import MapEmbed.Proofs.Html.Provenance
import MapEmbed.Proofs.Html.ModeProvenance
import MapEmbed.Proofs.Html.Lexing
import MapEmbed.Proofs.Html.Clean
import MapEmbed.Proofs.Html.Growth
import MapEmbed.Proofs.Html.Tracking
import MapEmbed.Proofs.Html.Adopting
import MapEmbed.Proofs.Html.Accepting
import MapEmbed.Proofs.Html.Nesting
import MapEmbed.Proofs.Html.Departing
import MapEmbed.Proofs.Html.Emitting
import MapEmbed.Proofs.Html.Stability
import MapEmbed.Proofs.Migration.Conservation
import MapEmbed.Proofs.File.ReadsOnly
import MapEmbed.Proofs.Command.InPlace
import MapEmbed.Proofs.Command.Files
import MapEmbed.Proofs.Attribute.Numbering
import MapEmbed.Proofs.Text.Pattern
import MapEmbed.Proofs.Attribute.Tokenizing
import MapEmbed.Proofs.Attribute.DanglingQuote
import MapEmbed.Proofs.Number.Whole
import MapEmbed.Proofs.Attribute.LeadingNumber
import MapEmbed.Proofs.Block.MarkerIndex
import MapEmbed.Proofs.Html.Addresses
import MapEmbed.Proofs.Html.ReadableText
import MapEmbed.Proofs.Html.AttributeOrder
import MapEmbed.Proofs.Marker.Places
import MapEmbed.Proofs.Page.CleanMarker
