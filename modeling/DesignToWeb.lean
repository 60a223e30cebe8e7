import DesignToWeb.Binary64.Basic
import DesignToWeb.Binary64.Bits
import DesignToWeb.Binary64.Shortest
import DesignToWeb.Conversion
import DesignToWeb.Css.Declaration
import DesignToWeb.Css.Layout
import DesignToWeb.Css.Paint
import DesignToWeb.Css.Stylesheet
import DesignToWeb.Css.Typography
import DesignToWeb.Design.Reading
import DesignToWeb.Design.Document
import DesignToWeb.Design.Effect
import DesignToWeb.Design.Element
import DesignToWeb.Design.Fill
import DesignToWeb.Design.Layout
import DesignToWeb.Design.Stroke
import DesignToWeb.Design.Typography
import DesignToWeb.Element
import DesignToWeb.Fault
import DesignToWeb.Heading
import DesignToWeb.Html.Markup
import DesignToWeb.Json.Basic
import DesignToWeb.Json.Label
import DesignToWeb.Json.Reader
import DesignToWeb.Json.Writer
import DesignToWeb.Layout
import DesignToWeb.Manifest
import DesignToWeb.Naming
import DesignToWeb.Proofs.Html.Pieces
import DesignToWeb.Proofs.Naming
import DesignToWeb.Proofs.Text.MadeOf
import DesignToWeb.Service.Assets
import DesignToWeb.Service.Documents
import DesignToWeb.Service.FileKey
import DesignToWeb.Service.Files
import DesignToWeb.Service.Front
import DesignToWeb.Service.Http
import DesignToWeb.Service.Renders
import DesignToWeb.Service.Session
import DesignToWeb.Service.Store
import DesignToWeb.Settings
import DesignToWeb.Strategy
import DesignToWeb.Style
import DesignToWeb.Text.Character
import DesignToWeb.Text.Numeral
import DesignToWeb.Text.Quoted
import DesignToWeb.Text.Sha1
import DesignToWeb.Text.Sorted
import DesignToWeb.Tree
import DesignToWeb.Proofs.Html.Decoding
import DesignToWeb.Proofs.Design.Kept
import DesignToWeb.Proofs.Design.Runs
import DesignToWeb.Proofs.LiveText
import DesignToWeb.Proofs.Css.Rules
import DesignToWeb.Proofs.Design.Placement
import DesignToWeb.Proofs.Tree
import DesignToWeb.Proofs.ContainingBlock
import DesignToWeb.Proofs.Service.Action
import DesignToWeb.Proofs.Service.Fetching
import DesignToWeb.Proofs.Service.Assets
import DesignToWeb.Proofs.Service.Conversion
import DesignToWeb.Proofs.Html.Addresses
import DesignToWeb.Proofs.Css.Addresses
import DesignToWeb.Proofs.Service.Site
import DesignToWeb.Proofs.Design.Walk
import DesignToWeb.Proofs.Design.Paints
import DesignToWeb.Proofs.Design.Membership
import DesignToWeb.Proofs.Counting
import DesignToWeb.Proofs.Drawing
import DesignToWeb.Proofs.Css.Layers
import DesignToWeb.Proofs.Css.Lines
import DesignToWeb.Proofs.Css.Cascade
import DesignToWeb.Proofs.Json.Label
import DesignToWeb.Proofs.Design.Stretches
import DesignToWeb.Proofs.Design.Hiding
import DesignToWeb.Proofs.Service.Exchanges
import DesignToWeb.Proofs.Service.Store
import DesignToWeb.Proofs.Service.Documents
import DesignToWeb.Proofs.Service.Renders
import DesignToWeb.Proofs.Service.Versions
import DesignToWeb.Proofs.Design.Faults
import DesignToWeb.Proofs.Service.Bitmaps
import DesignToWeb.Proofs.Service.Scales
import DesignToWeb.Proofs.Binary64.Rounding
import DesignToWeb.Proofs.Binary64.Text
import DesignToWeb.Proofs.Heading
import DesignToWeb.Proofs.Numbers
import DesignToWeb.Proofs.Design.Finiteness
import DesignToWeb.Proofs.Css.Overflow
import DesignToWeb.Proofs.Emission
import DesignToWeb.Proofs.Service.Asking
import DesignToWeb.Proofs.Service.Exporting
import DesignToWeb.Proofs.Service.Breaking
import DesignToWeb.Proofs.Service.Batches
import DesignToWeb.Proofs.Service.Failed
import DesignToWeb.Proofs.Service.Lockstep
import DesignToWeb.Proofs.Service.Separation
import DesignToWeb.Proofs.Service.Tokens
import DesignToWeb.Proofs.Service.Caching
import DesignToWeb.Proofs.Service.Reruns
import DesignToWeb.Proofs.Html.Elements
import DesignToWeb.Proofs.Outputs
import DesignToWeb.Proofs.Binary64.Sign
import DesignToWeb.Proofs.Service.Steps
import DesignToWeb.Proofs.Service.Attempts
import DesignToWeb.Proofs.Service.Slices
import DesignToWeb.Proofs.Service.Unions
import DesignToWeb.Proofs.Service.Pacing
import DesignToWeb.Proofs.Service.Delays
import DesignToWeb.Proofs.Service.Effects
import DesignToWeb.Proofs.Service.Rejected
import DesignToWeb.Proofs.Text.Trimming
import DesignToWeb.Proofs.Service.FileKey
import DesignToWeb.Proofs.Design.Conservation
import DesignToWeb.Proofs.Design.Parents
import DesignToWeb.Proofs.Design.Coherence
import DesignToWeb.Proofs.Binary64.Whole
import DesignToWeb.Proofs.Design.Positions
import DesignToWeb.Proofs.Policies
import DesignToWeb.Proofs.Design.Inheritance
import DesignToWeb.Proofs.Binary64.Minus
import DesignToWeb.Proofs.Css.Lengths
import DesignToWeb.Proofs.Design.Lengths
import DesignToWeb.Proofs.NegativeLengths
import DesignToWeb.Proofs.Design.Ranges
import DesignToWeb.Proofs.Text.Replacing
import DesignToWeb.Proofs.Html.Escaping
import DesignToWeb.Proofs.Naming.Reading
import DesignToWeb.Proofs.Binary64.Nearest
import DesignToWeb.Proofs.Heading.Turn
import DesignToWeb.Proofs.Binary64.Shortest
import DesignToWeb.Proofs.Text.Numeral
import DesignToWeb.Proofs.Binary64.Positional
import DesignToWeb.Proofs.Css.Numerals
