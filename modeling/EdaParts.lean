import EdaParts.Binary64
import EdaParts.Checked
import EdaParts.Component.Convert
import EdaParts.Component.Envelope
import EdaParts.Component.Generate
import EdaParts.Component.Import
import EdaParts.Component.Reference
import EdaParts.Component.Source
import EdaParts.Decimal.Notation
import EdaParts.Decimal.Reader
import EdaParts.Decimal.Shortest
import EdaParts.Error
import EdaParts.Footprint.Basic
import EdaParts.Footprint.Box
import EdaParts.Footprint.Drawing
import EdaParts.Footprint.Model
import EdaParts.Footprint.Record
import EdaParts.Frame
import EdaParts.Geometry.Arc
import EdaParts.Geometry.Bezier
import EdaParts.Geometry.Point
import EdaParts.Json.Document
import EdaParts.Json.Flaw
import EdaParts.Json.Layout
import EdaParts.Json.Number
import EdaParts.Json.Reader
import EdaParts.Json.Value
import EdaParts.Layer
import EdaParts.Legacy.Footprint
import EdaParts.Legacy.Line
import EdaParts.Legacy.Symbol
import EdaParts.Modern.Expr
import EdaParts.Modern.Footprint
import EdaParts.Modern.Symbol
import EdaParts.Notice
import EdaParts.Options
import EdaParts.Path.Describe
import EdaParts.Path.Element
import EdaParts.Path.Segment
import EdaParts.Proofs.Store.EntrySpan
import EdaParts.Proofs.Store.Files
import EdaParts.Proofs.Text.Lines
import EdaParts.Proofs.Text.Occurrence
import EdaParts.Record.Fields
import EdaParts.Record.Skip
import EdaParts.Record.Tokens
import EdaParts.Store.Component
import EdaParts.Store.EntryPattern
import EdaParts.Store.FileTree
import EdaParts.Store.Library
import EdaParts.Symbol.Basic
import EdaParts.Symbol.Drawing
import EdaParts.Symbol.Record
import EdaParts.Text.Blank
import EdaParts.Text.Literal
import EdaParts.Text.Printable
import EdaParts.Text.Split
import EdaParts.Proofs.Store.Operations
import EdaParts.Proofs.Decimal.Numeral
import EdaParts.Proofs.Legacy.Lines
import EdaParts.Proofs.Symbol.Texts
import EdaParts.Proofs.Legacy.Entry
import EdaParts.Proofs.Modern.Expr
import EdaParts.Proofs.Modern.Entry
import EdaParts.Proofs.Store.Insertion
import EdaParts.Proofs.Store.History
import EdaParts.Proofs.Store.Rewriting
import EdaParts.Proofs.Store.Failure
import EdaParts.Proofs.Modern.Reading
import EdaParts.Proofs.Modern.Printing
import EdaParts.Proofs.Modern.Children
import EdaParts.Proofs.Modern.Layout
import EdaParts.Proofs.Store.Layout
import EdaParts.Proofs.Store.Frames
import EdaParts.Proofs.Store.Report
import EdaParts.Proofs.Text.Pieces
import EdaParts.Proofs.Decimal.Coordinates
import EdaParts.Proofs.Modern.Spelling
import EdaParts.Proofs.Modern.Parts
import EdaParts.Proofs.Modern.SymbolForm
import EdaParts.Proofs.Modern.FootprintForm
import EdaParts.Proofs.Legacy.Reading
import EdaParts.Proofs.Legacy.SymbolForm
import EdaParts.Proofs.Legacy.FootprintForm
import EdaParts.Proofs.Footprint.Agreement
import EdaParts.Proofs.Binary64.Order
import EdaParts.Proofs.Record.Reading
import EdaParts.Proofs.Footprint.Placements
import EdaParts.Proofs.Footprint.Extent
import EdaParts.Proofs.Footprint.Centering
import EdaParts.Proofs.Component.Skipping
import EdaParts.Proofs.Component.Importing
import EdaParts.Proofs.Footprint.Mounting
import EdaParts.Proofs.Checked
import EdaParts.Proofs.Symbol.Records
import EdaParts.Proofs.Symbol.Words
import EdaParts.Proofs.Binary64.Magnitude
import EdaParts.Proofs.Decimal.Finite
import EdaParts.Proofs.Symbol.Range
import EdaParts.Proofs.Footprint.Range
import EdaParts.Proofs.Modern.Decimals
import EdaParts.Proofs.Legacy.Decimals
import EdaParts.Proofs.Component.Decimals
import EdaParts.Proofs.Symbol.Wiring
import EdaParts.Proofs.Footprint.Models
import EdaParts.Proofs.Store.Confinement
import EdaParts.Proofs.Component.Confinement
import EdaParts.Proofs.Component.Linking
import EdaParts.Proofs.Path.Strokes
import EdaParts.Proofs.Path.Connected
import EdaParts.Proofs.Symbol.Paths
import EdaParts.Proofs.Json.Values
import EdaParts.Proofs.Json.Records
import EdaParts.Proofs.Record.Tokens
import EdaParts.Proofs.Footprint.ModelNodes
import EdaParts.Proofs.Record.Vertices
import EdaParts.Proofs.Legacy.Columns
import EdaParts.Proofs.Footprint.Arcs
import EdaParts.Proofs.Binary64.Nonzero
import EdaParts.Proofs.Decimal.Zero
import EdaParts.Proofs.Footprint.Pads
import EdaParts.Proofs.Symbol.Rectangles
import EdaParts.Proofs.Store.Overwriting
import EdaParts.Proofs.Footprint.LayerCodes
import EdaParts.Proofs.Component.Naming
