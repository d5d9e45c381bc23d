import NodeLink.Canvas
import NodeLink.CommandLine.Arguments
import NodeLink.CommandLine.Draws
import NodeLink.CommandLine.Option
import NodeLink.CommandLine.Run
import NodeLink.Drawing.Box
import NodeLink.Drawing.Caption
import NodeLink.Drawing.Fan
import NodeLink.Drawing.OfGraph
import NodeLink.Drawing.Options
import NodeLink.Drawing.Scene
import NodeLink.Export
import NodeLink.Fault
import NodeLink.Files.Fault
import NodeLink.Files.Tree
import NodeLink.Geometry.Curve
import NodeLink.Geometry.Outline
import NodeLink.Geometry.PathText
import NodeLink.Geometry.Point
import NodeLink.Graph.Basic
import NodeLink.Graph.Document
import NodeLink.Graph.Dot
import NodeLink.Graph.Kind
import NodeLink.Icon.Bundled
import NodeLink.Icon.Place
import NodeLink.Icon.Source
import NodeLink.Icon.Symbol
import NodeLink.Json.Basic
import NodeLink.Json.Reader
import NodeLink.Json.Writer
import NodeLink.Layout.Force
import NodeLink.Layout.Graphviz
import NodeLink.Layout.Strategy
import NodeLink.Main
import NodeLink.Notice
import NodeLink.Number.Basic
import NodeLink.Number.Binary64
import NodeLink.Number.CompactText
import NodeLink.Number.FixedText
import NodeLink.Number.Reading
import NodeLink.Number.ShortestText
import NodeLink.Pipeline
import NodeLink.Proofs.Canvas
import NodeLink.Proofs.CommandLine.Endings
import NodeLink.Proofs.CommandLine.OutputPlaces
import NodeLink.Proofs.CommandLine.Settings
import NodeLink.Proofs.CommandLine.Stages
import NodeLink.Proofs.Drawing.CaptionCurves
import NodeLink.Proofs.Drawing.Extents
import NodeLink.Proofs.Drawing.Fans
import NodeLink.Proofs.Drawing.FontSizes
import NodeLink.Proofs.Drawing.ParallelEdges
import NodeLink.Proofs.Drawing.ParallelLines
import NodeLink.Proofs.Drawing.Totality
import NodeLink.Proofs.Drawing.Viewport
import NodeLink.Proofs.Files.Contents
import NodeLink.Proofs.Files.Paths
import NodeLink.Proofs.Geometry.Arrows
import NodeLink.Proofs.Geometry.Clipping
import NodeLink.Proofs.Geometry.Crossing
import NodeLink.Proofs.Geometry.Exact
import NodeLink.Proofs.Geometry.ExactTenths
import NodeLink.Proofs.Geometry.OutlineTexts
import NodeLink.Proofs.Geometry.PathFollowing
import NodeLink.Proofs.Geometry.PathReading
import NodeLink.Proofs.Geometry.SingleCrossings
import NodeLink.Proofs.Geometry.SubCurves
import NodeLink.Proofs.Geometry.Totality
import NodeLink.Proofs.Graph.Building
import NodeLink.Proofs.Graph.Documents
import NodeLink.Proofs.Graph.DotDocuments
import NodeLink.Proofs.Graph.DotNames
import NodeLink.Proofs.Graph.DotReading
import NodeLink.Proofs.Graph.DotStatements
import NodeLink.Proofs.Graph.Numbering
import NodeLink.Proofs.Graph.RoundTrip
import NodeLink.Proofs.Graph.Writing
import NodeLink.Proofs.Icon.Completions
import NodeLink.Proofs.Icon.Extraction
import NodeLink.Proofs.Icon.Gathering
import NodeLink.Proofs.Icon.Loading
import NodeLink.Proofs.Icon.Placement
import NodeLink.Proofs.Icon.SymbolIds
import NodeLink.Proofs.Icon.Totality
import NodeLink.Proofs.Json.Numbers
import NodeLink.Proofs.Json.Texts
import NodeLink.Proofs.Json.Values
import NodeLink.Proofs.Layout.Answers
import NodeLink.Proofs.Layout.Balance
import NodeLink.Proofs.Layout.Coordinates
import NodeLink.Proofs.Layout.ExactForces
import NodeLink.Proofs.Layout.Fallback
import NodeLink.Proofs.Layout.ForceLaw
import NodeLink.Proofs.Layout.Plotting
import NodeLink.Proofs.Layout.Positions
import NodeLink.Proofs.Layout.Simulation
import NodeLink.Proofs.Layout.Springs
import NodeLink.Proofs.Layout.Totality
import NodeLink.Proofs.Number.Doubles
import NodeLink.Proofs.Number.Operations
import NodeLink.Proofs.Number.Ranges
import NodeLink.Proofs.Number.Thousandths
import NodeLink.Proofs.Number.Values
import NodeLink.Proofs.Outcome
import NodeLink.Proofs.Pipeline
import NodeLink.Proofs.Schedule.Containment
import NodeLink.Proofs.Schedule.DebouncedCalls
import NodeLink.Proofs.Schedule.HeapOrder
import NodeLink.Proofs.Schedule.Ledger
import NodeLink.Proofs.Schedule.LiveResults
import NodeLink.Proofs.Schedule.Timers
import NodeLink.Proofs.Schedule.Visits
import NodeLink.Proofs.Schedule.Watching
import NodeLink.Proofs.Source.Characters
import NodeLink.Proofs.Source.Connectors
import NodeLink.Proofs.Source.EdgeLines
import NodeLink.Proofs.Source.Lengths
import NodeLink.Proofs.Source.Lines
import NodeLink.Proofs.Source.LongNumbers
import NodeLink.Proofs.Source.MarkCuts
import NodeLink.Proofs.Source.Meaning
import NodeLink.Proofs.Source.NodeLines
import NodeLink.Proofs.Source.Recognition
import NodeLink.Proofs.Source.Spacing
import NodeLink.Proofs.Svg.Characters
import NodeLink.Proofs.Svg.Documents
import NodeLink.Proofs.Svg.Elements
import NodeLink.Proofs.Svg.Escaping
import NodeLink.Proofs.Svg.Layers
import NodeLink.Proofs.Svg.LegalDocuments
import NodeLink.Proofs.Svg.PlainTexts
import NodeLink.Proofs.Svg.Reading
import NodeLink.Proofs.Svg.Repetition
import NodeLink.Proofs.Svg.Shortening
import NodeLink.Proofs.Svg.SymbolReferences
import NodeLink.Proofs.Svg.Totality
import NodeLink.Proofs.Svg.Trees
import NodeLink.Proofs.Svg.Written
import NodeLink.Proofs.Text.Cutting
import NodeLink.Proofs.Text.Digits
import NodeLink.Proofs.Text.FileNames
import NodeLink.Proofs.Text.Parts
import NodeLink.Scalar
import NodeLink.Schedule.Calls
import NodeLink.Schedule.Clock
import NodeLink.Schedule.Debouncer
import NodeLink.Schedule.Heap
import NodeLink.Schedule.Live
import NodeLink.Schedule.Timeline
import NodeLink.Schedule.Watch
import NodeLink.Source.Connector
import NodeLink.Source.Declaration
import NodeLink.Source.Document
import NodeLink.Source.Vocabulary
import NodeLink.Svg.Caption
import NodeLink.Svg.Markup
import NodeLink.Svg.Render
import NodeLink.Text.Blank
import NodeLink.Text.Digit
import NodeLink.Text.FileAddress
import NodeLink.Text.FileName
import NodeLink.Text.HalfPair
import NodeLink.Text.HostChar
import NodeLink.Text.HostName
import NodeLink.Text.LetterCase
import NodeLink.Text.Path
import NodeLink.Text.Printable
import NodeLink.Text.Quoted
import NodeLink.Text.RangeTable
import NodeLink.Text.Replacement
import NodeLink.Text.SmallLetter
import NodeLink.Text.Utf8
import NodeLink.Text.WebAddress
import NodeLink.Text.WordChar
import NodeLink.Value
