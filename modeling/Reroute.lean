import Reroute.Build
import Reroute.CommandLine.Run
import Reroute.Config.Basic
import Reroute.Discovery
import Reroute.Files.Difference
import Reroute.Hook.Server
import Reroute.Main
import Reroute.Pipeline.Report
import Reroute.Proofs.Search
import Reroute.Proofs.Text.Reading
import Reroute.Rule.Document
import Reroute.Store.Merge
import Reroute.Proofs.Text.Places
import Reroute.Proofs.SourceMap.Coverage
import Reroute.Proofs.SourceMap.RoundTrip
import Reroute.Proofs.Overlay.Cutting
import Reroute.Proofs.Overlay.Strokes
import Reroute.Proofs.Overlay.Tracing
import Reroute.Proofs.Transform.Exactness
import Reroute.Proofs.Json.Extent
import Reroute.Proofs.SourceMap.Composition
import Reroute.Proofs.Transform.Composed
import Reroute.Proofs.Digest.Messages
import Reroute.Proofs.Pipeline.Steps
import Reroute.Proofs.Pipeline.Ledger
import Reroute.Proofs.Pipeline.Transparency
import Reroute.Proofs.SourceMap.Comment
import Reroute.Proofs.Pipeline.Rerun
import Reroute.Proofs.SourceMap.Differences
import Reroute.Proofs.SourceMap.Grammar
import Reroute.Proofs.Store.Serving
import Reroute.Proofs.Pipeline.Recognition
import Reroute.Proofs.Json.RoundTrip
import Reroute.Proofs.Text.Base64
import Reroute.Proofs.SourceMap.Inline
import Reroute.Proofs.Rule.Keywords
import Reroute.Proofs.Pipeline.Setup
import Reroute.Proofs.Pipeline.Filtering
import Reroute.Proofs.Pipeline.Keys
import Reroute.Proofs.Pipeline.Failing
import Reroute.Proofs.Files.Placing
import Reroute.Proofs.CommandLine.Untouched
import Reroute.Proofs.Store.Views
import Reroute.Proofs.Pipeline.Scheduling
import Reroute.Proofs.Store.Agreement
import Reroute.Proofs.Pipeline.Sharing
import Reroute.Proofs.Hook.Replies
import Reroute.Proofs.Transform.Replacement
import Reroute.Proofs.Store.Histories
import Reroute.Proofs.Store.Completeness
import Reroute.Proofs.Files.Completeness
import Reroute.Proofs.Pipeline.Completeness
import Reroute.Proofs.CommandLine.Reporting
import Reroute.Proofs.Files.Paths
import Reroute.Proofs.Files.Walking
import Reroute.Proofs.CommandLine.Destinations
import Reroute.Proofs.Store.Opening
import Reroute.Proofs.SourceMap.Trailing
import Reroute.Proofs.SourceMap.Closest
import Reroute.Proofs.SourceMap.Resolution
import Reroute.Proofs.SourceMap.Writing
import Reroute.Proofs.Overlay.Extent
import Reroute.Proofs.SourceMap.Finishing
import Reroute.Proofs.Overlay.Arrangement
import Reroute.Proofs.Overlay.Tiling
import Reroute.Proofs.Overlay.Offsets
import Reroute.Proofs.Store.Union
import Reroute.Proofs.Files.Likeness
import Reroute.Proofs.Files.Holding
import Reroute.Proofs.Store.Merging
import Reroute.Proofs.SourceMap.Naming
import Reroute.Proofs.Transform.Failing
import Reroute.Proofs.Transform.Undoing
import Reroute.Proofs.Store.Pooling
import Reroute.Proofs.Transform.Describing
import Reroute.Proofs.Overlay.Thinning
import Reroute.Proofs.Text.Lines
import Reroute.Proofs.Overlay.Characters
import Reroute.Proofs.Files.Leaves
import Reroute.Proofs.Files.Following
import Reroute.Proofs.Discovery
import Reroute.Proofs.Text.Boundaries
import Reroute.Proofs.Rule.Candidates
import Reroute.Proofs.Json.Literals
import Reroute.Proofs.Hook.Maps
import Reroute.Pipeline.Workers
import Reroute.Proofs.Pipeline.Workers
import Reroute.Proofs.Hook.Streams
import Reroute.Proofs.Hook.Answering
import Reroute.Proofs.Hook.Exchange
