import FlatCrate.Source.Stub
import FlatCrate.FileTree.Edit
import FlatCrate.FileTree.Difference
import FlatCrate.Flatten.Run
import FlatCrate.Graph.Drawing
import FlatCrate.Graph.Report
import FlatCrate.Manifest
import FlatCrate.Json.Read
import FlatCrate.Value.Literal
import FlatCrate.Settings.Basic
import FlatCrate.Pack
import FlatCrate.Settings.Load
import FlatCrate.CommandLine.Arguments
import FlatCrate.CommandLine.Run
import FlatCrate.Main
import FlatCrate.Proofs.Flatten.FixedPoint
import FlatCrate.Proofs.Flatten.Cycle
import FlatCrate.Proofs.Flatten.ErrorStack
import FlatCrate.Proofs.Flatten.Unfolding
import FlatCrate.Proofs.Flatten.Allowance
import FlatCrate.Proofs.Flatten.Layouts
import FlatCrate.Proofs.Source.FunctionItem
import FlatCrate.Proofs.Pack.Staging
import FlatCrate.Proofs.Pack.EarlyFault
import FlatCrate.Proofs.Pack.Built
import FlatCrate.Proofs.Pack.Placed
import FlatCrate.Proofs.FileTree.NewDirectory
import FlatCrate.Proofs.Pack.Fresh
import FlatCrate.Proofs.Pack.Order
import FlatCrate.Proofs.Pack.Listed
import FlatCrate.Proofs.Source.Joined
import FlatCrate.Proofs.Source.Attribute
import FlatCrate.Proofs.Source.Override
import FlatCrate.Proofs.Source.Spliced
import FlatCrate.Proofs.Source.Appended
import FlatCrate.Proofs.Source.Nested
import FlatCrate.Proofs.CommandLine.Ending
import FlatCrate.Proofs.Json.Escaped
import FlatCrate.Proofs.Json.RoundTrip
import FlatCrate.Proofs.FileTree.Named
import FlatCrate.Proofs.Flatten.Opened
import FlatCrate.Proofs.Graph.Labels
import FlatCrate.Proofs.Manifest
import FlatCrate.Proofs.Source.Grammar
import FlatCrate.Proofs.Graph.Drawing
import FlatCrate.Proofs.Flatten.Recorder
import FlatCrate.Proofs.Settings.Accepted
import FlatCrate.Proofs.Graph.ChangeLog
import FlatCrate.Proofs.Settings.Overridden
import FlatCrate.Proofs.Flatten.Identity
import FlatCrate.Proofs.Source.Braced
