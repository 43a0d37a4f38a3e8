import CloudGraph.Build.Compile
import CloudGraph.Build.Grant
import CloudGraph.Build.Operation
import CloudGraph.Build.Project
import CloudGraph.Build.Registry
import CloudGraph.Build.Trigger
import CloudGraph.Build.Visit
import CloudGraph.Command.Host
import CloudGraph.Command.Run
import CloudGraph.Command.Screen
import CloudGraph.Command.Usage
import CloudGraph.Command.Workspace
import CloudGraph.Fault
import CloudGraph.Files.Path
import CloudGraph.Files.Tree
import CloudGraph.Fragment.Basic
import CloudGraph.Fragment.Call
import CloudGraph.Graph.Basic
import CloudGraph.Graph.Kind
import CloudGraph.Graph.Reader
import CloudGraph.Json.Reader
import CloudGraph.Log
import CloudGraph.Main
import CloudGraph.Number.Decimal
import CloudGraph.Number.Double
import CloudGraph.Number.Numeral
import CloudGraph.Problem
import CloudGraph.Proofs.Actions
import CloudGraph.Proofs.Alike
import CloudGraph.Proofs.Anchors
import CloudGraph.Proofs.BareTags
import CloudGraph.Proofs.Carrying
import CloudGraph.Proofs.Compiled
import CloudGraph.Proofs.Composites
import CloudGraph.Proofs.Containment
import CloudGraph.Proofs.Contribution
import CloudGraph.Proofs.Defined
import CloudGraph.Proofs.Draft
import CloudGraph.Proofs.Entries
import CloudGraph.Proofs.Failure
import CloudGraph.Proofs.FileNames
import CloudGraph.Proofs.Footprints
import CloudGraph.Proofs.InPlace
import CloudGraph.Proofs.Inventory
import CloudGraph.Proofs.JsonValues
import CloudGraph.Proofs.Loaded
import CloudGraph.Proofs.Loading
import CloudGraph.Proofs.Lookup
import CloudGraph.Proofs.Neighbours
import CloudGraph.Proofs.Objects
import CloudGraph.Proofs.Operations
import CloudGraph.Proofs.OrderIndependence
import CloudGraph.Proofs.Overlays
import CloudGraph.Proofs.Overwriting
import CloudGraph.Proofs.OwnedEdges
import CloudGraph.Proofs.Parts
import CloudGraph.Proofs.Patterns
import CloudGraph.Proofs.Permissions
import CloudGraph.Proofs.Places
import CloudGraph.Proofs.Provided
import CloudGraph.Proofs.QuotedTags
import CloudGraph.Proofs.References
import CloudGraph.Proofs.Requests
import CloudGraph.Proofs.Resolution
import CloudGraph.Proofs.Revisits
import CloudGraph.Proofs.RoundTrip
import CloudGraph.Proofs.RuleActions
import CloudGraph.Proofs.Runs
import CloudGraph.Proofs.Scaffolding
import CloudGraph.Proofs.Serialised
import CloudGraph.Proofs.Sessions
import CloudGraph.Proofs.SettingSources
import CloudGraph.Proofs.SharedObjects
import CloudGraph.Proofs.SharedParts
import CloudGraph.Proofs.Sharing
import CloudGraph.Proofs.SourceFiles
import CloudGraph.Proofs.Stored
import CloudGraph.Proofs.StoredKeys
import CloudGraph.Proofs.Storing
import CloudGraph.Proofs.Streams
import CloudGraph.Proofs.Templates
import CloudGraph.Proofs.Triggers
import CloudGraph.Proofs.Unions
import CloudGraph.Proofs.Unquoting
import CloudGraph.Proofs.Walks
import CloudGraph.Proofs.Wiring
import CloudGraph.Proofs.Writable
import CloudGraph.Proofs.Writes
import CloudGraph.Scaffold
import CloudGraph.Settings
import CloudGraph.Terminal.Style
import CloudGraph.Terminal.Table
import CloudGraph.Text.Lines
import CloudGraph.Text.Pattern
import CloudGraph.Text.Printable
import CloudGraph.Text.Quoted
import CloudGraph.Text.Range
import CloudGraph.Text.Width
import CloudGraph.Text.Word
import CloudGraph.Text.Wrap
import CloudGraph.Toml.Content
import CloudGraph.Toml.Entry
import CloudGraph.Toml.Header
import CloudGraph.Toml.Key
import CloudGraph.Toml.Line
import CloudGraph.Toml.Node
import CloudGraph.Toml.Parts
import CloudGraph.Toml.Pieces
import CloudGraph.Toml.Quoted
import CloudGraph.Toml.Reader
import CloudGraph.Toml.Scalar
import CloudGraph.Trace
import CloudGraph.Value.Basic
import CloudGraph.Value.Display
import CloudGraph.Value.Moment
import CloudGraph.Value.Path
import CloudGraph.Yaml.Descriptor
import CloudGraph.Yaml.Layout
import CloudGraph.Yaml.Node
import CloudGraph.Yaml.Resolve
import CloudGraph.Yaml.Scalar
import CloudGraph.Yaml.Tags
