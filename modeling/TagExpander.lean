import TagExpander.Argument.Basic
import TagExpander.Argument.Binding
import TagExpander.CommandLine.Options
import TagExpander.CommandLine.Run
import TagExpander.CommandLine.Style
import TagExpander.CommandLine.Terminal
import TagExpander.CommandLine.Usage
import TagExpander.Decimal
import TagExpander.Document
import TagExpander.Failure
import TagExpander.Fields
import TagExpander.FileTree
import TagExpander.Handler.Basic
import TagExpander.Handler.Builtin
import TagExpander.Handler.Script
import TagExpander.Json.Printer
import TagExpander.Json.Reader
import TagExpander.Json.Value
import TagExpander.Main
import TagExpander.Markup.Cursor
import TagExpander.Markup.Marker
import TagExpander.Markup.Scan
import TagExpander.Metadata
import TagExpander.Pass.Expand
import TagExpander.Pass.Progress
import TagExpander.Path.Basic
import TagExpander.Proofs.Argument.Binding
import TagExpander.Proofs.Argument.Caseless
import TagExpander.Proofs.Argument.Offsets
import TagExpander.Proofs.Argument.Reader
import TagExpander.Proofs.Argument.Splitting
import TagExpander.Proofs.Argument.Writing
import TagExpander.Proofs.CommandLine.AllOrNothing
import TagExpander.Proofs.CommandLine.Expanding
import TagExpander.Proofs.FileTree.Places
import TagExpander.Proofs.FileTree.Rewriting
import TagExpander.Proofs.FileTree.Writing
import TagExpander.Proofs.Handler.Echoes
import TagExpander.Proofs.Handler.Loop
import TagExpander.Proofs.Markup.Absorption
import TagExpander.Proofs.Markup.BareWords
import TagExpander.Proofs.Markup.Blame
import TagExpander.Proofs.Markup.Caseless
import TagExpander.Proofs.Markup.Cutting
import TagExpander.Proofs.Markup.Descent
import TagExpander.Proofs.Markup.Enclosing
import TagExpander.Proofs.Markup.Extension
import TagExpander.Proofs.Markup.Fragment
import TagExpander.Proofs.Markup.Grammar
import TagExpander.Proofs.Markup.Locality
import TagExpander.Proofs.Markup.LoopText
import TagExpander.Proofs.Markup.Offsets
import TagExpander.Proofs.Markup.Pairing
import TagExpander.Proofs.Markup.Plain
import TagExpander.Proofs.Markup.Quoting
import TagExpander.Proofs.Markup.RawTags
import TagExpander.Proofs.Markup.Rendering
import TagExpander.Proofs.Markup.Terminator
import TagExpander.Proofs.Markup.Tiling
import TagExpander.Proofs.Markup.Walk
import TagExpander.Proofs.Markup.Writing
import TagExpander.Proofs.Metadata.Merging
import TagExpander.Proofs.Pass.Always
import TagExpander.Proofs.Pass.Confined
import TagExpander.Proofs.Pass.Frame
import TagExpander.Proofs.Pass.Independent
import TagExpander.Proofs.Pass.Iterations
import TagExpander.Proofs.Pass.LifeCycle
import TagExpander.Proofs.Pass.Limit
import TagExpander.Proofs.Pass.Nesting
import TagExpander.Proofs.Pass.Origin
import TagExpander.Proofs.Pass.Printing
import TagExpander.Proofs.Pass.Provenance
import TagExpander.Proofs.Pass.Replay
import TagExpander.Proofs.Pass.Run
import TagExpander.Proofs.Pass.Seams
import TagExpander.Proofs.Pass.Settled
import TagExpander.Proofs.Pass.Stopping
import TagExpander.Proofs.Pass.Threading
import TagExpander.Proofs.Pass.Trace
import TagExpander.Proofs.Pass.Unwinding
import TagExpander.Proofs.Pass.WellMarked
import TagExpander.Proofs.Path.Descend
import TagExpander.Proofs.Path.Resolving
import TagExpander.Proofs.Registry.Registering
import TagExpander.Proofs.Settings.Discovery
import TagExpander.Proofs.Settings.Loading
import TagExpander.Proofs.Settings.Naming
import TagExpander.Proofs.Settings.Precedence
import TagExpander.Proofs.Settings.References
import TagExpander.Proofs.Text.Caseless
import TagExpander.Proofs.Text.Offsets
import TagExpander.Registry
import TagExpander.Settings.Load
import TagExpander.Settings.Reference
import TagExpander.Settings.Stored
import TagExpander.Shell
import TagExpander.Text.Alphanumeric
import TagExpander.Text.Basic
import TagExpander.Text.Escaped
import TagExpander.Text.Reader
import TagExpander.Toml.Reader
import TagExpander.Toml.Value
import TagExpander.Yaml.Node
import TagExpander.Yaml.Plain
import TagExpander.Yaml.Reader
import TagExpander.Yaml.Scalar
import TagExpander.Yaml.Tag
import TagExpander.Yaml.Token
import TagExpander.Yaml.Value
