import RouteBinding.Main
import RouteBinding.Proofs.Schema.Cycles
import RouteBinding.Proofs.Operation.Schema
import RouteBinding.Route.Registry
import RouteBinding.Proofs.Pointer
import RouteBinding.Proofs.Invariant
import RouteBinding.Proofs.Standing
import RouteBinding.Proofs.Data.Graph
import RouteBinding.Proofs.Operation.Source
import RouteBinding.Proofs.Operation.Contract
import RouteBinding.Proofs.Model.Alias
import RouteBinding.Proofs.Model.Outline
import RouteBinding.Proofs.Operation.Parameter
import RouteBinding.Proofs.Operation.Payload
import RouteBinding.Proofs.Operation.Walk
import RouteBinding.Proofs.Operation.Meaning
import RouteBinding.Proofs.Operation.Closed
import RouteBinding.Proofs.Command.Contracts
import RouteBinding.Proofs.Document.Content
import RouteBinding.Proofs.Document.Formats
import RouteBinding.Proofs.Route.Group
import RouteBinding.Proofs.Route.Matching
import RouteBinding.Proofs.Model.Kind
import RouteBinding.Proofs.Operation.Check
import RouteBinding.Proofs.Operation.Inventory
import RouteBinding.Proofs.Operation.Template
import RouteBinding.Proofs.Operation.Typing
import RouteBinding.Proofs.Operation.AliasChains
import RouteBinding.Proofs.Operation.ParameterList
import RouteBinding.Proofs.Operation.Sharing
import RouteBinding.Proofs.Blame
import RouteBinding.Proofs.Schema.Provenance
import RouteBinding.Proofs.Schema.Faithful
import RouteBinding.Proofs.Model.Blame
import RouteBinding.Proofs.Operation.Standing
import RouteBinding.Proofs.Operation.Discipline
import RouteBinding.Proofs.Operation.Collected
import RouteBinding.Proofs.Operation.Safety
import RouteBinding.Proofs.Operation.Location
import RouteBinding.Proofs.Depth
import RouteBinding.Proofs.Alongside
import RouteBinding.Proofs.Growth.Stability
import RouteBinding.Proofs.Growth.OfTree
import RouteBinding.Proofs.Growth.SinglePath
import RouteBinding.Proofs.Config.Overlay
import RouteBinding.Proofs.Config.Reader
import RouteBinding.Proofs.Config.Layers
import RouteBinding.Proofs.Action
import RouteBinding.Proofs.Config.Store
import RouteBinding.Proofs.Command.Format
import RouteBinding.Proofs.Command.Run
import RouteBinding.Proofs.Route.Declared
import RouteBinding.Proofs.Route.Registry
import RouteBinding.Proofs.Console
import RouteBinding.Proofs.Command.Check
import RouteBinding.Proofs.Route.Clashes
import RouteBinding.Proofs.Operation.References
import RouteBinding.Proofs.Operation.Selection
import RouteBinding.Proofs.Route.Renaming
import RouteBinding.Proofs.Document.Navigation
import RouteBinding.Proofs.Operation.Session
import RouteBinding.Proofs.Operation.Collision
import RouteBinding.Proofs.Naming.Field
import RouteBinding.Proofs.Operation.Naming
import RouteBinding.Proofs.Route.Listing
import RouteBinding.Proofs.Route.Ways
import RouteBinding.Proofs.Route.Ending
import RouteBinding.Proofs.Route.Line
import RouteBinding.Proofs.Json.RoundTrip
import RouteBinding.Proofs.Host.Basic
import RouteBinding.Proofs.Command.Settings
