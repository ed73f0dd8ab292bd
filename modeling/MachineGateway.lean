import MachineGateway.Main
import MachineGateway.Rehearsal.Sockets
import MachineGateway.Rehearsal.Visit
import MachineGateway.Proofs.SocketUrl.Occurrence
import MachineGateway.Proofs.SocketUrl.Clearing
import MachineGateway.Proofs.Relay.Standing
import MachineGateway.Proofs.Relay.Teardown
import MachineGateway.Proofs.Text.Utf8
import MachineGateway.Proofs.Gateway.OriginGate
import MachineGateway.Proofs.SocketUrl.Splice
import MachineGateway.Proofs.Text.Percent
import MachineGateway.Proofs.Gateway.Routing
import MachineGateway.Proofs.Http.Target
import MachineGateway.Proofs.Gateway.NamedPath
import MachineGateway.Proofs.Gateway.WayBack
import MachineGateway.Proofs.Machine.Selection
import MachineGateway.Proofs.Gateway.Query
import MachineGateway.Proofs.Gateway.Contacts
import MachineGateway.Proofs.Gateway.EitherWay
import MachineGateway.Proofs.Http.Authority
import MachineGateway.Proofs.Gateway.Destination
import MachineGateway.Proofs.Json.Documents
import MachineGateway.Proofs.Json.Bounds
import MachineGateway.Proofs.Json.Reading
import MachineGateway.Proofs.WireTypes
import MachineGateway.Proofs.SocketUrl.Replacement
import MachineGateway.Proofs.Relay.Election
import MachineGateway.Proofs.Gateway.Transparency
import MachineGateway.Proofs.Json.Forms
import MachineGateway.Proofs.Json.Completeness
import MachineGateway.Proofs.Machine.ListingFormat
import MachineGateway.Proofs.Gateway.RoutingParameter
import MachineGateway.Proofs.Machine.FirstPair
import MachineGateway.Proofs.Json.Shape
import MachineGateway.Proofs.SocketUrl.JsonText
import MachineGateway.Proofs.Relay.Pumping
import MachineGateway.Proofs.Relay.Ending
import MachineGateway.Proofs.SocketUrl.AtOnce
import MachineGateway.Proofs.SocketUrl.Order
import MachineGateway.Proofs.SocketUrl.CarriedPath
import MachineGateway.Proofs.SocketUrl.Characters
import MachineGateway.Proofs.Gateway.RawRemainder
import MachineGateway.Proofs.Http.Conduct
import MachineGateway.Proofs.Gateway.FailedExchange
import MachineGateway.Proofs.Gateway.OriginLists
import MachineGateway.Proofs.Net.Address
import MachineGateway.Proofs.Settings.Layers
import MachineGateway.Proofs.Gateway.ErrorAnswers
import MachineGateway.Proofs.Gateway.UpgradeTokens
