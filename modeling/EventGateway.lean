import EventGateway.Client.Session
import EventGateway.Tasks.Script
import EventGateway.Main
import EventGateway.Proofs.Tasks.Ownership
import EventGateway.Proofs.Hub.Delivery
import EventGateway.Proofs.Service.Announce
import EventGateway.Proofs.Service.Asked
import EventGateway.Proofs.Service.Ledger
import EventGateway.Proofs.Service.Capacity
import EventGateway.Proofs.Service.Refused
import EventGateway.Proofs.Service.Receipts
import EventGateway.Proofs.Config.Rewriting
import EventGateway.Proofs.Hub.Frame
import EventGateway.Proofs.Hub.Calls
import EventGateway.Proofs.Hub.Seat
import EventGateway.Proofs.Hub.Outlook
import EventGateway.Proofs.Json.Flat
import EventGateway.Proofs.Json.Records
import EventGateway.Proofs.Event.RoundTrip
import EventGateway.Proofs.Event.Acceptance
import EventGateway.Proofs.Stream.Marks
import EventGateway.Proofs.Stream.Listening
import EventGateway.Proofs.Stream.Steps
import EventGateway.Proofs.Stream.Run
import EventGateway.Proofs.Stream.Isolation
import EventGateway.Proofs.Stream.Changes
import EventGateway.Proofs.Stream.Census
import EventGateway.Proofs.Config.Reloading
import EventGateway.Proofs.Secret.Base64
import EventGateway.Proofs.Service.Gate
import EventGateway.Proofs.Config.Opening
import EventGateway.Proofs.Tasks.Chronicle
import EventGateway.Proofs.Tasks.Lives
import EventGateway.Proofs.Tasks.Reachability
import EventGateway.Proofs.Tasks.Scoping
import EventGateway.Proofs.Tasks.Attempts
import EventGateway.Proofs.Hub.Closing
import EventGateway.Proofs.Hub.Accounting
import EventGateway.Proofs.Hub.Pruning
import EventGateway.Proofs.Service.Topics
import EventGateway.Proofs.Cli.Lifetime
import EventGateway.Proofs.Cli.Reloads
import EventGateway.Proofs.Cli.Agreement
import EventGateway.Proofs.Json.Peeking
import EventGateway.Proofs.Event.Frames
import EventGateway.Proofs.Event.Payloads
import EventGateway.Proofs.Event.Canonical
import EventGateway.Proofs.Event.Scopes
import EventGateway.Proofs.Stream.Frames
import EventGateway.Proofs.Client.Reading
import EventGateway.Proofs.Hub.Unsubscribing
import EventGateway.Proofs.Config.Footprint
import EventGateway.Proofs.Config.Acceptance
import EventGateway.Proofs.Stream.Answers
import EventGateway.Proofs.Event.Survival
import EventGateway.Proofs.Tasks.Independence
import EventGateway.Proofs.Client.Identity
import EventGateway.Proofs.Service.Addressing
import EventGateway.Proofs.Tasks.Generations
