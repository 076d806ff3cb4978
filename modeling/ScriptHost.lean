import ScriptHost.Agenda
import ScriptHost.Arguments
import ScriptHost.Binary64
import ScriptHost.Binary64.Shortest
import ScriptHost.Binary64.Text
import ScriptHost.Board
import ScriptHost.Bridge
import ScriptHost.Bridge.Rehearsal
import ScriptHost.ChildProcess
import ScriptHost.ChildProcess.Capture
import ScriptHost.CommandLine
import ScriptHost.Delay
import ScriptHost.Endpoint
import ScriptHost.FileSystem
import ScriptHost.FileSystem.Access
import ScriptHost.FileSystem.Walk
import ScriptHost.Files
import ScriptHost.Files.Visits
import ScriptHost.Frame
import ScriptHost.HandleTable
import ScriptHost.Host
import ScriptHost.Http.Exchange
import ScriptHost.Http.Request
import ScriptHost.Http.Url
import ScriptHost.Json
import ScriptHost.Json.Numeral
import ScriptHost.Json.Reading
import ScriptHost.Json.Token
import ScriptHost.Main
import ScriptHost.Md5
import ScriptHost.Natives
import ScriptHost.Natives.Connections
import ScriptHost.Natives.Processes
import ScriptHost.Natives.Storage
import ScriptHost.Natives.Surroundings
import ScriptHost.Natives.Tasks
import ScriptHost.Natives.Web
import ScriptHost.Network
import ScriptHost.Operation
import ScriptHost.Operation.Observation
import ScriptHost.Path
import ScriptHost.Proofs.Agenda
import ScriptHost.Proofs.Arguments
import ScriptHost.Proofs.Arguments.Written
import ScriptHost.Proofs.Batch.Courses
import ScriptHost.Proofs.Batch.Deliveries
import ScriptHost.Proofs.Batch.Plans
import ScriptHost.Proofs.Batch.Reports
import ScriptHost.Proofs.Batch.Stages
import ScriptHost.Proofs.Binary64
import ScriptHost.Proofs.Board
import ScriptHost.Proofs.Bridge.Clearing
import ScriptHost.Proofs.Bridge.Confinement
import ScriptHost.Proofs.Bridge.Deferral
import ScriptHost.Proofs.Bridge.Epochs
import ScriptHost.Proofs.Bridge.Interleavings
import ScriptHost.Proofs.Bridge.Nesting
import ScriptHost.Proofs.Bridge.Offers
import ScriptHost.Proofs.Bridge.Passes
import ScriptHost.Proofs.Bridge.Queues
import ScriptHost.Proofs.Bridge.Retirement
import ScriptHost.Proofs.Bridge.Separation
import ScriptHost.Proofs.Bridge.Snapshots
import ScriptHost.Proofs.Bridge.States
import ScriptHost.Proofs.ChildProcess.Capture
import ScriptHost.Proofs.Delay
import ScriptHost.Proofs.Endpoint.Numbers
import ScriptHost.Proofs.Endpoint.Spelling
import ScriptHost.Proofs.Endpoint.Written
import ScriptHost.Proofs.FileSystem.Descent
import ScriptHost.Proofs.FileSystem.Growth
import ScriptHost.Proofs.FileSystem.Places
import ScriptHost.Proofs.FileSystem.Requests
import ScriptHost.Proofs.FileSystem.Trees
import ScriptHost.Proofs.FileSystem.Ways
import ScriptHost.Proofs.FileSystem.Writing
import ScriptHost.Proofs.Files
import ScriptHost.Proofs.Files.Courses
import ScriptHost.Proofs.Files.Existing
import ScriptHost.Proofs.Files.Listings
import ScriptHost.Proofs.Files.Repeats
import ScriptHost.Proofs.Files.Sources
import ScriptHost.Proofs.Files.Surveys
import ScriptHost.Proofs.Files.Tours
import ScriptHost.Proofs.Files.Visits
import ScriptHost.Proofs.Frame
import ScriptHost.Proofs.Frame.Confinement
import ScriptHost.Proofs.Frame.Conservation
import ScriptHost.Proofs.Frame.Packets
import ScriptHost.Proofs.Frame.Streams
import ScriptHost.Proofs.HandleTable
import ScriptHost.Proofs.HandleTable.Recurrence
import ScriptHost.Proofs.Host
import ScriptHost.Proofs.Host.Dealings
import ScriptHost.Proofs.Host.Deeds
import ScriptHost.Proofs.Host.Exits
import ScriptHost.Proofs.Host.Occasions
import ScriptHost.Proofs.Host.Order
import ScriptHost.Proofs.Host.Records
import ScriptHost.Proofs.Host.Scenes
import ScriptHost.Proofs.Host.Tables
import ScriptHost.Proofs.Http.Downloads
import ScriptHost.Proofs.Json.Documents
import ScriptHost.Proofs.Json.Grammar
import ScriptHost.Proofs.Json.Scanning
import ScriptHost.Proofs.Json.Written
import ScriptHost.Proofs.Natives.Deeds
import ScriptHost.Proofs.Natives.Mistakes
import ScriptHost.Proofs.Natives.Numbers
import ScriptHost.Proofs.Natives.Refusals
import ScriptHost.Proofs.Natives.Uses
import ScriptHost.Proofs.Network
import ScriptHost.Proofs.Network.Names
import ScriptHost.Proofs.Operation.Lifecycle
import ScriptHost.Proofs.Operation.Requests
import ScriptHost.Proofs.Operation.Sharing
import ScriptHost.Proofs.Path
import ScriptHost.Proofs.Path.Order
import ScriptHost.Proofs.Registry
import ScriptHost.Proofs.Registry.Lifetimes
import ScriptHost.Proofs.Scheduler.Books
import ScriptHost.Proofs.Scheduler.Chronicle
import ScriptHost.Proofs.Scheduler.CompletionOrder
import ScriptHost.Proofs.Scheduler.Cooperation
import ScriptHost.Proofs.Scheduler.Custody
import ScriptHost.Proofs.Scheduler.Delivery
import ScriptHost.Proofs.Scheduler.Desk
import ScriptHost.Proofs.Scheduler.Disciplines
import ScriptHost.Proofs.Scheduler.Handles
import ScriptHost.Proofs.Scheduler.Ledger
import ScriptHost.Proofs.Scheduler.Moment
import ScriptHost.Proofs.Scheduler.Occupancy
import ScriptHost.Proofs.Scheduler.Progress
import ScriptHost.Proofs.Scheduler.Rehearsal
import ScriptHost.Proofs.Scheduler.Reports
import ScriptHost.Proofs.Scheduler.Rounds
import ScriptHost.Proofs.Scheduler.Signals
import ScriptHost.Proofs.Scheduler.Slots
import ScriptHost.Proofs.Scheduler.Steering
import ScriptHost.Proofs.Scheduler.Tickets
import ScriptHost.Proofs.Scheduler.Waiting
import ScriptHost.Proofs.Session
import ScriptHost.Proofs.Session.AtRest
import ScriptHost.Proofs.Session.Attendance
import ScriptHost.Proofs.Session.Consumption
import ScriptHost.Proofs.Session.Disposal
import ScriptHost.Proofs.Session.Exits
import ScriptHost.Proofs.Session.Scripted
import ScriptHost.Proofs.Session.Turns
import ScriptHost.Proofs.Settings.Fields
import ScriptHost.Proofs.Settings.Loading
import ScriptHost.Proofs.Settings.Overlay
import ScriptHost.Proofs.Settings.Rearrangement
import ScriptHost.Proofs.Settings.RoundTrip
import ScriptHost.Proofs.Settings.Sections
import ScriptHost.Proofs.Stateful
import ScriptHost.Proofs.Text.Digits
import ScriptHost.Proofs.Text.Lines
import ScriptHost.Proofs.Text.Utf8
import ScriptHost.Proofs.Transport
import ScriptHost.Proofs.Transport.Overlaps
import ScriptHost.Registry
import ScriptHost.Registry.Ownership
import ScriptHost.Scheduler
import ScriptHost.Scheduler.Rehearsal
import ScriptHost.Script
import ScriptHost.Session
import ScriptHost.Session.Program
import ScriptHost.Session.Steps
import ScriptHost.Settings
import ScriptHost.Settings.Discovery
import ScriptHost.Settings.Document
import ScriptHost.Shell.Arithmetic
import ScriptHost.Shell.Command
import ScriptHost.Shell.Directories
import ScriptHost.Shell.Expansion
import ScriptHost.Shell.Filters
import ScriptHost.Shell.Format
import ScriptHost.Shell.Machine
import ScriptHost.Shell.Pattern
import ScriptHost.Shell.Programs
import ScriptHost.Shell.Run
import ScriptHost.Shell.State
import ScriptHost.Shell.Tests
import ScriptHost.Shell.Token
import ScriptHost.SystemError
import ScriptHost.Text.Blank
import ScriptHost.Text.Quoted
import ScriptHost.Text.Utf8
import ScriptHost.Transport
import ScriptHost.Value
import ScriptHost.Value.Conversion
import ScriptHost.Value.Json
import ScriptHost.Value.Text
