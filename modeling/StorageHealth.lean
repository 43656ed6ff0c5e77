import StorageHealth.Care
import StorageHealth.Check
import StorageHealth.Check.Error
import StorageHealth.Cluster.Caches
import StorageHealth.Cluster.Informer
import StorageHealth.Cluster.Object
import StorageHealth.Cluster.Query
import StorageHealth.Cluster.Store
import StorageHealth.CommandLine
import StorageHealth.Condition
import StorageHealth.Driver.Address
import StorageHealth.Driver.Capabilities
import StorageHealth.Driver.Deadline
import StorageHealth.Driver.Error
import StorageHealth.Driver.Session
import StorageHealth.Duty
import StorageHealth.Index.Consumers
import StorageHealth.Index.Warnings
import StorageHealth.Main
import StorageHealth.Monitor
import StorageHealth.MountPath
import StorageHealth.Node.Cycle
import StorageHealth.Node.Outage
import StorageHealth.Node.Tracker
import StorageHealth.Plan
import StorageHealth.Pod.Cycle
import StorageHealth.Pod.Volumes
import StorageHealth.Process
import StorageHealth.Publisher
import StorageHealth.Schedule
import StorageHealth.Settings
import StorageHealth.Settings.Flags
import StorageHealth.Simulation.Caretaker
import StorageHealth.Simulation.Deletion
import StorageHealth.Simulation.Feed
import StorageHealth.Simulation.Readiness
import StorageHealth.Simulation.Script
import StorageHealth.Simulation.Server
import StorageHealth.Simulation.Stage
import StorageHealth.Simulation.Sweeper
import StorageHealth.Simulation.World
import StorageHealth.Span
import StorageHealth.Span.Reader
import StorageHealth.Startup
import StorageHealth.Table
import StorageHealth.Text.Blank
import StorageHealth.Text.Count
import StorageHealth.Timer
import StorageHealth.Url
import StorageHealth.Volume.Cycle
import StorageHealth.Volume.Slots
import StorageHealth.Wire.Catalog
import StorageHealth.Wire.Field
import StorageHealth.Wire.Length
import StorageHealth.Wire.Message
import StorageHealth.Wire.Schema
import StorageHealth.Wire.Varint
import StorageHealth.Proofs.Cluster.Replay
import StorageHealth.Proofs.Index.Mirror
import StorageHealth.Proofs.Index.Warnings
import StorageHealth.Proofs.Index.Consumers
import StorageHealth.Proofs.Check.Reports
import StorageHealth.Proofs.Check.Activities
import StorageHealth.Proofs.Check.Orderly
import StorageHealth.Proofs.Check.Recovery
import StorageHealth.Proofs.Node.Passes
import StorageHealth.Proofs.Node.Tracker
import StorageHealth.Proofs.Pod.Round
import StorageHealth.Proofs.Node.Tending
import StorageHealth.Proofs.Node.Answers
import StorageHealth.Proofs.Node.Watch
import StorageHealth.Proofs.Node.Deletions
import StorageHealth.Proofs.Volume.Visits
import StorageHealth.Proofs.Process.Traffic
import StorageHealth.Proofs.Check.Eligibility
import StorageHealth.Proofs.Check.Sweeps
import StorageHealth.Proofs.Volume.Deletion
import StorageHealth.Proofs.Volume.Turns
import StorageHealth.Proofs.Volume.Pacing
import StorageHealth.Proofs.Process.Surroundings
import StorageHealth.Proofs.Check.OneByOne
import StorageHealth.Proofs.Cluster.Copy
import StorageHealth.Proofs.Process.Standing
import StorageHealth.Proofs.Check.Protocol
import StorageHealth.Proofs.Node.Bookkeeping
import StorageHealth.Proofs.Duty.Calls
import StorageHealth.Proofs.Startup.Gate
import StorageHealth.Proofs.Publisher.Notes
import StorageHealth.Proofs.Check.SweepOrder
import StorageHealth.Proofs.Settings.Lengths
import StorageHealth.Proofs.Duty.Timers
import StorageHealth.Proofs.Wire.Varint
import StorageHealth.Proofs.Wire.Fields
import StorageHealth.Proofs.Wire.Scalars
import StorageHealth.Proofs.Wire.Blocks
import StorageHealth.Proofs.Wire.RoundTrip
import StorageHealth.Proofs.Wire.Unknown
import StorageHealth.Proofs.Driver.Overlooked
import StorageHealth.Proofs.Cluster.Relist
import StorageHealth.Proofs.Text.Bytes
import StorageHealth.Proofs.Node.Affected
import StorageHealth.Proofs.Node.Retries
import StorageHealth.Proofs.Node.Rounds
import StorageHealth.Proofs.Driver.Listing
import StorageHealth.Proofs.Text.Joined
import StorageHealth.Proofs.Pod.MountPaths
import StorageHealth.Proofs.Pod.Requests
import StorageHealth.Proofs.Pod.Mentions
import StorageHealth.Proofs.Check.Deadlines
import StorageHealth.Proofs.Index.Filings
import StorageHealth.Proofs.Index.Shelves
import StorageHealth.Proofs.Index.Uses
import StorageHealth.Proofs.Index.Mounts
