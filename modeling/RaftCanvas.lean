import RaftCanvas.Library.Transition
import RaftCanvas.Library.Recording
import RaftCanvas.Library.Composition
import RaftCanvas.Library.Table
import RaftCanvas.Library.Quorum
import RaftCanvas.Library.Recency
import RaftCanvas.Library.Replication.State
import RaftCanvas.Library.Replication.Invariant
import RaftCanvas.Library.Replication.Preservation
import RaftCanvas.Library.Replication.Safety
import RaftCanvas.Raft.Persistence
import RaftCanvas.Raft.Sqlite
import RaftCanvas.Raft.FullLog
import RaftCanvas.Raft.StateMachine
import RaftCanvas.Canvas.Restore
import RaftCanvas.Canvas.Gate
import RaftCanvas.Canvas.Window
import RaftCanvas.Canvas.History
import RaftCanvas.Raft.RaftNode
import RaftCanvas.Raft.Frames
import RaftCanvas.Raft.Committing
import RaftCanvas.Raft.Applying
import RaftCanvas.Raft.Life
import RaftCanvas.Raft.Poised
import RaftCanvas.Raft.Steady
import RaftCanvas.Raft.Roles
import RaftCanvas.Raft.Provenance
import RaftCanvas.Raft.Authentic
import RaftCanvas.Raft.Forward
import RaftCanvas.Raft.Reads
import RaftCanvas.Raft.Storing
import RaftCanvas.Raft.ReplicaServer
import RaftCanvas.Canvas.Feed
import RaftCanvas.Canvas.Leadership
import RaftCanvas.Canvas.Answers
import RaftCanvas.Raft.Votes
import RaftCanvas.Cluster.World
import RaftCanvas.Cluster.Progress
import RaftCanvas.Cluster.Turns
import RaftCanvas.Cluster.Validity
import RaftCanvas.Cluster.Files
import RaftCanvas.Cluster.Timers
import RaftCanvas.Cluster.Electable
import RaftCanvas.Cluster.CommitRule
import RaftCanvas.Cluster.Shutdown
import RaftCanvas.Cluster.Election
import RaftCanvas.Cluster.Hints
import RaftCanvas.Cluster.Introduced
import RaftCanvas.Cluster.Settling
import RaftCanvas.Simulation.Matching
import RaftCanvas.Simulation.Commitment
import RaftCanvas.Simulation.Course
import RaftCanvas.Simulation.Roles
import RaftCanvas.Simulation.Commit
import RaftCanvas.Simulation.Operations
import RaftCanvas.Simulation.Scan
import RaftCanvas.Simulation.Hazards
import RaftCanvas.Simulation.Append
import RaftCanvas.Simulation.Handlers
import RaftCanvas.Simulation.Run
import RaftCanvas.Safety.LogMatching
import RaftCanvas.Safety.StateMachineSafety
import RaftCanvas.Safety.Acknowledged
import RaftCanvas.Safety.MatchIndex
import RaftCanvas.Safety.Writes
import RaftCanvas.Safety.Compaction
import RaftCanvas.Safety.Repair
import RaftCanvas.Safety.Rounds
import RaftCanvas.Safety.Convergence
import RaftCanvas.Safety.Clamp
import RaftCanvas.Safety.Forward
import RaftCanvas.Safety.Reads
import RaftCanvas.Safety.Endpoints
import RaftCanvas.Chaos.Transport
import RaftCanvas.Chaos.Partition
import RaftCanvas.Chaos.Accounting
import RaftCanvas.Gateway.Gateway
import RaftCanvas.Gateway.Overwrite
import RaftCanvas.Gateway.Attempts
import RaftCanvas.Gateway.Clients
import RaftCanvas.Frontend.Tab
import RaftCanvas.Frontend.Session
import RaftCanvas.Frontend.Queue
import RaftCanvas.Deployment.Deployment
import RaftCanvas.Deployment.Tracing
import RaftCanvas.Deployment.Notifier
import RaftCanvas.Deployment.Addresses
import RaftCanvas.Deployment.Directory
import RaftCanvas.Deployment.Leaders
