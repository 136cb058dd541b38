import ReplicaLag.Cluster.Run
import ReplicaLag.Deployment.Load
import ReplicaLag.Request.Codec
import ReplicaLag.Response.Codec
import ReplicaLag.Router.Run
import ReplicaLag.Session
import ReplicaLag.Json.Writer
import ReplicaLag.Trial
import ReplicaLag.Proofs.Acknowledgement
import ReplicaLag.Proofs.FailedWrites
import ReplicaLag.Proofs.Secondaries
import ReplicaLag.Proofs.Sessions
import ReplicaLag.Proofs.Sharding
import ReplicaLag.Proofs.Trial.Agreement
import ReplicaLag.Proofs.Undelayed
import ReplicaLag.Proofs.WriteLog
import ReplicaLag.Proofs.Convergence
import ReplicaLag.Proofs.PastReads
import ReplicaLag.Proofs.Concerns
import ReplicaLag.Proofs.NodeChoice
import ReplicaLag.Proofs.NodeOrder
import ReplicaLag.Proofs.StoredVersions
import ReplicaLag.Proofs.ShardRuns
import ReplicaLag.Proofs.Envelopes
import ReplicaLag.Proofs.PlacedKeys
import ReplicaLag.Proofs.Json.Requests
import ReplicaLag.Proofs.Json.Responses
import ReplicaLag.Proofs.Flaws
import ReplicaLag.Proofs.Journal
import ReplicaLag.Proofs.Routing
import ReplicaLag.Proofs.RelativeTime
import ReplicaLag.Proofs.PointReads
import ReplicaLag.Proofs.ConcernsMet
import ReplicaLag.Proofs.Gathering
import ReplicaLag.Proofs.Acceptance
import ReplicaLag.Proofs.Json.Undecodable
import ReplicaLag.Proofs.ServingNode
import ReplicaLag.Proofs.ConsistentDeployments
import ReplicaLag.Proofs.JournalCommits
import ReplicaLag.Proofs.KeyRanges
import ReplicaLag.Proofs.LinkDelays
import ReplicaLag.Proofs.Trial.FreshReads
