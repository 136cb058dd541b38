import ReplicaLag.Cluster

/-!
Runs of a cluster: requests, clock advances and clears, one after another.
-/

namespace ReplicaLag

structure LiveCluster where
  clock : Clock
  cluster : Cluster

inductive ClusterEvent where
  | request (r : Request)
  | advance (ms : Millis)
  | clear

namespace LiveCluster

/-- A cluster of replicas whose journal starts now. -/
def replicated (clock : Clock) (nodes : List Node) (p : LagProfile) : LiveCluster where
  clock := clock
  cluster := { nodes, model := .replicated (.ofProfile p clock.now) }

def request (l : LiveCluster) (r : Request) : Response × LiveCluster :=
  let (response, cluster) := l.cluster.serve l.clock.now r
  (response, { l with cluster })

/-- One event, with the response if it is a request. -/
def step (l : LiveCluster) : ClusterEvent → Option Response × LiveCluster
  | .request r => let (response, l) := l.request r; (some response, l)
  | .advance ms => (none, { l with clock := l.clock.advance ms })
  | .clear => (none, { l with cluster := l.cluster.clear })

/-- The responses of a run, and the cluster after it. -/
def run (l : LiveCluster) : List ClusterEvent → List Response × LiveCluster
  | [] => ([], l)
  | e :: r =>
    let (response, l) := l.step e
    let (responses, l) := l.run r
    (response.toList ++ responses, l)

end LiveCluster

/-- The clock never goes back in a run: no advance takes it past the last moment. -/
def Clock.Steady (c : Clock) : List ClusterEvent → Prop
  | [] => True
  | .advance ms :: r => c.now ≤ (c.advance ms).now ∧ (c.advance ms).Steady r
  | .request _ :: r | .clear :: r => c.Steady r

end ReplicaLag
