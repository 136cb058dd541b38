import ReplicaLag.Lag.Profile
import ReplicaLag.Router

/-!
Deployments: clusters of nodes, one for each shard, and the placement of tables over them. A
deployment may be flawed; one that is not yields a router.
-/

namespace ReplicaLag

structure NodeSpec where
  name : String
  tags : NameSet := SortedMap.empty
  isPrimary : Bool := false
  deriving DecidableEq

structure ClusterSpec where
  nodes : List NodeSpec
  lag : LagProfile := {}
  deriving DecidableEq

structure Deployment where
  shards : List ClusterSpec
  placements : SortedMap Placement := SortedMap.empty
  deriving DecidableEq

namespace ClusterSpec

/-- A primary and two more nodes, fifty milliseconds apart. -/
def standard : ClusterSpec where
  nodes := [{ name := "n1", isPrimary := true }, { name := "n2" }, { name := "n3" }]
  lag := { defaultDelay := 50 }

def names (c : ClusterSpec) : List String := c.nodes.map (·.name)

/-- The first name that is empty or repeats one before it. -/
def nameFlaw? (seen : List String) : List String → Option Flaw
  | [] => none
  | n :: r =>
    if n.isEmpty then some .emptyName
    else if seen.contains n then some (.repeatedName n)
    else nameFlaw? (n :: seen) r

def flaw? (c : ClusterSpec) : Option Flaw :=
  if c.nodes.isEmpty then some .noNodes
  else
    let primaries := c.nodes.countP (·.isPrimary)
    nameFlaw? [] c.names
    <|> (if 1 < primaries then some (.manyPrimaries primaries) else none)
    <|> c.lag.flaw? c.names

/-- The nodes of a cluster; the first one is the primary if none is flagged. -/
def toNodes (c : ClusterSpec) : List Node :=
  let asNode (n : NodeSpec) : Node := { name := n.name, tags := n.tags, isPrimary := n.isPrimary }
  if c.nodes.any (·.isPrimary) then c.nodes.map asNode
  else
    match c.nodes with
    | [] => []
    | n :: r => { asNode n with isPrimary := true } :: r.map asNode

def start (c : ClusterSpec) (now : Millis) : Cluster where
  nodes := c.toNodes
  model := .replicated (.ofProfile c.lag now)

end ClusterSpec

namespace Deployment

def standard : Deployment where
  shards := [.standard]

/-- The first flaw of the clusters after those whose node names have been seen. -/
def flawAfter? (seen : List String) : List ClusterSpec → Option Flaw
  | [] => none
  | c :: r =>
    c.flaw? <|> (c.names.find? (seen.contains ·)).map .sharedName
    <|> flawAfter? (seen ++ c.names) r

def flaw? (d : Deployment) : Option Flaw :=
  if d.shards.isEmpty then some .noShards else flawAfter? [] d.shards

/-- The router over the clusters of a deployment as they start at a moment. -/
def start (d : Deployment) (now : Millis) (hash : String → UInt64 := keyHash) : Router where
  shards := d.shards.mapIdx fun id c => { id, cluster := c.start now }
  placements := d.placements
  hash := hash

end Deployment

end ReplicaLag
