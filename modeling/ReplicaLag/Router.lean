import ReplicaLag.Cluster
import ReplicaLag.Inspect
import ReplicaLag.Placement

/-!
Shards and the router in front of them. A request goes to the shard that owns the node it names,
else to the shard of its key; a scan that names no node is answered by all shards together.
Responses that leave the router bear the router's own numbers.
-/

namespace ReplicaLag

/-- One cluster among several. A stopped shard answers nothing any more, but still numbers its
refusals. -/
structure Shard where
  id : Nat
  cluster : Cluster
  isLive : Bool := true

namespace Shard

def owns (s : Shard) (node : String) : Bool := s.cluster.nodes.any (·.name = node)

def serve (s : Shard) (now : Millis) (r : Request) : Response × Shard :=
  if s.isLive then
    let (response, cluster) := s.cluster.serve now r
    (response, { s with cluster })
  else
    let (id, cluster) := s.cluster.takeId
    (r.refuse id (Refusal.shardGone s.id).fault, { s with cluster })

def clear (s : Shard) : Shard := { s with cluster := s.cluster.clear }

def stop (s : Shard) : Shard := { s with isLive := false }

end Shard

structure Router where
  shards : List Shard
  /-- The placement of each table; other tables live on the first shard. -/
  placements : SortedMap Placement := SortedMap.empty
  lastId : UInt64 := 0
  /-- What hashed placements spread keys by. -/
  hash : String → UInt64 := keyHash

namespace Router

def route (rt : Router) (r : Request) : Option Nat :=
  if rt.shards.isEmpty then none
  else
    match r.destination with
    | some node => rt.shards.findIdx? (·.owns node)
    | none =>
      some (((rt.placements.get? r.table).map
        (·.shardOf r.key rt.shards.length rt.hash)).getD 0)

def takeId (rt : Router) : UInt64 × Router :=
  (rt.lastId + 1, { rt with lastId := rt.lastId + 1 })

def refuse (rt : Router) (r : Request) (f : Fault) : Response × Router :=
  let (id, rt) := rt.takeId
  (r.refuse id f, rt)

def forward (rt : Router) (now : Millis) (r : Request) : Response × Router :=
  match rt.route r with
  | none => rt.refuse r Refusal.noMatchingNode.fault
  | some i =>
    match rt.shards[i]? with
    | none => rt.refuse r Refusal.noMatchingNode.fault
    | some shard =>
      let (response, shard) := shard.serve now r
      let (id, rt) := rt.takeId
      ({ response with responseId := id }, { rt with shards := rt.shards.set i shard })

/-- The records of all answers, or the fault of the first that has none. -/
def collect : List Body → Except Fault (List Record)
  | [] => .ok []
  | .scan records :: r => (collect r).map (records ++ ·)
  | .exception f :: _ => .error f
  | b :: _ => .error (Refusal.notRecords b.inspect).fault

/-- The first records in order of their keys; equal keys stay in the order of their shards. -/
def merge (ascending : Bool) (count : Nat) (records : List Record) : List Record :=
  (records.mergeSort fun a b => if ascending then a.key ≤ b.key else b.key ≤ a.key).take count

/-- Has all shards serve a scan and merges their answers. -/
def gather (rt : Router) (now : Millis) (r : Request) (count : UInt64) (ascending : Bool) :
    Response × Router :=
  let responses := rt.shards.map fun s => (s.serve now r).1
  let rt : Router := { rt with shards := rt.shards.map fun s => (s.serve now r).2 }
  match collect (responses.map (·.body)) with
  | .error f => rt.refuse r f
  | .ok records =>
    let (id, rt) := rt.takeId
    let wait := responses.foldl (fun w a => max w a.wait) 0
    ({ r.answer id (.scan (merge ascending count.toNat records)) with wait }, rt)

def serve (rt : Router) (now : Millis) (r : Request) : Response × Router :=
  match r.destination, r.action with
  | none, .scan _ count ascending _ _ =>
    if rt.shards.isEmpty then rt.forward now r else rt.gather now r count ascending
  | _, _ => rt.forward now r

def modify (rt : Router) (i : Nat) (f : Shard → Shard) : Router :=
  { rt with shards := rt.shards.modify i f }

/-- Has a shard serve a request that does not pass the router. -/
def direct (rt : Router) (i : Nat) (now : Millis) (r : Request) : Option Response × Router :=
  match rt.shards[i]? with
  | none => (none, rt)
  | some shard =>
    let (response, shard) := shard.serve now r
    (some response, { rt with shards := rt.shards.set i shard })

end Router

end ReplicaLag
