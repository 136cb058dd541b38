import ReplicaLag.Deployment
import ReplicaLag.Lag.Codec

/-!
Deployments as JSON.
-/

namespace ReplicaLag

namespace Placement

def toJson : Placement → Json
  | first => .object [("type", .string "first")]
  | hashed => .object [("type", .string "hash")]
  | ranges bs => .object [("type", .string "range"), ("boundaries", .array (bs.map .string))]

/-- A placement is an object with its type, or an array of its type and its boundaries. -/
def ofJson? : Json → Option Placement
  | .object ms => do
    let type ← Json.required ms "type" Json.toString?
    if type = "first" then return first
    else if type = "hash" then return hashed
    else if type = "range" then
      return ranges (← Json.required ms "boundaries" (Json.toList? Json.toString?))
    else none
  | .array [.string type] =>
    if type = "first" then some first else if type = "hash" then some hashed else none
  | .array [.string type, boundaries] =>
    if type = "range" then (boundaries.toList? Json.toString?).map ranges else none
  | _ => none

end Placement

namespace NodeSpec

def toJson (n : NodeSpec) : Json :=
  .object [("name", .string n.name), ("tags", .ofNames n.tags), ("primary", .bool n.isPrimary)]

def ofJson? (form : RecordForm) (j : Json) : Option NodeSpec := do
  let ms ← j.members? form ["name", "tags", "primary"]
  let name ← Json.required ms "name" Json.toString?
  let tags ← Json.defaulted ms "tags" SortedMap.empty Json.toNames?
  let isPrimary ← Json.defaulted ms "primary" false Json.toBool?
  return { name, tags, isPrimary }

end NodeSpec

namespace ClusterSpec

def toJson (c : ClusterSpec) : Json :=
  .object [("nodes", .array (c.nodes.map NodeSpec.toJson)), ("anomaly", c.lag.toJson)]

def ofJson? (form : RecordForm) (j : Json) : Option ClusterSpec := do
  let ms ← j.members? form ["nodes", "anomaly"]
  let nodes ← Json.required ms "nodes" (Json.toList? (NodeSpec.ofJson? form))
  let lag ← Json.defaulted ms "anomaly" {} (LagProfile.ofJson? form)
  return { nodes, lag }

end ClusterSpec

namespace Deployment

def toJson (d : Deployment) : Json :=
  .object [("shards", .array (d.shards.map ClusterSpec.toJson)),
    ("sharding", .ofMap Placement.toJson d.placements)]

def ofJson? (form : RecordForm) (j : Json) : Option Deployment := do
  let ms ← j.members? form ["shards", "sharding"]
  let shards ←
    Json.defaulted ms "shards" standard.shards (Json.toList? (ClusterSpec.ofJson? form))
  let placements ←
    Json.defaulted ms "sharding" SortedMap.empty (Json.toMap? Placement.ofJson?)
  return { shards, placements }

end Deployment

end ReplicaLag
