import ReplicaLag.Json.Shape
import ReplicaLag.Lag.Profile

/-!
Lag profiles as JSON. Every field of a profile may be missing, none of a link.
-/

namespace ReplicaLag

namespace Link

def toJson (l : Link) : Json :=
  .object [("from", .string l.source), ("to", .string l.target), ("delay_ms", .nat l.delay)]

def ofJson? (form : RecordForm) (j : Json) : Option Link := do
  let ms ← j.members? form ["from", "to", "delay_ms"]
  let source ← Json.required ms "from" Json.toString?
  let target ← Json.required ms "to" Json.toString?
  let delay ← Json.required ms "delay_ms" Json.toNat64?
  return { source, target, delay }

end Link

namespace ClientLink

def toJson (l : ClientLink) : Json :=
  .object [("client", .string l.client), ("node", .string l.node), ("delay_ms", .nat l.delay)]

def ofJson? (form : RecordForm) (j : Json) : Option ClientLink := do
  let ms ← j.members? form ["client", "node", "delay_ms"]
  let client ← Json.required ms "client" Json.toString?
  let node ← Json.required ms "node" Json.toString?
  let delay ← Json.required ms "delay_ms" Json.toNat64?
  return { client, node, delay }

end ClientLink

namespace LagProfile

def toJson (p : LagProfile) : Json :=
  .object [("default_delay_ms", .nat p.defaultDelay),
    ("journal_commit_interval_ms", .nat p.journalInterval),
    ("custom_delays", .array (p.links.map Link.toJson)),
    ("client_delays", .array (p.clientLinks.map ClientLink.toJson)),
    ("tag_sets", .ofMap (Json.ofMap fun n => .nat n.toUInt64) p.tagSets),
    ("secondaries_read_only", .bool p.readOnlySecondaries)]

def ofJson? (form : RecordForm) (j : Json) : Option LagProfile := do
  let ms ← j.members? form ["default_delay_ms", "journal_commit_interval_ms", "custom_delays",
    "client_delays", "tag_sets", "secondaries_read_only"]
  let d : LagProfile := {}
  let defaultDelay ← Json.defaulted ms "default_delay_ms" d.defaultDelay Json.toNat64?
  let journalInterval ←
    Json.defaulted ms "journal_commit_interval_ms" d.journalInterval Json.toNat64?
  let links ← Json.defaulted ms "custom_delays" d.links (Json.toList? (Link.ofJson? form))
  let clientLinks ←
    Json.defaulted ms "client_delays" d.clientLinks (Json.toList? (ClientLink.ofJson? form))
  let tagSets ←
    Json.defaulted ms "tag_sets" d.tagSets (Json.toMap? (Json.toMap? Json.toNat32?))
  let readOnlySecondaries ←
    Json.defaulted ms "secondaries_read_only" d.readOnlySecondaries Json.toBool?
  return { defaultDelay, journalInterval, links, clientLinks, tagSets, readOnlySecondaries }

end LagProfile

end ReplicaLag
