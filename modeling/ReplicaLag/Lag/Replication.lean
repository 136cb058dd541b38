import ReplicaLag.Lag.Links
import ReplicaLag.Response

/-!
Replication in a replica set. A write is seen at once by the node that receives it and by every
other node after the one-way delay between them. Its client waits for the way to the node and then
for the later of two events: the acknowledgements that the write concern asks for, each of which
takes a round trip, and the next journal commit.
-/

namespace ReplicaLag

structure Replication where
  links : Links
  journalInterval : Millis
  tagSets : SortedMap (SortedMap UInt32)
  readOnlySecondaries : Bool
  /-- The journal is committed at even steps from this moment on. -/
  startedAt : Millis

/-- The `k`-th smallest delay, `0` for `k = 0`, none if there are fewer. -/
def kthFastest (delays : List Millis) (k : Nat) : Option Millis :=
  if k = 0 then some 0 else (delays.mergeSort (· ≤ ·))[k - 1]?

namespace Replication

def ofProfile (p : LagProfile) (startedAt : Millis) : Replication where
  links := .ofProfile p
  journalInterval := p.journalInterval
  tagSets := p.tagSets
  readOnlySecondaries := p.readOnlySecondaries
  startedAt := startedAt

/-- When each node sees a write that `receiver` takes now. -/
def spread (m : Replication) (receiver : Node) (nodes : List Node) : Visibility :=
  .ofList (nodes.map fun n => (n.name, m.links.delay receiver.name n.name))

def tagSet (m : Replication) (name : String) : Except Refusal (SortedMap UInt32) :=
  match m.tagSets.get? name with
  | some tags => .ok tags
  | none => .error (.unknownTagSet name)

/-- The round trips to the nodes other than the receiver that pass a test. -/
def roundTrips (m : Replication) (receiver : Node) (nodes : List Node) (p : Node → Bool) :
    List Millis :=
  (nodes.filter fun n => n.name ≠ receiver.name && p n).map fun n =>
    m.links.roundTrip receiver.name n.name

/-- The time until `acks` nodes have a write. The receiver has it at once. -/
def untaggedDelay (m : Replication) (acks : UInt32) (receiver : Node) (nodes : List Node) :
    Option Millis :=
  if nodes.length ≤ 1 ∨ acks ≤ 1 then some 0
  else kthFastest (m.roundTrips receiver nodes fun _ => true) (acks.toNat - 1)

/-- The time until enough nodes of each tag have a write. -/
def taggedDelay (m : Replication) (receiver : Node) (nodes : List Node) :
    List (String × UInt32) → Option Millis
  | [] => some 0
  | (tag, count) :: r => do
    let needed := if receiver.hasTag tag then count.toNat - 1 else count.toNat
    let delay ← kthFastest (m.roundTrips receiver nodes (·.hasTag tag)) needed
    let others ← taggedDelay m receiver nodes r
    return max delay others

/-- The time until the acknowledgements are in; a timeout cuts it off, and without one it is refused
to wait for more nodes than there are. -/
def replicationDelay (m : Replication) (receiver : Node) (concern : WriteConcern)
    (nodes : List Node) : Except Refusal Millis := do
  let delay ← match concern.tagSet with
    | some name => (m.tagSet name).map fun tags => m.taggedDelay receiver nodes tags.entries
    | none => .ok (m.untaggedDelay concern.acks receiver nodes)
  match delay with
  | some d => return if 0 < concern.timeout then min d concern.timeout else d
  | none =>
    if 0 < concern.timeout then return concern.timeout
    else .error (.unsatisfiable nodes.length)

/-- The time until the next journal commit; commits are a third of the interval apart. -/
def journalDelay (m : Replication) (now : Millis) (concern : WriteConcern) : Millis :=
  let tick := m.journalInterval / 3
  if concern.journaling ∧ tick ≠ 0 then tick - now.elapsedSince m.startedAt % tick else 0

def writeDelay (m : Replication) (now : Millis) (client : Option String) (receiver : Node)
    (concern : WriteConcern) (nodes : List Node) : Except Refusal Millis := do
  let replication ← m.replicationDelay receiver concern nodes
  return (m.links.clientDelay client receiver.name).plus
    (max replication (m.journalDelay now concern))

/-- When each node sees a write; refused where secondaries take no writes, and for a tag set that
nobody configured. -/
def visibility (m : Replication) (request : Request) (receiver : Node) (nodes : List Node) :
    Except Refusal Visibility := do
  if m.readOnlySecondaries ∧ ¬ receiver.isPrimary then
    throw (.readOnlySecondary receiver.name)
  match request.concern?.bind (·.tagSet) with
  | some name => let _ ← m.tagSet name
  | none => pure ()
  return m.spread receiver nodes

/-- The response with the time its client waits; nobody waits for an exception. -/
def settle (m : Replication) (now : Millis) (response : Response) (request : Request)
    (server : Node) (nodes : List Node) : Except Refusal Response :=
  if response.body.isException then .ok { response with wait := 0 }
  else
    match request.concern? with
    | some concern =>
      (m.writeDelay now request.client server concern nodes).map fun wait =>
        { response with wait }
    | none =>
      .ok { response with wait := m.links.clientDelay request.client server.name }

end Replication

end ReplicaLag
