import ReplicaLag.Lag.Model
import ReplicaLag.Store

/-!
A cluster: nodes with one versioned store behind them, a model of lag, and the number of the last
response. A request is served by one node at one moment; it is checked, refused or applied, and
answered. A wait that cannot be computed is found out last: the answer is then an exception although
the store keeps the write.
-/

namespace ReplicaLag

structure Cluster where
  nodes : List Node
  model : LagModel
  store : Store := Store.empty
  lastId : UInt64 := 0

namespace Cluster

/-- Nearer to a client comes first, then the primary, then the lesser name. -/
def nearer (latency : Node → Millis) (a b : Node) : Bool :=
  if latency a ≠ latency b then latency a < latency b
  else if a.isPrimary ≠ b.isPrimary then a.isPrimary
  else a.name ≤ b.name

/-- The node of some that serves a read with some preference, by the way of each to the client. -/
def preferred? (latency : Node → Millis) (nodes : List Node) : ReadPreference → Option Node
  | .primary | .primaryPreferred => Node.primary? nodes
  | .secondary => Node.firstSecondary? nodes
  | .secondaryPreferred => Node.firstSecondary? nodes <|> Node.primary? nodes
  | .nearest => Node.least? (nearer latency) nodes

/-- The node of some that serves a request: the one it names, else the one it prefers. Writes prefer
the primary. -/
def chosen? (latency : Node → Millis) (nodes : List Node) (r : Request) : Option Node :=
  match r.destination with
  | some name => Node.named? nodes name
  | none => preferred? latency nodes (r.preference?.getD .primary)

def server? (c : Cluster) (r : Request) : Option Node :=
  chosen? (c.model.clientLatency r.client) c.nodes r

def resolve (c : Cluster) (r : Request) : Except Refusal Node :=
  match c.server? r with
  | some n => .ok n
  | none => .error .noMatchingNode

def requireKey : Option String → Except Refusal String
  | some k => .ok k
  | none => .error .noKey

/-- A write sets at least one column and names none of them with the empty text. -/
def checkValues (values : Columns) : Except Refusal Unit :=
  if values.isEmpty then .error .noValues
  else if values.keys.any (·.isEmpty) then .error .emptyColumn
  else .ok ()

/-- A field set, if there is one, is not empty and has no empty name. -/
def checkFields : Option NameSet → Except Refusal Unit
  | none => .ok ()
  | some fields =>
    if fields.isEmpty then .error .noFields
    else if fields.names.any (·.isEmpty) then .error .emptyField
    else .ok ()

/-- Checks a request that `node` serves and applies it to the store. -/
def apply (c : Cluster) (now : Millis) (r : Request) (node : Node) :
    Except Refusal (Body × Store) :=
  match r.action with
  | .insert key values _ => do
    let key ← requireKey key
    checkValues values
    let visibility ← c.model.visibility r node c.nodes
    let store ← c.store.insert node.name key ((Version.ofValues values).stamped node now visibility)
    return (.insert, store)
  | .update key values _ => do
    let key ← requireKey key
    checkValues values
    let visibility ← c.model.visibility r node c.nodes
    let (_, store) ←
      c.store.update node.name key ((Version.ofValues values).stamped node now visibility)
    return (.update, store)
  | .delete key _ => do
    let key ← requireKey key
    let visibility ← c.model.visibility r node c.nodes
    let store ← c.store.delete node key visibility now
    return (.delete, store)
  | .read key fields _ => do
    let key ← requireKey key
    checkFields fields
    return (.read (c.store.get node.name key fields now), c.store)
  | .scan key count ascending fields _ => do
    let key ← requireKey key
    if count < 1 then throw .emptyScan
    checkFields fields
    return (.scan (c.store.scan node.name key count.toNat ascending fields now), c.store)

/-- The answer numbered `id`, or why there is none, and the store afterwards. -/
def dispatch (c : Cluster) (now : Millis) (r : Request) (id : UInt64) :
    Except Refusal Response × Store :=
  match c.resolve r with
  | .error e => (.error e, c.store)
  | .ok node =>
    match c.apply now r node with
    | .error e => (.error e, c.store)
    | .ok (body, store) => (c.model.settle now (r.answer id body) r node c.nodes, store)

def takeId (c : Cluster) : UInt64 × Cluster := (c.lastId + 1, { c with lastId := c.lastId + 1 })

/-- Serves a request; a refusal becomes an exception. -/
def serve (c : Cluster) (now : Millis) (r : Request) : Response × Cluster :=
  let (id, c) := c.takeId
  match c.dispatch now r id with
  | (.ok response, store) => (response, { c with store })
  | (.error e, store) => (r.refuse id e.fault, { c with store })

/-- Forgets all versions; response numbers go on. -/
def clear (c : Cluster) : Cluster := { c with store := Store.empty }

end Cluster

end ReplicaLag
