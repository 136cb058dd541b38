import ReplicaLag.Json.Reader
import ReplicaLag.Response
import ReplicaLag.Version.Codec

/-!
Requests as JSON. A request is one flat object: the members of the envelope, the kind, and the
members that belong to that kind; all others are passed over. What is wrong is found in this order:
the text, then the kind, then the members.
-/

namespace ReplicaLag

namespace WriteConcern

def toJson (c : WriteConcern) : Json :=
  .object [("ack_count", .nat c.acks.toUInt64), ("tag_set", .ofOption .string c.tagSet),
    ("journaling", .bool c.journaling), ("timeout_ms", .nat c.timeout)]

def ofJson? (j : Json) : Option WriteConcern := do
  let ms ← j.members? .exact ["ack_count", "tag_set", "journaling", "timeout_ms"]
  let acks ← Json.defaulted ms "ack_count" 1 Json.toNat32?
  let tagSet ← Json.defaulted ms "tag_set" none (Json.toOption? Json.toString?)
  let journaling ← Json.defaulted ms "journaling" false Json.toBool?
  let timeout ← Json.defaulted ms "timeout_ms" 0 Json.toNat64?
  return { acks, tagSet, journaling, timeout }

end WriteConcern

namespace ReadPreference

def toJson (p : ReadPreference) : Json := .string p.name

/-- A preference is its name, or an object whose one member has that name and says nothing. -/
def ofJson? : Json → Option ReadPreference
  | .string s => ofName? s
  | .object [(s, .null)] | .object [(s, .object [])] => ofName? s
  | _ => none

end ReadPreference

namespace Action

def toMembers : Action → List (String × Json)
  | insert key values concern | update key values concern =>
    [("key", .ofOption .string key), ("values", values.toJson), ("write_concern", concern.toJson)]
  | delete key concern =>
    [("key", .ofOption .string key), ("write_concern", concern.toJson)]
  | read key fields preference =>
    [("key", .ofOption .string key), ("fields", .ofOption .ofNames fields),
      ("read_preference", preference.toJson)]
  | scan key count ascending fields preference =>
    [("key", .ofOption .string key), ("record_count", .nat count), ("ascending", .bool ascending),
      ("fields", .ofOption .ofNames fields), ("read_preference", preference.toJson)]

/-- The action of a kind, out of the members that belong to it; each of them may be missing. -/
def ofMembers? (kind : String) (ms : List (String × Json)) : Option Action :=
  let key := Json.defaulted ms "key" none (Json.toOption? Json.toString?)
  let values := Json.defaulted ms "values" SortedMap.empty Columns.ofJson?
  let concern := Json.defaulted ms "write_concern" {} WriteConcern.ofJson?
  let count := Json.defaulted ms "record_count" 0 Json.toNat64?
  let ascending := Json.defaulted ms "ascending" true Json.toBool?
  let fields := Json.defaulted ms "fields" none (Json.toOption? Json.toNames?)
  let preference := Json.defaulted ms "read_preference" .primary ReadPreference.ofJson?
  if kind = "insert" then do return insert (← key) (← values) (← concern)
  else if kind = "update" then do return update (← key) (← values) (← concern)
  else if kind = "delete" then do return delete (← key) (← concern)
  else if kind = "read" then do return read (← key) (← fields) (← preference)
  else if kind = "scan" then
    do return scan (← key) (← count) (← ascending) (← fields) (← preference)
  else none

end Action

namespace Request

def toJson (r : Request) : Json :=
  .object ([("id", .nat r.id), ("table", .string r.table), ("client", .ofOption .string r.client),
    ("destination_node", .ofOption .string r.destination), ("sent_by_client_at", .nat r.sentAt),
    ("received_at", .nat r.receivedAt), ("kind", .string r.action.name)] ++ r.action.toMembers)

/-- A request of a known kind out of its members. -/
def ofMembers? (kind : String) (ms : List (String × Json)) : Option Request := do
  let id ← Json.defaulted ms "id" 0 Json.toNat64?
  let table ← Json.defaulted ms "table" "" Json.toString?
  let client ← Json.defaulted ms "client" none (Json.toOption? Json.toString?)
  let destination ← Json.defaulted ms "destination_node" none (Json.toOption? Json.toString?)
  let sentAt ← Json.defaulted ms "sent_by_client_at" 0 Json.toNat64?
  let receivedAt ← Json.defaulted ms "received_at" 0 Json.toNat64?
  let action ← Action.ofMembers? kind ms
  return { action, id, table, client, destination, sentAt, receivedAt }

/-- The kind that a value names, if it is an object whose member `kind` is a string. -/
def kindOf? (j : Json) : Option String := (j.member? "kind").bind Json.toString?

def ofJson (j : Json) : Except Refusal Request :=
  match j, kindOf? j with
  | .object ms, some kind =>
    if kind ∈ Action.names then
      match ofMembers? kind ms with
      | some r => .ok r
      | none => .error .malformed
    else .error (.unknownRequestKind kind)
  | _, _ => .error .noRequestKind

def ofText (text : String) : Except Refusal Request :=
  match Json.read? text with
  | some j => ofJson j
  | none => .error .malformed

end Request

end ReplicaLag
