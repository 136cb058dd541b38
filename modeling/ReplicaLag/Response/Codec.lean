import ReplicaLag.Response
import ReplicaLag.Version.Codec

/-!
Responses as JSON. A body is tagged with its kind; reads, scans and exceptions have a payload.
-/

namespace ReplicaLag

namespace FaultKind

def toJson (k : FaultKind) : Json := .string k.name

def ofJson? (j : Json) : Option FaultKind := j.toTag?.bind ofName?

end FaultKind

namespace Fault

def toJson (f : Fault) : Json := .object [("kind", f.kind.toJson), ("message", .string f.message)]

def ofJson? (j : Json) : Option Fault := do
  let ms ← j.members? .exact ["kind", "message"]
  let kind ← Json.required ms "kind" FaultKind.ofJson?
  let message ← Json.required ms "message" Json.toString?
  return { kind, message }

end Fault

namespace Body

def toJson (b : Body) : Json :=
  .object (("kind", .string b.name) ::
    match b with
    | insert | update | delete => []
    | read v => [("payload", v.toJson)]
    | scan rs => [("payload", .array (rs.map Record.toJson))]
    | exception f => [("payload", f.toJson)])

/-- The body of a kind. A body without content takes `null` for a payload. -/
def ofPayload? (kind : String) (payload : Option Json) : Option Body :=
  let bare (b : Body) : Option Body :=
    match payload with
    | none | some .null => some b
    | some _ => none
  if kind = "insert" then bare insert
  else if kind = "update" then bare update
  else if kind = "delete" then bare delete
  else if kind = "read" then payload.bind fun j => (Version.ofJson? j).map read
  else if kind = "scan" then payload.bind fun j => (j.toList? Record.ofJson?).map scan
  else if kind = "exception" then payload.bind fun j => (Fault.ofJson? j).map exception
  else none

/-- A body is an object with its kind as a tag, or an array of the kind's name and the payload. -/
def ofJson? : Json → Option Body
  | .object ms => do
    let kind ← Json.required ms "kind" Json.toTag?
    ofPayload? kind (ms.lookup "payload")
  | .array [.string kind, payload] => ofPayload? kind (some payload)
  | _ => none

end Body

namespace Response

def toJson (r : Response) : Json :=
  .object [("client_request_id", .nat r.requestId), ("response_id", .nat r.responseId),
    ("sent_by_client_at", .nat r.sentAt), ("wait_timeout_ms", .nat r.wait),
    ("body", r.body.toJson)]

def ofJson? (j : Json) : Option Response := do
  let ms ← j.members? .exact
    ["client_request_id", "response_id", "sent_by_client_at", "wait_timeout_ms", "body"]
  let requestId ← Json.required ms "client_request_id" Json.toNat64?
  let responseId ← Json.required ms "response_id" Json.toNat64?
  let sentAt ← Json.required ms "sent_by_client_at" Json.toNat64?
  let wait ← Json.required ms "wait_timeout_ms" Json.toNat64?
  let body ← Json.required ms "body" Body.ofJson?
  return { requestId, responseId, sentAt, wait, body }

end Response

end ReplicaLag
