import ReplicaLag.Fault
import ReplicaLag.Request

/-!
Responses: the request's number and sending time come back, with a number of the response's own, the
time that the client should believe the request took, and a body. A refusal is a body like another.
-/

namespace ReplicaLag

inductive Body where
  | insert
  | update
  | delete
  | read (version : Version)
  | scan (records : List Record)
  | exception (fault : Fault)

structure Response where
  requestId : UInt64
  responseId : UInt64
  sentAt : Millis
  wait : Millis := 0
  body : Body

namespace Body

def name : Body → String
  | insert => "insert"
  | update => "update"
  | delete => "delete"
  | read _ => "read"
  | scan _ => "scan"
  | exception _ => "exception"

def fault? : Body → Option Fault
  | exception f => some f
  | _ => none

def version? : Body → Option Version
  | read v => some v
  | _ => none

def records? : Body → Option (List Record)
  | scan rs => some rs
  | _ => none

def isException (b : Body) : Bool := b.fault?.isSome

def result : Body → Except Fault Body
  | exception f => .error f
  | b => .ok b

end Body

def Request.answer (r : Request) (responseId : UInt64) (body : Body) : Response :=
  { requestId := r.id, responseId, sentAt := r.sentAt, body }

def Request.refuse (r : Request) (responseId : UInt64) (f : Fault) : Response :=
  r.answer responseId (.exception f)

end ReplicaLag
