import ReplicaLag.Inspect

/-!
Client sessions. A session numbers its requests, stamps them with its time and, where they have
none, with its name; what comes back is a response of the wanted kind or a fault.
-/

namespace ReplicaLag

structure Session where
  name : Option String := none
  lastId : UInt64 := 0
  deriving DecidableEq, Repr

namespace Session

def stamp (s : Session) (now : Millis) (r : Request) : Request × Session :=
  ({ r with id := s.lastId + 1, sentAt := now, client := r.client <|> s.name },
    { s with lastId := s.lastId + 1 })

/-- What a response means to its client: an exception is a fault. -/
def unwrap (response : Response) : Except Fault Response :=
  match response.body with
  | .exception f => .error f
  | _ => .ok response

def version (answer : Except Fault Response) : Except Fault Version :=
  match answer with
  | .error f => .error f
  | .ok response =>
    match response.body with
    | .read v => .ok v
    | b => .error (Refusal.unexpected "read" b.inspect).fault

def records (answer : Except Fault Response) : Except Fault (List Record) :=
  match answer with
  | .error f => .error f
  | .ok response =>
    match response.body with
    | .scan rs => .ok rs
    | b => .error (Refusal.unexpected "scan" b.inspect).fault

end Session

end ReplicaLag
