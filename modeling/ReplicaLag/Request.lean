import ReplicaLag.Version
import ReplicaLag.WriteConcern

/-!
Requests: an envelope, and what is to be done. Writes carry a write concern, reads a preference for
a node; a builder that sets one of them changes only the requests that have it.
-/

namespace ReplicaLag

/-- What a request asks for. The key may be missing, which is refused when the request is served. -/
inductive Action where
  | insert (key : Option String) (values : Columns) (concern : WriteConcern)
  | update (key : Option String) (values : Columns) (concern : WriteConcern)
  | delete (key : Option String) (concern : WriteConcern)
  | read (key : Option String) (fields : Option NameSet) (preference : ReadPreference)
  | scan (key : Option String) (count : UInt64) (ascending : Bool) (fields : Option NameSet)
      (preference : ReadPreference)

structure Request where
  action : Action
  id : UInt64 := 0
  table : String := ""
  client : Option String := none
  destination : Option String := none
  sentAt : Millis := 0
  receivedAt : Millis := 0

namespace Action

def name : Action → String
  | insert .. => "insert"
  | update .. => "update"
  | delete .. => "delete"
  | read .. => "read"
  | scan .. => "scan"

def names : List String := ["insert", "update", "delete", "read", "scan"]

def key : Action → Option String
  | insert k .. | update k .. | delete k _ | read k .. | scan k .. => k

def concern? : Action → Option WriteConcern
  | insert _ _ c | update _ _ c | delete _ c => some c
  | read .. | scan .. => none

def preference? : Action → Option ReadPreference
  | read _ _ p | scan _ _ _ _ p => some p
  | insert .. | update .. | delete .. => none

def isWrite (a : Action) : Bool := a.concern?.isSome

def withConcern (c : WriteConcern) : Action → Action
  | insert k v _ => insert k v c
  | update k v _ => update k v c
  | delete k _ => delete k c
  | a => a

def withFields (fields : NameSet) : Action → Action
  | read k _ p => read k (some fields) p
  | scan k n up _ p => scan k n up (some fields) p
  | a => a

def withPreference (p : ReadPreference) : Action → Action
  | read k f _ => read k f p
  | scan k n up f _ => scan k n up f p
  | a => a

def descending : Action → Action
  | scan k n _ f p => scan k n false f p
  | a => a

end Action

namespace Request

def insert (table key : String) (values : Columns) : Request :=
  { action := .insert (some key) values {}, table }

def update (table key : String) (values : Columns) : Request :=
  { action := .update (some key) values {}, table }

def delete (table key : String) : Request :=
  { action := .delete (some key) {}, table }

def read (table key : String) : Request :=
  { action := .read (some key) none .primary, table }

def scan (table start : String) (count : UInt64) : Request :=
  { action := .scan (some start) count true none .primary, table }

def key (r : Request) : Option String := r.action.key

def concern? (r : Request) : Option WriteConcern := r.action.concern?

def preference? (r : Request) : Option ReadPreference := r.action.preference?

def via (r : Request) (node : String) : Request := { r with destination := some node }

def fromClient (r : Request) (client : String) : Request := { r with client := some client }

def withId (r : Request) (id : UInt64) : Request := { r with id }

def withConcern (r : Request) (c : WriteConcern) : Request :=
  { r with action := r.action.withConcern c }

def withFields (r : Request) (fields : List String) : Request :=
  { r with action := r.action.withFields (NameSet.ofNames fields) }

def withPreference (r : Request) (p : ReadPreference) : Request :=
  { r with action := r.action.withPreference p }

def descending (r : Request) : Request := { r with action := r.action.descending }

end Request

end ReplicaLag
