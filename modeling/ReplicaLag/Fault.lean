/-!
Why a request fails. A `Refusal` is the cause, with what it is about; a `Fault` is what the client
is told: a kind and a message. All wording stands here.
-/

namespace ReplicaLag

inductive FaultKind where
  | noKeyProvided
  | noColumnProvided
  | noValueProvided
  | insert
  | update
  | delete
  | unknownMessageType
  | database
  | writeForbidden
  | unknownTagSet
  | shardUnavailable
  deriving DecidableEq, Repr

namespace FaultKind

def all : List FaultKind :=
  [noKeyProvided, noColumnProvided, noValueProvided, insert, update, delete, unknownMessageType,
    database, writeForbidden, unknownTagSet, shardUnavailable]

def name : FaultKind → String
  | noKeyProvided => "NoKeyProvided"
  | noColumnProvided => "NoColumnProvided"
  | noValueProvided => "NoValueProvided"
  | insert => "Insert"
  | update => "Update"
  | delete => "Delete"
  | unknownMessageType => "UnknownMessageType"
  | database => "Database"
  | writeForbidden => "WriteForbidden"
  | unknownTagSet => "UnknownTagSet"
  | shardUnavailable => "ShardUnavailable"

def ofName? (s : String) : Option FaultKind := all.find? (·.name = s)

def text : FaultKind → String
  | noKeyProvided => "no key provided"
  | noColumnProvided => "no column provided"
  | noValueProvided => "no value provided"
  | insert => "insert failed"
  | update => "update failed"
  | delete => "delete failed"
  | unknownMessageType => "unknown message type"
  | database => "database error"
  | writeForbidden => "write forbidden"
  | unknownTagSet => "unknown tag set"
  | shardUnavailable => "shard unavailable"

theorem ofName?_name (k : FaultKind) : ofName? k.name = some k := by cases k <;> rfl

end FaultKind

/-- What a client is told about a failed request. -/
structure Fault where
  kind : FaultKind
  message : String
  deriving DecidableEq, Repr

def Fault.text (f : Fault) : String := f.kind.text ++ ": " ++ f.message

inductive Refusal where
  | noKey
  | noValues
  | emptyColumn
  | noFields
  | emptyField
  | emptyScan
  | keyExists (key : String)
  | nothingToUpdate (key : String)
  | nothingToDelete (key : String)
  | noMatchingNode
  | readOnlySecondary (node : String)
  | unknownTagSet (name : String)
  | unsatisfiable (nodes : Nat)
  | shardGone (shard : Nat)
  | notRecords (answer : String)
  | unexpected (wanted answer : String)
  | malformed
  | noRequestKind
  | unknownRequestKind (kind : String)
  deriving DecidableEq, Repr

namespace Refusal

def kind : Refusal → FaultKind
  | noKey => .noKeyProvided
  | noValues => .noValueProvided
  | emptyColumn | noFields | emptyField => .noColumnProvided
  | keyExists _ => .insert
  | nothingToUpdate _ => .update
  | nothingToDelete _ => .delete
  | readOnlySecondary _ => .writeForbidden
  | unknownTagSet _ => .unknownTagSet
  | shardGone _ => .shardUnavailable
  | noRequestKind | unknownRequestKind _ => .unknownMessageType
  | emptyScan | noMatchingNode | unsatisfiable _ | notRecords _ | unexpected _ _ | malformed =>
    .database

def message : Refusal → String
  | noKey => "request has no key"
  | noValues => "write has no values"
  | emptyColumn => "write names an empty column"
  | noFields => "empty field set"
  | emptyField => "field set names an empty column"
  | emptyScan => "scan record count must be at least 1"
  | keyExists key => "key '" ++ key ++ "' already exists"
  | nothingToUpdate key => "key '" ++ key ++ "' does not exist"
  | nothingToDelete key => "key '" ++ key ++ "' does not exist"
  | noMatchingNode => "no matching node"
  | readOnlySecondary node => "node '" ++ node ++ "' is a read-only secondary"
  | unknownTagSet name => "tag set '" ++ name ++ "' is not configured"
  | unsatisfiable nodes =>
    "write concern cannot be satisfied by " ++ toString nodes ++ " node(s)"
  | shardGone shard => "backend " ++ toString shard ++ " unavailable"
  | notRecords answer => "shard answered a scan with " ++ answer
  | unexpected wanted answer => "expected " ++ wanted ++ " response, got " ++ answer
  | malformed => "malformed request"
  | noRequestKind => "request has no kind"
  | unknownRequestKind kind => "unknown request kind '" ++ kind ++ "'"

def fault (r : Refusal) : Fault := ⟨r.kind, r.message⟩

end Refusal

end ReplicaLag
