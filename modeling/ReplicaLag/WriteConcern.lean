import ReplicaLag.Time

/-!
What a client wants to wait for after a write, and which node it wants to read from.
-/

namespace ReplicaLag

/-- A write waits for `acks` nodes, or for the nodes that a tag set asks for, and with `journaling`
also for the next journal commit; a timeout of zero is none. -/
structure WriteConcern where
  acks : UInt32 := 1
  tagSet : Option String := none
  journaling : Bool := false
  timeout : Millis := 0
  deriving DecidableEq, Repr

namespace WriteConcern

def acknowledged (n : UInt32) : WriteConcern := { acks := n }

def tagged (name : String) : WriteConcern := { tagSet := some name }

def journaled : WriteConcern := { journaling := true }

end WriteConcern

inductive ReadPreference where
  | primary
  | primaryPreferred
  | secondary
  | secondaryPreferred
  | nearest
  deriving DecidableEq, Repr

namespace ReadPreference

def all : List ReadPreference :=
  [primary, primaryPreferred, secondary, secondaryPreferred, nearest]

def name : ReadPreference → String
  | primary => "Primary"
  | primaryPreferred => "PrimaryPreferred"
  | secondary => "Secondary"
  | secondaryPreferred => "SecondaryPreferred"
  | nearest => "Nearest"

def ofName? (s : String) : Option ReadPreference := all.find? (·.name = s)

theorem ofName?_name (p : ReadPreference) : ofName? p.name = some p := by cases p <;> rfl

end ReadPreference

end ReplicaLag
