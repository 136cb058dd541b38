import ReplicaLag.Version

/-!
The reference log of a trial: every accepted write, oldest first, with its own copy of the delays.
What a node sees is worked out from the log alone, from its end backwards.
-/

namespace ReplicaLag

/-- An accepted write; one without columns is a deletion. -/
structure LoggedWrite where
  values : Option Columns
  writtenAt : Millis
  delays : Visibility

structure ReferenceLog where
  writes : SortedMap (List LoggedWrite) := SortedMap.empty

namespace ReferenceLog

def ofKey (log : ReferenceLog) (key : String) : List LoggedWrite := log.writes.getD key []

/-- The last write of a key that has reached a node. -/
def visible (log : ReferenceLog) (key node : String) (now : Millis) : Option LoggedWrite :=
  (log.ofKey key).reverse.find? fun w =>
    match w.delays.get? node with
    | some delay => w.writtenAt.plus delay ≤ now
    | none => false

/-- The columns a node sees under a key, if there are any. -/
def columns (log : ReferenceLog) (key node : String) (now : Millis) : Option Columns :=
  (log.visible key node now).bind (·.values)

/-- The columns of the last write of a key, wherever it is seen. -/
def newest (log : ReferenceLog) (key : String) : Option Columns :=
  (log.ofKey key).getLast?.bind (·.values)

def push (log : ReferenceLog) (key : String) (w : LoggedWrite) : ReferenceLog :=
  ⟨log.writes.insert key (log.ofKey key ++ [w])⟩

/-- The keys from `start` on, upwards or downwards, whose columns a node sees, at most `count`. -/
def scan (log : ReferenceLog) (start node : String) (now : Millis) (count : Nat)
    (ascending : Bool) : List (String × Columns) :=
  let keys := if ascending then log.writes.keys.filter (start ≤ ·)
    else log.writes.keys.reverse.filter (· ≤ start)
  (keys.filterMap fun k => (log.columns k node now).map fun c => (k, c)).take count

end ReferenceLog

end ReplicaLag
