import ReplicaLag.Json

/-!
Tables under construction. Every table knows how it came about, for what may be added to it hangs on
that: a table with a header or in braces is complete once it is written, a table that only a dotted
key implies takes more dotted keys, and one that only a longer header implies may still get its own
header.
-/

namespace ReplicaLag.Toml

inductive Origin where
  /-- By its own header, or in braces. -/
  | written
  /-- By the header of a table inside it. -/
  | implied
  /-- By a dotted key. -/
  | dotted
  deriving DecidableEq, Repr

inductive Item where
  | value (v : Json)
  | table (origin : Origin) (entries : List (String × Item))
  | tables (elements : List (List (String × Item)))

abbrev Entries := List (String × Item)

namespace Entries

def set (es : Entries) (k : String) (i : Item) : Entries :=
  if es.any (·.1 = k) then es.map fun e => if e.1 = k then (k, i) else e else es ++ [(k, i)]

def remove (es : Entries) (k : String) : Entries := es.filter (·.1 ≠ k)

/-- Changes the table that a path leads to; tables that are missing on the way come about. An array
of tables leads to its last table. A dotted key leads through no table that is complete. -/
def descend (isDotted : Bool) (f : Origin → Entries → Option Entries) :
    List String → Origin → Entries → Option Entries
  | [], origin, es => f origin es
  | k :: path, _, es =>
    match es.lookup k with
    | none => do
      let origin := if isDotted then .dotted else .implied
      return es.set k (.table origin (← descend isDotted f path origin []))
    | some (.value _) => none
    | some (.table origin inner) =>
      if isDotted ∧ origin = .written then none
      else do return es.set k (.table origin (← descend isDotted f path origin inner))
    | some (.tables elements) =>
      match elements.getLast? with
      | none => none
      | some last => do
        let last ← descend isDotted f path .written last
        return es.set k (.tables (elements.dropLast ++ [last]))

/-- Adds a new key to a table: a dotted key to one that dotted keys made, a plain one to another. -/
def addKey (isDotted : Bool) (k : String) (i : Item) (origin : Origin) (es : Entries) :
    Option Entries :=
  if decide (origin = .dotted) != isDotted then none
  else if es.any (·.1 = k) then none
  else some (es ++ [(k, i)])

def insert (es : Entries) (path : List String) (k : String) (v : Item) : Option Entries :=
  descend true (addKey (!path.isEmpty) k v) path .written es

/-- The item that a path leads to, through the last table of each array of tables. -/
def find? : Entries → List String → Option Item
  | _, [] => none
  | es, [k] => es.lookup k
  | es, k :: path =>
    match es.lookup k with
    | some (.table _ inner) => find? inner path
    | some (.tables elements) => elements.getLast?.bind (find? · path)
    | _ => none

end Entries

mutual

def Item.toJson : Item → Json
  | .value v => v
  | .table _ es => .object (membersOf es)
  | .tables ts => .array (objectsOf ts)

def membersOf : List (String × Item) → List (String × Json)
  | [] => []
  | (k, i) :: r => (k, i.toJson) :: membersOf r

def objectsOf : List (List (String × Item)) → List Json
  | [] => []
  | es :: r => .object (membersOf es) :: objectsOf r

end

end ReplicaLag.Toml
