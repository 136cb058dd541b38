import ReplicaLag.Fault
import ReplicaLag.History

/-!
The store: for each key its history. Writes only add versions; each is accepted or refused by what
the writing node sees at the moment of the write, and a refused write leaves the store as it was.
-/

namespace ReplicaLag

structure Store where
  histories : SortedMap History

namespace Store

def empty : Store := ⟨SortedMap.empty⟩

/-- The versions of a key, newest first. -/
def history (s : Store) (key : String) : History := s.histories.getD key []

/-- What a node sees of a key at a moment. -/
def visible (s : Store) (node key : String) (t : Millis) : Option Version :=
  (s.history key).visible node t

/-- What a node sees of a key at a moment, if that is not a deletion. -/
def present (s : Store) (node key : String) (t : Millis) : Option Version :=
  (s.history key).present node t

/-- The version a node reads, restricted to some columns; the null version if it sees none. -/
def get (s : Store) (node key : String) (columns : Option NameSet) (t : Millis) : Version :=
  ((s.visible node key t).map (·.restrict columns)).getD .null

/-- Adds what a node sees of one history after another to the records that are found, until there
are `count` of them. -/
def collect (node : String) (count : Nat) (columns : Option NameSet) (t : Millis) :
    List Record → List (String × History) → List Record
  | found, [] => found
  | found, e :: rest =>
    match History.present e.2 node t with
    | none => collect node count columns t found rest
    | some v =>
      let found := found ++ [⟨e.1, v.restrict columns⟩]
      if found.length = count then found else collect node count columns t found rest

/-- The records a node sees from `start` on, upwards or downwards, at most `count` of them. -/
def scan (s : Store) (node start : String) (count : Nat) (ascending : Bool)
    (columns : Option NameSet) (t : Millis) : List Record :=
  if count = 0 then []
  else
    let walk := if ascending then s.histories.above start else s.histories.below start
    collect node count columns t [] walk

def prepend (s : Store) (key : String) (v : Version) : Store :=
  ⟨s.histories.insert key (v :: s.history key)⟩

/-- Adds a version of a key that `node` does not see yet. -/
def insert (s : Store) (node key : String) (v : Version) : Except Refusal Store :=
  match s.present node key v.writtenAt with
  | some _ => .error (.keyExists key)
  | none => .ok (s.prepend key v)

/-- Adds a version of a key that `node` sees; columns that it does not set keep their values. -/
def update (s : Store) (node key : String) (v : Version) : Except Refusal (Version × Store) :=
  match s.present node key v.writtenAt with
  | some base =>
    let merged := v.overlaidOn base.values
    .ok (merged, s.prepend key merged)
  | none => .error (.nothingToUpdate key)

/-- Adds a null version to a key that `node` sees. -/
def delete (s : Store) (node : Node) (key : String) (visibility : Visibility) (t : Millis) :
    Except Refusal Store :=
  match s.present node.name key t with
  | some _ => .ok (s.prepend key (Version.null.stamped node t visibility))
  | none => .error (.nothingToDelete key)

def size (s : Store) : Nat := s.histories.size

def isEmpty (s : Store) : Bool := s.histories.isEmpty

def keys (s : Store) : List String := s.histories.keys

def versionCount (s : Store) (key : String) : Nat := (s.history key).length

theorem history_prepend (s : Store) (key k : String) (v : Version) :
    (s.prepend key v).history k = if k = key then v :: s.history key else s.history k := by
  simp only [history, prepend, SortedMap.getD, SortedMap.get?_insert]
  split <;> rfl

@[simp] theorem history_empty (k : String) : empty.history k = [] := rfl

end Store

end ReplicaLag
