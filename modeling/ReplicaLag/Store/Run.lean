import ReplicaLag.Store

/-!
Runs of a store by itself: writes of any nodes at any times, and clears, one after another. A write
that is refused leaves the store as it was.
-/

namespace ReplicaLag

/-- A write as it comes to a store. The node decides what it may overwrite; a version bears its own
moment and its own delays. -/
inductive StoreWrite where
  | insert (node : Node) (key : String) (v : Version)
  | update (node : Node) (key : String) (v : Version)
  | delete (node : Node) (key : String) (visibility : Visibility) (t : Millis)

def StoreWrite.key : StoreWrite → String
  | insert _ key _ | update _ key _ | delete _ key _ _ => key

/-- The moment of the write, as its version bears it. -/
def StoreWrite.moment : StoreWrite → Millis
  | insert _ _ v | update _ _ v => v.writtenAt
  | delete _ _ _ t => t

inductive StoreEvent where
  | write (w : StoreWrite)
  | clear

namespace Store

/-- The version that a write adds and the store with it, or why the write is refused. -/
def write (s : Store) : StoreWrite → Except Refusal (Version × Store)
  | .insert node key v => (s.insert node.name key v).map fun t => (v, t)
  | .update node key v => s.update node.name key v
  | .delete node key visibility t =>
    (s.delete node key visibility t).map fun u => (Version.null.stamped node t visibility, u)

def step (s : Store) : StoreEvent → Store
  | .write w =>
    match s.write w with
    | .ok (_, t) => t
    | .error _ => s
  | .clear => empty

def run (s : Store) : List StoreEvent → Store
  | [] => s
  | e :: r => (s.step e).run r

end Store

end ReplicaLag
