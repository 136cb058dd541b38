import ReplicaLag.KeyHash
import ReplicaLag.SortedMap

/-!
Placements: which shard of a table holds a key. Without a key the answer is the first shard.
-/

namespace ReplicaLag

inductive Placement where
  | first
  | hashed
  /-- Key ranges that meet at the boundaries; a boundary belongs to the range above it. -/
  | ranges (boundaries : List String)
  deriving DecidableEq, Repr

namespace Placement

/-- The number of the key range that a key falls into. -/
def rangeOf (boundaries : List String) (key : String) : Nat :=
  ((NameSet.ofNames boundaries).names.takeWhile (· ≤ key)).length

/-- The shard of a key among so many. Only a hashed placement asks for the hash of the key. -/
def shardOf (p : Placement) (key : Option String) (shards : Nat)
    (hash : String → UInt64 := keyHash) : Nat :=
  match p, key with
  | hashed, some k => (hash k).toNat % shards
  | ranges boundaries, some k => min (rangeOf boundaries k) (shards - 1)
  | _, _ => 0

theorem shardOf_lt (p : Placement) (key : Option String) (hash : String → UInt64) {shards : Nat}
    (h : 0 < shards) : p.shardOf key shards hash < shards := by
  unfold shardOf
  split
  · exact Nat.mod_lt _ h
  · omega
  · exact h

end Placement

end ReplicaLag
