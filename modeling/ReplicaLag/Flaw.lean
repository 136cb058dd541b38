import ReplicaLag.Time

/-!
What can be wrong with a deployment that reads well.
-/

namespace ReplicaLag

inductive Flaw where
  | noShards
  | noNodes
  | emptyName
  | repeatedName (name : String)
  | sharedName (name : String)
  | manyPrimaries (count : Nat)
  | shortJournal (interval : Millis)
  | unknownLinkEnd (name : String)
  | unknownClientNode (name : String)
  deriving DecidableEq, Repr

def Flaw.text : Flaw → String
  | noShards => "no shards configured"
  | noNodes => "cluster has no nodes"
  | emptyName => "node name is empty"
  | repeatedName name => "duplicate node name '" ++ name ++ "'"
  | sharedName name => "node '" ++ name ++ "' appears in more than one shard"
  | manyPrimaries count => "cluster has " ++ toString count ++ " primaries"
  | shortJournal interval =>
    "journal_commit_interval_ms must be at least 3, got " ++ toString interval.toNat
  | unknownLinkEnd name => "delay edge names unknown node '" ++ name ++ "'"
  | unknownClientNode name => "client delay names unknown node '" ++ name ++ "'"

end ReplicaLag
