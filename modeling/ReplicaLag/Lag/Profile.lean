import ReplicaLag.Flaw
import ReplicaLag.SortedMap

/-!
The lag profile of a cluster: how long a write travels between its nodes, how far each client is
from each node, when journals are committed, and what its tag sets ask for.
-/

namespace ReplicaLag

/-- The delay of a write on its way from one node to another. -/
structure Link where
  source : String
  target : String
  delay : Millis
  deriving DecidableEq, Repr

structure ClientLink where
  client : String
  node : String
  delay : Millis
  deriving DecidableEq, Repr

structure LagProfile where
  defaultDelay : Millis := 0
  journalInterval : Millis := 100
  links : List Link := []
  clientLinks : List ClientLink := []
  /-- For each tag set, how many nodes of each tag must have a write. -/
  tagSets : SortedMap (SortedMap UInt32) := SortedMap.empty
  readOnlySecondaries : Bool := false
  deriving DecidableEq

namespace LagProfile

def withLink (p : LagProfile) (source target : String) (delay : Millis) : LagProfile :=
  { p with links := p.links ++ [⟨source, target, delay⟩] }

def withLinks (p : LagProfile) (a b : String) (delay : Millis) : LagProfile :=
  (p.withLink a b delay).withLink b a delay

def withClientLink (p : LagProfile) (client node : String) (delay : Millis) : LagProfile :=
  { p with clientLinks := p.clientLinks ++ [⟨client, node, delay⟩] }

def withJournalInterval (p : LagProfile) (interval : Millis) : LagProfile :=
  { p with journalInterval := interval }

def withTag (p : LagProfile) (tagSet tag : String) (acks : UInt32) : LagProfile :=
  let tags := p.tagSets.getD tagSet SortedMap.empty
  { p with tagSets := p.tagSets.insert tagSet (tags.insert tag acks) }

def withReadOnlySecondaries (p : LagProfile) (b : Bool) : LagProfile :=
  { p with readOnlySecondaries := b }

/-- The first flaw of a profile for a cluster of nodes with the given names. -/
def flaw? (p : LagProfile) (names : List String) : Option Flaw :=
  (if p.journalInterval < 3 then some (.shortJournal p.journalInterval) else none)
  <|> ((p.links.flatMap fun l => [l.source, l.target]).find? (!names.contains ·)).map
    .unknownLinkEnd
  <|> ((p.clientLinks.map (·.node)).find? (!names.contains ·)).map .unknownClientNode

end LagProfile

end ReplicaLag
