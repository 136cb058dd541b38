import ReplicaLag.Binary64
import ReplicaLag.Time

/-!
Settings of a randomized trial, with three presets: the standard one, a calm one whose clock mostly
outruns replication, and a chaotic one with long delays and hot keys.
-/

namespace ReplicaLag

structure TrialConfig where
  seed : UInt64 := 0
  nodes : UInt64 := 3
  keys : UInt64 := 30
  fields : UInt64 := 4
  /-- The longest one-way delay between two nodes. -/
  maxDelay : Millis := 200
  /-- How likely a pair of nodes has a delay of its own. -/
  ownLink : Binary64 := .ofRatio 1 2
  /-- How likely the clock moves before an operation. -/
  tick : Binary64 := .ofRatio 1 2
  maxTick : Millis := 50
  /-- How much the first keys are preferred. -/
  skew : Binary64 := .ofNat 1
  insertWeight : UInt64 := 30
  updateWeight : UInt64 := 20
  deleteWeight : UInt64 := 10
  readWeight : UInt64 := 30
  scanWeight : UInt64 := 10
  deriving DecidableEq, Repr

namespace TrialConfig

def standard (seed : UInt64) : TrialConfig := { seed }

def calm (seed : UInt64) : TrialConfig :=
  { seed, maxDelay := 10, tick := .ofRatio 8 10, maxTick := 100 }

def chaos (seed : UInt64) : TrialConfig :=
  { seed, nodes := 5, keys := 15, maxDelay := 2000, ownLink := .ofRatio 9 10, tick := .ofRatio 3 10,
    maxTick := 20, skew := .ofNat 2 }

def totalWeight (c : TrialConfig) : UInt64 :=
  c.insertWeight + c.updateWeight + c.deleteWeight + c.readWeight + c.scanWeight

end TrialConfig

end ReplicaLag
