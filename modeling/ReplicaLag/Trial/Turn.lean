import ReplicaLag.Random.Draw
import ReplicaLag.Trial.Config
import ReplicaLag.Version

/-!
The turns of a trial: whether the clock moves, and one random operation. They are drawn from the
random source alone, in a fixed order, whatever the cluster answers.
-/

namespace ReplicaLag

inductive WriteKind where
  | insert
  | update
  | delete
  deriving DecidableEq, Repr

/-- An operation with all that is random about it. -/
inductive TrialOp where
  | write (kind : WriteKind) (node key : String) (acks : UInt32) (values : Columns)
  | read (node key : String)
  | scan (node key : String) (count : UInt64) (ascending : Bool)

structure Turn where
  tick : Option Millis
  op : TrialOp

namespace TrialConfig

variable {σ : Type} [RandomSource σ]

/-- The names of the nodes; there is at least one. -/
def nodeNames (c : TrialConfig) : List String :=
  (List.range (max c.nodes.toNat 1)).map fun i => "n" ++ toString i

def nodeCount (c : TrialConfig) : UInt64 := if c.nodes = 0 then 1 else c.nodes

def padded (n : UInt64) : String :=
  let digits := Nat.toDigits 10 n.toNat
  String.ofList (List.replicate (4 - digits.length) '0' ++ digits)

def drawKey (c : TrialConfig) (r : Random σ) : String × Random σ :=
  let (i, r) := r.skewed c.keys c.skew
  ("user" ++ padded i, r)

def drawNode (c : TrialConfig) (r : Random σ) : String × Random σ :=
  let (i, r) := r.index c.nodeCount
  ("n" ++ toString i.toNat, r)

/-- So many columns, some of which may be the same; the last one drawn counts. -/
def drawFields (c : TrialConfig) : Nat → Columns → Random σ → Columns × Random σ
  | 0, values, r => (values, r)
  | n + 1, values, r =>
    let (i, r) := r.index c.fields
    let (v, r) := r.range 0 1000
    drawFields c n (values.insert ("field" ++ toString i.toNat) (.nat v)) r

def drawColumns (c : TrialConfig) (most : UInt64) (r : Random σ) : Columns × Random σ :=
  let (n, r) := r.index most
  c.drawFields (n.toNat + 1) SortedMap.empty r

def drawAcks (c : TrialConfig) (r : Random σ) : UInt32 × Random σ :=
  let (n, r) := r.range 1 (c.nodeCount + 1)
  (n.toUInt32, r)

def drawWrite (c : TrialConfig) (kind : WriteKind) (r : Random σ) : TrialOp × Random σ :=
  let (node, r) := c.drawNode r
  let (key, r) := c.drawKey r
  let (acks, r) := c.drawAcks r
  let (values, r) := match kind with
    | .insert => c.drawColumns 3 r
    | .update => c.drawColumns 2 r
    | .delete => (SortedMap.empty, r)
  (.write kind node key acks values, r)

def drawRead (c : TrialConfig) (r : Random σ) : TrialOp × Random σ :=
  let (node, r) := c.drawNode r
  let (key, r) := c.drawKey r
  (.read node key, r)

def drawScan (c : TrialConfig) (r : Random σ) : TrialOp × Random σ :=
  let (node, r) := c.drawNode r
  let (key, r) := c.drawKey r
  let (n, r) := r.index 5
  let (ascending, r) := r.chance (.ofRatio 1 2)
  (.scan node key (n + 1) ascending, r)

/-- An operation, each kind as likely as its weight says. -/
def drawOp (c : TrialConfig) (r : Random σ) : TrialOp × Random σ :=
  let (choice, r) := r.range 0 c.totalWeight
  let inserts := c.insertWeight
  let updates := inserts + c.updateWeight
  let deletes := updates + c.deleteWeight
  let reads := deletes + c.readWeight
  if choice < inserts then c.drawWrite .insert r
  else if choice < updates then c.drawWrite .update r
  else if choice < deletes then c.drawWrite .delete r
  else if choice < reads then c.drawRead r
  else c.drawScan r

def drawTick (c : TrialConfig) (r : Random σ) : Option Millis × Random σ :=
  let (moves, r) := r.chance c.tick
  if moves then
    let (ms, r) := r.range 1 (c.maxTick + 1)
    (some ms, r)
  else (none, r)

def drawTurn (c : TrialConfig) (r : Random σ) : Turn × Random σ :=
  let (tick, r) := c.drawTick r
  let (op, r) := c.drawOp r
  (⟨tick, op⟩, r)

end TrialConfig

end ReplicaLag
