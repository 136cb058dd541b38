import ReplicaLag.Cluster.Run
import ReplicaLag.Trial.ReferenceLog
import ReplicaLag.Trial.Result

/-!
Randomized trials. A trial runs random operations against a cluster of replicas with random link
delays and compares each answer with the reference log: which writes are accepted, how long they
wait, what reads and scans return, and that response numbers increase.
-/

namespace ReplicaLag

structure Trial (σ : Type := ChaCha.Stream) where
  config : TrialConfig
  random : Random σ
  live : LiveCluster
  /-- The delays as they were drawn, for the reference side. -/
  defaultDelay : Millis
  links : List Link
  log : ReferenceLog := {}
  result : TrialResult
  lastId : UInt64 := 0

namespace Trial

variable {σ : Type}

def table : String := "usertable"

def start : Millis := 1000000

def pairsOf (names : List String) : List (String × String) :=
  names.flatMap fun a => (names.filter (· ≠ a)).map fun b => (a, b)

def drawLinks [RandomSource σ] (c : TrialConfig) :
    List (String × String) → Random σ → List Link × Random σ
  | [], r => ([], r)
  | (a, b) :: rest, r =>
    let (own, r) := r.chance c.ownLink
    if own then
      let (delay, r) := r.range 0 (c.maxDelay + 1)
      let (links, r) := drawLinks c rest r
      (⟨a, b, delay⟩ :: links, r)
    else drawLinks c rest r

def nodesOf (c : TrialConfig) : List Node :=
  match c.nodeNames with
  | [] => []
  | first :: others => { name := first, isPrimary := true } :: others.map fun name => { name }

/-- A trial at its start, which draws from some source from then on. -/
def newFrom [RandomSource σ] (config : TrialConfig) (random : Random σ) : Trial σ :=
  let (defaultDelay, random) := random.range 0 (config.maxDelay + 1)
  let (links, random) := drawLinks config (pairsOf config.nodeNames) random
  { config, random, defaultDelay, links
    live := .replicated ⟨start⟩ (nodesOf config) { defaultDelay, links }
    result := { seed := config.seed } }

/-- A trial at its start, with the stream of its seed. -/
def new (config : TrialConfig) : Trial := newFrom config (.ofSeed config.seed)

/-! The reference side. -/

def delay (t : Trial σ) (source target : String) : Millis :=
  if source = target then 0
  else ((t.links.find? fun l => l.source = source ∧ l.target = target).map (·.delay)).getD
    t.defaultDelay

def delaysFrom (t : Trial σ) (receiver : String) : Visibility :=
  .ofList (t.config.nodeNames.map fun n => (n, t.delay receiver n))

/-- The wait for so many acknowledgements: the round trip of the last one, the receiver's own being
free. -/
def expectedWait (t : Trial σ) (receiver : String) (acks : UInt32) : Millis :=
  if acks ≤ 1 ∨ t.config.nodeNames.length ≤ 1 then 0
  else
    let trips := (t.config.nodeNames.filter (· ≠ receiver)).map fun n =>
      t.delay receiver n + t.delay n receiver
    (trips.mergeSort (· ≤ ·)).getD (acks.toNat - 2) 0

def sameColumns : Option Columns → Option Columns → Bool
  | some a, some b => a.same b
  | none, none => true
  | _, _ => false

def sameRows : List (String × Columns) → List (String × Columns) → Bool
  | [], [] => true
  | a :: r, b :: s => a.1 == b.1 && a.2.same b.2 && sameRows r s
  | _, _ => false

/-! Operations. -/

def report (t : Trial σ) (f : Finding) : Trial σ := { t with result := t.result.report f }

/-- Sends a request and checks that its response has a greater number than the last one. -/
def send (t : Trial σ) (r : Request) : Response × Trial σ :=
  let (response, live) := t.live.request r
  let t := { t with live }
  let t := if response.responseId ≤ t.lastId then
      t.report (.responseId response.responseId t.lastId) else t
  (response, { t with lastId := response.responseId })

def now (t : Trial σ) : Millis := t.live.clock.now

def writeRequest (kind : WriteKind) (key : String) (values : Columns) : Request :=
  match kind with
  | .insert => .insert table key values
  | .update => .update table key values
  | .delete => .delete table key

/-- Whether the reference log lets a write be accepted, and the fault if not. -/
def accepts (kind : WriteKind) (current : Option Columns) : Bool :=
  match kind with
  | .insert => current.isNone
  | .update | .delete => current.isSome

def rejectionOf : WriteKind → FaultKind
  | .insert => .insert
  | .update => .update
  | .delete => .delete

def stored (kind : WriteKind) (current : Option Columns) (values : Columns) : Option Columns :=
  match kind with
  | .insert => some values
  | .update => some (values.overlay (current.getD SortedMap.empty))
  | .delete => none

def write (t : Trial σ) (kind : WriteKind) (node key : String) (acks : UInt32) (values : Columns) :
    Trial σ :=
  let now := t.now
  let current := t.log.columns key node now
  let request := ((writeRequest kind key values).via node).withConcern (.acknowledged acks)
  let (response, t) := t.send request
  if ¬ accepts kind current then
    let t := { t with result := { t.result with rejected := t.result.rejected + 1 } }
    match response.body.fault? with
    | some f => if f.kind = rejectionOf kind then t
        else t.report (.rejection (rejectionOf kind) response.body)
    | none => t.report (.rejection (rejectionOf kind) response.body)
  else
    match response.body.fault? with
    | some f => t.report (.acceptance f)
    | none =>
      let t := { t with result := { t.result with accepted := t.result.accepted + 1 } }
      let wanted := t.expectedWait node acks
      let t := if response.wait = wanted then t
        else t.report (.wait acks node wanted response.wait)
      let logged := ⟨stored kind current values, now, t.delaysFrom node⟩
      { t with log := t.log.push key logged }

def read (t : Trial σ) (node key : String) : Trial σ :=
  let now := t.now
  let t := { t with result := { t.result with reads := t.result.reads + 1 } }
  let (response, t) := t.send ((Request.read table key).via node)
  let t := if response.wait = 0 then t else t.report (.readWait response.wait)
  let wanted := t.log.columns key node now
  let t := if sameColumns wanted (t.log.newest key) then t
    else { t with result := { t.result with stale := t.result.stale + 1 } }
  let agrees := match response.body.version?, wanted with
    | some v, none => v.isNull
    | some v, some values => !v.isNull && v.values.same values
    | none, _ => false
  if agrees then t else t.report (.read key node wanted response.body.version?)

def scan (t : Trial σ) (node key : String) (count : UInt64) (ascending : Bool) : Trial σ :=
  let now := t.now
  let t := { t with result := { t.result with scans := t.result.scans + 1 } }
  let request := (Request.scan table key count).via node
  let (response, t) := t.send (if ascending then request else request.descending)
  let wanted := t.log.scan key node now count.toNat ascending
  let got := response.body.records?.map fun rs => rs.map fun r => (r.key, r.version.values)
  let agrees := match got with
    | some rows => sameRows rows wanted
    | none => false
  if agrees then t else t.report (.scan key node wanted got)

def play (t : Trial σ) (turn : Turn) : Trial σ :=
  let clock := match turn.tick with
    | some ms => t.live.clock.advance ms
    | none => t.live.clock
  let t := { t with
    live := { t.live with clock }
    result := { t.result with lastOp := some turn.op } }
  match turn.op with
  | .write kind node key acks values => t.write kind node key acks values
  | .read node key => t.read node key
  | .scan node key count ascending => t.scan node key count ascending

def turn [RandomSource σ] (t : Trial σ) : Trial σ :=
  let t := { t with result := { t.result with operations := t.result.operations + 1 } }
  let (turn, random) := t.config.drawTurn t.random
  { t with random }.play turn

/-- Plays so many turns, but none after a violation. -/
def run [RandomSource σ] (t : Trial σ) : Nat → Trial σ
  | 0 => t
  | n + 1 =>
    let t := t.turn
    if t.result.isSuccess then t.run n else t

def batch (preset : UInt64 → TrialConfig) (firstSeed : UInt64) (seeds operations : Nat) :
    List TrialResult :=
  (List.range seeds).map fun i =>
    ((new (preset (firstSeed + i.toUInt64))).run operations).result

end Trial

end ReplicaLag
