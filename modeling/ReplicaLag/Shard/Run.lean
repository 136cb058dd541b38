import ReplicaLag.Router.Run

/-!
Runs of one shard: what reaches it from a router, from a client of its own or from an operator, one
after another.
-/

namespace ReplicaLag

structure LiveShard where
  clock : Clock
  shard : Shard

inductive ShardEvent where
  | request (r : Request)
  | clear
  | stop
  | advance (ms : Millis)

namespace LiveShard

def request (l : LiveShard) (r : Request) : Response × LiveShard :=
  let (response, shard) := l.shard.serve l.clock.now r
  (response, { l with shard })

/-- One event, with the response if it is a request. -/
def step (l : LiveShard) : ShardEvent → Option Response × LiveShard
  | .request r => let (response, l) := l.request r; (some response, l)
  | .clear => (none, { l with shard := l.shard.clear })
  | .stop => (none, { l with shard := l.shard.stop })
  | .advance ms => (none, { l with clock := l.clock.advance ms })

/-- The responses of a run, and the shard after it. -/
def run (l : LiveShard) : List ShardEvent → List Response × LiveShard
  | [] => ([], l)
  | e :: r =>
    let (response, l) := l.step e
    let (responses, l) := l.run r
    (response.toList ++ responses, l)

end LiveShard

end ReplicaLag
