import ReplicaLag.Router

/-!
Runs of a sharded cluster: requests through the router or straight to a shard, clears, stops and
clock advances, one after another.
-/

namespace ReplicaLag

/-- A router, its shards, and the clock they share. -/
structure LiveRouter where
  clock : Clock
  router : Router

inductive RouterEvent where
  | request (r : Request)
  | direct (shard : Nat) (r : Request)
  | clear (shard : Nat)
  | stop (shard : Nat)
  | advance (ms : Millis)

namespace LiveRouter

def request (l : LiveRouter) (r : Request) : Response × LiveRouter :=
  let (response, router) := l.router.serve l.clock.now r
  (response, { l with router })

def direct (l : LiveRouter) (shard : Nat) (r : Request) : Option Response × LiveRouter :=
  let (response, router) := l.router.direct shard l.clock.now r
  (response, { l with router })

def clear (l : LiveRouter) (shard : Nat) : LiveRouter :=
  { l with router := l.router.modify shard Shard.clear }

def stop (l : LiveRouter) (shard : Nat) : LiveRouter :=
  { l with router := l.router.modify shard Shard.stop }

def advance (l : LiveRouter) (ms : Millis) : LiveRouter :=
  { l with clock := l.clock.advance ms }

/-- One event, with the response if there is one. -/
def step (l : LiveRouter) : RouterEvent → Option Response × LiveRouter
  | .request r => let (response, l) := l.request r; (some response, l)
  | .direct shard r => l.direct shard r
  | .clear shard => (none, l.clear shard)
  | .stop shard => (none, l.stop shard)
  | .advance ms => (none, l.advance ms)

/-- The responses of a run, event by event, and the router after it. -/
def run (l : LiveRouter) : List RouterEvent → List (Option Response) × LiveRouter
  | [] => ([], l)
  | e :: r =>
    let (response, l) := l.step e
    let (responses, l) := l.run r
    (response :: responses, l)

end LiveRouter

end ReplicaLag
