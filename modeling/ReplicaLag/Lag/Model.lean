import ReplicaLag.Lag.Replication

/-!
The two models of lag that a cluster can live by. Under constant lag every write reaches the
receiving node after one delay and all others after another, and nobody waits.
-/

namespace ReplicaLag

structure ConstantLag where
  others : Millis
  own : Millis
  deriving DecidableEq, Repr

inductive LagModel where
  | constant (lag : ConstantLag)
  | replicated (replication : Replication)

namespace ConstantLag

def spread (c : ConstantLag) (receiver : Node) (nodes : List Node) : Visibility :=
  .ofList (nodes.map fun n => (n.name, if n.name = receiver.name then c.own else c.others))

end ConstantLag

namespace LagModel

/-- When each node sees a write that `receiver` takes now. -/
def spread (m : LagModel) (receiver : Node) (nodes : List Node) : Visibility :=
  match m with
  | constant c => c.spread receiver nodes
  | replicated r => r.spread receiver nodes

/-- When each node sees a write, if the model lets the node take it. -/
def visibility (m : LagModel) (request : Request) (receiver : Node) (nodes : List Node) :
    Except Refusal Visibility :=
  match m with
  | constant c => .ok (c.spread receiver nodes)
  | replicated r => r.visibility request receiver nodes

def settle (m : LagModel) (now : Millis) (response : Response) (request : Request) (server : Node)
    (nodes : List Node) : Except Refusal Response :=
  match m with
  | constant _ => .ok { response with wait := 0 }
  | replicated r => r.settle now response request server nodes

def clientLatency (m : LagModel) (client : Option String) (node : Node) : Millis :=
  match m with
  | constant _ => 0
  | replicated r => r.links.clientDelay client node.name

end LagModel

end ReplicaLag
