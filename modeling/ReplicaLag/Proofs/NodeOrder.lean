import ReplicaLag.Proofs.NodeChoice
import ReplicaLag.Proofs.Replication

/-!
The order in which the nodes of a cluster are listed. The delays of a write are kept by name, and of
the round trips only the sorted list counts, so neither depends on the order, and no more does the
choice of the node that serves a request. Main statement: clusters that list the same nodes in
different orders give the same responses throughout a run.
-/

namespace ReplicaLag

variable {nodes nodes' : List Node}

theorem kthFastest_eq_of_perm {delays delays' : List Millis} (h : delays.Perm delays') (k : Nat) :
    kthFastest delays k = kthFastest delays' k := by
  have hsorted : delays.mergeSort (· ≤ ·) = delays'.mergeSort (· ≤ ·) := by
    have hperm : (delays.mergeSort (· ≤ ·)).Perm (delays'.mergeSort (· ≤ ·)) :=
      (List.mergeSort_perm ..).trans (h.trans (List.mergeSort_perm ..).symm)
    exact hperm.eq_of_pairwise (fun _ _ _ _ => UInt64.le_antisymm) (mergeSort_ordered delays)
      (mergeSort_ordered delays')
  rw [kthFastest, kthFastest, hsorted]

namespace Replication

variable (m : Replication) (receiver : Node)

theorem roundTrips_perm (h : nodes.Perm nodes') (p : Node → Bool) :
    (m.roundTrips receiver nodes p).Perm (m.roundTrips receiver nodes' p) := (h.filter _).map _

theorem untaggedDelay_eq_of_perm (h : nodes.Perm nodes') (acks : UInt32) :
    m.untaggedDelay acks receiver nodes = m.untaggedDelay acks receiver nodes' := by
  rw [untaggedDelay, untaggedDelay, h.length_eq,
    kthFastest_eq_of_perm (m.roundTrips_perm receiver h _)]

theorem taggedDelay_eq_of_perm (h : nodes.Perm nodes') (tags : List (String × UInt32)) :
    m.taggedDelay receiver nodes tags = m.taggedDelay receiver nodes' tags := by
  induction tags with
  | nil => rfl
  | cons e r ih =>
    rw [taggedDelay, taggedDelay, ih, kthFastest_eq_of_perm (m.roundTrips_perm receiver h _)]

theorem writeDelay_eq_of_perm (h : nodes.Perm nodes') (now : Millis) (client : Option String)
    (concern : WriteConcern) :
    m.writeDelay now client receiver concern nodes =
      m.writeDelay now client receiver concern nodes' := by
  have htagged : m.taggedDelay receiver nodes = m.taggedDelay receiver nodes' :=
    funext (m.taggedDelay_eq_of_perm receiver h)
  simp only [writeDelay, replicationDelay, htagged, m.untaggedDelay_eq_of_perm receiver h,
    h.length_eq]

end Replication

namespace LagModel

variable (m : LagModel) (receiver : Node)

theorem spread_eq_of_perm (h : nodes.Perm nodes') :
    m.spread receiver nodes = m.spread receiver nodes' := by
  refine SortedMap.ext_get? fun name => ?_
  simp only [get?_spread, (h.map Node.name).mem_iff]

theorem visibility_eq_of_perm (h : nodes.Perm nodes') (r : Request) :
    m.visibility r receiver nodes = m.visibility r receiver nodes' := by
  have hspread := m.spread_eq_of_perm receiver h
  cases m with
  | constant c => exact congrArg Except.ok hspread
  | replicated m =>
    have hspread : m.spread receiver nodes = m.spread receiver nodes' := hspread
    simp only [visibility, Replication.visibility, hspread]

theorem settle_eq_of_perm (h : nodes.Perm nodes') (now : Millis) (a : Response) (r : Request) :
    m.settle now a r receiver nodes = m.settle now a r receiver nodes' := by
  cases m with
  | constant c => rfl
  | replicated m => simp only [settle, Replication.settle, m.writeDelay_eq_of_perm receiver h]

end LagModel

namespace Cluster

variable {c : Cluster}

theorem apply_eq_of_perm (h : c.nodes.Perm nodes') (now : Millis) (r : Request) (node : Node) :
    apply { c with nodes := nodes' } now r node = c.apply now r node := by
  have hallowed := c.model.visibility_eq_of_perm node h r
  cases ha : r.action <;> simp only [apply, ha, hallowed]

/-- A request is answered alike, and leaves the same store. -/
theorem serve_relisted (h : Node.Relisted c.nodes nodes') (now : Millis) (r : Request) :
    serve { c with nodes := nodes' } now r =
      ((c.serve now r).1, { (c.serve now r).2 with nodes := nodes' }) := by
  have hresolve : resolve { c with nodes := nodes' } r = c.resolve r := h.resolve_eq r
  have happly := apply_eq_of_perm h.perm now r
  cases hr : c.resolve r with
  | error e =>
    rw [serve_of_unresolved hr, serve_of_unresolved (hresolve.trans hr)]
  | ok node =>
    cases ha : c.apply now r node with
    | error e =>
      rw [serve_of_refused hr ha, serve_of_refused (hresolve.trans hr) ((happly node).trans ha)]
    | ok b =>
      rw [serve_of_applied hr ha, serve_of_applied (hresolve.trans hr) ((happly node).trans ha)]
      simp only [c.model.settle_eq_of_perm node h.perm]

end Cluster

namespace LiveCluster

/-- The cluster with another list of its nodes. -/
def relisted (l : LiveCluster) (nodes : List Node) : LiveCluster :=
  { l with cluster := { l.cluster with nodes } }

theorem request_relisted {l : LiveCluster} (h : Node.Relisted l.cluster.nodes nodes')
    (r : Request) :
    (l.relisted nodes').request r = ((l.request r).1, (l.request r).2.relisted nodes') := by
  have hserve := Cluster.serve_relisted h l.clock.now r
  simp only [request, relisted, hserve]

theorem run_relisted {l : LiveCluster} (h : Node.Relisted l.cluster.nodes nodes')
    (events : List ClusterEvent) :
    (l.relisted nodes').run events = ((l.run events).1, (l.run events).2.relisted nodes') := by
  induction events generalizing l with
  | nil => rfl
  | cons e rest ih =>
    cases e with
    | request r =>
      have hlater := ih (l := (l.request r).2) (by rwa [l.request_nodes r])
      rw [run_request, run_request, request_relisted h r, hlater]
    | advance ms => exact ih (l := { l with clock := l.clock.advance ms }) h
    | clear => exact ih (l := { l with cluster := l.cluster.clear }) h

/-- Where no two nodes have the same name and at most one is primary, it makes no difference to any
response of a run in which order the nodes are listed. -/
theorem run_eq_of_nodes_perm (clock : Clock) (model : LagModel) (h : nodes.Perm nodes')
    (names : (nodes.map (·.name)).Nodup) (primaries : (nodes.filter (·.isPrimary)).length ≤ 1)
    (events : List ClusterEvent) :
    (run ⟨clock, { nodes, model }⟩ events).1 =
      (run ⟨clock, { nodes := nodes', model }⟩ events).1 := by
  have hrun := run_relisted (l := ⟨clock, { nodes, model }⟩) ⟨h, names, primaries⟩ events
  exact (congrArg Prod.fst hrun).symm

/-- The write waits for both nodes of its tag set, and the client reads from the nearest one. -/
theorem reversed_nodes_answer_alike :
    let nodes : List Node := [{ name := "n1", isPrimary := true },
      { name := "n2", tags := .ofNames ["east"] }, { name := "n3", tags := .ofNames ["east"] }]
    let p : LagProfile := {
      defaultDelay := 10, links := [⟨"n1", "n3", 30⟩], clientLinks := [⟨"c", "n1", 5⟩]
      tagSets := .ofList [("both", .ofList [("east", 2)])] }
    let insert := Request.insert "t" "k" (.ofList [("v", .nat 1)])
    let read := (Request.read "t" "k").withPreference .nearest
    let events : List ClusterEvent :=
      [.request (insert.withConcern (.tagged "both")), .advance 20, .request (read.fromClient "c")]
    let model : LagModel := .replicated (.ofProfile p 0)
    nodes.Perm nodes.reverse ∧ (nodes.map (·.name)).Nodup ∧
      (nodes.filter (·.isPrimary)).length ≤ 1 ∧
      (run ⟨⟨0⟩, { nodes, model }⟩ events).1 =
        (run ⟨⟨0⟩, { nodes := nodes.reverse, model }⟩ events).1 := by
  intro nodes p insert read events model
  have hperm : nodes.Perm nodes.reverse := (List.reverse_perm nodes).symm
  have hnames : (nodes.map (·.name)).Nodup := by decide
  have hprimaries : (nodes.filter (·.isPrimary)).length ≤ 1 := by decide
  exact ⟨hperm, hnames, hprimaries,
    run_eq_of_nodes_perm ⟨0⟩ model hperm hnames hprimaries events⟩

end LiveCluster

end ReplicaLag
