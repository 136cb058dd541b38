import ReplicaLag.Proofs.Replication

/-!
What a failed request does to the store of a cluster of replicas. Main statement: an exception
leaves the store as it was, but for one kind of request, a write that the store has taken before it
is found out that its concern can never be met and has no timeout.
-/

namespace ReplicaLag

namespace Cluster

variable {c : Cluster} {m : Replication} {now : Millis} {r : Request}

/-- The store takes the write, but its concern can never be met and has no timeout. -/
def KeepsUnmet (c : Cluster) (m : Replication) (now : Millis) (r : Request) : Prop :=
  ∃ node concern body store, c.resolve r = .ok node ∧ r.concern? = some concern ∧
    c.apply now r node = .ok (body, store) ∧ ¬ m.CanMeet node concern c.nodes ∧
    concern.timeout = 0

theorem replicationDelay_eq_error_iff_of_applied {node : Node} {concern : WriteConcern}
    {body : Body} {store : Store} {e : Refusal} (hm : c.model = .replicated m)
    (ha : c.apply now r node = .ok (body, store)) (hc : r.concern? = some concern) :
    m.replicationDelay node concern c.nodes = .error e ↔
      ¬ m.CanMeet node concern c.nodes ∧ concern.timeout = 0 ∧
        e = .unsatisfiable c.nodes.length := by
  obtain ⟨key, v, hw, _⟩ := wrote_of_applied hc ha
  have hv := hw.allowed
  rw [hm] at hv
  exact Replication.replicationDelay_eq_error_iff_of_visibility hv hc

/-- The only exceptions that go with a changed store are those of writes that are kept unmet. -/
theorem exception_changes_store_iff (hm : c.model = .replicated m) (now : Millis) (r : Request) :
    (c.serve now r).1.body.isException = true ∧ (c.serve now r).2.store ≠ c.store ↔
      c.KeepsUnmet m now r := by
  constructor
  · rintro ⟨hx, hs⟩
    cases hr : c.resolve r with
    | error e => rw [serve_of_unresolved hr] at hs; exact absurd rfl hs
    | ok node =>
      cases ha : c.apply now r node with
      | error e => rw [serve_of_refused hr ha] at hs; exact absurd rfl hs
      | ok b =>
        -- the store has been applied: only the wait can still fail
        obtain ⟨body, store⟩ := b
        have hbody := (apply_cases ha).1
        rw [serve_of_applied hr ha, hm] at hx
        cases hset : m.settle now (r.answer (c.lastId + 1) body) r node c.nodes with
        | ok a =>
          have hb : a.body = body := congrArg Response.body (Replication.settle_eq_ok hset)
          simp only [LagModel.settle, hset, Request.outcome, hb, hbody] at hx
          cases hx
        | error e =>
          obtain ⟨concern, hc, he⟩ := (Replication.settle_eq_error_iff hbody).mp hset
          obtain ⟨hmeet, ht, _⟩ := (replicationDelay_eq_error_iff_of_applied hm ha hc).mp he
          exact ⟨node, concern, body, store, hr, hc, ha, hmeet, ht⟩
  · rintro ⟨node, concern, body, store, hr, hc, ha, hmeet, ht⟩
    have hbody := (apply_cases ha).1
    have hset : m.settle now (r.answer (c.lastId + 1) body) r node c.nodes =
        .error (.unsatisfiable c.nodes.length) :=
      (Replication.settle_eq_error_iff hbody).mpr
        ⟨concern, hc, (replicationDelay_eq_error_iff_of_applied hm ha hc).mpr ⟨hmeet, ht, rfl⟩⟩
    rw [serve_of_applied hr ha, hm]
    simp only [LagModel.settle, hset]
    obtain ⟨key, v, _, rfl⟩ := wrote_of_applied hc ha
    exact ⟨rfl, c.store.prepend_ne key v⟩

end Cluster

namespace LiveCluster

/-- In every state that a run reaches, a request that is answered with an exception leaves the store
as it was, unless the store took it as a write that can never be acknowledged and has no timeout. -/
theorem failed_request_keeps_store_iff (clock : Clock) (nodes : List Node) (p : LagProfile)
    (events : List ClusterEvent) (r : Request) :
    let l := ((replicated clock nodes p).run events).2
    ((l.request r).1.body.isException = true → (l.request r).2.cluster.store = l.cluster.store) ↔
      ¬ l.cluster.KeepsUnmet (.ofProfile p clock.now) l.clock.now r := by
  intro l
  have hm : l.cluster.model = .replicated (.ofProfile p clock.now) := run_model _ events
  have h := Cluster.exception_changes_store_iff hm l.clock.now r
  change ((l.cluster.serve l.clock.now r).1.body.isException = true →
    (l.cluster.serve l.clock.now r).2.store = l.cluster.store) ↔ _
  rw [← h, not_and]
  exact forall_congr' fun _ => Classical.not_not.symm

/-- Two nodes cannot acknowledge a write three times: the insert fails, but it is stored. -/
theorem unmet_insert_is_kept :
    let nodes : List Node := [{ name := "n1", isPrimary := true }, { name := "n2" }]
    let l := replicated ⟨0⟩ nodes {}
    let r := (Request.insert "t" "k" (.ofList [("v", .nat 1)])).withConcern (.acknowledged 3)
    (l.request r).1.body.isException = true ∧
      (l.request r).2.cluster.store ≠ l.cluster.store := by
  intro nodes l r
  have hmeet : ¬ (Replication.ofProfile {} 0).CanMeet { name := "n1", isPrimary := true }
      (.acknowledged 3) nodes := by
    simp [Replication.CanMeet, WriteConcern.acknowledged, nodes, Replication.holders]
  exact (Cluster.exception_changes_store_iff rfl 0 r).mpr
    ⟨{ name := "n1", isPrimary := true }, .acknowledged 3, _, _, rfl, rfl, rfl, hmeet, rfl⟩

end LiveCluster

end ReplicaLag
