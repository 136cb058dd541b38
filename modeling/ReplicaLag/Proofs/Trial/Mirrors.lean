import ReplicaLag.Proofs.Trial.Answers
import ReplicaLag.Proofs.Trial.Delays

/-!
The two sides of a trial. While its log is the log of the cluster's store (`Mirrors`), the cluster
answers each operation as the reference side expects: a write (`Mirrors.request_write`), a read
(`Mirrors.request_read`) and a scan (`Mirrors.request_scan`).
-/

namespace ReplicaLag

namespace Trial

variable {σ : Type}

def requestOf : TrialOp → Request
  | .write kind node key acks values =>
    ((writeRequest kind key values).via node).withConcern (.acknowledged acks)
  | .read node key => (Request.read table key).via node
  | .scan node key count ascending =>
    let request := (Request.scan table key count).via node
    if ascending then request else request.descending

/-- The answer is what the reference side of the trial expects of the operation. -/
def Confirms (t : Trial σ) (a : Response) : TrialOp → Prop
  | .write kind node key acks _ =>
    if accepts kind (t.log.columns key node t.now) then
      a.body.isException = false ∧ a.wait = t.expectedWait node acks
    else ∃ f, a.body = .exception f ∧ f.kind = rejectionOf kind
  | .read node key => a.wait = 0 ∧ ∃ v, a.body = .read v ∧
    (if v.isNull then none else some v.values) = t.log.columns key node t.now
  | .scan node key count ascending => ∃ records, a.body = .scan records ∧
    records.map (fun r => (r.key, r.version.values)) =
      t.log.scan key node t.now count.toNat ascending

/-- The two sides of the trial hold the same. -/
structure Mirrors (t : Trial σ) : Prop where
  delays : Delays t
  nodes_eq : t.live.cluster.nodes = nodesOf t.config
  model_eq : t.live.cluster.model = .replicated (.ofProfile t.profile start)
  log_eq : t.log = t.live.cluster.store.log
  lastId_eq : t.lastId = t.live.cluster.lastId

variable {t : Trial σ} {c : TrialConfig}

theorem names_nodesOf (c : TrialConfig) : (nodesOf c).map (·.name) = c.nodeNames := by
  unfold nodesOf
  cases c.nodeNames with
  | nil => rfl
  | cons first others => simp [Function.comp_def]

theorem request_eq (t : Trial σ) (r : Request) :
    t.live.request r = ((t.live.cluster.serve t.now r).1,
      { t.live with cluster := (t.live.cluster.serve t.now r).2 }) := rfl

/-- The trial after an answer to a request, before the answer is looked at. -/
theorem send_eq (h : t.lastId = t.live.cluster.lastId) (hid : t.lastId.toNat + 1 < UInt64.size)
    (r : Request) :
    t.send r = ((t.live.request r).1,
      { t with live := (t.live.request r).2, lastId := t.lastId + 1 }) := by
  have hnext : (t.live.request r).1.responseId = t.lastId + 1 := by
    rw [h]
    exact Cluster.serve_responseId ..
  have hlt : ¬ t.lastId + 1 ≤ t.lastId := by
    rw [UInt64.le_iff_toNat_le, UInt64.toNat_add, UInt64.toNat_one, Nat.mod_eq_of_lt hid]
    omega
  simp only [send, hnext, if_neg hlt]

/-- The node that an operation names serves it. -/
theorem Mirrors.resolve (h : Mirrors t) {r : Request} {name : String}
    (hr : r.destination = some name) (hm : name ∈ t.config.nodeNames) :
    ∃ n, t.live.cluster.resolve r = .ok n ∧ n.name = name := by
  refine Cluster.resolve_named hr ?_
  rw [h.nodes_eq, names_nodesOf]
  exact hm

/-- The cluster takes a write exactly when the reference log accepts it, after the expected wait,
and both sides note the same. -/
theorem Mirrors.request_write (h : Mirrors t) (hdelay : 2 * t.config.maxDelay.toNat < UInt64.size)
    {kind : WriteKind} {name key : String} {acks : UInt32} {values : Columns}
    (hfit : t.config.Fits (.write kind name key acks values)) :
    let current := t.log.columns key name t.now
    let answered := t.live.request (requestOf (.write kind name key acks values))
    (accepts kind current = true →
      answered.1.body.isException = false ∧ answered.1.wait = t.expectedWait name acks ∧
        answered.2.cluster.store.log =
          t.log.push key ⟨stored kind current values, t.now, t.delaysFrom name⟩) ∧
    (accepts kind current = false →
      (∃ f, answered.1.body = .exception f ∧ f.kind = rejectionOf kind) ∧
        answered.2.cluster.store.log = t.log) := by
  intro current answered
  obtain ⟨hm, hacks, hvalues⟩ := hfit
  -- all three kinds of write go to the named node, with one concern and without a client
  let r := requestOf (.write kind name key acks values)
  have hdest : r.destination = some name := by cases kind <;> rfl
  have hconcern : r.concern? = some (.acknowledged acks) := by cases kind <;> rfl
  have hclient : r.client = none := by cases kind <;> rfl
  obtain ⟨node, hnode, rfl⟩ := h.resolve hdest hm
  have hnames : t.live.cluster.nodes.map (·.name) = t.config.nodeNames := by
    rw [h.nodes_eq, names_nodesOf]
  have hvisible : t.live.cluster.model.visibility r node t.live.cluster.nodes =
      .ok (t.delaysFrom node.name) := by
    rw [h.model_eq, LagModel.visibility, delaysFrom_eq h.delays hnames]
    refine Replication.visibility_eq_ok_iff.mpr ⟨?_, ?_, rfl⟩
    · intro hreadOnly
      cases hreadOnly
    · intro tags htags
      rw [hconcern] at htags
      cases htags
  have hwait := untaggedDelay_eq h.delays hdelay hnames hm start hacks
  obtain ⟨haccept, hreject⟩ :=
    Cluster.apply_write (r := r) rfl hvalues hvisible t.now
  rw [← h.log_eq] at haccept hreject
  constructor
  · intro hacc
    obtain ⟨body, v, happly, hlogged⟩ := haccept hacc
    have hbody := (Cluster.apply_cases happly).1
    have hset : t.live.cluster.model.settle t.now (r.answer (t.live.cluster.lastId + 1) body) r node
        t.live.cluster.nodes = .ok { r.answer (t.live.cluster.lastId + 1) body with
          wait := t.expectedWait node.name acks } := by
      rw [h.model_eq]
      exact Replication.settle_acknowledged hbody hconcern hclient hwait
    have hserve := Cluster.serve_of_applied hnode happly
    rw [hset] at hserve
    simp only [answered, request_eq, r, hserve, Store.log_prepend, ← h.log_eq, hlogged]
    exact ⟨hbody, rfl, rfl⟩
  · intro hrej
    obtain ⟨e, happly, hkind⟩ := hreject hrej
    simp only [answered, request_eq, r, Cluster.serve_of_refused hnode happly, ← h.log_eq]
    exact ⟨⟨e.fault, rfl, hkind⟩, trivial⟩

theorem Mirrors.log_of_no_concern (h : Mirrors t) {r : Request} (hr : r.concern? = none) :
    (t.live.request r).2.cluster.store.log = t.log := by
  rw [h.log_eq]
  exact congrArg Store.log (Cluster.serve_store_of_no_concern hr _ _)

theorem Mirrors.request_read (h : Mirrors t) {name : String} (hm : name ∈ t.config.nodeNames)
    (key : String) :
    Confirms t (t.live.request (requestOf (.read name key))).1 (.read name key) := by
  obtain ⟨node, hnode, rfl⟩ := h.resolve (r := requestOf (.read name key)) rfl hm
  have hserve := Cluster.serve_of_applied hnode (Cluster.apply_read rfl t.now)
  rw [LagModel.settle_of_no_concern _ _ _ _ rfl rfl] at hserve
  rw [request_eq, hserve]
  refine ⟨?_, _, rfl, ?_⟩
  · rw [h.model_eq]
    rfl
  · rw [h.log_eq, Store.columns_log, Store.get, Store.present, History.present, Store.visible]
    cases History.visible (t.live.cluster.store.history key) node.name t.now with
    | none => rfl
    | some v => cases hv : v.isNull <;> simp [Option.filter, hv, Version.restrict]

theorem Mirrors.request_scan (h : Mirrors t) {name key : String} {count : UInt64} {ascending : Bool}
    (hfit : t.config.Fits (.scan name key count ascending)) :
    Confirms t (t.live.request (requestOf (.scan name key count ascending))).1
      (.scan name key count ascending) := by
  obtain ⟨hm, hcount⟩ := hfit
  have hdest : (requestOf (.scan name key count ascending)).destination = some name := by
    cases ascending <;> rfl
  obtain ⟨node, hnode, rfl⟩ := h.resolve hdest hm
  have haction : (requestOf (.scan node.name key count ascending)).action =
      .scan (some key) count ascending none .primary := by cases ascending <;> rfl
  have hconcern : (requestOf (.scan node.name key count ascending)).concern? = none := by
    rw [Request.concern?, haction]
    rfl
  have hserve := Cluster.serve_of_applied hnode
    (Cluster.apply_scan haction hcount rfl t.live.cluster t.now node)
  rw [LagModel.settle_of_no_concern _ _ _ _ rfl hconcern] at hserve
  rw [request_eq, hserve]
  refine ⟨_, rfl, ?_⟩
  rw [h.log_eq, Store.scan_log]

end Trial

end ReplicaLag
