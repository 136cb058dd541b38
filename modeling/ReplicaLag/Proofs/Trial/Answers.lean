import ReplicaLag.Proofs.Replication
import ReplicaLag.Proofs.Trial.LogOfStore
import ReplicaLag.Trial

/-!
What a cluster answers to the operations of a trial, in terms of the reference log of its store. A
write is applied when the log accepts it, and then adds to the log what the reference side would
push; else it is refused with the fault that the reference side expects (`apply_write`). Reads and
scans give what the log shows.
-/

namespace ReplicaLag

variable {c : Cluster} {now : Millis} {r : Request} {node : Node}

/-- A request that names a node of the cluster is served by a node of that name. -/
theorem Cluster.resolve_named {name : String} (h : r.destination = some name)
    (hm : name ∈ c.nodes.map (·.name)) : ∃ n, c.resolve r = .ok n ∧ n.name = name := by
  obtain ⟨n, hn, hname⟩ := List.mem_map.mp hm
  have hserver : c.server? r = Node.named? c.nodes name := by rw [server?, chosen?, h]
  rw [resolve, hserver]
  cases hf : Node.named? c.nodes name with
  | none => exact absurd (decide_eq_true hname) (List.find?_eq_none.mp hf n hn)
  | some k => exact ⟨k, rfl, by simpa using List.find?_some hf⟩

/-- Without a timeout, a journal and a client's way, one waits for the acknowledgements alone. -/
theorem Replication.settle_acknowledged {m : Replication} {a : Response} {acks : UInt32}
    {nodes : List Node} {wait : Millis} (ha : a.body.isException = false)
    (hc : r.concern? = some (.acknowledged acks)) (hclient : r.client = none)
    (hw : m.untaggedDelay acks node nodes = some wait) :
    m.settle now a r node nodes = .ok { a with wait } := by
  have hdelay : m.replicationDelay node (.acknowledged acks) nodes = .ok wait := by
    simp [replicationDelay, WriteConcern.acknowledged, hw, bind, Except.bind, pure, Except.pure]
  have hjournal : m.journalDelay now (.acknowledged acks) = 0 := by
    simp [journalDelay, WriteConcern.acknowledged]
  have hway : m.links.clientDelay none node.name = 0 := rfl
  have hsum : Millis.plus 0 (max wait 0) = wait := by
    have hmax : max wait 0 = wait := by simp [max, eq_comm]
    rw [hmax, Millis.plus_comm, Millis.plus_zero]
  have hwait : m.writeDelay now r.client node (.acknowledged acks) nodes = .ok wait := by
    rw [writeDelay, hdelay, hjournal, hclient, hway]
    exact congrArg Except.ok hsum
  simp only [settle, ha, hc, hwait, Bool.false_eq_true, if_false]
  rfl

namespace Cluster

variable {kind : WriteKind} {key name : String} {acks : UInt32} {values : Columns} {d : Visibility}

theorem apply_write
    (hr : r = ((Trial.writeRequest kind key values).via name).withConcern (.acknowledged acks))
    (hvalues : kind ≠ .delete → checkValues values = .ok ())
    (hd : c.model.visibility r node c.nodes = .ok d) (now : Millis) :
    (Trial.accepts kind (c.store.log.columns key node.name now) = true → ∃ body v,
      c.apply now r node = .ok (body, c.store.prepend key v) ∧
        v.logged = ⟨Trial.stored kind (c.store.log.columns key node.name now) values, now, d⟩) ∧
    (Trial.accepts kind (c.store.log.columns key node.name now) = false → ∃ e,
      c.apply now r node = .error e ∧ e.kind = Trial.rejectionOf kind) := by
  rw [Store.columns_log]
  cases kind with
  | insert =>
    have ha : r.action = .insert (some key) values (.acknowledged acks) := by rw [hr]; rfl
    rw [apply_insert ha (hvalues (by decide)) hd]
    cases c.store.present node.name key now with
    | none => exact ⟨fun _ => ⟨.insert, _, rfl, rfl⟩, by simp [Trial.accepts]⟩
    | some base => exact ⟨by simp [Trial.accepts], fun _ => ⟨.keyExists key, rfl, rfl⟩⟩
  | update =>
    have ha : r.action = .update (some key) values (.acknowledged acks) := by rw [hr]; rfl
    rw [apply_update ha (hvalues (by decide)) hd]
    cases c.store.present node.name key now with
    | none => exact ⟨by simp [Trial.accepts], fun _ => ⟨.nothingToUpdate key, rfl, rfl⟩⟩
    | some base =>
      refine ⟨fun _ => ⟨.update, _, rfl, ?_⟩, by simp [Trial.accepts]⟩
      -- the store fills what the update leaves out, the log lays the update over what is there
      rw [Version.overlaidOn, SortedMap.fill_eq_overlay]
      rfl
  | delete =>
    have ha : r.action = .delete (some key) (.acknowledged acks) := by rw [hr]; rfl
    rw [apply_delete ha hd]
    cases c.store.present node.name key now with
    | none => exact ⟨by simp [Trial.accepts], fun _ => ⟨.nothingToDelete key, rfl, rfl⟩⟩
    | some base => exact ⟨fun _ => ⟨.delete, _, rfl, rfl⟩, by simp [Trial.accepts]⟩

theorem apply_read (hr : r = (Request.read Trial.table key).via name) (now : Millis) :
    c.apply now r node = .ok (.read (c.store.get node.name key none now), c.store) := by
  rw [hr]
  rfl

end Cluster

end ReplicaLag
