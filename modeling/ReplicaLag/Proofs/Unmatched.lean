import ReplicaLag.Proofs.Envelopes
import ReplicaLag.Proofs.PlacedKeys
import ReplicaLag.Proofs.Undelayed

/-!
Requests that no node matches. A cluster refuses a request for want of a node exactly if no node is
there to serve it; no check and no wait does that. A router does so if the shards that the request
reaches do.
-/

namespace ReplicaLag

theorem bind_ne_error {ε α β : Type} {x : Except ε α} {f : α → Except ε β} {e : ε}
    (hx : x ≠ .error e) (hf : ∀ a, f a ≠ .error e) : (x >>= f) ≠ .error e := by
  cases x with
  | error g => exact fun h => hx (by cases h; rfl)
  | ok a => exact hf a

/-- What begins with another letter is another text. -/
theorem append_ne_of_head {p s t : String} {a b : Char} (hp : p.toList.head? = some a)
    (ht : t.toList.head? = some b) (hab : a ≠ b) : p ++ s ≠ t := by
  rintro rfl
  rw [String.toList_append, List.head?_append, hp] at ht
  exact hab (Option.some.inj ht)

/-- No other refusal is told to a client in the same words. -/
theorem Refusal.fault_eq_noMatchingNode_iff {e : Refusal} :
    e.fault = noMatchingNode.fault ↔ e = noMatchingNode := by
  refine ⟨fun h => ?_, fun h => congrArg fault h⟩
  obtain ⟨hkind, hmessage⟩ := Fault.mk.inj h
  cases e
  case noMatchingNode => rfl
  case emptyScan | malformed => exact absurd hmessage (by decide)
  case notRecords answer => exact absurd hmessage (append_ne_of_head rfl rfl (by decide))
  case unsatisfiable nodes =>
    have hwords : "write concern cannot be satisfied by " ++ (toString nodes ++ " node(s)") =
        "no matching node" := String.append_assoc.symm.trans hmessage
    exact absurd hwords (append_ne_of_head rfl rfl (by decide))
  case unexpected wanted answer =>
    have hwords : "expected " ++ (wanted ++ " response, got " ++ answer) = "no matching node" := by
      rw [← String.append_assoc, ← String.append_assoc]
      exact hmessage
    exact absurd hwords (append_ne_of_head rfl rfl (by decide))
  all_goals cases hkind

/-- The request found no node to serve it. -/
def Response.Unmatched (a : Response) : Prop := a.body = .exception Refusal.noMatchingNode.fault

theorem Request.refuse_unmatched_iff {r : Request} {id : UInt64} {e : Refusal} :
    (r.refuse id e.fault).Unmatched ↔ e = .noMatchingNode :=
  ⟨fun h => Refusal.fault_eq_noMatchingNode_iff.mp (Body.exception.inj h), fun h => h ▸ rfl⟩

/-! Whatever a request is checked for, and whatever its client waits for, a node is there. -/

theorem Replication.tagSet_ne_unmatched {m : Replication} {name : String} :
    m.tagSet name ≠ .error .noMatchingNode := by
  unfold tagSet
  split <;> rintro ⟨⟩

theorem Replication.replicationDelay_ne_unmatched {m : Replication} {receiver : Node}
    {concern : WriteConcern} {nodes : List Node} :
    m.replicationDelay receiver concern nodes ≠ .error .noMatchingNode := by
  have hmap {α β : Type} {x : Except Refusal α} {f : α → β} (hx : x ≠ .error .noMatchingNode) :
      x.map f ≠ .error .noMatchingNode := bind_ne_error hx fun a => by rintro ⟨⟩
  unfold replicationDelay
  dsimp only
  split
  · refine bind_ne_error (hmap tagSet_ne_unmatched) fun delay => ?_
    split
    · rintro ⟨⟩
    · split <;> rintro ⟨⟩
  · refine bind_ne_error (by rintro ⟨⟩) fun delay => ?_
    split
    · rintro ⟨⟩
    · split <;> rintro ⟨⟩

namespace LagModel

variable {m : LagModel} {now : Millis} {r : Request} {node : Node} {nodes : List Node}

theorem visibility_ne_unmatched : m.visibility r node nodes ≠ .error .noMatchingNode := by
  cases m with
  | constant c => exact fun h => by cases h
  | replicated m =>
    simp only [visibility, Replication.visibility]
    split
    · rintro ⟨⟩
    · split
      · exact bind_ne_error Replication.tagSet_ne_unmatched fun _ => by rintro ⟨⟩
      · rintro ⟨⟩

theorem settle_ne_unmatched {a : Response} (ha : a.body.isException = false) :
    m.settle now a r node nodes ≠ .error .noMatchingNode := by
  cases m with
  | constant c => exact fun h => by cases h
  | replicated m =>
    intro h
    obtain ⟨concern, _, h⟩ := (Replication.settle_eq_error_iff ha).mp h
    exact Replication.replicationDelay_ne_unmatched h

end LagModel

namespace Cluster

variable {c : Cluster} {now : Millis} {r : Request} {node : Node}

theorem requireKey_ne_unmatched {key : Option String} :
    requireKey key ≠ .error .noMatchingNode := by cases key <;> rintro ⟨⟩

theorem checkValues_ne_unmatched {values : Columns} :
    checkValues values ≠ .error .noMatchingNode := by
  unfold checkValues
  split
  · rintro ⟨⟩
  · split <;> rintro ⟨⟩

theorem checkFields_ne_unmatched {fields : Option NameSet} :
    checkFields fields ≠ .error .noMatchingNode := by
  unfold checkFields
  split
  · rintro ⟨⟩
  · split
    · rintro ⟨⟩
    · split <;> rintro ⟨⟩

theorem apply_ne_unmatched : c.apply now r node ≠ .error .noMatchingNode := by
  unfold apply
  cases r.action with
  | insert key values concern =>
    refine bind_ne_error requireKey_ne_unmatched fun key => bind_ne_error checkValues_ne_unmatched
      fun _ => bind_ne_error LagModel.visibility_ne_unmatched fun d =>
        bind_ne_error ?_ fun _ => by rintro ⟨⟩
    unfold Store.insert
    split <;> rintro ⟨⟩
  | update key values concern =>
    refine bind_ne_error requireKey_ne_unmatched fun key => bind_ne_error checkValues_ne_unmatched
      fun _ => bind_ne_error LagModel.visibility_ne_unmatched fun d =>
        bind_ne_error ?_ fun _ => by rintro ⟨⟩
    unfold Store.update
    split <;> rintro ⟨⟩
  | delete key concern =>
    refine bind_ne_error requireKey_ne_unmatched fun key =>
      bind_ne_error LagModel.visibility_ne_unmatched fun d =>
        bind_ne_error ?_ fun _ => by rintro ⟨⟩
    unfold Store.delete
    split <;> rintro ⟨⟩
  | read key fields preference =>
    exact bind_ne_error requireKey_ne_unmatched fun key =>
      bind_ne_error checkFields_ne_unmatched fun _ => by rintro ⟨⟩
  | scan key count ascending fields preference =>
    refine bind_ne_error requireKey_ne_unmatched fun key => ?_
    split
    · rintro ⟨⟩
    · exact bind_ne_error checkFields_ne_unmatched fun _ => by rintro ⟨⟩

theorem serve_unmatched_iff : (c.serve now r).1.Unmatched ↔ c.server? r = none := by
  cases hr : c.resolve r with
  | error e =>
    obtain ⟨hs, rfl⟩ := resolve_eq_error_iff.mp hr
    rw [serve_of_unresolved hr]
    exact iff_of_true rfl hs
  | ok node =>
    have hserver : c.server? r ≠ none := fun h => by
      rw [resolve_eq_error_iff.mpr ⟨h, rfl⟩] at hr
      cases hr
    refine iff_of_false ?_ hserver
    cases ha : c.apply now r node with
    | error e =>
      rw [serve_of_refused hr ha, Request.refuse_unmatched_iff]
      exact fun he => apply_ne_unmatched (he ▸ ha)
    | ok b =>
      have hbody := (apply_cases ha).1
      rw [serve_of_applied hr ha]
      cases hs : c.model.settle now (r.answer (c.lastId + 1) b.1) r node c.nodes with
      | error e =>
        rw [Request.outcome, Request.refuse_unmatched_iff]
        exact fun he => LagModel.settle_ne_unmatched hbody (he ▸ hs)
      | ok a =>
        intro h
        rw [Request.outcome, LagModel.settle_eq_ok hs, Response.Unmatched] at h
        exact absurd (hbody.symm.trans (congrArg Body.isException h)) Bool.false_ne_true

/-- Every node answers a read or scan that passes its checks. -/
theorem applied_of_passes (hc : r.concern? = none) (hp : r.action.Passes) (c : Cluster)
    (now : Millis) (node : Node) : ∃ body, c.apply now r node = .ok (body, c.store) := by
  have hc : r.action.concern? = none := hc
  cases ha : r.action with
  | insert | update | delete =>
    rw [ha] at hc
    cases hc
  | read key fields preference =>
    rw [ha] at hp
    obtain ⟨hkey, hfields⟩ := hp
    obtain ⟨k, rfl⟩ := Option.isSome_iff_exists.mp hkey
    exact ⟨_, apply_get ha hfields c now node⟩
  | scan key count ascending fields preference =>
    rw [ha] at hp
    obtain ⟨hkey, hcount, hfields⟩ := hp
    obtain ⟨k, rfl⟩ := Option.isSome_iff_exists.mp hkey
    exact ⟨_, apply_scan ha (UInt64.not_lt.mpr hcount) hfields c now node⟩

theorem passes_of_applied {b : Body × Store} (hc : r.concern? = none)
    (h : c.apply now r node = .ok b) : r.action.Passes := by
  have hc : r.action.concern? = none := hc
  cases ha : r.action with
  | insert | update | delete =>
    rw [ha] at hc
    cases hc
  | read key fields preference =>
    simp only [apply, ha, bind_eq_ok, requireKey_eq_ok_iff] at h
    obtain ⟨k, rfl, _, hfields, _⟩ := h
    exact ⟨rfl, hfields⟩
  | scan key count ascending fields preference =>
    simp only [apply, ha, bind_eq_ok, requireKey_eq_ok_iff] at h
    obtain ⟨k, rfl, h⟩ := h
    split at h
    · cases h
    next hcount =>
      obtain ⟨_, hfields, _⟩ := bind_eq_ok.mp h
      exact ⟨rfl, UInt64.not_lt.mp hcount, hfields⟩

theorem server?_eq_none_of_exception (hc : r.concern? = none) (hp : r.action.Passes)
    (h : (c.serve now r).1.body.isException = true) : c.server? r = none := by
  cases hr : c.resolve r with
  | error e => exact (resolve_eq_error_iff.mp hr).1
  | ok node =>
    obtain ⟨body, ha⟩ := applied_of_passes hc hp c now node
    have hbody := (apply_cases ha).1
    rw [serve_of_applied hr ha, LagModel.settle_of_no_concern _ _ _ _ hbody hc] at h
    exact absurd (hbody.symm.trans h) Bool.false_ne_true

/-- In a cluster with one primary only who asks for a secondary may find nobody, and that only where
the primary is alone. -/
theorem server?_eq_none_iff (hprimary : c.nodes.countP (·.isPrimary) = 1)
    (hd : r.destination = none) :
    c.server? r = none ↔ r.preference? = some .secondary ∧ c.nodes.length = 1 := by
  have hone : Node.primary? c.nodes ≠ none := fun h => by
    rw [List.countP_eq_zero.mpr (List.find?_eq_none.mp h)] at hprimary
    cases hprimary
  have halone : Node.firstSecondary? c.nodes = none ↔ c.nodes.length = 1 := by
    rw [Node.firstSecondary?_eq_none_iff, ← hprimary, eq_comm, List.countP_eq_length]
  have hsome : c.nodes ≠ [] := fun h => by
    rw [h] at hprimary
    cases hprimary
  simp only [server?, chosen?, hd]
  rcases r.preference? with _ | _ | _ | _ | _ | _
  case some.secondary => simpa [preferred?] using halone
  case some.nearest => simp [preferred?, Node.least?_eq_none_iff, hsome]
  all_goals simp [preferred?, hone]

theorem server?_eq_none_iff_of_destination {name : String} (hd : r.destination = some name) :
    c.server? r = none ↔ ∀ n ∈ c.nodes, n.name ≠ name := by
  simp [server?, chosen?, hd, Node.named?]

end Cluster

theorem Shard.serve_unmatched_iff {s : Shard} (h : s.isLive = true) (now : Millis) (r : Request) :
    (s.serve now r).1.Unmatched ↔ s.cluster.server? r = none := by
  rw [Response.Unmatched, serve_body h]
  exact Cluster.serve_unmatched_iff

namespace Router

variable {rt : Router} {now : Millis} {r : Request}

/-- The shards that a request reaches are asked for a node, no others. A scan of all fails if one of
them has none. -/
theorem serve_unmatched_iff (hne : rt.shards ≠ []) (hlive : ∀ s ∈ rt.shards, s.isLive = true)
    (hd : r.destination = none) (hp : r.action.Passes) :
    (rt.serve now r).1.Unmatched ↔
      ∃ i s, rt.shards[i]? = some s ∧ rt.reaches i r = true ∧ s.cluster.server? r = none := by
  cases hb : r.isBroadcast with
  | false =>
    have hroute := route_undirected hne hd
    obtain ⟨s, hs⟩ : ∃ s, rt.shards[rt.placeOf r.table r.key]? = some s :=
      ⟨_, List.getElem?_eq_getElem (placeOf_lt hne r.table r.key)⟩
    simp only [serve_eq_forward_of_not_broadcast hb, forward_of_route hroute hs, reaches, hb,
      Bool.false_or, hroute, beq_iff_eq, Option.some.injEq]
    refine Iff.trans (Shard.serve_unmatched_iff (hlive s (List.mem_of_getElem? hs)) now r) ?_
    constructor
    · exact fun h => ⟨_, s, hs, rfl, h⟩
    · rintro ⟨i, t, ht, rfl, h⟩
      obtain rfl : s = t := Option.some.inj (hs.symm.trans ht)
      exact h
  | true =>
    obtain ⟨_, count, ascending, _, _, ha, hgather⟩ := serve_eq_gather hb hne now
    have hscan : r.action.isScan = true := by rw [ha]; rfl
    have hread : r.concern? = none := by rw [Request.concern?, ha]; rfl
    -- no shard gives another exception than this one
    have hfails : ∀ f, .exception f ∈ (rt.answers now r).map (·.body) →
        ∃ s ∈ rt.shards, s.cluster.server? r = none ∧ f = Refusal.noMatchingNode.fault := by
      intro f hf
      obtain ⟨a, ha, hbody⟩ := List.mem_map.mp hf
      obtain ⟨s, hs, rfl⟩ := List.mem_map.mp ha
      have hserver : s.cluster.server? r = none := by
        rw [Shard.serve_body (hlive s hs)] at hbody
        exact Cluster.server?_eq_none_of_exception hread hp (congrArg Body.isException hbody)
      have hunmatched := (Shard.serve_unmatched_iff (hlive s hs) now r).mpr hserver
      exact ⟨s, hs, hserver, Body.exception.inj (hbody.symm.trans hunmatched)⟩
    have hreaches : (∃ i s, rt.shards[i]? = some s ∧ rt.reaches i r = true ∧
        s.cluster.server? r = none) ↔ ∃ s ∈ rt.shards, s.cluster.server? r = none := by
      simp only [reaches, hb, Bool.true_or, true_and, List.mem_iff_getElem?]
      constructor
      · rintro ⟨i, s, hs, h⟩
        exact ⟨s, ⟨i, hs⟩, h⟩
      · rintro ⟨s, ⟨i, hs⟩, h⟩
        exact ⟨i, s, hs, h⟩
    rw [hgather, hreaches]
    cases hc : collect ((rt.answers now r).map (·.body)) with
    | error f =>
      have hkind : ∀ b ∈ (rt.answers now r).map (·.body), b.isException = false →
          ∃ records, b = .scan records := by
        intro b hb
        obtain ⟨a, ha, rfl⟩ := List.mem_map.mp hb
        exact records_of_answers hscan ha
      obtain ⟨s, hs, hserver, rfl⟩ := hfails f (mem_of_collect_error hkind hc)
      rw [gather_of_error hc]
      exact iff_of_true rfl ⟨s, hs, hserver⟩
    | ok records =>
      obtain ⟨parts, hparts, _⟩ := collect_eq_ok hc
      rw [gather_of_records hc]
      refine iff_of_false Body.noConfusion ?_
      rintro ⟨s, hs, hserver⟩
      have hunmatched := (Shard.serve_unmatched_iff (hlive s hs) now r).mpr hserver
      have hmem : (s.serve now r).1.body ∈ parts.map .scan :=
        hparts ▸ List.mem_map_of_mem (List.mem_map_of_mem hs)
      obtain ⟨part, _, hpart⟩ := List.mem_map.mp hmem
      cases hpart.trans hunmatched

end Router

end ReplicaLag
