import ReplicaLag.Proofs.LaterVersions
import ReplicaLag.Proofs.Serving

/-!
Only relative time matters. What is later by one time throughout (the clock, the start of the
journal, the moments of the versions) makes for the same answers, in which nothing but the moments
is later. This holds while there is room up to the last moment, after which clocks start again at
zero. Main statement: a run that starts later answers alike.
-/

namespace ReplicaLag

/-- The answer with what was written `c` later; all else is the same. -/
def Body.later (c : Millis) : Body → Body
  | .read v => .read (v.later c)
  | .scan records => .scan (records.map (Record.later c))
  | b => b

def Response.later (c : Millis) (a : Response) : Response := { a with body := a.body.later c }

theorem Body.isException_later (c : Millis) (b : Body) :
    (b.later c).isException = b.isException := by cases b <;> rfl

namespace Replication

variable {m : Replication} {c now : Millis}

/-- The model whose journal starts `c` later. -/
def later (c : Millis) (m : Replication) : Replication := { m with startedAt := m.startedAt + c }

theorem journalDelay_later (hm : m.startedAt.HasRoom c) (hnow : now.HasRoom c)
    (concern : WriteConcern) :
    (m.later c).journalDelay (now + c) concern = m.journalDelay now concern := by
  simp only [journalDelay, later, Millis.elapsedSince_later hnow hm]

theorem taggedDelay_later (c : Millis) (m : Replication) (receiver : Node) (nodes : List Node)
    (tags : List (String × UInt32)) :
    (m.later c).taggedDelay receiver nodes tags = m.taggedDelay receiver nodes tags := by
  induction tags with
  | nil => rfl
  | cons e rest ih => rw [taggedDelay, taggedDelay, ih]; rfl

theorem replicationDelay_later (c : Millis) (m : Replication) (receiver : Node)
    (concern : WriteConcern) (nodes : List Node) :
    (m.later c).replicationDelay receiver concern nodes =
      m.replicationDelay receiver concern nodes := by
  simp only [replicationDelay, taggedDelay_later]
  rfl

theorem settle_later (hm : m.startedAt.HasRoom c) (hnow : now.HasRoom c) (a : Response)
    (r : Request) (server : Node) (nodes : List Node) :
    (m.later c).settle (now + c) (a.later c) r server nodes =
      (m.settle now a r server nodes).map (Response.later c) := by
  have hwrite : ∀ concern, (m.later c).writeDelay (now + c) r.client server concern nodes =
      m.writeDelay now r.client server concern nodes := by
    intro concern
    rw [writeDelay, writeDelay, journalDelay_later hm hnow, replicationDelay_later]
    rfl
  simp only [settle, hwrite, Response.later, Body.isException_later]
  cases a.body.isException with
  | true => rfl
  | false =>
    cases r.concern? with
    | none => rfl
    | some concern =>
      simp only [Bool.false_eq_true, if_false]
      cases m.writeDelay now r.client server concern nodes <;> rfl

end Replication

namespace LagModel

variable {m : LagModel} {c now : Millis}

/-- The model that starts `c` later. -/
def later (c : Millis) : LagModel → LagModel
  | constant lag => constant lag
  | replicated m => replicated (m.later c)

/-- The moment from which the model counts, if it counts at all. -/
def startedAt? : LagModel → Option Millis
  | constant _ => none
  | replicated m => some m.startedAt

theorem visibility_later (c : Millis) (m : LagModel) (r : Request) (receiver : Node)
    (nodes : List Node) :
    (m.later c).visibility r receiver nodes = m.visibility r receiver nodes := by cases m <;> rfl

theorem settle_later (hm : ∀ s, m.startedAt? = some s → s.HasRoom c)
    (hnow : now.HasRoom c) (a : Response) (r : Request) (server : Node) (nodes : List Node) :
    (m.later c).settle (now + c) (a.later c) r server nodes =
      (m.settle now a r server nodes).map (Response.later c) := by
  cases m with
  | constant lag => rfl
  | replicated m => exact Replication.settle_later (hm m.startedAt rfl) hnow a r server nodes

end LagModel

namespace Cluster

variable {c : Cluster} {k now : Millis}

/-- The cluster that started `k` later and was written to `k` later. -/
def later (k : Millis) (c : Cluster) : Cluster :=
  { c with model := c.model.later k, store := c.store.later k }

theorem resolve_later (k : Millis) (c : Cluster) (r : Request) :
    (c.later k).resolve r = c.resolve r := by
  have hlatency : (c.later k).model.clientLatency = c.model.clientLatency := by
    rcases c with ⟨_, _ | _⟩ <;> rfl
  simp only [resolve, server?, hlatency]
  rfl

theorem apply_later (hs : c.store.Each (Version.HasRoom k)) (hnow : now.HasRoom k) (r : Request)
    (node : Node) :
    (c.later k).apply (now + k) r node =
      (c.apply now r node).map fun b => (b.1.later k, b.2.later k) := by
  have hmap {α β γ : Type} (x : Except Refusal α) (f : α → Except Refusal β) (g : β → γ) :
      (x >>= f).map g = x >>= fun a => (f a).map g := by cases x <;> rfl
  have hvisibility : (c.later k).model.visibility r node (c.later k).nodes =
      c.model.visibility r node c.nodes := c.model.visibility_later k r node c.nodes
  simp only [apply]
  cases r.action with
  | insert key values concern =>
    simp only [hvisibility, hmap]
    refine bind_congr fun key => bind_congr fun _ => bind_congr fun d => ?_
    have hinsert : (c.later k).store.insert node.name key
        ((Version.ofValues values).stamped node (now + k) d) =
          (c.store.insert node.name key ((Version.ofValues values).stamped node now d)).map
            (Store.later k) :=
      Store.insert_later hs ((Version.ofValues values).stamped node now d) hnow rfl node.name key
    rw [hinsert]
    cases c.store.insert node.name key ((Version.ofValues values).stamped node now d) <;> rfl
  | update key values concern =>
    simp only [hvisibility, hmap]
    refine bind_congr fun key => bind_congr fun _ => bind_congr fun d => ?_
    have hupdate : (c.later k).store.update node.name key
        ((Version.ofValues values).stamped node (now + k) d) =
          (c.store.update node.name key ((Version.ofValues values).stamped node now d)).map
            fun u => (u.1.later k, u.2.later k) :=
      Store.update_later hs ((Version.ofValues values).stamped node now d) hnow rfl node.name key
    rw [hupdate]
    cases c.store.update node.name key ((Version.ofValues values).stamped node now d) <;> rfl
  | delete key concern =>
    simp only [hvisibility, hmap]
    refine bind_congr fun key => bind_congr fun d => ?_
    have hdelete : (c.later k).store.delete node key d (now + k) =
        (c.store.delete node key d now).map (Store.later k) := Store.delete_later hs hnow node key d
    rw [hdelete]
    cases c.store.delete node key d now <;> rfl
  | read key fields preference =>
    simp only [hmap]
    refine bind_congr fun key => bind_congr fun _ => ?_
    have hget : (c.later k).store.get node.name key fields (now + k) =
        (c.store.get node.name key fields now).later k :=
      Store.get_later hs hnow node.name key fields
    rw [hget]
    rfl
  | scan key count ascending fields preference =>
    simp only [hmap]
    refine bind_congr fun key => ?_
    split
    · rfl
    · simp only [hmap]
      refine bind_congr fun _ => ?_
      have hscan : (c.later k).store.scan node.name key count.toNat ascending fields (now + k) =
          (c.store.scan node.name key count.toNat ascending fields now).map (Record.later k) :=
        Store.scan_later hs hnow node.name key count.toNat ascending fields
      rw [hscan]
      rfl

theorem serve_later (hs : c.store.Each (Version.HasRoom k))
    (hm : ∀ s, c.model.startedAt? = some s → s.HasRoom k) (hnow : now.HasRoom k) (r : Request) :
    (c.later k).serve (now + k) r = ((c.serve now r).1.later k, (c.serve now r).2.later k) := by
  have hresolve := c.resolve_later k r
  cases hr : c.resolve r with
  | error e =>
    rw [serve_of_unresolved hr, serve_of_unresolved (hresolve.trans hr)]
    rfl
  | ok node =>
    have happly := apply_later hs hnow r node
    cases ha : c.apply now r node with
    | error e =>
      rw [ha] at happly
      rw [serve_of_refused hr ha, serve_of_refused (hresolve.trans hr) happly]
      rfl
    | ok b =>
      rw [ha] at happly
      rw [serve_of_applied hr ha, serve_of_applied (hresolve.trans hr) happly]
      refine Prod.ext ?_ rfl
      have hsettle := LagModel.settle_later hm hnow (r.answer (c.lastId + 1) b.1) r node c.nodes
      change r.outcome (c.lastId + 1) ((c.model.later k).settle (now + k)
        ((r.answer (c.lastId + 1) b.1).later k) r node c.nodes) = _
      rw [hsettle]
      cases c.model.settle now (r.answer (c.lastId + 1) b.1) r node c.nodes <;> rfl

end Cluster

/-- A model of lag before it starts. -/
inductive LagPlan where
  | constant (lag : ConstantLag)
  | replicated (profile : LagProfile)

def LagPlan.start (now : Millis) : LagPlan → LagModel
  | constant lag => .constant lag
  | replicated profile => .replicated (.ofProfile profile now)

namespace LiveCluster

variable {l : LiveCluster} {c : Millis} {events : List ClusterEvent}

/-- A cluster without any records, together with its clock. -/
def fresh (nodes : List Node) (plan : LagPlan) (now : Millis) : LiveCluster where
  clock := ⟨now⟩
  cluster := { nodes, model := plan.start now }

/-- The same `c` later. -/
def later (c : Millis) (l : LiveCluster) : LiveCluster where
  clock := l.clock.advance c
  cluster := l.cluster.later c

/-- If it were `c` later, the last moment would still be to come, also after any delay of a stored
version. -/
def HasRoom (c : Millis) (l : LiveCluster) : Prop :=
  l.clock.now.HasRoom c ∧ ∀ v ∈ l.cluster.store.versions, ∀ d ∈ v.visibility.entries,
    (l.clock.now + c).HasRoom d.2

/-- There is room at all times of a run. -/
def KeepsRoom (c : Millis) (l : LiveCluster) : List ClusterEvent → Prop
  | [] => l.HasRoom c
  | e :: r => l.HasRoom c ∧ (l.step e).2.KeepsRoom c r

instance (c : Millis) (l : LiveCluster) : Decidable (l.HasRoom c) :=
  inferInstanceAs (Decidable (_ ∧ _))

instance KeepsRoom.decidable (c : Millis) (l : LiveCluster) :
    (events : List ClusterEvent) → Decidable (l.KeepsRoom c events)
  | [] => inferInstanceAs (Decidable (l.HasRoom c))
  | e :: r =>
    have := KeepsRoom.decidable c (l.step e).2 r
    inferInstanceAs (Decidable (l.HasRoom c ∧ (l.step e).2.KeepsRoom c r))

/-- What the run up to here has made sure of. -/
structure IsReady (c : Millis) (l : LiveCluster) : Prop where
  started : ∀ s, l.cluster.model.startedAt? = some s → s.HasRoom c
  stored : l.cluster.store.Each (Version.HasRoom c)

theorem KeepsRoom.now (h : l.KeepsRoom c events) : l.HasRoom c := by
  cases events with
  | nil => exact h
  | cons e rest => exact h.1

theorem IsReady.step (h : l.IsReady c) {e : ClusterEvent} (hroom : (l.step e).2.HasRoom c) :
    (l.step e).2.IsReady c := by
  cases e with
  | request r =>
    refine ⟨fun s hs => h.started s ((l.request_model r) ▸ hs), ?_⟩
    change (l.request r).2.cluster.store.Each _
    rcases l.request_store r with hs | ⟨node, key, v, _, hw, hs⟩
    · rw [hs]
      exact h.stored
    · rw [hs]
      have hkey : v ∈ (l.request r).2.cluster.store.history key := by
        rw [hs, Store.history_prepend, if_pos rfl]
        exact .head _
      have hv := Store.mem_versions_of_mem_history hkey
      refine h.stored.prepend ⟨by rw [hw.writtenBy]; rfl, ?_, fun name d hd => ?_⟩ key
      · rw [hw.writtenAt]
        exact hroom.1
      · rw [hw.writtenAt]
        exact hroom.2 v hv (name, d) (SortedMap.get?_eq_some_iff.mp hd)
  | advance ms => exact ⟨h.started, h.stored⟩
  | clear => exact ⟨h.started, Store.each_empty _⟩

theorem step_later (h : l.IsReady c) (hroom : l.HasRoom c) (e : ClusterEvent) :
    (l.later c).step e = ((l.step e).1.map (Response.later c), (l.step e).2.later c) := by
  cases e with
  | request r =>
    have hserve := Cluster.serve_later h.stored h.started hroom.1 r
    simp only [step, request, later, Clock.advance, hserve]
    rfl
  | advance ms =>
    have hnow : l.clock.now + c + ms = l.clock.now + ms + c := by
      rw [UInt64.add_assoc, UInt64.add_comm c, ← UInt64.add_assoc]
    simp only [step, later, Clock.advance, hnow]
    rfl
  | clear => rfl

theorem run_later (h : l.IsReady c) (hroom : l.KeepsRoom c events) :
    (l.later c).run events =
      ((l.run events).1.map (Response.later c), (l.run events).2.later c) := by
  induction events generalizing l with
  | nil => rfl
  | cons e rest ih =>
    have hnext := ih (h.step hroom.2.now) hroom.2
    simp only [run, step_later h hroom.1, hnext, List.map_append]
    cases (l.step e).1 <;> rfl

theorem run_returns (h : l.IsReady c) (hroom : l.KeepsRoom c events) :
    ∀ a ∈ (l.run events).1, ∀ v ∈ a.body.versions,
      v = .null ∨ (v.later c).writtenAt.toNat = v.writtenAt.toNat + c.toNat := by
  induction events generalizing l with
  | nil => exact fun a ha => by cases ha
  | cons e rest ih =>
    intro a ha
    rcases List.mem_append.mp ha with ha | ha
    · cases e with
      | request r =>
        obtain rfl : a = (l.request r).1 := by simpa [step] using ha
        intro v hv
        rcases Cluster.serve_returns h.stored l.clock.now r v hv with hnull | ⟨w, wanted, hw, rfl⟩
        · exact .inl hnull
        · refine .inr ?_
          rw [← Version.restrict_later, Version.restrict_writtenAt, Version.restrict_writtenAt]
          exact hw.toNat_later
      | advance | clear => cases ha
    · exact ih (h.step hroom.2.now) hroom.2 a ha

/-- A run that starts `c` later gives the same answers, waits and refusals included, and nothing but
the moments at which the versions were written is `c` later. A version that is given back but was
never written is null in both runs. -/
theorem run_started_later (nodes : List Node) (plan : LagPlan) (s c : Millis)
    (events : List ClusterEvent) (hroom : (fresh nodes plan s).KeepsRoom c events) :
    let early := (fresh nodes plan s).run events
    let late := (fresh nodes plan (s + c)).run events
    late = (early.1.map (Response.later c), early.2.later c) ∧
    ∀ a ∈ early.1, ∀ v ∈ a.body.versions,
      v = .null ∨ (v.later c).writtenAt.toNat = v.writtenAt.toNat + c.toNat := by
  intro early late
  have hready : (fresh nodes plan s).IsReady c := by
    refine ⟨fun t ht => ?_, Store.each_empty _⟩
    cases plan with
    | constant lag => cases ht
    | replicated p => cases ht; exact hroom.now.1
  have hlater : fresh nodes plan (s + c) = (fresh nodes plan s).later c := by
    cases plan <;> rfl
  refine ⟨?_, run_returns hready hroom⟩
  rw [← run_later hready hroom, ← hlater]

/-- The second node does not see the record at first; the client waits for the journal. -/
theorem run_started_a_second_later :
    let nodes : List Node := [{ name := "n1", isPrimary := true }, { name := "n2" }]
    let plan : LagPlan := .replicated { defaultDelay := 10 }
    let insert := (Request.insert "t" "k" (.ofList [("v", .nat 1)])).withConcern .journaled
    let read := (Request.read "t" "k").via "n2"
    let events : List ClusterEvent :=
      [.advance 3, .request insert, .request read, .advance 20, .request read]
    let early := (fresh nodes plan 5).run events
    let late := (fresh nodes plan 1005).run events
    let moments (answers : List Response) := (answers.flatMap (·.body.versions)).map (·.writtenAt)
    (fresh nodes plan 5).KeepsRoom 1000 events ∧ late.1 = early.1.map (Response.later 1000) ∧
      early.1.map (·.wait) = [30, 0, 0] ∧ moments early.1 = [0, 8] ∧
      moments late.1 = [0, 1008] := by
  intro nodes plan insert read events early late moments
  have hroom : (fresh nodes plan 5).KeepsRoom 1000 events := by decide +kernel
  obtain ⟨hlate, -⟩ := run_started_later nodes plan 5 1000 events hroom
  exact ⟨hroom, congrArg Prod.fst hlate, by decide +kernel, by decide +kernel, by decide +kernel⟩

end LiveCluster

end ReplicaLag
