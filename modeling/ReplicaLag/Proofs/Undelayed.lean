import ReplicaLag.Proofs.Replication
import ReplicaLag.Proofs.Table

/-!
Clusters in which nothing is late. If each node that takes a write reaches at once every node that
serves a request, then each of them sees the newest version of every key at all times, however many
older ones lie beneath it. Main statement: such a cluster answers like one table without versions,
whichever nodes serve the requests.
-/

namespace ReplicaLag

/-- The checks that come before the store find nothing wrong. -/
def Action.Passes : Action → Prop
  | .insert key values _ | .update key values _ =>
    key.isSome ∧ Cluster.checkValues values = .ok ()
  | .delete key _ => key.isSome
  | .read key fields _ => key.isSome ∧ Cluster.checkFields fields = .ok ()
  | .scan key count _ fields _ => key.isSome ∧ 1 ≤ count ∧ Cluster.checkFields fields = .ok ()

namespace LagModel

/-- The wait for a write comes to an end: its concern can be met, or is given up after a while. -/
def CanWait (m : LagModel) (receiver : Node) (concern : WriteConcern) (nodes : List Node) : Prop :=
  match m with
  | constant _ => True
  | replicated m => m.CanMeet receiver concern nodes ∨ 0 < concern.timeout

/-- `node` serves the request, and only the store can refuse it. -/
structure Admits (m : LagModel) (nodes : List Node) (r : Request) (node : Node) : Prop where
  serves : Cluster.resolve { nodes, model := m } r = .ok node
  passes : r.action.Passes
  takes : r.action.isWrite = true → ∃ d, m.visibility r node nodes = .ok d
  canWait : ∀ concern, r.concern? = some concern → m.CanWait node concern nodes

/-- All requests are admitted, and what one of them writes is seen at once wherever one of them is
served. -/
structure Undelayed (m : LagModel) (nodes : List Node) (events : List ClusterEvent) : Prop where
  admits : ∀ r, .request r ∈ events → ∃ node, m.Admits nodes r node
  atOnce : ∀ w r writer server, .request w ∈ events → w.action.isWrite = true →
    m.Admits nodes w writer → .request r ∈ events → m.Admits nodes r server →
    (m.spread writer nodes).get? server.name = some 0

variable {m : LagModel} {nodes : List Node} {r : Request} {node : Node}

theorem Admits.takes_spread (h : m.Admits nodes r node) (hw : r.action.isWrite = true) :
    m.visibility r node nodes = .ok (m.spread node nodes) := by
  obtain ⟨d, hd⟩ := h.takes hw
  rw [← eq_spread hd]
  exact hd

theorem Admits.of_no_concern (hs : Cluster.resolve { nodes, model := m } r = .ok node)
    (hp : r.action.Passes) (hr : r.concern? = none) : m.Admits nodes r node where
  serves := hs
  passes := hp
  takes hw := by
    obtain ⟨concern, hc⟩ : ∃ concern, r.concern? = some concern := Option.isSome_iff_exists.mp hw
    rw [hr] at hc
    cases hc
  canWait concern hc := by
    rw [hr] at hc
    cases hc

theorem Admits.of_concern {concern : WriteConcern} {d : Visibility}
    (hs : Cluster.resolve { nodes, model := m } r = .ok node) (hp : r.action.Passes)
    (hd : m.visibility r node nodes = .ok d) (hc : r.concern? = some concern)
    (hwait : m.CanWait node concern nodes) : m.Admits nodes r node where
  serves := hs
  passes := hp
  takes _ := ⟨d, hd⟩
  canWait _ hk := Option.some.inj (hc.symm.trans hk) ▸ hwait

/-- Nobody is refused for the sake of the wait. -/
theorem Admits.settles (h : m.Admits nodes r node) {a : Response}
    (ha : a.body.isException = false) (now : Millis) :
    ∃ b, m.settle now a r node nodes = .ok b := by
  cases hc : r.concern? with
  | none => exact ⟨_, m.settle_of_no_concern now node nodes ha hc⟩
  | some concern =>
    obtain ⟨d, hd⟩ := h.takes (Option.isSome_iff_exists.mpr ⟨concern, hc⟩)
    have hwait := h.canWait concern hc
    cases m with
    | constant c => exact ⟨_, rfl⟩
    | replicated m => exact Replication.settles_of_canMeet ha hd hc hwait now

theorem Undelayed.tail {e : ClusterEvent} {events : List ClusterEvent}
    (h : m.Undelayed nodes (e :: events)) : m.Undelayed nodes events where
  admits r hr := h.admits r (.tail e hr)
  atOnce w r writer server hw hwrite hwriter hr hserver :=
    h.atOnce w r writer server (.tail e hw) hwrite hwriter (.tail e hr) hserver

end LagModel

namespace Store

variable {s : Store} {node key : String} {t : Millis}

/-- Nothing of the store is hidden from a node, and deletions have no columns. -/
def Open (s : Store) (node : String) (t : Millis) : Prop :=
  s.Each fun v => v.isVisibleTo node t = true ∧ (v.isNull = true → v.values = SortedMap.empty)

theorem Open.present (h : s.Open node t) (key : String) :
    (s.present node key t).map (·.values) = s.table.get? key := by
  rw [get?_table, Store.present, History.present_eq_newest fun v hv => (h key v hv).1]

/-- A node that sees everything reads what the table says. -/
theorem Open.get (h : s.Open node t) (key : String) (fields : Option NameSet) :
    (s.get node key fields t).plain = s.table.read key fields := by
  rw [Table.read, get?_table, Store.get, visible]
  cases hs : s.history key with
  | nil => rfl
  | cons v older =>
    obtain ⟨hseen, hbare⟩ := h key v (by rw [hs]; exact List.mem_cons_self)
    rw [History.visible_cons, if_pos hseen, Option.map_some, Option.getD_some,
      Version.plain_restrict]
    cases hn : v.isNull with
    | true =>
      rw [hbare hn, Columns.only_empty]
      simp [History.newest, Option.filter, hn]
    | false => simp [History.newest, Option.filter, hn]

/-- A node that sees everything scans the table. -/
theorem Open.scan (h : s.Open node t) (start : String) (count : Nat) (ascending : Bool)
    (fields : Option NameSet) :
    (Body.scan (s.scan node start count ascending fields t)).plain =
      .scan (s.table.scan start count ascending fields) := by
  rw [Body.plain, scan_eq_take, Table.scan, List.map_take, List.map_take, walk_table, rows,
    List.map_filterMap, List.map_filterMap]
  congr 2
  refine List.filterMap_congr fun e he => ?_
  have hseen : ∀ v ∈ e.2, v.isVisibleTo node t = true := by
    intro v hv
    rw [← history_of_mem (mem_walk_iff.mp he).1] at hv
    exact (h e.1 v hv).1
  rw [History.present_eq_newest hseen]
  cases hv : History.newest e.2 with
  | none => rfl
  | some v =>
    have hn : v.isNull = false := by simpa using (Option.filter_eq_some_iff.mp hv).2
    simp only [Option.map_some, Version.plain_restrict, hn]

end Store

namespace Cluster

variable {c : Cluster} {now : Millis} {r : Request} {node : Node}

/-- The answer to a request and the table after it. -/
def plainly (c : Cluster) (now : Millis) (r : Request) : Body × Table :=
  ((c.serve now r).1.body.plain, (c.serve now r).2.store.table)

theorem plainly_of_applied (h : c.model.Admits c.nodes r node) {body : Body} {store : Store}
    (ha : c.apply now r node = .ok (body, store)) :
    c.plainly now r = (body.plain, store.table) := by
  have hserves : c.resolve r = .ok node := h.serves
  obtain ⟨b, hb⟩ := h.settles (a := r.answer (c.lastId + 1) body) (apply_cases ha).1 now
  obtain ⟨hbody, hstore⟩ := serve_of_settled hserves ha hb
  rw [plainly, hbody, hstore]

theorem plainly_of_refused (h : c.model.Admits c.nodes r node) {e : Refusal}
    (ha : c.apply now r node = .error e) :
    c.plainly now r = (.exception e.fault, c.store.table) := by
  have hserves : c.resolve r = .ok node := h.serves
  rw [plainly, serve_of_refused hserves ha]
  rfl

/-! One lemma for each kind of request, served by a node from which nothing is hidden. -/

theorem plainly_insert (h : c.model.Admits c.nodes r node) (ho : c.store.Open node.name now)
    {key : String} {values : Columns} {concern : WriteConcern}
    (ha : r.action = .insert (some key) values concern) :
    c.plainly now r = c.store.table.answer r.action := by
  have hpasses := h.passes
  rw [ha] at hpasses
  have happly := apply_insert ha hpasses.2 (h.takes_spread (by rw [ha]; rfl)) now
  rw [ha, Table.answer, ← ho.present key]
  cases hp : c.store.present node.name key now with
  | none =>
    rw [hp] at happly
    rw [plainly_of_applied h happly, Store.table_prepend]
    rfl
  | some current =>
    rw [hp] at happly
    exact plainly_of_refused h happly

theorem plainly_update (h : c.model.Admits c.nodes r node) (ho : c.store.Open node.name now)
    {key : String} {values : Columns} {concern : WriteConcern}
    (ha : r.action = .update (some key) values concern) :
    c.plainly now r = c.store.table.answer r.action := by
  have hpasses := h.passes
  rw [ha] at hpasses
  have happly := apply_update ha hpasses.2 (h.takes_spread (by rw [ha]; rfl)) now
  rw [ha, Table.answer, ← ho.present key]
  cases hp : c.store.present node.name key now with
  | none =>
    rw [hp] at happly
    exact plainly_of_refused h happly
  | some base =>
    rw [hp] at happly
    rw [plainly_of_applied h happly, Store.table_prepend, Version.overlaidOn_eq]
    rfl

theorem plainly_delete (h : c.model.Admits c.nodes r node) (ho : c.store.Open node.name now)
    {key : String} {concern : WriteConcern} (ha : r.action = .delete (some key) concern) :
    c.plainly now r = c.store.table.answer r.action := by
  have happly := apply_delete ha (h.takes_spread (by rw [ha]; rfl)) now
  rw [ha, Table.answer, ← ho.present key]
  cases hp : c.store.present node.name key now with
  | none =>
    rw [hp] at happly
    exact plainly_of_refused h happly
  | some base =>
    rw [hp] at happly
    rw [plainly_of_applied h happly, Store.table_prepend]
    rfl

theorem plainly_read (h : c.model.Admits c.nodes r node) (ho : c.store.Open node.name now)
    {key : String} {fields : Option NameSet} {preference : ReadPreference}
    (ha : r.action = .read (some key) fields preference) :
    c.plainly now r = c.store.table.answer r.action := by
  have hpasses := h.passes
  rw [ha] at hpasses
  rw [plainly_of_applied h (apply_get ha hpasses.2 c now node), Body.plain, ho.get, ha,
    Table.answer]

theorem plainly_scan (h : c.model.Admits c.nodes r node) (ho : c.store.Open node.name now)
    {key : String} {count : UInt64} {ascending : Bool} {fields : Option NameSet}
    {preference : ReadPreference}
    (ha : r.action = .scan (some key) count ascending fields preference) :
    c.plainly now r = c.store.table.answer r.action := by
  have hpasses := h.passes
  rw [ha] at hpasses
  obtain ⟨_, hcount, hfields⟩ := hpasses
  rw [plainly_of_applied h (apply_scan ha (UInt64.not_lt.mpr hcount) hfields c now node),
    ho.scan, ha, Table.answer]

/-- A node from which nothing is hidden serves an admitted request as the table does. -/
theorem plainly_eq_answer (h : c.model.Admits c.nodes r node) (ho : c.store.Open node.name now) :
    c.plainly now r = c.store.table.answer r.action := by
  have hpasses := h.passes
  cases ha : r.action with
  | insert key values concern =>
    rw [ha] at hpasses
    obtain ⟨k, rfl⟩ := Option.isSome_iff_exists.mp hpasses.1
    exact ha ▸ plainly_insert h ho ha
  | update key values concern =>
    rw [ha] at hpasses
    obtain ⟨k, rfl⟩ := Option.isSome_iff_exists.mp hpasses.1
    exact ha ▸ plainly_update h ho ha
  | delete key concern =>
    rw [ha] at hpasses
    obtain ⟨k, rfl⟩ := Option.isSome_iff_exists.mp hpasses
    exact ha ▸ plainly_delete h ho ha
  | read key fields preference =>
    rw [ha] at hpasses
    obtain ⟨k, rfl⟩ := Option.isSome_iff_exists.mp hpasses.1
    exact ha ▸ plainly_read h ho ha
  | scan key count ascending fields preference =>
    rw [ha] at hpasses
    obtain ⟨k, rfl⟩ := Option.isSome_iff_exists.mp hpasses.1
    exact ha ▸ plainly_scan h ho ha

end Cluster

namespace LiveCluster

variable {l : LiveCluster} {events : List ClusterEvent}

/-- Whoever serves one of the events sees the whole store now. -/
def Open (l : LiveCluster) (events : List ClusterEvent) : Prop :=
  ∀ r server, .request r ∈ events → l.cluster.model.Admits l.cluster.nodes r server →
    l.cluster.store.Open server.name l.clock.now

theorem Open.request {r : Request} (ho : l.Open (.request r :: events))
    (hu : l.cluster.model.Undelayed l.cluster.nodes (.request r :: events)) :
    (l.request r).2.Open events := by
  intro q server hq hserver
  rw [request_model, request_nodes] at hserver
  have hopen := ho q server (.tail _ hq) hserver
  rcases l.request_store r with hs | ⟨writer, key, v, hwriter, hw, hs⟩
  · rw [hs]
    exact hopen
  · -- the version that is new reaches at once whoever serves what is left
    obtain ⟨node, hnode⟩ := hu.admits r (.head _)
    obtain rfl : node = writer := Except.ok.inj (hnode.serves.symm.trans hwriter)
    have hzero := hu.atOnce r q node server (.head _) hw.isWrite hnode (.tail _ hq) hserver
    rw [← LagModel.eq_spread hw.allowed] at hzero
    rw [hs]
    exact hopen.prepend ⟨hw.isVisibleTo hzero, hw.bare⟩ key

theorem Open.advance {ms : Millis} (ho : l.Open (.advance ms :: events))
    (hle : l.clock.now ≤ (l.clock.advance ms).now) :
    Open { l with clock := l.clock.advance ms } events := by
  intro r server hr hserver key v hv
  obtain ⟨hseen, hbare⟩ := ho r server (.tail _ hr) hserver key v hv
  exact ⟨Version.isVisibleTo_mono hle hseen, hbare⟩

theorem open_of_empty (h : l.cluster.store = Store.empty) (events : List ClusterEvent) :
    l.Open events := by
  intro r server _ _
  rw [h]
  exact Store.each_empty _

/-- The table goes along with the cluster, event for event. -/
theorem run_open (hu : l.cluster.model.Undelayed l.cluster.nodes events)
    (hsteady : l.clock.Steady events) (ho : l.Open events) :
    (l.run events).1.map (·.body.plain) = l.cluster.store.table.run events := by
  induction events generalizing l with
  | nil => rfl
  | cons e rest ih =>
    cases e with
    | request r =>
      obtain ⟨node, hnode⟩ := hu.admits r (.head _)
      have hanswer := Cluster.plainly_eq_answer hnode (ho r node (.head _) hnode)
      have hrest : (l.request r).2.cluster.model.Undelayed (l.request r).2.cluster.nodes rest := by
        rw [request_model, request_nodes]
        exact hu.tail
      rw [run_request, List.map_cons, ih hrest hsteady (ho.request hu), Table.run, ← hanswer]
      rfl
    | advance ms =>
      exact ih (l := { l with clock := l.clock.advance ms }) hu.tail hsteady.2
        (ho.advance hsteady.1)
    | clear =>
      rw [Table.run, ← Store.table_empty]
      exact ih (l := { l with cluster := l.cluster.clear }) hu.tail hsteady (open_of_empty rfl rest)

/-- A cluster without delays answers a run as one table does, whichever nodes serve the requests;
nothing but the metadata of versions tells the two apart. -/
theorem run_undelayed_eq (clock : Clock) (nodes : List Node) (model : LagModel)
    (events : List ClusterEvent) (hu : model.Undelayed nodes events)
    (hsteady : clock.Steady events) :
    (run ⟨clock, { nodes, model }⟩ events).1.map (·.body.plain) =
      Table.run SortedMap.empty events := by
  rw [← Store.table_empty]
  exact run_open (l := ⟨clock, { nodes, model }⟩) hu hsteady (open_of_empty rfl events)

/-- Three nodes, of which the third is a second behind and serves nothing. One node inserts a
record, the other updates it; a scan for two of its three columns shows one that was set and one
that was kept, and at last the record is deleted. -/
theorem run_of_two_near_nodes :
    let nodes : List Node :=
      [{ name := "n1", isPrimary := true }, { name := "n2" }, { name := "n3" }]
    let p : LagProfile :=
      { defaultDelay := 1000, links := [⟨"n1", "n2", 0⟩, ⟨"n2", "n1", 0⟩] }
    let values : Columns := .ofList [("u", .nat 0), ("v", .nat 1)]
    let events : List ClusterEvent :=
      [.request (.insert "t" "k" values),
        .request (((Request.update "t" "k" (.ofList [("v", .nat 2), ("w", .nat 3)])).via
          "n2").withConcern { acks := 2 }),
        .advance 5,
        .request ((Request.scan "t" "a" 3).withFields ["v", "u"]),
        .request ((Request.delete "t" "k").via "n2"),
        .request (.read "t" "k")]
    let model : LagModel := .replicated (.ofProfile p 0)
    let shown : Columns := .ofList [("u", .nat 0), ("v", .nat 2)]
    model.Undelayed nodes events ∧
      (run ⟨⟨0⟩, { nodes, model }⟩ events).1.map (·.body.plain) =
        Table.run SortedMap.empty events ∧
      (run ⟨⟨0⟩, { nodes, model }⟩ events).1.map (·.body.plain) =
        [.insert, .update, .scan [⟨"k", { values := shown }⟩], .delete,
          .read { values := SortedMap.empty, isNull := true }] := by
  intro nodes p values events model shown
  have hadmits : ∀ r, .request r ∈ events → ∃ node : Node,
      (node = { name := "n1", isPrimary := true } ∨ node = { name := "n2" }) ∧
        model.Admits nodes r node := by
    intro r hr
    simp only [events, List.mem_cons, ClusterEvent.request.injEq, reduceCtorEq, false_or,
      List.not_mem_nil, or_false] at hr
    rcases hr with rfl | rfl | rfl | rfl | rfl
    · exact ⟨_, .inl rfl, .of_concern (by decide) ⟨rfl, by decide⟩ rfl rfl
        (.inl (.inr (by decide)))⟩
    · exact ⟨_, .inr rfl, .of_concern (by decide) ⟨rfl, by decide⟩ rfl rfl
        (.inl (.inr (by decide)))⟩
    · exact ⟨_, .inl rfl, .of_no_concern (by decide) ⟨rfl, by decide, rfl⟩ rfl⟩
    · exact ⟨_, .inr rfl, .of_concern (by decide) rfl rfl rfl (.inl (.inr (by decide)))⟩
    · exact ⟨_, .inl rfl, .of_no_concern (by decide) ⟨rfl, rfl⟩ rfl⟩
  have hu : model.Undelayed nodes events := by
    refine ⟨fun r hr => ?_, fun w r writer server hw _ hwriter hr hserver => ?_⟩
    · obtain ⟨node, _, h⟩ := hadmits r hr
      exact ⟨node, h⟩
    · obtain ⟨a, ha, hwa⟩ := hadmits w hw
      obtain ⟨b, hb, hrb⟩ := hadmits r hr
      obtain rfl : a = writer := Except.ok.inj (hwa.serves.symm.trans hwriter.serves)
      obtain rfl : b = server := Except.ok.inj (hrb.serves.symm.trans hserver.serves)
      rcases ha with rfl | rfl <;> rcases hb with rfl | rfl <;> decide
  have hrun := run_undelayed_eq ⟨0⟩ nodes model events hu ⟨by decide, trivial⟩
  have hanswers : Table.run SortedMap.empty events =
      [.insert, .update, .scan [⟨"k", { values := shown }⟩], .delete,
        .read { values := SortedMap.empty, isNull := true }] := by
    simp only [events, values, shown]
    rfl
  exact ⟨hu, hrun, hrun.trans hanswers⟩

end LiveCluster

end ReplicaLag
