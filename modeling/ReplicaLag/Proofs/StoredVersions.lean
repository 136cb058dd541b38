import ReplicaLag.Proofs.Replication

/-!
What a store of a cluster can hold. Each version bears the stamp of the node that wrote it, with a
delay to every node of the cluster and to no other; its columns have names, and only a null version
has none. Updates take over columns of an older version, so this is kept by each write because it
held before. Main statement: all this is true in every state that a run reaches, and histories are
in the order of time as long as the clock does not go back.
-/

namespace ReplicaLag

/-- The delay after which a node sees its own writes. -/
def LagModel.ownDelay : LagModel → Millis
  | constant c => c.own
  | replicated _ => 0

theorem LagModel.delay_self (m : LagModel) (name : String) : m.delay name name = m.ownDelay := by
  cases m with
  | constant c => exact if_pos rfl
  | replicated r => exact r.links.delay_self name

namespace Version

/-- A node of the cluster has written the version, and it comes to the nodes of the cluster, each
listed once, and to no others, after the delays from there. -/
structure IsStampedBy (model : LagModel) (nodes : List Node) (v : Version) (writer : Node) :
    Prop where
  mem : writer ∈ nodes
  writtenBy : v.writtenBy = some writer
  names : v.visibility.keys.Perm (nodes.map (·.name))
  own : v.visibility.get? writer.name = some model.ownDelay
  others : ∀ n ∈ nodes, n.name ≠ writer.name →
    v.visibility.get? n.name = some (model.delay writer.name n.name)

/-- Only a null version is without columns, and no column has the empty name. -/
structure HasNamedColumns (v : Version) : Prop where
  ofNull : v.isNull = true → v.values = SortedMap.empty
  someColumn : v.isNull = false → v.values.isEmpty = false
  named : ∀ name ∈ v.values.keys, name ≠ ""

variable {v : Version}

theorem isStampedBy_of_spread {model : LagModel} {nodes : List Node} {writer : Node}
    (names : (nodes.map (·.name)).Nodup) (hmem : writer ∈ nodes)
    (hby : v.writtenBy = some writer) (hv : v.visibility = model.spread writer nodes) :
    v.IsStampedBy model nodes writer := by
  have hdelay : ∀ n ∈ nodes,
      v.visibility.get? n.name = some (model.delay writer.name n.name) := by
    intro n hn
    rw [hv, LagModel.get?_spread, if_pos (List.mem_map_of_mem hn)]
  refine ⟨hmem, hby, ?_, ?_, fun n hn _ => hdelay n hn⟩
  · refine (List.perm_ext_iff_of_nodup v.visibility.keys_nodup names).mpr fun name => ?_
    rw [SortedMap.mem_keys, hv, LagModel.get?_spread]
    split <;> simp_all
  · rw [hdelay writer hmem, model.delay_self]

theorem hasNamedColumns_of_checked {values : Columns} (h : Cluster.checkValues values = .ok ())
    (node : Node) (t : Millis) (d : Visibility) :
    ((ofValues values).stamped node t d).HasNamedColumns := by
  obtain ⟨hsome, hnamed⟩ := Cluster.checkValues_eq_ok_iff.mp h
  exact ⟨Bool.noConfusion, fun _ => hsome, hnamed⟩

theorem hasNamedColumns_null (node : Node) (t : Millis) (d : Visibility) :
    (null.stamped node t d).HasNamedColumns :=
  ⟨fun _ => rfl, Bool.noConfusion, by simp [null, stamped, SortedMap.keys, SortedMap.empty]⟩

/-- The columns of an update have names if its own do and those that it takes over. -/
theorem HasNamedColumns.overlaidOn {base : Version} (hv : v.HasNamedColumns)
    (hbase : base.HasNamedColumns) (hnull : v.isNull = false) :
    (v.overlaidOn base.values).HasNamedColumns := by
  refine ⟨fun h => ?_, fun _ => ?_, fun name hname => ?_⟩
  · have h : v.isNull = true := h
    rw [hnull] at h
    cases h
  · obtain ⟨name, hname⟩ := SortedMap.isEmpty_eq_false_iff.mp (hv.someColumn hnull)
    exact SortedMap.isEmpty_eq_false_iff.mpr ⟨name, SortedMap.mem_keys_fill.mpr (.inl hname)⟩
  · rcases SortedMap.mem_keys_fill.mp hname with h | h
    · exact hv.named name h
    · exact hbase.named name h

end Version

namespace Store

variable {s : Store} {now : Millis}

/-- No key is kept without a version. -/
def HoldsNoBareKey (s : Store) : Prop := ∀ key ∈ s.keys, s.history key ≠ []

theorem holdsNoBareKey_empty : empty.HoldsNoBareKey := by
  intro key hkey
  cases hkey

theorem HoldsNoBareKey.prepend (h : s.HoldsNoBareKey) (key : String) (v : Version) :
    (s.prepend key v).HoldsNoBareKey := by
  intro k hk
  rw [history_prepend]
  split
  next => exact List.cons_ne_nil _ _
  next hne => exact h k ((mem_keys_prepend.mp hk).resolve_left hne)

/-- The versions of each key stand in the order of their writing, the newest first, and none was
written after `now`. -/
structure IsChronological (s : Store) (now : Millis) : Prop where
  ordered : ∀ key, (s.history key).Pairwise fun newer older => older.writtenAt ≤ newer.writtenAt
  past : ∀ key, ∀ v ∈ s.history key, v.writtenAt ≤ now

theorem isChronological_empty (now : Millis) : empty.IsChronological now :=
  ⟨fun _ => .nil, by simp⟩

theorem IsChronological.prepend (h : s.IsChronological now) {v : Version} (hv : v.writtenAt = now)
    (key : String) : (s.prepend key v).IsChronological now := by
  constructor
  · intro k
    rw [history_prepend]
    split
    · refine List.pairwise_cons.mpr ⟨fun w hw => ?_, h.ordered key⟩
      rw [hv]
      exact h.past key w hw
    · exact h.ordered k
  · exact Each.prepend h.past (hv ▸ UInt64.le_refl _) key

theorem IsChronological.later (h : s.IsChronological now) {t : Millis} (ht : now ≤ t) :
    s.IsChronological t := ⟨h.ordered, fun key v hv => UInt64.le_trans (h.past key v hv) ht⟩

end Store

namespace Cluster

variable {c : Cluster} {now : Millis} {r : Request}

theorem apply_named {node : Node} {body : Body} {store : Store}
    (h : c.store.Each Version.HasNamedColumns) (ha : c.apply now r node = .ok (body, store)) :
    store.Each Version.HasNamedColumns := by
  cases hr : r.action with
  | insert key values concern =>
    simp only [apply, hr, bind_eq_ok, requireKey_eq_ok_iff, Store.insert_eq_ok_iff] at ha
    obtain ⟨key, _, _, hvalues, d, _, _, ⟨_, rfl⟩, hs⟩ := ha
    cases hs
    exact h.prepend (Version.hasNamedColumns_of_checked hvalues node now d) key
  | update key values concern =>
    simp only [apply, hr, bind_eq_ok, requireKey_eq_ok_iff, Store.update_eq_ok_iff] at ha
    obtain ⟨key, _, _, hvalues, d, _, _, ⟨base, hbase, rfl⟩, hs⟩ := ha
    cases hs
    -- the version underneath is a stored one
    have hold : base.HasNamedColumns := h key base (Store.mem_of_present hbase)
    have hnew := Version.hasNamedColumns_of_checked hvalues node now d
    exact h.prepend (hnew.overlaidOn hold rfl) key
  | delete key concern =>
    simp only [apply, hr, bind_eq_ok, requireKey_eq_ok_iff, Store.delete_eq_ok_iff] at ha
    obtain ⟨key, _, d, _, _, ⟨_, rfl⟩, hs⟩ := ha
    cases hs
    exact h.prepend (Version.hasNamedColumns_null node now d) key
  | read | scan =>
    rcases (apply_cases ha).2 with ⟨_, rfl⟩ | ⟨_, _, hw, _⟩
    · exact h
    · have hwrite := hw.isWrite
      rw [hr] at hwrite
      cases hwrite

theorem serve_named (h : c.store.Each Version.HasNamedColumns) (now : Millis) (r : Request) :
    (c.serve now r).2.store.Each Version.HasNamedColumns := by
  cases hr : c.resolve r with
  | error e => rw [serve_of_unresolved hr]; exact h
  | ok node =>
    cases ha : c.apply now r node with
    | error e => rw [serve_of_refused hr ha]; exact h
    | ok b => rw [serve_of_applied hr ha]; exact apply_named h ha

end Cluster

namespace LiveCluster

variable {l : LiveCluster} {events : List ClusterEvent}

theorem run_holdsNoBareKey (h : l.cluster.store.HoldsNoBareKey) (events : List ClusterEvent) :
    (l.run events).2.cluster.store.HoldsNoBareKey :=
  run_keeps (P := fun k => k.cluster.store.HoldsNoBareKey) (fun k e h => by
    cases e with
    | request r =>
      rcases k.request_store r with hs | ⟨_, key, v, _, _, hs⟩
      · exact hs.symm ▸ h
      · exact hs.symm ▸ h.prepend key v
    | advance ms => exact h
    | clear => exact Store.holdsNoBareKey_empty) events h

theorem run_named (h : l.cluster.store.Each Version.HasNamedColumns) (events : List ClusterEvent) :
    (l.run events).2.cluster.store.Each Version.HasNamedColumns :=
  run_keeps (P := fun k => k.cluster.store.Each Version.HasNamedColumns) (fun k e h => by
    cases e with
    | request r => exact Cluster.serve_named h k.clock.now r
    | advance ms => exact h
    | clear => exact Store.each_empty _) events h

theorem run_stamped (names : (l.cluster.nodes.map (·.name)).Nodup)
    (h : l.cluster.store.Each fun v =>
      ∃ writer, v.IsStampedBy l.cluster.model l.cluster.nodes writer)
    (events : List ClusterEvent) :
    (l.run events).2.cluster.store.Each fun v =>
      ∃ writer, v.IsStampedBy l.cluster.model l.cluster.nodes writer := by
  refine run_each (fun c now r node key v hn hm hr hw => ?_) events h
  have hspread := LagModel.eq_spread hw.allowed
  rw [hn, hm] at hspread
  exact ⟨node,
    Version.isStampedBy_of_spread names (hn ▸ Cluster.mem_of_resolve hr) hw.writtenBy hspread⟩

/-- A clock that does not go back leaves the histories in order. -/
theorem run_chronological (hsteady : l.clock.Steady events)
    (h : l.cluster.store.IsChronological l.clock.now) :
    (l.run events).2.cluster.store.IsChronological (l.run events).2.clock.now := by
  induction events generalizing l with
  | nil => exact h
  | cons e rest ih =>
    cases e with
    | request r =>
      refine ih (l := (l.request r).2) hsteady ?_
      rcases l.request_store r with hs | ⟨_, key, v, _, hw, hs⟩
      · exact hs.symm ▸ h
      · exact hs.symm ▸ h.prepend hw.writtenAt key
    | advance ms =>
      exact ih (l := { l with clock := l.clock.advance ms }) hsteady.2 (h.later hsteady.1)
    | clear =>
      exact ih (l := { l with cluster := l.cluster.clear }) hsteady (Store.isChronological_empty _)

/-- In every state that a run reaches, no key is without a version, each version bears the stamp of
a node of the cluster and the delays from there, and only null versions are without columns. If the
clock has never gone back, versions stand in the order of their writing, and none is to come. -/
theorem run_store_wellFormed (clock : Clock) {nodes : List Node}
    (names : (nodes.map (·.name)).Nodup) (model : LagModel) (events : List ClusterEvent) :
    let l := (run ⟨clock, { nodes, model }⟩ events).2
    l.cluster.store.HoldsNoBareKey ∧
    (l.cluster.store.Each fun v => ∃ writer, v.IsStampedBy model nodes writer) ∧
    l.cluster.store.Each Version.HasNamedColumns ∧
    (clock.Steady events → l.cluster.store.IsChronological l.clock.now) := by
  intro l
  refine ⟨?_, ?_, ?_, fun hsteady => ?_⟩
  · exact run_holdsNoBareKey Store.holdsNoBareKey_empty events
  · exact run_stamped (l := ⟨clock, { nodes, model }⟩) names (Store.each_empty _) events
  · exact run_named (Store.each_empty _) events
  · exact run_chronological hsteady (Store.isChronological_empty _)

/-- The secondary updates what it sees of the primary's insert, and the primary deletes the record;
own writes come after one millisecond, others after four. -/
theorem written_by_two_nodes_wellFormed :
    let nodes : List Node := [{ name := "n1", isPrimary := true }, { name := "n2" }]
    let events : List ClusterEvent :=
      [.request (.insert "t" "k" (.ofList [("v", .nat 1)])), .advance 4,
        .request ((Request.update "t" "k" (.ofList [("w", .nat 2)])).via "n2"), .advance 4,
        .request (.delete "t" "k")]
    let model : LagModel := .constant ⟨4, 1⟩
    let l := (run ⟨⟨0⟩, { nodes, model }⟩ events).2
    (nodes.map (·.name)).Nodup ∧ (⟨0⟩ : Clock).Steady events ∧
      (l.cluster.store.history "k").map (·.writtenAt) = [8, 4, 0] ∧
      (l.cluster.store.Each fun v => ∃ writer, v.IsStampedBy model nodes writer) ∧
      l.cluster.store.Each Version.HasNamedColumns ∧ l.cluster.store.IsChronological 8 := by
  intro nodes events model l
  have names : (nodes.map (·.name)).Nodup := by decide
  have hsteady : (⟨0⟩ : Clock).Steady events := ⟨by decide, by decide, trivial⟩
  obtain ⟨_, hstamped, hnamed, hchronological⟩ := run_store_wellFormed ⟨0⟩ names model events
  exact ⟨names, hsteady, by decide, hstamped, hnamed, hchronological hsteady⟩

end LiveCluster

end ReplicaLag
