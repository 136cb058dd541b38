import ReplicaLag.Proofs.Replication
import ReplicaLag.Proofs.Scans

/-!
Read-only secondaries. All writes go to the primary, so each version carries the delays from the
primary, in every state that a run reaches. Main statement: what a node shows at a moment is what
the primary showed earlier, by the delay between the two; reads and scans of a secondary are those
of the primary at one earlier moment.
-/

namespace ReplicaLag

/-- A version that the primary took: each node sees it after its delay from there. -/
def Version.FromPrimary (links : Links) (primary : Node) (nodes : List Node) (v : Version) : Prop :=
  ∀ n ∈ nodes, v.visibility.get? n.name = some (links.delay primary.name n.name)

theorem Millis.plus_le_iff_le_sub {w d t : Millis} (ht : t < Millis.last) (hd : d ≤ t) :
    w.plus d ≤ t ↔ w ≤ t - d := by
  -- a sum that runs over is the last moment, which `t` does not reach
  have hlast : t.toNat < UInt64.size - 1 := UInt64.lt_iff_toNat_lt.mp ht
  have hsub : (t - d).toNat = t.toNat - d.toNat := UInt64.toNat_sub_of_le t d hd
  rw [UInt64.le_iff_toNat_le] at hd
  rw [UInt64.le_iff_toNat_le, UInt64.le_iff_toNat_le, Millis.toNat_plus, hsub]
  omega

theorem Millis.not_plus_le {w d t : Millis} (ht : t < Millis.last) (hd : t < d) :
    ¬ w.plus d ≤ t := by
  have hlast : t.toNat < UInt64.size - 1 := UInt64.lt_iff_toNat_lt.mp ht
  rw [UInt64.lt_iff_toNat_lt] at hd
  rw [UInt64.le_iff_toNat_le, Millis.toNat_plus]
  omega

namespace Version.FromPrimary

variable {links : Links} {primary s : Node} {nodes : List Node} {v : Version} {t : Millis}

theorem isVisibleTo_iff (h : FromPrimary links primary nodes v) (hs : s ∈ nodes) :
    v.isVisibleTo s.name t = true ↔ v.writtenAt.plus (links.delay primary.name s.name) ≤ t := by
  rw [Version.isVisibleTo_iff, h s hs]
  simp

theorem isVisibleTo_primary_iff (h : FromPrimary links primary nodes v) (hp : primary ∈ nodes) :
    v.isVisibleTo primary.name t = true ↔ v.writtenAt ≤ t := by
  rw [h.isVisibleTo_iff hp, Links.delay, if_pos rfl, Millis.plus_zero]

/-- One version reaches a node when the primary has had it for the delay. -/
theorem isVisibleTo_eq (h : FromPrimary links primary nodes v) (hp : primary ∈ nodes)
    (hs : s ∈ nodes) (ht : t < Millis.last) (hd : links.delay primary.name s.name ≤ t) :
    v.isVisibleTo s.name t =
      v.isVisibleTo primary.name (t - links.delay primary.name s.name) := by
  rw [Bool.eq_iff_iff, h.isVisibleTo_iff hs, h.isVisibleTo_primary_iff hp]
  exact Millis.plus_le_iff_le_sub ht hd

theorem isVisibleTo_eq_false (h : FromPrimary links primary nodes v) (hs : s ∈ nodes)
    (ht : t < Millis.last) (hd : t < links.delay primary.name s.name) :
    v.isVisibleTo s.name t = false := by
  rw [← Bool.not_eq_true, h.isVisibleTo_iff hs]
  exact Millis.not_plus_le ht hd

end Version.FromPrimary

namespace LiveCluster

/-- Secondaries of the cluster take no writes, and its store has only what the primary took. -/
structure PrimaryWrites (m : Replication) (nodes : List Node) (primary : Node) (l : LiveCluster) :
    Prop where
  nodes_eq : l.cluster.nodes = nodes
  model_eq : l.cluster.model = .replicated m
  store : l.cluster.store.Each (Version.FromPrimary m.links primary nodes)

variable {m : Replication} {nodes : List Node} {primary : Node} {l : LiveCluster}

theorem PrimaryWrites.run (ro : m.readOnlySecondaries = true)
    (one : nodes.filter (·.isPrimary) = [primary]) (h : PrimaryWrites m nodes primary l)
    (events : List ClusterEvent) : PrimaryWrites m nodes primary (l.run events).2 := by
  refine ⟨(l.run_nodes events).trans h.nodes_eq, (l.run_model events).trans h.model_eq, ?_⟩
  refine run_each (fun c now r node key v hnodes hmodel hr hw n hn => ?_) events h.store
  have hallowed := hw.allowed
  have hmem := Cluster.mem_of_resolve hr
  rw [hmodel, h.model_eq, hnodes, h.nodes_eq] at hallowed
  rw [hnodes, h.nodes_eq] at hmem
  obtain ⟨hprimary, _, hd⟩ := Replication.visibility_eq_ok_iff.mp hallowed
  have hnode : node = primary := by
    have : node ∈ nodes.filter (·.isPrimary) := List.mem_filter.mpr ⟨hmem, hprimary ro⟩
    rw [one] at this
    exact List.mem_singleton.mp this
  rw [hd, Replication.get?_spread hn, hnode]

/-- In every state that a run reaches, each node reads and scans what the primary did one delay ago,
and nothing at all before the first delay has passed. -/
theorem secondary_shows_primary_earlier (clock : Clock) {p : LagProfile}
    (ro : p.readOnlySecondaries = true) {nodes : List Node} {primary : Node}
    (one : nodes.filter (·.isPrimary) = [primary]) (events : List ClusterEvent) {s : Node}
    (hs : s ∈ nodes) {t : Millis} (ht : t < Millis.last) :
    let store := ((replicated clock nodes p).run events).2.cluster.store
    let d := (Links.ofProfile p).delay primary.name s.name
    (d ≤ t →
      (∀ key columns, store.get s.name key columns t = store.get primary.name key columns (t - d)) ∧
      ∀ start count ascending columns, store.scan s.name start count ascending columns t =
        store.scan primary.name start count ascending columns (t - d)) ∧
    (t < d →
      (∀ key columns, store.get s.name key columns t = .null) ∧
      ∀ start count ascending columns, store.scan s.name start count ascending columns t = []) := by
  intro store d
  have hp : primary ∈ nodes := by
    have : primary ∈ nodes.filter (·.isPrimary) := by simp [one]
    exact (List.mem_filter.mp this).1
  have hstore : store.Each (Version.FromPrimary (.ofProfile p) primary nodes) :=
    (PrimaryWrites.run (m := .ofProfile p clock.now) ro one ⟨rfl, rfl, Store.each_empty _⟩
      events).store
  constructor
  · intro hd
    have hv : ∀ key, store.visible s.name key t = store.visible primary.name key (t - d) :=
      fun key => History.visible_congr fun v hv => (hstore key v hv).isVisibleTo_eq hp hs ht hd
    exact ⟨fun key columns => Store.get_congr (hv key) columns, Store.scan_congr hv⟩
  · intro hd
    have hv : ∀ key, store.visible s.name key t = none := by
      intro key
      refine List.find?_eq_none.mpr fun v hv => ?_
      rw [(hstore key v hv).isVisibleTo_eq_false hs ht hd]
      exact Bool.false_ne_true
    exact ⟨fun key columns => Store.get_of_unseen (hv key) columns, Store.scan_of_unseen hv⟩

/-- Ten milliseconds from the primary, the secondary shows at 12 what the primary showed at 2, and
nothing at 9. -/
theorem secondary_ten_behind :
    let nodes : List Node := [{ name := "n1", isPrimary := true }, { name := "n2" }]
    let p : LagProfile := { defaultDelay := 10, readOnlySecondaries := true }
    let store := ((replicated ⟨1⟩ nodes p).run
      [.request (.insert "t" "k" (.ofList [("v", .nat 1)])), .advance 2]).2.cluster.store
    store.get "n2" "k" none 12 = store.get "n1" "k" none 2 ∧ store.get "n2" "k" none 9 = .null := by
  intro nodes p store
  have hd : (Links.ofProfile p).delay "n1" "n2" = 10 := by decide
  have one : nodes.filter (·.isPrimary) = [{ name := "n1", isPrimary := true }] := rfl
  have h {t : Millis} (ht : t < Millis.last) := secondary_shows_primary_earlier ⟨1⟩ (p := p) rfl one
    [.request (.insert "t" "k" (.ofList [("v", .nat 1)])), .advance 2] (s := { name := "n2" })
    (by decide) ht
  simp only [hd] at h
  exact ⟨((h (t := 12) (by decide)).1 (by decide)).1 "k" none,
    ((h (t := 9) (by decide)).2 (by decide)).1 "k" none⟩

end LiveCluster

end ReplicaLag
