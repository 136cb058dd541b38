import ReplicaLag.Proofs.Replication

/-!
Replicas that agree. No version that a run stores lacks a node of the cluster, so a node to which
the newest version of a key has come sees that version, whatever of the older ones is still under
way. Main statement: when the newest version of each key has come everywhere, all nodes read just
these versions, and any two of them read and scan alike.
-/

namespace ReplicaLag

/-- The version comes to each of the nodes, sooner or later. -/
def Version.ComesTo (nodes : List Node) (v : Version) : Prop :=
  ∀ n ∈ nodes, ∃ since, v.visibleSince n.name = some since

namespace Store

variable {s : Store} {nodes : List Node} {t : Millis}

/-- The newest version of each key has come to the nodes; of older ones nothing is said, nor of a
node to which the newest never comes. -/
def Settled (s : Store) (nodes : List Node) (t : Millis) : Prop :=
  ∀ key, ∀ v ∈ (s.history key).head?, ∀ n ∈ nodes, ∀ since ∈ v.visibleSince n.name, since ≤ t

theorem settled_iff_keys : s.Settled nodes t ↔ ∀ key ∈ s.keys, ∀ v ∈ (s.history key).head?,
    ∀ n ∈ nodes, (v.visibleSince n.name).all (· ≤ t) = true := by
  simp only [Option.all_eq_true, decide_eq_true_eq]
  constructor
  · exact fun h key _ => h key
  · intro h key v hv
    have hm := mem_entries_of_history (List.mem_of_mem_head? hv)
    exact h key (List.mem_map_of_mem hm) v hv

instance (s : Store) (nodes : List Node) (t : Millis) : Decidable (s.Settled nodes t) :=
  decidable_of_iff _ settled_iff_keys.symm

/-- Once it has come to a node, the newest version hides all others there. -/
theorem visible_of_settled (hs : s.Each (Version.ComesTo nodes)) (h : s.Settled nodes t) {n : Node}
    (hn : n ∈ nodes) (key : String) : s.visible n.name key t = (s.history key).head? := by
  rw [visible]
  cases hk : s.history key with
  | nil => rfl
  | cons v older =>
    obtain ⟨since, hsince⟩ := hs key v (by rw [hk]; exact List.mem_cons_self) n hn
    have hle : since ≤ t := h key v (by rw [hk]; rfl) n hn since hsince
    have hseen : v.isVisibleTo n.name t = true := by
      rw [Version.isVisibleTo, hsince]
      exact decide_eq_true hle
    rw [History.visible_cons, if_pos hseen, List.head?_cons]

end Store

namespace LiveCluster

/-- Nothing is stored that does not come to every node of the cluster. -/
theorem run_comesTo (clock : Clock) (nodes : List Node) (model : LagModel)
    (events : List ClusterEvent) :
    (run ⟨clock, { nodes, model }⟩ events).2.cluster.store.Each (Version.ComesTo nodes) := by
  refine run_each (fun c now r node key v hn _ _ hw n hmem => ?_) events (Store.each_empty _)
  have hspread := LagModel.eq_spread hw.allowed
  have hdelay : v.visibility.get? n.name = some (c.model.delay node.name n.name) := by
    rw [hspread, LagModel.get?_spread, if_pos (hn ▸ List.mem_map_of_mem hmem)]
  exact ⟨_, by rw [Version.visibleSince, hdelay]; rfl⟩

/-- After any run, at a moment at which the newest version of each key has come to every node, each
node reads this version of each key, and any two nodes give the same reads and scans. -/
theorem settled_nodes_agree (clock : Clock) (nodes : List Node) (model : LagModel)
    (events : List ClusterEvent) {t : Millis}
    (h : (run ⟨clock, { nodes, model }⟩ events).2.cluster.store.Settled nodes t) :
    let store := (run ⟨clock, { nodes, model }⟩ events).2.cluster.store
    (∀ n ∈ nodes, ∀ key columns, store.get n.name key columns t =
      ((store.history key).head?.map (·.restrict columns)).getD .null) ∧
    ∀ a ∈ nodes, ∀ b ∈ nodes,
      (∀ key columns, store.get a.name key columns t = store.get b.name key columns t) ∧
      ∀ start count ascending columns, store.scan a.name start count ascending columns t =
        store.scan b.name start count ascending columns t := by
  intro store
  have hseen : ∀ n ∈ nodes, ∀ key, store.visible n.name key t = (store.history key).head? :=
    fun n hn key => Store.visible_of_settled (run_comesTo clock nodes model events) h hn key
  constructor
  · intro n hn key columns
    rw [Store.get, hseen n hn key]
  · intro a ha b hb
    have hsame : ∀ key, store.visible a.name key t = store.visible b.name key t :=
      fun key => (hseen a ha key).trans (hseen b hb key).symm
    exact ⟨fun key columns => Store.get_congr (hsame key) columns, Store.scan_congr hsame⟩

/-- Both nodes insert the record, neither knowing of the other's. At 20 the second version has come
everywhere, while the first is still on its way. -/
theorem nodes_agree_on_second_insert :
    let nodes : List Node := [{ name := "n1", isPrimary := true }, { name := "n2" }]
    let p : LagProfile := { links := [⟨"n1", "n2", 100⟩, ⟨"n2", "n1", 10⟩] }
    let insert := Request.insert "t" "k" (.ofList [("v", .nat 1)])
    let events : List ClusterEvent :=
      [.request insert, .advance 5, .request (insert.via "n2")]
    let store :=
      (run ⟨⟨0⟩, { nodes, model := .replicated (.ofProfile p 0) }⟩ events).2.cluster.store
    store.Settled nodes 20 ∧
      store.get "n1" "k" none 20 = store.get "n2" "k" none 20 ∧
      store.scan "n1" "a" 5 true none 20 = store.scan "n2" "a" 5 true none 20 := by
  intro nodes p insert events store
  have hsettled : store.Settled nodes 20 := by decide
  obtain ⟨_, hagree⟩ := settled_nodes_agree ⟨0⟩ nodes (.replicated (.ofProfile p 0)) events hsettled
  obtain ⟨hget, hscan⟩ := hagree { name := "n1", isPrimary := true } (by decide) { name := "n2" }
    (by decide)
  exact ⟨hsettled, hget "k" none, hscan "a" 5 true none⟩

end LiveCluster

end ReplicaLag
