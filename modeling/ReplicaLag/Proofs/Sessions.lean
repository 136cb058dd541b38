import ReplicaLag.Proofs.Replication

/-!
Sessions with one node. Versions of a key are numbered in the order in which they were stored, and
a node sees the visible one of the greatest number. While no clear comes between and the clock does
not go back, histories only grow and nothing goes out of sight, so that number never falls. Main
statement: a client of one node never reads an older version than before, and never an older one
than it has written there.
-/

namespace ReplicaLag

namespace History

/-- The number of the version that a node sees; the oldest version has number zero. -/
def seen? : History → String → Millis → Option Nat
  | [], _, _ => none
  | v :: h, node, t => if v.isVisibleTo node t then some h.length else seen? h node t

theorem seen?_lt {h : History} {node : String} {t : Millis} {i : Nat}
    (hi : h.seen? node t = some i) : i < h.length := by
  induction h with
  | nil => cases hi
  | cons v h ih =>
    rw [seen?] at hi
    split at hi
    · cases hi
      exact Nat.lt_succ_self _
    · exact Nat.lt_succ_of_lt (ih hi)

/-- The version with that number is the one that is visible. -/
theorem visible_eq_getElem? (h : History) (node : String) (t : Millis) :
    h.visible node t = (h.seen? node t).bind (h.reverse[·]?) := by
  induction h with
  | nil => rfl
  | cons v h ih =>
    rw [visible_cons, seen?]
    split
    · simp
    · rw [ih, List.reverse_cons]
      cases hi : seen? h node t with
      | none => rfl
      | some i =>
        rw [Option.bind_some, Option.bind_some, List.getElem?_append_left]
        rw [List.length_reverse]
        exact seen?_lt hi

/-- What a node has seen does not go out of its sight. -/
theorem seen?_later {h : History} {node : String} {t u : Millis} (htu : t ≤ u) {i : Nat}
    (hi : h.seen? node t = some i) : ∃ j, i ≤ j ∧ h.seen? node u = some j := by
  induction h with
  | nil => cases hi
  | cons v h ih =>
    have hlt := seen?_lt hi
    rw [seen?] at hi ⊢
    by_cases hu : v.isVisibleTo node u = true
    · rw [if_pos hu]
      exact ⟨_, Nat.le_of_lt_succ hlt, rfl⟩
    · have ht : ¬ v.isVisibleTo node t = true := fun ht => hu (Version.isVisibleTo_mono htu ht)
      rw [if_neg ht] at hi
      rw [if_neg hu]
      exact ih hi

/-- What is stored later bears a greater number. -/
theorem seen?_grown {old new : History} (h : old <:+ new) {node : String} {t : Millis} {i : Nat}
    (hi : old.seen? node t = some i) : ∃ j, i ≤ j ∧ new.seen? node t = some j := by
  obtain ⟨newer, rfl⟩ := h
  induction newer with
  | nil => exact ⟨i, Nat.le_refl i, hi⟩
  | cons v newer ih =>
    obtain ⟨j, hij, hj⟩ := ih
    rw [List.cons_append, seen?]
    by_cases hv : v.isVisibleTo node t = true
    · rw [if_pos hv]
      exact ⟨_, Nat.le_trans hij (Nat.le_of_lt (seen?_lt hj)), rfl⟩
    · rw [if_neg hv]
      exact ⟨j, hij, hj⟩

end History

namespace LiveCluster

variable {l : LiveCluster} {events : List ClusterEvent}

theorem run_now_le (h : l.clock.Steady events) : l.clock.now ≤ (l.run events).2.clock.now := by
  induction events generalizing l with
  | nil => exact UInt64.le_refl _
  | cons e r ih =>
    cases e with
    | request r => exact ih (l := (l.request _).2) h
    | advance ms =>
      exact UInt64.le_trans h.1 (ih (l := { l with clock := l.clock.advance ms }) h.2)
    | clear => exact ih (l := { l with cluster := l.cluster.clear }) h

/-- Requests put versions in front of what is there. -/
theorem request_history_suffix (l : LiveCluster) (r : Request) (key : String) :
    l.cluster.store.history key <:+ (l.request r).2.cluster.store.history key := by
  rcases l.request_store r with hs | ⟨_, k, v, _, _, hs⟩
  · exact hs.symm ▸ List.suffix_rfl
  · rw [hs, Store.history_prepend]
    split
    next hk => rw [hk]; exact List.suffix_cons _ _
    next => exact List.suffix_rfl

theorem run_history_suffix (hclear : .clear ∉ events) (key : String) :
    l.cluster.store.history key <:+ (l.run events).2.cluster.store.history key := by
  induction events generalizing l with
  | nil => exact List.suffix_rfl
  | cons e r ih =>
    have hrest : .clear ∉ r := fun hr => hclear (List.mem_cons_of_mem e hr)
    cases e with
    | request q =>
      exact (l.request_history_suffix q key).trans (ih hrest)
    | advance ms => exact ih (l := { l with clock := l.clock.advance ms }) hrest
    | clear => exact absurd List.mem_cons_self hclear

/-- The number of the version of a key that a node sees now. -/
def seen? (l : LiveCluster) (node key : String) : Option Nat :=
  (l.cluster.store.history key).seen? node l.clock.now

theorem seen?_run (hclear : .clear ∉ events) (hsteady : l.clock.Steady events) {node key : String}
    {i : Nat} (hi : l.seen? node key = some i) :
    ∃ j, i ≤ j ∧ (l.run events).2.seen? node key = some j := by
  obtain ⟨j, hij, hj⟩ := History.seen?_later (run_now_le hsteady) hi
  obtain ⟨k, hjk, hk⟩ := History.seen?_grown (run_history_suffix hclear key) hj
  exact ⟨k, Nat.le_trans hij hjk, hk⟩

/-- A node sees at once what it has written itself. -/
theorem seen?_written {m : Replication} (hm : l.cluster.model = .replicated m) {r : Request}
    {concern : WriteConcern} {node : Node} {key : String} (hc : r.concern? = some concern)
    (hkey : r.key = some key) (hnode : l.cluster.resolve r = .ok node)
    (h : (l.request r).1.body.isException = false) :
    (l.request r).2.seen? node.name key = some (l.cluster.store.versionCount key) := by
  obtain ⟨server, k, v, _, hserver, hw, hstore, _⟩ := Cluster.serve_accepted_write hc h
  obtain rfl : server = node := Except.ok.inj (hserver.symm.trans hnode)
  obtain rfl : k = key := Option.some.inj (hw.ofKey.symm.trans hkey)
  have hallowed := hw.allowed
  rw [hm] at hallowed
  obtain ⟨_, _, hspread⟩ := Replication.visibility_eq_ok_iff.mp hallowed
  have hvisible : v.isVisibleTo server.name l.clock.now = true := by
    refine hw.isVisibleTo ?_
    rw [hspread, Replication.get?_spread (Cluster.mem_of_resolve hserver), Links.delay_self]
  have hhistory : (l.request r).2.cluster.store.history k = v :: l.cluster.store.history k := by
    change (l.cluster.serve l.clock.now r).2.store.history k = _
    rw [hstore, Store.history_prepend, if_pos rfl]
  rw [seen?, hhistory]
  exact if_pos hvisible

/-- From any state that a run reaches, while the clock does not go back and nothing is cleared: if a
node sees some version of a key, it sees this or a later one ever after; and it sees ever after what
a write has stored there, or what was stored later. -/
theorem session_of_one_node (clock : Clock) (nodes : List Node) (p : LagProfile)
    (events later : List ClusterEvent) (hclear : .clear ∉ later)
    (hsteady : ((replicated clock nodes p).run events).2.clock.Steady later) :
    let l := ((replicated clock nodes p).run events).2
    (∀ node key, l.cluster.store.visible node key l.clock.now =
      (l.seen? node key).bind ((l.cluster.store.history key).reverse[·]?)) ∧
    (∀ node key i, l.seen? node key = some i →
      ∃ j, i ≤ j ∧ (l.run later).2.seen? node key = some j) ∧
    ∀ (r : Request) concern key node, r.concern? = some concern → r.key = some key →
      l.cluster.resolve r = .ok node → (l.request r).1.body.isException = false →
      ∃ j, l.cluster.store.versionCount key ≤ j ∧
        ((l.request r).2.run later).2.seen? node.name key = some j := by
  intro l
  have hm : l.cluster.model = .replicated (.ofProfile p clock.now) := run_model _ events
  refine ⟨fun node key => History.visible_eq_getElem? _ node _, ?_, ?_⟩
  · intro node key i hi
    exact seen?_run hclear hsteady hi
  · intro r concern key node hc hkey hnode h
    exact seen?_run (l := (l.request r).2) hclear hsteady (seen?_written hm hc hkey hnode h)

/-- The secondary has read version 0; the primary updates the record, and then both read on. -/
theorem session_of_two_nodes :
    let nodes : List Node := [{ name := "n1", isPrimary := true }, { name := "n2" }]
    let values : Columns := .ofList [("v", .nat 1)]
    let l := ((replicated ⟨0⟩ nodes { defaultDelay := 10 }).run
      [.request (.insert "t" "k" values), .advance 12]).2
    let update := Request.update "t" "k" values
    let later : List ClusterEvent := [.advance 5, .request ((Request.delete "t" "k").via "n2")]
    (l.seen? "n2" "k" = some 0 ∧ ∃ j, 0 ≤ j ∧ (l.run later).2.seen? "n2" "k" = some j) ∧
      ∃ j, 1 ≤ j ∧ ((l.request update).2.run later).2.seen? "n1" "k" = some j := by
  intro nodes values l update later
  have hsteady : l.clock.Steady later := ⟨by decide, trivial⟩
  have hseen : l.seen? "n2" "k" = some 0 := by decide
  have haccepted : (l.request update).1.body.isException = false := by decide
  obtain ⟨_, hreads, hwrites⟩ := session_of_one_node ⟨0⟩ nodes { defaultDelay := 10 }
    [.request (.insert "t" "k" values), .advance 12] later (by simp [later]) hsteady
  refine ⟨⟨hseen, hreads "n2" "k" 0 hseen⟩, ?_⟩
  exact hwrites update {} "k" { name := "n1", isPrimary := true } rfl rfl rfl haccepted

end LiveCluster

end ReplicaLag
