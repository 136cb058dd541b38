import Mathlib.Data.List.Basic
import ReplicaLag.Proofs.Replication

/-!
What an acknowledged write is worth. A node is reached after its one-way delay, and acknowledges
after a round trip; so after a wait for acknowledgements at least as many nodes are reached as have
acknowledged. Main statement: when the client of a write has waited, the write is seen by as many
nodes as its concern asked for, the receiver among them.
-/

namespace ReplicaLag

/-- So many delays are no longer than the `k`-th smallest. -/
theorem le_countP_of_kthFastest {delays : List Millis} {k : Nat} {d : Millis}
    (h : kthFastest delays k = some d) : k ≤ delays.countP (· ≤ d) := by
  unfold kthFastest at h
  split at h
  next hk => rw [hk]; exact Nat.zero_le _
  next hk =>
    obtain ⟨hlt, hd⟩ := List.getElem?_eq_some_iff.mp h
    -- in the sorted list the first `k` are no longer than the last of them
    have hfirst : ∀ x ∈ (delays.mergeSort (· ≤ ·)).take k, decide (x ≤ d) = true := by
      intro x hx
      obtain ⟨i, hi, rfl⟩ := List.mem_take_iff_getElem.mp hx
      refine decide_eq_true ?_
      rcases Nat.lt_or_eq_of_le (show i ≤ k - 1 by omega) with hlast | hlast
      · rw [← hd]
        exact List.pairwise_iff_getElem.mp (mergeSort_ordered delays) i (k - 1) _ hlt hlast
      · simp only [hlast, hd]
        exact UInt64.le_refl d
    calc k = ((delays.mergeSort (· ≤ ·)).take k).length := by rw [List.length_take]; omega
      _ = ((delays.mergeSort (· ≤ ·)).take k).countP (· ≤ d) :=
        (List.countP_eq_length.mpr hfirst).symm
      _ ≤ (delays.mergeSort (· ≤ ·)).countP (· ≤ d) := (List.take_sublist ..).countP_le
      _ = delays.countP (· ≤ d) := (List.mergeSort_perm ..).countP_eq _

namespace Replication

variable {m : Replication} {receiver : Node} {nodes : List Node} {d wait : Millis}

/-- The nodes that a write has come to when so much time has passed since its receiver took it. -/
def reached (m : Replication) (receiver : Node) (nodes : List Node) (wait : Millis) : List Node :=
  nodes.filter fun n => m.links.delay receiver.name n.name ≤ wait

theorem mem_reached_receiver (hr : receiver ∈ nodes) (wait : Millis) :
    receiver ∈ m.reached receiver nodes wait := by
  refine List.mem_filter.mpr ⟨hr, decide_eq_true ?_⟩
  rw [Links.delay_self]
  exact UInt64.zero_le

/-- Whoever has acknowledged is reached; the receiver is reached without an acknowledgement. -/
theorem le_reached_of_kthFastest {p : Node → Bool} {k : Nat} (hr : receiver ∈ nodes)
    (h : kthFastest (m.roundTrips receiver nodes p) k = some d) (hd : d ≤ wait) :
    (if p receiver then 1 else 0) + k ≤ ((m.reached receiver nodes wait).filter p).length := by
  have hothers : k ≤ ((m.reached receiver nodes wait).filter
      fun n => p n && decide (n.name ≠ receiver.name)).length := by
    refine Nat.le_trans (le_countP_of_kthFastest h) ?_
    rw [roundTrips, List.countP_map, List.countP_filter, reached, List.filter_filter,
      ← List.countP_eq_length_filter]
    refine List.countP_mono_left fun n _ hn => ?_
    simp only [Function.comp_apply, Bool.and_eq_true, decide_eq_true_eq] at hn ⊢
    obtain ⟨htrip, hname, hp⟩ := hn
    exact ⟨⟨hp, hname⟩,
      UInt64.le_trans (Links.delay_le_roundTrip ..) (UInt64.le_trans htrip hd)⟩
  have hown : (if p receiver then 1 else 0) ≤ ((m.reached receiver nodes wait).filter
      fun n => p n && !decide (n.name ≠ receiver.name)).length := by
    split
    next hp =>
      refine List.length_pos_of_mem (List.mem_filter.mpr ⟨mem_reached_receiver hr wait, ?_⟩)
      simpa using hp
    next => exact Nat.zero_le _
  have hsplit := List.countP_eq_countP_filter_add ((m.reached receiver nodes wait).filter p)
    (fun _ => true) fun n => decide (n.name ≠ receiver.name)
  simp only [List.countP_true, List.filter_filter] at hsplit
  simp only [Bool.and_comm] at hsplit hothers hown ⊢
  omega

theorem untagged_reached {acks : UInt32} (hr : receiver ∈ nodes)
    (h : m.untaggedDelay acks receiver nodes = some d) (hd : d ≤ wait) :
    min acks.toNat nodes.length ≤ (m.reached receiver nodes wait).length := by
  unfold untaggedDelay at h
  split at h
  next hfew =>
    -- one node is enough, and the receiver has the write
    have hpos := List.length_pos_of_mem (mem_reached_receiver (m := m) hr wait)
    refine Nat.le_trans ?_ hpos
    rcases hfew with hnodes | hacks
    · exact Nat.le_trans (Nat.min_le_right ..) hnodes
    · exact Nat.le_trans (Nat.min_le_left ..) (UInt32.le_iff_toNat_le.mp hacks)
  next =>
    have hcount := le_reached_of_kthFastest hr h hd
    simp only [if_true, List.filter_true] at hcount
    omega

theorem tagged_reached {tags : List (String × UInt32)} (hr : receiver ∈ nodes)
    (h : m.taggedDelay receiver nodes tags = some d) (hd : d ≤ wait) :
    ∀ e ∈ tags, e.2.toNat ≤ ((m.reached receiver nodes wait).filter (·.hasTag e.1)).length := by
  induction tags generalizing d with
  | nil => simp
  | cons e r ih =>
    obtain ⟨tag, count⟩ := e
    simp only [taggedDelay, Option.bind_eq_bind, Option.bind_eq_some_iff, Option.pure_def,
      Option.some.injEq] at h
    obtain ⟨own, hown, others, hothers, rfl⟩ := h
    have hle : own ≤ wait ∧ others ≤ wait := Millis.max_le_iff.mp hd
    refine List.forall_mem_cons.mpr ⟨?_, ih hothers hle.2⟩
    have hcount := le_reached_of_kthFastest hr hown hle.1
    simp only at hcount ⊢
    split at hcount <;> omega

variable {concern : WriteConcern}

theorem replicationDelay_untagged (ht : concern.timeout = 0) (hnone : concern.tagSet = none) :
    m.replicationDelay receiver concern nodes = .ok d ↔
      m.untaggedDelay concern.acks receiver nodes = some d := by
  rw [replicationDelay_of_untagged hnone, WriteConcern.waitUntil_eq_ok_iff ht]

theorem replicationDelay_tagged (ht : concern.timeout = 0) {name : String}
    (hname : concern.tagSet = some name) :
    m.replicationDelay receiver concern nodes = .ok d ↔
      ∃ tags, m.tagSets.get? name = some tags ∧
        m.taggedDelay receiver nodes tags.entries = some d := by
  cases htags : m.tagSets.get? name with
  | none => simp [replicationDelay_of_unknown hname htags]
  | some tags =>
    simp only [replicationDelay_of_tagged hname htags, WriteConcern.waitUntil_eq_ok_iff ht,
      Option.some.injEq, exists_eq_left']

/-- Without a timeout, as many nodes are reached after the delay as the concern asks for. -/
theorem concern_reached (hr : receiver ∈ nodes) (ht : concern.timeout = 0)
    (h : m.replicationDelay receiver concern nodes = .ok d) (hd : d ≤ wait) :
    (concern.tagSet = none →
      min concern.acks.toNat nodes.length ≤ (m.reached receiver nodes wait).length) ∧
    ∀ name, concern.tagSet = some name → ∃ tags, m.tagSets.get? name = some tags ∧
      ∀ e ∈ tags.entries,
        e.2.toNat ≤ ((m.reached receiver nodes wait).filter (·.hasTag e.1)).length := by
  constructor
  · intro hnone
    exact untagged_reached hr ((replicationDelay_untagged ht hnone).mp h) hd
  · intro name hname
    obtain ⟨tags, hget, htagged⟩ := (replicationDelay_tagged ht hname).mp h
    exact ⟨tags, hget, tagged_reached hr htagged hd⟩

/-- The nodes that are reached see the write when the wait is over. -/
theorem reached_sublist_seeing {v : Version} (hv : v.visibility = m.spread receiver nodes)
    (wait : Millis) : (m.reached receiver nodes wait).Sublist
      (nodes.filter fun n => v.isVisibleTo n.name (v.writtenAt.plus wait)) := by
  have hseen : ∀ n ∈ m.reached receiver nodes wait,
      v.isVisibleTo n.name (v.writtenAt.plus wait) = true := by
    intro n hn
    obtain ⟨hmem, hle⟩ := List.mem_filter.mp hn
    refine Version.isVisibleTo_iff.mpr ⟨m.links.delay receiver.name n.name, ?_, ?_⟩
    · rw [hv, get?_spread hmem]
    · exact Millis.plus_le_plus _ (of_decide_eq_true hle)
  rw [← List.filter_eq_self.mpr hseen]
  exact List.filter_sublist.filter _

/-- The wait of an answered write is no shorter than its replication delay. -/
theorem settle_write_eq_ok {a b : Response} {r : Request} {now : Millis}
    (ha : a.body.isException = false) (hc : r.concern? = some concern)
    (h : m.settle now a r receiver nodes = .ok b) :
    ∃ d, m.replicationDelay receiver concern nodes = .ok d ∧ d ≤ b.wait := by
  obtain ⟨d, hd, hwait⟩ := settle_write_wait ha hc h
  refine ⟨d, hd, ?_⟩
  rw [hwait, UInt64.le_iff_toNat_le, Millis.toNat_plus, Millis.toNat_max]
  have hlt := d.toNat_lt
  rw [UInt64.size]
  omega

end Replication

namespace LiveCluster

/-- In every state that a run reaches: a write without a timeout that is answered without an
exception is stored, and after the reported wait it is seen by the node that took it and by as many
nodes as its concern asks for, in all or of each tag. -/
theorem acknowledged_write_is_seen (clock : Clock) (nodes : List Node) (p : LagProfile)
    (events : List ClusterEvent) {r : Request} {concern : WriteConcern}
    (hc : r.concern? = some concern) (ht : concern.timeout = 0)
    (h : (((replicated clock nodes p).run events).2.request r).1.body.isException = false) :
    let l := ((replicated clock nodes p).run events).2
    ∃ receiver key v, l.cluster.resolve r = .ok receiver ∧ r.key = some key ∧
      (l.request r).2.cluster.store = l.cluster.store.prepend key v ∧
      v ∈ (l.request r).2.cluster.store.history key ∧
      let seeing := nodes.filter fun n =>
        v.isVisibleTo n.name (l.clock.now.plus (l.request r).1.wait)
      receiver ∈ seeing ∧
      (concern.tagSet = none → min concern.acks.toNat nodes.length ≤ seeing.length) ∧
      ∀ name, concern.tagSet = some name → ∃ tags, p.tagSets.get? name = some tags ∧
        ∀ tag count, tags.get? tag = some count →
          count.toNat ≤ (seeing.filter (·.hasTag tag)).length := by
  intro l
  have hm : l.cluster.model = .replicated (.ofProfile p clock.now) := run_model _ events
  have hnodes : l.cluster.nodes = nodes := run_nodes _ events
  obtain ⟨receiver, key, v, body, hresolve, hw, hstore, hbody, hsettle⟩ :=
    Cluster.serve_accepted_write hc h
  have hallowed := hw.allowed
  rw [hm, hnodes] at hallowed hsettle
  have hr : receiver ∈ nodes := hnodes ▸ Cluster.mem_of_resolve hresolve
  obtain ⟨d, hdelay, hwait⟩ := Replication.settle_write_eq_ok hbody hc hsettle
  obtain ⟨huntagged, htagged⟩ := Replication.concern_reached hr ht hdelay hwait
  obtain ⟨_, _, hspread⟩ := Replication.visibility_eq_ok_iff.mp hallowed
  have hseeing := Replication.reached_sublist_seeing hspread (l.request r).1.wait
  rw [hw.writtenAt] at hseeing
  refine ⟨receiver, key, v, hresolve, hw.ofKey, hstore, ?_, ?_, fun hnone => ?_,
    fun name hname => ?_⟩
  · rw [show (l.request r).2.cluster.store = _ from hstore, Store.history_prepend, if_pos rfl]
    exact List.mem_cons_self
  · exact hseeing.subset (Replication.mem_reached_receiver hr _)
  · exact Nat.le_trans (huntagged hnone) hseeing.length_le
  · obtain ⟨tags, hget, hcount⟩ := htagged name hname
    refine ⟨tags, hget, fun tag count htag => ?_⟩
    exact Nat.le_trans (hcount _ (SortedMap.get?_eq_some_iff.mp htag))
      (hseeing.filter (·.hasTag tag)).length_le

/-- Two of three nodes, over links of different lengths, with a journal to wait for as well. -/
theorem two_acknowledgements_are_seen :
    let nodes : List Node :=
      [{ name := "n1", isPrimary := true }, { name := "n2" }, { name := "n3" }]
    let p : LagProfile :=
      { defaultDelay := 30, links := [⟨"n1", "n2", 10⟩, ⟨"n2", "n1", 5⟩] }
    let l := ((replicated ⟨1⟩ nodes p).run [.advance 7]).2
    let r := (Request.insert "t" "k" (.ofList [("v", .nat 1)])).withConcern
      { acks := 2, journaling := true }
    (l.request r).1.body.isException = false ∧ ∃ key v,
      (l.request r).2.cluster.store = l.cluster.store.prepend key v ∧
      2 ≤ (nodes.filter fun n =>
        v.isVisibleTo n.name (l.clock.now.plus (l.request r).1.wait)).length := by
  intro nodes p l r
  let receiver : Node := { name := "n1", isPrimary := true }
  let m : Replication := .ofProfile p 1
  have hmeet : m.CanMeet receiver { acks := 2, journaling := true } nodes := .inr (by decide)
  have happly : l.cluster.apply l.clock.now r receiver = .ok (.insert, _) := rfl
  have hbody : (r.answer (l.cluster.lastId + 1) .insert).body.isException = false := rfl
  obtain ⟨b, hb⟩ :=
    Replication.settles_of_canMeet (m := m) (r := r) hbody rfl rfl (.inl hmeet) l.clock.now
  have haccepted : (l.request r).1.body.isException = false :=
    congrArg Body.isException (Cluster.serve_of_settled rfl happly hb).1
  obtain ⟨_, key, v, _, _, hstore, _, _, hcount, _⟩ :=
    acknowledged_write_is_seen ⟨1⟩ nodes p [.advance 7] (r := r) rfl rfl haccepted
  exact ⟨haccepted, key, v, hstore, hcount rfl⟩

end LiveCluster

end ReplicaLag
