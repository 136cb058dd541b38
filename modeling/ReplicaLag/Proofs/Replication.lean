import ReplicaLag.Proofs.Serving

/-!
What replicas do with a write: which node takes it (`visibility_eq_ok_iff`), when each node sees it
(`get?_spread`, under either model of lag), and whether its concern can be met at all. Enough nodes
have to be there for that, counted from the node that receives the write; without a timeout a
concern that can never be met is the only one to fail (`replicationDelay_eq_error_iff`), and the
only reason to refuse a wait (`settle_eq_error_iff`).
-/

namespace ReplicaLag

namespace LagModel

/-- The time that a write takes from the node that receives it to another. -/
def delay (m : LagModel) (receiver node : String) : Millis :=
  match m with
  | constant c => if node = receiver then c.own else c.others
  | replicated r => r.links.delay receiver node

/-- A write comes to the nodes of the cluster and to no others. -/
theorem get?_spread (m : LagModel) (receiver : Node) (nodes : List Node) (name : String) :
    (m.spread receiver nodes).get? name =
      if name ∈ nodes.map (·.name) then some (m.delay receiver.name name) else none := by
  have hs : m.spread receiver nodes =
      .ofList ((nodes.map (·.name)).map fun k => (k, m.delay receiver.name k)) := by
    rw [List.map_map]
    cases m <;> rfl
  rw [hs, SortedMap.get?_ofList_map]

end LagModel

theorem mergeSort_ordered (delays : List Millis) :
    (delays.mergeSort (· ≤ ·)).Pairwise fun a b => a ≤ b := by
  have hsorted : (delays.mergeSort (· ≤ ·)).Pairwise fun a b => decide (a ≤ b) = true := by
    refine List.pairwise_mergeSort (fun a b c hab hbc => ?_) (fun a b => ?_) delays
    · exact decide_eq_true (UInt64.le_trans (of_decide_eq_true hab) (of_decide_eq_true hbc))
    · simpa using UInt64.le_total a b
  exact hsorted.imp of_decide_eq_true

theorem kthFastest_isSome_iff {delays : List Millis} {k : Nat} :
    (kthFastest delays k).isSome ↔ k ≤ delays.length := by
  unfold kthFastest
  split
  next h => simp [h]
  next h =>
    simp only [isSome_getElem?, List.length_mergeSort]
    omega

/-- What becomes of a client whose concern is first met at some moment, or never: it waits until
then, but no longer than its timeout; and if there is nothing to wait for it is refused. -/
def WriteConcern.waitUntil (concern : WriteConcern) (nodes : Nat) :
    Option Millis → Except Refusal Millis
  | some d => .ok (if 0 < concern.timeout then min d concern.timeout else d)
  | none => if 0 < concern.timeout then .ok concern.timeout else .error (.unsatisfiable nodes)

namespace WriteConcern

variable {concern : WriteConcern} {n : Nat} {first : Option Millis}

theorem waitUntil_eq_error_iff {e : Refusal} :
    concern.waitUntil n first = .error e ↔
      ¬ first.isSome ∧ concern.timeout = 0 ∧ e = .unsatisfiable n := by
  have hz : ¬ 0 < concern.timeout ↔ concern.timeout = 0 := by simp
  cases first with
  | none => by_cases h : 0 < concern.timeout <;> simp [waitUntil, h, ← hz, eq_comm]
  | some d => simp [waitUntil]

theorem waitUntil_eq_ok_iff {d : Millis} (ht : concern.timeout = 0) :
    concern.waitUntil n first = .ok d ↔ first = some d := by
  cases first <;> simp [waitUntil, ht]

end WriteConcern

namespace Replication

/-- The number of nodes that pass a test; the receiver counts as one of them whether it is listed or
not, and no other node of its name counts. -/
def holders (receiver : Node) (nodes : List Node) (p : Node → Bool) : Nat :=
  (if p receiver then 1 else 0) + (nodes.filter fun n => n.name ≠ receiver.name && p n).length

/-- There are enough nodes for what a concern asks. A single node needs no acknowledgement but by
tag. -/
def CanMeet (m : Replication) (receiver : Node) (concern : WriteConcern)
    (nodes : List Node) : Prop :=
  match concern.tagSet with
  | none => nodes.length ≤ 1 ∨ concern.acks.toNat ≤ holders receiver nodes fun _ => true
  | some name => ∃ tags, m.tagSets.get? name = some tags ∧
      ∀ e ∈ tags.entries, e.2.toNat ≤ holders receiver nodes (·.hasTag e.1)

theorem length_roundTrips (m : Replication) (receiver : Node) (nodes : List Node)
    (p : Node → Bool) :
    (m.roundTrips receiver nodes p).length =
      (nodes.filter fun n => n.name ≠ receiver.name && p n).length := by
  simp [roundTrips]

theorem untaggedDelay_isSome_iff (m : Replication) (acks : UInt32) (receiver : Node)
    (nodes : List Node) : (m.untaggedDelay acks receiver nodes).isSome ↔
      nodes.length ≤ 1 ∨ acks.toNat ≤ holders receiver nodes fun _ => true := by
  unfold untaggedDelay
  split
  next h =>
    have : acks ≤ 1 → acks.toNat ≤ 1 := UInt32.le_iff_toNat_le.mp
    simp only [Option.isSome_some, holders, if_true, true_iff]
    exact h.imp_right fun h => Nat.le_add_right_of_le (this h)
  next h =>
    rw [kthFastest_isSome_iff, length_roundTrips]
    simp only [holders, if_true]
    omega

theorem taggedDelay_isSome_iff (m : Replication) (receiver : Node) (nodes : List Node)
    (tags : List (String × UInt32)) : (m.taggedDelay receiver nodes tags).isSome ↔
      ∀ e ∈ tags, e.2.toNat ≤ holders receiver nodes (·.hasTag e.1) := by
  induction tags with
  | nil => simp [taggedDelay]
  | cons e r ih =>
    obtain ⟨tag, count⟩ := e
    have hk : (kthFastest (m.roundTrips receiver nodes (·.hasTag tag))
        (if receiver.hasTag tag then count.toNat - 1 else count.toNat)).isSome ↔
        count.toNat ≤ holders receiver nodes (·.hasTag tag) := by
      rw [kthFastest_isSome_iff, length_roundTrips, holders]
      split <;> omega
    rw [List.forall_mem_cons, ← ih, ← hk, taggedDelay]
    cases kthFastest (m.roundTrips receiver nodes (·.hasTag tag))
      (if receiver.hasTag tag then count.toNat - 1 else count.toNat) <;>
      cases m.taggedDelay receiver nodes r <;> simp

section

variable {m : Replication} {receiver : Node} {nodes : List Node} {concern : WriteConcern}

theorem replicationDelay_of_untagged (hnone : concern.tagSet = none) :
    m.replicationDelay receiver concern nodes =
      concern.waitUntil nodes.length (m.untaggedDelay concern.acks receiver nodes) := by
  simp only [replicationDelay, hnone]
  cases m.untaggedDelay concern.acks receiver nodes <;> rfl

theorem replicationDelay_of_tagged {name : String} {tags : SortedMap UInt32}
    (hname : concern.tagSet = some name) (htags : m.tagSets.get? name = some tags) :
    m.replicationDelay receiver concern nodes =
      concern.waitUntil nodes.length (m.taggedDelay receiver nodes tags.entries) := by
  simp only [replicationDelay, hname, tagSet, htags, Except.map]
  cases hd : m.taggedDelay receiver nodes tags.entries <;> simp only [bind, Except.bind] <;> rfl

theorem replicationDelay_of_unknown {name : String} (hname : concern.tagSet = some name)
    (hunknown : m.tagSets.get? name = none) :
    m.replicationDelay receiver concern nodes = .error (.unknownTagSet name) := by
  simp only [replicationDelay, hname, tagSet, hunknown]
  rfl

/-- Only a concern that can never be met, and has no timeout, makes the delay fail. -/
theorem replicationDelay_eq_error_iff {e : Refusal}
    (known : ∀ name, concern.tagSet = some name → ∃ tags, m.tagSets.get? name = some tags) :
    m.replicationDelay receiver concern nodes = .error e ↔
      ¬ m.CanMeet receiver concern nodes ∧ concern.timeout = 0 ∧
        e = .unsatisfiable nodes.length := by
  cases ht : concern.tagSet with
  | none =>
    simp only [replicationDelay_of_untagged ht, WriteConcern.waitUntil_eq_error_iff,
      untaggedDelay_isSome_iff, CanMeet, ht]
  | some name =>
    obtain ⟨tags, htags⟩ := known name ht
    simp only [replicationDelay_of_tagged ht htags, WriteConcern.waitUntil_eq_error_iff,
      taggedDelay_isSome_iff, CanMeet, ht, htags, Option.some.injEq, exists_eq_left']

end

variable {m : Replication} {now : Millis} {a : Response} {r : Request} {receiver : Node}
  {nodes : List Node}

/-- A node takes a write unless it is a read-only secondary or the concern's tag set is unknown. -/
theorem visibility_eq_ok_iff {d : Visibility} :
    m.visibility r receiver nodes = .ok d ↔
      (m.readOnlySecondaries = true → receiver.isPrimary = true) ∧
        (∀ name, r.concern?.bind (·.tagSet) = some name → ∃ tags, m.tagSets.get? name = some tags) ∧
        d = m.spread receiver nodes := by
  rw [eq_comm (a := d)]
  by_cases hro : m.readOnlySecondaries = true ∧ ¬ receiver.isPrimary = true
  · simp [visibility, hro, bind, Except.bind, throw, throwThe, MonadExceptOf.throw]
  · have hp : m.readOnlySecondaries = true → receiver.isPrimary = true := by simpa using hro
    rw [and_iff_right hp]
    simp only [visibility, if_neg hro]
    cases r.concern?.bind (·.tagSet) with
    | none => simp [pure, Except.pure]
    | some name =>
      cases hg : m.tagSets.get? name <;>
        simp [hg, tagSet, bind, Except.bind, pure, Except.pure]

/-- Once a node has taken a write, its tag set is known. -/
theorem replicationDelay_eq_error_iff_of_visibility {d : Visibility} {concern : WriteConcern}
    {e : Refusal} (hd : m.visibility r receiver nodes = .ok d) (hc : r.concern? = some concern) :
    m.replicationDelay receiver concern nodes = .error e ↔
      ¬ m.CanMeet receiver concern nodes ∧ concern.timeout = 0 ∧
        e = .unsatisfiable nodes.length := by
  obtain ⟨_, known, _⟩ := visibility_eq_ok_iff.mp hd
  rw [hc] at known
  exact replicationDelay_eq_error_iff known

theorem get?_spread {n : Node} (h : n ∈ nodes) :
    (m.spread receiver nodes).get? n.name = some (m.links.delay receiver.name n.name) := by
  rw [show m.spread receiver nodes = (LagModel.replicated m).spread receiver nodes from rfl,
    LagModel.get?_spread, if_pos (List.mem_map_of_mem h)]
  rfl

/-- An answer that is no exception loses its wait only to a write concern that fails. -/
theorem settle_eq_error_iff {e : Refusal} (ha : a.body.isException = false) :
    m.settle now a r receiver nodes = .error e ↔
      ∃ concern, r.concern? = some concern ∧
        m.replicationDelay receiver concern nodes = .error e := by
  simp only [settle, ha, Bool.false_eq_true, if_false]
  cases r.concern? with
  | none => simp
  | some concern =>
    simp only [writeDelay, Option.some.injEq, exists_eq_left']
    cases m.replicationDelay receiver concern nodes <;>
      simp [bind, Except.bind, pure, Except.pure, Except.map]

/-- The client of a write that was taken is told how long to wait, if the concern can be met or is
given up after a while. -/
theorem settles_of_canMeet {concern : WriteConcern} {d : Visibility}
    (ha : a.body.isException = false) (hd : m.visibility r receiver nodes = .ok d)
    (hc : r.concern? = some concern)
    (hwait : m.CanMeet receiver concern nodes ∨ 0 < concern.timeout) (now : Millis) :
    ∃ b, m.settle now a r receiver nodes = .ok b := by
  cases hs : m.settle now a r receiver nodes with
  | ok b => exact ⟨b, rfl⟩
  | error e =>
    obtain ⟨k, hk, he⟩ := (settle_eq_error_iff ha).mp hs
    obtain rfl : concern = k := Option.some.inj (hc.symm.trans hk)
    obtain ⟨hnot, ht, _⟩ := (replicationDelay_eq_error_iff_of_visibility hd hc).mp he
    rcases hwait with hmeet | htimeout
    · exact absurd hmeet hnot
    · rw [ht] at htimeout
      exact absurd htimeout (by decide)

/-- The client of a write waits for the way to the node and then for the later of acknowledgements
and journal. -/
theorem settle_write_wait {concern : WriteConcern} {b : Response} (ha : a.body.isException = false)
    (hc : r.concern? = some concern) (h : m.settle now a r receiver nodes = .ok b) :
    ∃ d, m.replicationDelay receiver concern nodes = .ok d ∧
      b.wait = (m.links.clientDelay r.client receiver.name).plus
        (max d (m.journalDelay now concern)) := by
  simp only [settle, ha, hc, writeDelay] at h
  cases hd : m.replicationDelay receiver concern nodes with
  | error e => rw [hd] at h; cases h
  | ok d => rw [hd] at h; cases h; exact ⟨d, rfl, rfl⟩

end Replication

/-- A write that is taken is seen as the model says, whatever its request. -/
theorem LagModel.eq_spread {m : LagModel} {r : Request} {node : Node} {nodes : List Node}
    {d : Visibility} (h : m.visibility r node nodes = .ok d) : d = m.spread node nodes := by
  cases m with
  | constant c => exact (Except.ok.inj h).symm
  | replicated m => exact (Replication.visibility_eq_ok_iff.mp h).2.2

end ReplicaLag
