import ReplicaLag.Proofs.Acknowledgement

/-!
When a write concern is met. The receiver of a write has it at once and every other node
acknowledges it after a round trip; the concern is met as soon as so many nodes have acknowledged,
in all or of each tag, as it asks for; there are enough nodes for it just if that comes at all
(`canMeet_iff_met`). Main statement: a client waits for the first moment at which its concern is
met, or for its timeout if that comes first; it is refused if neither ever comes.
-/

namespace ReplicaLag

/-- The first moment at which something holds, none if it never does. -/
def IsFirst (P : Millis → Prop) : Option Millis → Prop
  | some d => P d ∧ ∀ t, P t → d ≤ t
  | none => ∀ t, ¬ P t

/-- What once holds, holds from then on. -/
def Lasts (P : Millis → Prop) : Prop := ∀ t u, t ≤ u → P t → P u

section IsFirst

variable {P Q : Millis → Prop} {a b : Option Millis}

theorem IsFirst.unique (ha : IsFirst P a) (hb : IsFirst P b) : a = b := by
  cases a with
  | none =>
    cases b with
    | none => rfl
    | some e => exact absurd hb.1 (ha e)
  | some d =>
    cases b with
    | none => exact absurd ha.1 (hb d)
    | some e => exact congrArg some (UInt64.le_antisymm (ha.2 e hb.1) (hb.2 d ha.1))

theorem IsFirst.of_iff (h : ∀ t, P t ↔ Q t) (hp : IsFirst P a) : IsFirst Q a :=
  (funext fun t => propext (h t) : P = Q) ▸ hp

theorem IsFirst.isSome_iff (h : IsFirst P a) : a.isSome ↔ ∃ t, P t := by
  cases a with
  | none => exact iff_of_false Bool.false_ne_true fun ⟨t, ht⟩ => h t ht
  | some d => exact iff_of_true rfl ⟨d, h.1⟩

theorem isFirst_zero (h : P 0) : IsFirst P (some 0) := ⟨h, fun _ _ => UInt64.zero_le⟩

/-- Two things that last come to hold together when the later of them does. -/
theorem IsFirst.and (hp : Lasts P) (hq : Lasts Q) (ha : IsFirst P a) (hb : IsFirst Q b) :
    IsFirst (fun t => P t ∧ Q t) (do return max (← a) (← b)) := by
  cases a with
  | none => exact fun t h => ha t h.1
  | some d =>
    cases b with
    | none => exact fun t h => hb t h.2
    | some e =>
      refine ⟨⟨hp d _ (Millis.le_max_left d e) ha.1, hq e _ (Millis.le_max_right d e) hb.1⟩, ?_⟩
      exact fun t h => Millis.max_le_iff.mpr ⟨ha.2 t h.1, hb.2 t h.2⟩

end IsFirst

/-- From the `k`-th smallest delay on, and not before, `k` of the delays are over. -/
theorem isFirst_kthFastest (delays : List Millis) (k : Nat) :
    IsFirst (fun t => k ≤ delays.countP (· ≤ t)) (kthFastest delays k) := by
  cases hd : kthFastest delays k with
  | none =>
    have hmany : ¬ k ≤ delays.length := by
      rw [← kthFastest_isSome_iff, hd]
      exact Bool.false_ne_true
    exact fun t h => hmany (Nat.le_trans h List.countP_le_length)
  | some d =>
    refine ⟨le_countP_of_kthFastest hd, fun t ht => ?_⟩
    unfold kthFastest at hd
    split at hd
    next => cases hd; exact UInt64.zero_le
    next hk =>
      obtain ⟨hlt, hd⟩ := List.getElem?_eq_some_iff.mp hd
      by_contra hlate
      -- in the sorted list all delays from the `k`-th on are longer than `t`
      have hrest : ((delays.mergeSort (· ≤ ·)).drop (k - 1)).countP (· ≤ t) = 0 := by
        refine List.countP_eq_zero.mpr fun x hx hxt => hlate ?_
        obtain ⟨i, hi, rfl⟩ := List.mem_drop_iff_getElem.mp hx
        refine UInt64.le_trans ?_ (of_decide_eq_true hxt)
        rcases Nat.eq_zero_or_pos i with rfl | hpos
        · exact hd ▸ UInt64.le_refl _
        · rw [← hd]
          exact List.pairwise_iff_getElem.mp (mergeSort_ordered delays) _ _ _ _ (by omega)
      have hsplit : delays.countP (· ≤ t) =
          ((delays.mergeSort (· ≤ ·)).take (k - 1)).countP (· ≤ t) +
            ((delays.mergeSort (· ≤ ·)).drop (k - 1)).countP (· ≤ t) := by
        rw [← List.countP_append, List.take_append_drop, (List.mergeSort_perm ..).countP_eq]
      have hfirst : ((delays.mergeSort (· ≤ ·)).take (k - 1)).countP (· ≤ t) ≤ k - 1 :=
        Nat.le_trans List.countP_le_length (List.length_take_le _ _)
      omega

namespace Replication

variable {m : Replication} {receiver : Node} {nodes : List Node} {concern : WriteConcern}

/-- How long after a write `node` has acknowledged it; the receiver has at once. -/
def acknowledgesAfter (m : Replication) (receiver node : Node) : Millis :=
  if node.name = receiver.name then 0 else m.links.roundTrip receiver.name node.name

/-- The nodes that have acknowledged a write when so much time has passed. -/
def acknowledged (m : Replication) (receiver : Node) (nodes : List Node) (t : Millis) : List Node :=
  nodes.filter fun n => m.acknowledgesAfter receiver n ≤ t

/-- As many nodes as a concern asks for have acknowledged when so much time has passed: at least one
for a concern without a tag set, and for each tag of a tag set as many that carry it. -/
def MetBy (m : Replication) (receiver : Node) (nodes : List Node) (concern : WriteConcern)
    (t : Millis) : Prop :=
  match concern.tagSet with
  | none => max concern.acks.toNat 1 ≤ (m.acknowledged receiver nodes t).length
  | some name => ∃ tags, m.tagSets.get? name = some tags ∧
      ∀ tag count, tags.get? tag = some count →
        count.toNat ≤ ((m.acknowledged receiver nodes t).filter (·.hasTag tag)).length

/-- Who has acknowledged has done so for good. -/
theorem enough_lasts (p : Node → Bool) (k : Nat) :
    Lasts fun t => k ≤ ((m.acknowledged receiver nodes t).filter p).length := by
  intro t u htu h
  have hmono : (m.acknowledged receiver nodes t).Sublist (m.acknowledged receiver nodes u) := by
    refine List.monotone_filter_right nodes fun n hn => ?_
    exact decide_eq_true (UInt64.le_trans (of_decide_eq_true hn) htu)
  exact Nat.le_trans h (hmono.filter p).length_le

/-- Those who have acknowledged are the receiver and the nodes whose round trip is over. -/
theorem length_acknowledged (hnames : (nodes.map (·.name)).Nodup) (hr : receiver ∈ nodes)
    (p : Node → Bool) (t : Millis) :
    ((m.acknowledged receiver nodes t).filter p).length =
      (if p receiver then 1 else 0) + (m.roundTrips receiver nodes p).countP (· ≤ t) := by
  obtain ⟨u, v, rfl⟩ := List.append_of_mem hr
  have hothers : ∀ n ∈ u ++ v, n.name ≠ receiver.name := by
    rw [List.map_append, List.map_cons, List.nodup_middle, ← List.map_append] at hnames
    exact fun n hn he => (List.nodup_cons.mp hnames).1 (he ▸ List.mem_map_of_mem hn)
  have hself : m.acknowledgesAfter receiver receiver ≤ t := by
    rw [acknowledgesAfter, if_pos rfl]
    exact UInt64.zero_le
  have hagree : (u ++ v).countP (fun n => p n && decide (m.acknowledgesAfter receiver n ≤ t)) =
      (u ++ v).countP fun n => decide (m.links.roundTrip receiver.name n.name ≤ t) &&
        (decide (n.name ≠ receiver.name) && p n) := by
    refine List.countP_congr fun n hn => ?_
    simp [acknowledgesAfter, hothers n hn, and_comm]
  rw [acknowledged, List.filter_filter, ← List.countP_eq_length_filter, roundTrips,
    List.countP_map, List.countP_filter, List.perm_middle.countP_eq, List.perm_middle.countP_eq,
    List.countP_cons, List.countP_cons, hagree]
  simp [hself, Nat.add_comm]

/-- The delay after which so many nodes that pass a test have acknowledged; the receiver may be one
of them. -/
theorem isFirst_acknowledged (hnames : (nodes.map (·.name)).Nodup) (hr : receiver ∈ nodes)
    (p : Node → Bool) (k : Nat) :
    IsFirst (fun t => k ≤ ((m.acknowledged receiver nodes t).filter p).length)
      (kthFastest (m.roundTrips receiver nodes p) (if p receiver then k - 1 else k)) := by
  refine (isFirst_kthFastest _ _).of_iff fun t => ?_
  rw [length_acknowledged hnames hr]
  split <;> omega

theorem isFirst_untagged (hnames : (nodes.map (·.name)).Nodup) (hr : receiver ∈ nodes)
    (hmany : 2 ≤ nodes.length) (acks : UInt32) :
    IsFirst (fun t => max acks.toNat 1 ≤ (m.acknowledged receiver nodes t).length)
      (m.untaggedDelay acks receiver nodes) := by
  have hfirst := isFirst_acknowledged (m := m) hnames hr (fun _ => true) (max acks.toNat 1)
  simp only [List.filter_true, if_true] at hfirst
  unfold untaggedDelay
  split
  next hfew =>
    have hone : acks.toNat ≤ 1 := UInt32.le_iff_toNat_le.mp (hfew.resolve_left (by omega))
    rwa [Nat.max_eq_right hone] at hfirst ⊢
  next hfew =>
    have htwo : ¬ acks.toNat ≤ 1 := fun h => hfew (.inr (UInt32.le_iff_toNat_le.mpr h))
    rwa [Nat.max_eq_left (by omega)] at hfirst ⊢

/-- Enough nodes of all tags have acknowledged when enough of the slowest tag have. -/
theorem isFirst_tagged (hnames : (nodes.map (·.name)).Nodup) (hr : receiver ∈ nodes)
    (tags : List (String × UInt32)) :
    IsFirst (fun t => ∀ e ∈ tags,
        e.2.toNat ≤ ((m.acknowledged receiver nodes t).filter (·.hasTag e.1)).length)
      (m.taggedDelay receiver nodes tags) := by
  induction tags with
  | nil => exact isFirst_zero (by simp)
  | cons e rest ih =>
    have hlasts : Lasts fun t => ∀ e ∈ rest,
        e.2.toNat ≤ ((m.acknowledged receiver nodes t).filter (·.hasTag e.1)).length :=
      fun t u htu h d hd => enough_lasts (·.hasTag d.1) d.2.toNat t u htu (h d hd)
    have hown := isFirst_acknowledged (m := m) hnames hr (·.hasTag e.1) e.2.toNat
    refine ((hown.and (enough_lasts _ _) hlasts ih)).of_iff fun t => ?_
    rw [List.forall_mem_cons]

/-! When a concern is first met, without a tag set and with a known one. -/

theorem isFirst_met_untagged (hnames : (nodes.map (·.name)).Nodup) (hr : receiver ∈ nodes)
    (hmany : 2 ≤ nodes.length) (hnone : concern.tagSet = none) :
    IsFirst (m.MetBy receiver nodes concern) (m.untaggedDelay concern.acks receiver nodes) :=
  (isFirst_untagged hnames hr hmany concern.acks).of_iff fun t => by simp only [MetBy, hnone]

theorem isFirst_met_tagged {name : String} {tags : SortedMap UInt32}
    (hnames : (nodes.map (·.name)).Nodup) (hr : receiver ∈ nodes)
    (hname : concern.tagSet = some name) (htags : m.tagSets.get? name = some tags) :
    IsFirst (m.MetBy receiver nodes concern) (m.taggedDelay receiver nodes tags.entries) := by
  refine (isFirst_tagged hnames hr tags.entries).of_iff fun t => ?_
  simp only [MetBy, hname, htags, Option.some.injEq, exists_eq_left', SortedMap.get?_eq_some_iff]
  exact ⟨fun h tag count hmem => h (tag, count) hmem, fun h e hmem => h e.1 e.2 hmem⟩

/-- There are enough nodes for a concern if and only if it is met at some time. -/
theorem canMeet_iff_met (hnames : (nodes.map (·.name)).Nodup) (hr : receiver ∈ nodes)
    (hmany : 2 ≤ nodes.length) :
    m.CanMeet receiver concern nodes ↔ ∃ t, m.MetBy receiver nodes concern t := by
  cases ht : concern.tagSet with
  | none =>
    rw [← (isFirst_met_untagged hnames hr hmany ht).isSome_iff, untaggedDelay_isSome_iff]
    simp only [CanMeet, ht]
  | some name =>
    cases htags : m.tagSets.get? name with
    | none => simp [CanMeet, MetBy, ht, htags]
    | some tags =>
      rw [← (isFirst_met_tagged hnames hr ht htags).isSome_iff, taggedDelay_isSome_iff]
      simp only [CanMeet, ht, htags, Option.some.injEq, exists_eq_left']

/-- The delay of a write in a cluster of nodes of different names, one of which receives it. Where
there are others, and the tag set is known if the concern has one, the client waits until the
concern is first met; an unknown tag set is refused. A node that is alone needs nobody else, so
without a tag set its client does not wait. -/
theorem replicationDelay_first_met (m : Replication) {receiver : Node} {nodes : List Node}
    (hnames : (nodes.map (·.name)).Nodup) (hr : receiver ∈ nodes) (concern : WriteConcern) :
    (2 ≤ nodes.length →
      (∀ name, concern.tagSet = some name → m.tagSets.get? name = none →
        m.replicationDelay receiver concern nodes = .error (.unknownTagSet name)) ∧
      ((∀ name, concern.tagSet = some name → ∃ tags, m.tagSets.get? name = some tags) →
        ∃ first, IsFirst (m.MetBy receiver nodes concern) first ∧
          m.replicationDelay receiver concern nodes = concern.waitUntil nodes.length first)) ∧
    (nodes.length = 1 → concern.tagSet = none →
      m.replicationDelay receiver concern nodes = .ok 0) := by
  refine ⟨fun hmany => ⟨fun name hname hunknown => ?_, fun hknown => ?_⟩, fun halone hnone => ?_⟩
  · exact replicationDelay_of_unknown hname hunknown
  · cases ht : concern.tagSet with
    | none => exact ⟨_, isFirst_met_untagged hnames hr hmany ht, replicationDelay_of_untagged ht⟩
    | some name =>
      obtain ⟨tags, htags⟩ := hknown name ht
      exact ⟨_, isFirst_met_tagged hnames hr ht htags, replicationDelay_of_tagged ht htags⟩
  · have hzero : m.untaggedDelay concern.acks receiver nodes = some 0 := by
      rw [untaggedDelay, if_pos (.inl (Nat.le_of_eq halone))]
    rw [replicationDelay_of_untagged hnone, hzero]
    simp [WriteConcern.waitUntil, min]

/-- Two nodes of each of two tags: the receiver is one of the first tag, but both of the second have
to acknowledge, and the farther of them does so after a minute. -/
theorem both_tags_met_after_a_minute :
    let receiver : Node := { name := "n1", tags := .ofNames ["a"], isPrimary := true }
    let near : Node := { name := "n2", tags := .ofNames ["a", "b"] }
    let far : Node := { name := "n3", tags := .ofNames ["b"] }
    let tags : SortedMap UInt32 := .ofList [("a", 2), ("b", 2)]
    let m : Replication := .ofProfile {
      defaultDelay := 30000, links := [⟨"n1", "n2", 10⟩, ⟨"n2", "n1", 5⟩]
      tagSets := .ofList [("both", tags)] } 0
    let nodes := [receiver, near, far]
    (nodes.map (·.name)).Nodup ∧ receiver ∈ nodes ∧
      IsFirst (m.MetBy receiver nodes (.tagged "both")) (some 60000) ∧
      m.replicationDelay receiver (.tagged "both") nodes = .ok 60000 := by
  intro receiver near far tags m nodes
  have hnames : (nodes.map (·.name)).Nodup := by decide
  have hr : receiver ∈ nodes := List.mem_cons_self
  have hfirst : IsFirst (m.MetBy receiver nodes (.tagged "both")) (some 60000) := by
    refine ⟨⟨tags, rfl, fun tag count h => ?_⟩, ?_⟩
    · have hmem : (tag, count) ∈ [("a", (2 : UInt32)), ("b", 2)] :=
        SortedMap.get?_eq_some_iff.mp h
      rcases List.mem_pair.mp hmem with h | h <;> cases h <;> decide
    · rintro t ⟨_, htags, hmet⟩
      cases htags
      have htwo := hmet "b" 2 rfl
      have hown : receiver.hasTag "b" = false := by decide
      have htrips : m.roundTrips receiver nodes (·.hasTag "b") = [15, 60000] := by decide
      rw [length_acknowledged hnames hr, hown, htrips, if_neg Bool.false_ne_true,
        Nat.zero_add] at htwo
      have hall : [15, 60000].countP (fun d : Millis => d ≤ t) = [(15 : Millis), 60000].length :=
        Nat.le_antisymm List.countP_le_length htwo
      exact of_decide_eq_true (List.countP_eq_length.mp hall 60000 (by simp))
  have hknown : ∀ name, (WriteConcern.tagged "both").tagSet = some name →
      ∃ tags, m.tagSets.get? name = some tags := by
    rintro _ ⟨⟩
    exact ⟨tags, rfl⟩
  obtain ⟨first, hmet, hdelay⟩ :=
    ((replicationDelay_first_met m hnames hr (.tagged "both")).1 (by decide)).2 hknown
  rw [hmet.unique hfirst] at hdelay
  exact ⟨hnames, hr, hfirst, hdelay⟩

end Replication

end ReplicaLag
