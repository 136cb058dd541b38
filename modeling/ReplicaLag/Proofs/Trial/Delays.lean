import ReplicaLag.Proofs.LinkDelays
import ReplicaLag.Proofs.NodeChoice
import ReplicaLag.Proofs.Replication
import ReplicaLag.Proofs.Trial.Draws

/-!
The two sides of a trial agree on delays. The cluster looks them up in a table of what was set last,
the reference side in the list of what was drawn; no pair is drawn twice, so both find the same
(`delay_eq`). The round trips are then the same too, as none of them runs over, and with them the
wait for so many acknowledgements (`untaggedDelay_eq`).
-/

namespace ReplicaLag

namespace Trial

variable {σ : Type} {c : TrialConfig} {t : Trial σ} {receiver : Node} {nodes : List Node}

theorem pairsOf_nodup {names : List String} (h : names.Nodup) : (pairsOf names).Nodup := by
  refine List.nodup_flatMap.mpr ⟨fun a _ => ?_, h.imp fun {a b} hab => ?_⟩
  · exact (h.filter _).map fun x y hxy => (Prod.mk.inj hxy).2
  · intro p hp hq
    obtain ⟨_, _, rfl⟩ := List.mem_map.mp hp
    obtain ⟨_, _, he⟩ := List.mem_map.mp hq
    exact hab (Prod.mk.inj he).1.symm

theorem drawLinks_sublist [RandomSource σ] (c : TrialConfig) (pairs : List (String × String))
    (r : Random σ) :
    ((drawLinks c pairs r).1.map fun l => (l.source, l.target)).Sublist pairs := by
  induction pairs generalizing r with
  | nil => exact .slnil
  | cons p rest ih =>
    simp only [drawLinks]
    split
    · exact (ih _).cons_cons p
    · exact (ih _).cons p

section Draws

variable [RandomSource σ] [LawfulRandomSource σ]

theorem range_le (hdelay : 2 * c.maxDelay.toNat < UInt64.size) (r : Random σ) :
    (r.range 0 (c.maxDelay + 1)).1 ≤ c.maxDelay := by
  have hlast : (c.maxDelay + 1).toNat = c.maxDelay.toNat + 1 := by
    rw [UInt64.size] at hdelay
    exact toNat_succ (by rw [UInt64.size]; omega)
  have hrange : 0 < c.maxDelay + 1 := by
    rw [UInt64.lt_iff_toNat_lt, hlast]
    exact Nat.succ_pos _
  have hlt := UInt64.lt_iff_toNat_lt.mp (Random.range_bounds r hrange).2
  rw [hlast] at hlt
  exact UInt64.le_iff_toNat_le.mpr (Nat.le_of_lt_succ hlt)

theorem drawLinks_le (hdelay : 2 * c.maxDelay.toNat < UInt64.size)
    (pairs : List (String × String)) (r : Random σ) :
    ∀ l ∈ (drawLinks c pairs r).1, l.delay ≤ c.maxDelay := by
  induction pairs generalizing r with
  | nil => intro l hl; cases hl
  | cons p rest ih =>
    simp only [drawLinks]
    split
    · intro l hl
      rcases List.mem_cons.mp hl with rfl | hl
      · exact range_le hdelay _
      · exact ih _ l hl
    · exact ih _

end Draws

/-- What holds of the delays of a trial once they are drawn. -/
structure Delays (t : Trial σ) : Prop where
  unique : (t.links.map fun l => (l.source, l.target)).Nodup
  links_le : ∀ l ∈ t.links, l.delay ≤ t.config.maxDelay
  default_le : t.defaultDelay ≤ t.config.maxDelay

theorem newFrom_delays [RandomSource σ] [LawfulRandomSource σ]
    (hdelay : 2 * c.maxDelay.toNat < UInt64.size) (random : Random σ) :
    Delays (newFrom c random) := by
  refine ⟨?_, ?_, ?_⟩
  · exact (pairsOf_nodup (TrialConfig.nodeNames_nodup c)).sublist (drawLinks_sublist ..)
  · exact drawLinks_le hdelay _ _
  · exact range_le hdelay _

/-- The lag profile that a trial gives to its cluster. -/
def profile (t : Trial σ) : LagProfile := { defaultDelay := t.defaultDelay, links := t.links }

theorem delay_eq (h : Delays t) (a b : String) :
    t.delay a b = (Links.ofProfile t.profile).delay a b := by
  have hunique : ∀ x ∈ t.links, ∀ y ∈ t.links, decide (x.source = a ∧ x.target = b) = true →
      decide (y.source = a ∧ y.target = b) = true → x = y := by
    intro x hx y hy hpx hpy
    have hpx := of_decide_eq_true hpx
    have hpy := of_decide_eq_true hpy
    refine List.inj_on_of_nodup_map h.unique hx hy (Prod.ext ?_ ?_)
    · exact hpx.1.trans hpy.1.symm
    · exact hpx.2.trans hpy.2.symm
  have hat : (Links.ofProfile t.profile).nodes.at? a b =
      (t.links.find? fun l => l.source = a ∧ l.target = b).map (·.delay) := by
    have hends : (fun l : Link => decide (l.ends = (a, b))) =
        fun l => decide (l.source = a ∧ l.target = b) := by
      funext l
      simp only [Link.ends, Prod.mk.injEq]
    rw [Links.at?_nodes_ofProfile, DelayTable.last?, List.getLast?_filter, hends,
      find?_eq_of_perm (List.reverse_perm t.links).symm hunique]
    rfl
  rw [Trial.delay, Links.delay, hat]
  rfl

theorem delay_le (h : Delays t) (a b : String) : t.delay a b ≤ t.config.maxDelay := by
  rw [Trial.delay]
  split
  · exact UInt64.zero_le
  · cases hf : t.links.find? fun l => l.source = a ∧ l.target = b with
    | none => exact h.default_le
    | some l => exact h.links_le l (List.mem_of_find?_eq_some hf)

theorem roundTrip_eq (h : Delays t) (hdelay : 2 * t.config.maxDelay.toNat < UInt64.size)
    (a b : String) : (Links.ofProfile t.profile).roundTrip a b = t.delay a b + t.delay b a := by
  have hab := UInt64.le_iff_toNat_le.mp (delay_le h a b)
  have hba := UInt64.le_iff_toNat_le.mp (delay_le h b a)
  rw [Links.roundTrip, ← delay_eq h, ← delay_eq h, Millis.plus, if_pos (by omega)]

/-- The delays that the reference side notes are those by which the cluster spreads a write. -/
theorem delaysFrom_eq (h : Delays t) (hnames : nodes.map (·.name) = t.config.nodeNames)
    (now : Millis) :
    t.delaysFrom receiver.name = (Replication.ofProfile t.profile now).spread receiver nodes := by
  rw [delaysFrom, ← hnames, List.map_map, Replication.spread]
  refine congrArg SortedMap.ofList (List.map_congr_left fun n _ => ?_)
  rw [Function.comp_apply, delay_eq h]
  rfl

theorem roundTrips_eq (h : Delays t) (hdelay : 2 * t.config.maxDelay.toNat < UInt64.size)
    (hnames : nodes.map (·.name) = t.config.nodeNames) (now : Millis) :
    (Replication.ofProfile t.profile now).roundTrips receiver nodes (fun _ => true) =
      (t.config.nodeNames.filter (· ≠ receiver.name)).map fun n =>
        t.delay receiver.name n + t.delay n receiver.name := by
  rw [Replication.roundTrips, ← hnames, List.filter_map, List.map_map]
  simp only [Bool.and_true]
  refine List.map_congr_left fun n _ => ?_
  rw [Function.comp_apply, ← roundTrip_eq h hdelay]
  rfl

theorem length_filter_ne {names : List String} (h : names.Nodup) {name : String}
    (hm : name ∈ names) :
    (names.filter (· ≠ name)).length + 1 = names.length := by
  have he : names.filter (· ≠ name) = names.erase name := by
    rw [h.erase_eq_filter]
    refine List.filter_congr fun n _ => ?_
    rw [Bool.eq_iff_iff]
    simp
  rw [he, List.length_erase_of_mem hm, Nat.sub_add_cancel (List.length_pos_of_mem hm)]

/-- Both sides wait for the same round trip; there are enough of them. -/
theorem untaggedDelay_eq (h : Delays t) (hdelay : 2 * t.config.maxDelay.toNat < UInt64.size)
    (hnames : nodes.map (·.name) = t.config.nodeNames) (hm : receiver.name ∈ t.config.nodeNames)
    (now : Millis) {acks : UInt32} (hacks : acks.toNat ≤ t.config.nodeNames.length) :
    (Replication.ofProfile t.profile now).untaggedDelay acks receiver nodes =
      some (t.expectedWait receiver.name acks) := by
  have hlen : nodes.length = t.config.nodeNames.length := by rw [← hnames, List.length_map]
  rw [Replication.untaggedDelay, expectedWait, roundTrips_eq h hdelay hnames, hlen]
  by_cases hone : acks ≤ 1 ∨ t.config.nodeNames.length ≤ 1
  · rw [if_pos hone.symm, if_pos hone]
  · -- the receiver is one of those that acknowledge, so one round trip fewer is awaited
    have htrips := length_filter_ne (TrialConfig.nodeNames_nodup t.config) hm
    have htwo : 1 < acks.toNat := by
      have : ¬ acks.toNat ≤ 1 := fun hle => hone (.inl (UInt32.le_iff_toNat_le.mpr hle))
      omega
    rw [if_neg (fun h => hone h.symm), if_neg hone, kthFastest, if_neg (by omega)]
    have hindex : acks.toNat - 1 - 1 = acks.toNat - 2 := by omega
    rw [hindex, List.getD_eq_getElem?_getD, List.getElem?_eq_getElem]
    · rfl
    · rw [List.length_mergeSort, List.length_map]
      omega

end Trial

end ReplicaLag
