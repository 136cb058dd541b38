import Mathlib.Data.List.Nodup
import ReplicaLag.Deployment

/-!
Deployments without a flaw. The checks stop at the first flaw and carry along the names they have
seen; together they say that names are not empty, that none occurs twice in the whole deployment,
and what each cluster must be on its own.
-/

namespace ReplicaLag

/-- A profile fits a cluster if its journal ticks and its links end at nodes of the cluster. -/
theorem LagProfile.flaw?_eq_none_iff {p : LagProfile} {names : List String} :
    p.flaw? names = none ↔ 3 ≤ p.journalInterval ∧
      (∀ l ∈ p.links, l.source ∈ names ∧ l.target ∈ names) ∧
      ∀ l ∈ p.clientLinks, l.node ∈ names := by
  simp [flaw?, Option.or_eq_none_iff, and_assoc, or_imp, forall_and]

namespace ClusterSpec

variable {c : ClusterSpec}

theorem nameFlaw?_eq_none_iff {names seen : List String} :
    nameFlaw? seen names = none ↔
      (∀ n ∈ names, n ≠ "") ∧ names.Nodup ∧ ∀ n ∈ names, n ∉ seen := by
  induction names generalizing seen with
  | nil => simp [nameFlaw?]
  | cons n r ih =>
    have hstep : nameFlaw? seen (n :: r) = none ↔
        n ≠ "" ∧ n ∉ seen ∧ nameFlaw? (n :: seen) r = none := by
      by_cases he : n = ""
      · simp [nameFlaw?, he]
      · by_cases hs : n ∈ seen <;> simp [nameFlaw?, he, hs]
    have hlater : (∀ m ∈ r, m ∉ n :: seen) ↔ n ∉ r ∧ ∀ m ∈ r, m ∉ seen := by
      simp only [List.mem_cons, not_or, imp_and, forall_and]
      exact and_congr_left' ⟨fun h hn => h n hn rfl, fun h m hm hmn => h (hmn ▸ hm)⟩
    rw [hstep, ih, hlater, List.forall_mem_cons, List.forall_mem_cons, List.nodup_cons]
    tauto

theorem flaw?_eq_none_iff :
    c.flaw? = none ↔ c.nodes ≠ [] ∧ (∀ n ∈ c.names, n ≠ "") ∧ c.names.Nodup ∧
      c.nodes.countP (·.isPrimary) ≤ 1 ∧ c.lag.flaw? c.names = none := by
  by_cases h : c.nodes = []
  · simp [flaw?, h]
  · simp [flaw?, h, nameFlaw?_eq_none_iff, and_assoc]

theorem map_name_toNodes (c : ClusterSpec) : c.toNodes.map (·.name) = c.names := by
  simp only [toNodes, names]
  split
  · rw [List.map_map]
    rfl
  · split
    next hnil => simp [hnil]
    next n r hcons => simp [hcons]

theorem length_toNodes (c : ClusterSpec) : c.toNodes.length = c.nodes.length := by
  simpa [names] using congrArg List.length c.map_name_toNodes

/-- A cluster without a flaw has one primary, a flagged one or the first node. -/
theorem countP_isPrimary_toNodes (h : c.flaw? = none) : c.toNodes.countP (·.isPrimary) = 1 := by
  obtain ⟨hne, _, _, hprimaries, _⟩ := flaw?_eq_none_iff.mp h
  simp only [toNodes]
  split
  next hany =>
    obtain ⟨n, hn, hp⟩ := List.any_eq_true.mp hany
    have hpos : 0 < c.nodes.countP (·.isPrimary) := List.countP_pos_iff.mpr ⟨n, hn, hp⟩
    rw [List.countP_map]
    exact Nat.le_antisymm hprimaries hpos
  next hany =>
    split
    next hnil => exact absurd hnil hne
    next n r hcons =>
      have hrest : ∀ m ∈ r, m.isPrimary = false := fun m hm =>
        eq_false_of_ne_true fun hp =>
          hany (List.any_eq_true.mpr ⟨m, hcons ▸ List.mem_cons_of_mem n hm, hp⟩)
      rw [List.countP_cons_of_pos rfl, List.countP_map, List.countP_eq_zero.mpr]
      intro m hm
      simp [hrest m hm]

end ClusterSpec

namespace Deployment

variable {d : Deployment}

/-- All node names, cluster after cluster. -/
def names (d : Deployment) : List String := d.shards.flatMap (·.names)

theorem flawAfter?_eq_none_iff {shards : List ClusterSpec} {seen : List String} :
    flawAfter? seen shards = none ↔ (∀ c ∈ shards, c.flaw? = none) ∧
      (shards.flatMap (·.names)).Nodup ∧ ∀ n ∈ shards.flatMap (·.names), n ∉ seen := by
  induction shards generalizing seen with
  | nil => simp [flawAfter?]
  | cons c r ih =>
    have hstep : flawAfter? seen (c :: r) = none ↔
        c.flaw? = none ∧ (∀ n ∈ c.names, n ∉ seen) ∧ flawAfter? (seen ++ c.names) r = none := by
      simp [flawAfter?]
    have hlater : (∀ n ∈ r.flatMap (·.names), n ∉ seen ++ c.names) ↔
        (∀ n ∈ r.flatMap (·.names), n ∉ seen) ∧ c.names.Disjoint (r.flatMap (·.names)) := by
      simp only [List.mem_append, not_or, imp_and, forall_and]
      exact and_congr_right' ⟨fun h n hc hr => h n hr hc, fun h n hr hc => h hc hr⟩
    rw [hstep, ih, hlater, List.forall_mem_cons, List.flatMap_cons, List.nodup_append',
      List.forall_mem_append]
    have hnames : c.flaw? = none → c.names.Nodup := fun h =>
      (ClusterSpec.flaw?_eq_none_iff.mp h).2.2.1
    tauto

theorem flaw?_eq_none_iff :
    d.flaw? = none ↔ d.shards ≠ [] ∧ (∀ c ∈ d.shards, c.flaw? = none) ∧ d.names.Nodup := by
  by_cases h : d.shards = []
  · simp [flaw?, h]
  · simp [flaw?, h, flawAfter?_eq_none_iff, names]

/-- A name tells its cluster. -/
theorem index_eq_of_mem_names (hd : d.flaw? = none) {i j : Nat} {b c : ClusterSpec}
    (hb : d.shards[i]? = some b) (hc : d.shards[j]? = some c) {n : String} (hnb : n ∈ b.names)
    (hnc : n ∈ c.names) : i = j := by
  obtain ⟨hi, rfl⟩ := List.getElem?_eq_some_iff.mp hb
  obtain ⟨hj, rfl⟩ := List.getElem?_eq_some_iff.mp hc
  have hdisjoint := List.pairwise_iff_getElem.mp
    (List.nodup_flatMap.mp (flaw?_eq_none_iff.mp hd).2.2).2
  rcases Nat.lt_trichotomy i j with h | h | h
  · exact absurd hnc fun hnc => hdisjoint i j hi hj h hnb hnc
  · exact h
  · exact absurd hnb fun hnb => hdisjoint j i hj hi h hnc hnb

end Deployment

end ReplicaLag
