import Mathlib.Data.List.Perm.Basic
import ReplicaLag.Proofs.Flaws

/-!
Consistent deployments. What the checks look for one after another, each with its own memory of the
names before, is one condition on the deployment as a whole, in which no order plays a part. Main
statement: a deployment has no flaw if and only if it is consistent, and rearranging its clusters,
their nodes or their links neither brings in a flaw nor removes the last.
-/

namespace ReplicaLag

namespace ClusterSpec

/-- What a cluster must be on its own, but for the names that it repeats. -/
structure Consistent (c : ClusterSpec) : Prop where
  nodes : c.nodes ≠ []
  named : ∀ n ∈ c.nodes, n.name ≠ ""
  primaries : c.nodes.countP (·.isPrimary) ≤ 1
  journal : 3 ≤ c.lag.journalInterval
  links : ∀ l ∈ c.lag.links, l.source ∈ c.names ∧ l.target ∈ c.names
  clientLinks : ∀ l ∈ c.lag.clientLinks, l.node ∈ c.names

/-- The same cluster with its nodes, its links and its client links in other orders. -/
structure Rearranged (c c' : ClusterSpec) : Prop where
  nodes : c.nodes.Perm c'.nodes
  links : c.lag.links.Perm c'.lag.links
  clientLinks : c.lag.clientLinks.Perm c'.lag.clientLinks
  rest : { c.lag with links := [], clientLinks := [] } =
    { c'.lag with links := [], clientLinks := [] }

variable {c c' : ClusterSpec}

theorem flaw?_eq_none_iff_consistent : c.flaw? = none ↔ c.Consistent ∧ c.names.Nodup := by
  rw [flaw?_eq_none_iff, LagProfile.flaw?_eq_none_iff, names, List.forall_mem_map]
  constructor
  · rintro ⟨hnodes, hnamed, hnames, hprimaries, hjournal, hlinks, hclients⟩
    exact ⟨⟨hnodes, hnamed, hprimaries, hjournal, hlinks, hclients⟩, hnames⟩
  · rintro ⟨⟨hnodes, hnamed, hprimaries, hjournal, hlinks, hclients⟩, hnames⟩
    exact ⟨hnodes, hnamed, hnames, hprimaries, hjournal, hlinks, hclients⟩

namespace Rearranged

theorem symm (h : c.Rearranged c') : c'.Rearranged c :=
  ⟨h.nodes.symm, h.links.symm, h.clientLinks.symm, h.rest.symm⟩

theorem names (h : c.Rearranged c') : c.names.Perm c'.names := h.nodes.map _

theorem consistent (h : c.Rearranged c') (hc : c.Consistent) : c'.Consistent where
  nodes hnil := hc.nodes (hnil ▸ h.nodes).eq_nil
  named n hn := hc.named n (h.nodes.mem_iff.mpr hn)
  primaries := h.nodes.countP_eq _ ▸ hc.primaries
  journal := by
    obtain ⟨_, hjournal, _⟩ := LagProfile.mk.inj h.rest
    rw [← hjournal]
    exact hc.journal
  links l hl := by
    obtain ⟨hsource, htarget⟩ := hc.links l (h.links.mem_iff.mpr hl)
    exact ⟨h.names.mem_iff.mp hsource, h.names.mem_iff.mp htarget⟩
  clientLinks l hl := h.names.mem_iff.mp (hc.clientLinks l (h.clientLinks.mem_iff.mpr hl))

theorem consistent_iff (h : c.Rearranged c') : c'.Consistent ↔ c.Consistent :=
  ⟨h.symm.consistent, h.consistent⟩

end Rearranged

end ClusterSpec

namespace Deployment

/-- What a deployment must be. No name occurs twice in it, be it in one cluster or in two. -/
structure Consistent (d : Deployment) : Prop where
  shards : d.shards ≠ []
  clusters : ∀ c ∈ d.shards, c.Consistent
  names : d.names.Nodup

/-- The same clusters, each of them rearranged, in another order. -/
def Rearranged (d d' : Deployment) : Prop :=
  ∃ shards, List.Forall₂ ClusterSpec.Rearranged d.shards shards ∧ shards.Perm d'.shards

variable {d d' : Deployment}

theorem flaw?_eq_none_iff_consistent : d.flaw? = none ↔ d.Consistent := by
  have hclusters : (∀ c ∈ d.shards, c.flaw? = none) ∧ d.names.Nodup ↔
      (∀ c ∈ d.shards, c.Consistent) ∧ d.names.Nodup := by
    refine and_congr_left fun hnames => forall₂_congr fun c hc => ?_
    have hnodup : c.names.Nodup := (List.nodup_flatMap.mp hnames).1 c hc
    rw [ClusterSpec.flaw?_eq_none_iff_consistent, and_iff_left hnodup]
  rw [flaw?_eq_none_iff, hclusters]
  exact ⟨fun ⟨hs, hc, hn⟩ => ⟨hs, hc, hn⟩, fun ⟨hs, hc, hn⟩ => ⟨hs, hc, hn⟩⟩

namespace Rearranged

theorem of_forall₂ {shards shards' : List ClusterSpec}
    (h : List.Forall₂ ClusterSpec.Rearranged shards shards') :
    ((∀ c ∈ shards', c.Consistent) ↔ ∀ c ∈ shards, c.Consistent) ∧
      (shards.flatMap (·.names)).Perm (shards'.flatMap (·.names)) := by
  induction h with
  | nil => exact ⟨Iff.rfl, .nil⟩
  | cons hc _ ih =>
    obtain ⟨hconsistent, hnames⟩ := ih
    rw [List.forall_mem_cons, List.forall_mem_cons, hconsistent, hc.consistent_iff]
    exact ⟨Iff.rfl, hc.names.append hnames⟩

theorem consistent_iff (h : d.Rearranged d') : d'.Consistent ↔ d.Consistent := by
  obtain ⟨shards, hforall, hperm⟩ := h
  obtain ⟨hclusters, hnames⟩ := of_forall₂ hforall
  have hshards : d'.shards = [] ↔ d.shards = [] := by
    rw [← List.length_eq_zero_iff, ← List.length_eq_zero_iff, hforall.length_eq, hperm.length_eq]
  have hclusters' : (∀ c ∈ d'.shards, c.Consistent) ↔ ∀ c ∈ d.shards, c.Consistent := by
    rw [← hclusters]
    exact forall_congr' fun c => imp_congr_left hperm.mem_iff.symm
  have hnames' : d'.names.Nodup ↔ d.names.Nodup :=
    (hnames.trans (hperm.flatMap_right _)).nodup_iff.symm
  constructor
  · rintro ⟨hs, hc, hn⟩
    exact ⟨mt hshards.mpr hs, hclusters'.mp hc, hnames'.mp hn⟩
  · rintro ⟨hs, hc, hn⟩
    exact ⟨mt hshards.mp hs, hclusters'.mpr hc, hnames'.mpr hn⟩

end Rearranged

/-- The checks of a deployment pass if and only if it is consistent, in whatever order clusters,
nodes and links are listed. -/
theorem flawless_iff_consistent (d : Deployment) :
    (d.flaw? = none ↔ d.Consistent) ∧
      ∀ d', d.Rearranged d' → (d'.flaw? = none ↔ d.flaw? = none) := by
  refine ⟨flaw?_eq_none_iff_consistent, fun d' h => ?_⟩
  rw [flaw?_eq_none_iff_consistent, flaw?_eq_none_iff_consistent]
  exact h.consistent_iff

/-- Two clusters change places, and one of them lists its nodes and links the other way round. -/
theorem swapped_clusters_are_flawless :
    let near : LagProfile := { links := [⟨"n1", "n2", 5⟩, ⟨"n2", "n1", 7⟩] }
    let pair : ClusterSpec := ⟨[{ name := "n1", isPrimary := true }, { name := "n2" }], near⟩
    let lone : ClusterSpec := ⟨[{ name := "n3" }], {}⟩
    let turned : ClusterSpec := ⟨pair.nodes.reverse, { near with links := near.links.reverse }⟩
    Rearranged ⟨[pair, lone], .empty⟩ ⟨[lone, turned], .empty⟩ ∧
      Consistent ⟨[pair, lone], .empty⟩ ∧ flaw? ⟨[lone, turned], .empty⟩ = none := by
  intro near pair lone turned
  have hpair : pair.Rearranged turned :=
    ⟨(List.reverse_perm _).symm, (List.reverse_perm _).symm, .refl _, rfl⟩
  have hlone : lone.Rearranged lone := ⟨.refl _, .refl _, .refl _, rfl⟩
  have hd : Rearranged ⟨[pair, lone], .empty⟩ ⟨[lone, turned], .empty⟩ :=
    ⟨[turned, lone], .cons hpair (.cons hlone .nil), .swap _ _ _⟩
  obtain ⟨hconsistent, hverdict⟩ := flawless_iff_consistent ⟨[pair, lone], .empty⟩
  have hflaw : flaw? ⟨[pair, lone], .empty⟩ = none := rfl
  exact ⟨hd, hconsistent.mp hflaw, (hverdict _ hd).mpr hflaw⟩

end Deployment

end ReplicaLag
