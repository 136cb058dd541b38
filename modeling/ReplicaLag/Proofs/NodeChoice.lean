import Mathlib.Data.Bool.Basic
import Mathlib.Data.List.Nodup
import Mathlib.Data.Prod.Lex
import Mathlib.Data.String.Basic
import ReplicaLag.Cluster

/-!
How a node is chosen: by its name, as the primary, or as the first in some order. Where nothing but
one node can be meant, it is chosen wherever it stands in the list. Main statement: another list of
the same nodes resolves every request alike (`Relisted.resolve_eq`).
-/

namespace ReplicaLag

/-- Where at most one member passes a test, it does not matter which stands first. -/
theorem find?_eq_of_perm {α : Type} {p : α → Bool} {l l' : List α} (h : l.Perm l')
    (unique : ∀ x ∈ l, ∀ y ∈ l, p x = true → p y = true → x = y) : l.find? p = l'.find? p := by
  cases hf : l.find? p with
  | none =>
    symm
    rw [List.find?_eq_none] at hf ⊢
    exact fun x hx => hf x (h.mem_iff.mpr hx)
  | some x =>
    have hx := List.mem_of_find?_eq_some hf
    have hpx := List.find?_some hf
    cases hf' : l'.find? p with
    | none => exact absurd hpx (List.find?_eq_none.mp hf' x (h.mem_iff.mp hx))
    | some y =>
      have hy := h.mem_iff.mpr (List.mem_of_find?_eq_some hf')
      rw [unique x hx y hy hpx (List.find?_some hf')]

namespace Node

section least

variable {α : Type} [LinearOrder α] {rank : Node → α} {le : Node → Node → Bool}
  (hle : ∀ a b, le a b = true ↔ rank a ≤ rank b) {nodes nodes' : List Node}
include hle

/-- The chosen node ranks no higher than any other. -/
theorem rank_le_of_least? {n : Node} (h : least? le nodes = some n) :
    ∀ m ∈ nodes, rank n ≤ rank m := by
  induction nodes generalizing n with
  | nil => simp
  | cons k r ih =>
    simp only [least?] at h
    cases hr : least? le r with
    | none =>
      obtain rfl : k = n := by simpa [hr] using h
      rw [least?_eq_none_iff.mp hr]
      simp
    | some j =>
      have hj := ih hr
      simp only [hr, Option.some.injEq] at h
      by_cases hkj : rank k ≤ rank j
      · obtain rfl : k = n := by rwa [if_pos ((hle k j).mpr hkj)] at h
        exact List.forall_mem_cons.mpr ⟨le_rfl, fun m hm => hkj.trans (hj m hm)⟩
      · obtain rfl : j = n := by rwa [if_neg (mt (hle k j).mp hkj)] at h
        exact List.forall_mem_cons.mpr ⟨(not_le.mp hkj).le, hj⟩

/-- Where no two nodes rank alike, the search finds the one that ranks below all others. -/
theorem least?_eq_some_iff {n : Node}
    (distinct : ∀ a ∈ nodes, ∀ b ∈ nodes, rank a = rank b → a = b) :
    least? le nodes = some n ↔ n ∈ nodes ∧ ∀ m ∈ nodes, m ≠ n → rank n < rank m := by
  constructor
  · intro h
    have hn := mem_of_least? h
    refine ⟨hn, fun m hm hne => lt_of_le_of_ne (rank_le_of_least? hle h m hm) fun heq => ?_⟩
    exact hne (distinct n hn m hm heq).symm
  · rintro ⟨hn, hleast⟩
    cases h : least? le nodes with
    | none =>
      rw [least?_eq_none_iff.mp h] at hn
      cases hn
    | some m =>
      by_cases hmn : m = n
      · rw [hmn]
      · have hlt := hleast m (mem_of_least? h) hmn
        exact absurd (rank_le_of_least? hle h n hn) (not_le.mpr hlt)

/-- Then it finds the same node in whatever order they are listed. -/
theorem least?_eq_of_perm (h : nodes.Perm nodes')
    (distinct : ∀ a ∈ nodes, ∀ b ∈ nodes, rank a = rank b → a = b) :
    least? le nodes = least? le nodes' := by
  have distinct' : ∀ a ∈ nodes', ∀ b ∈ nodes', rank a = rank b → a = b := fun a ha b hb =>
    distinct a (h.mem_iff.mpr ha) b (h.mem_iff.mpr hb)
  refine Option.ext fun n => ?_
  rw [least?_eq_some_iff hle distinct, least?_eq_some_iff hle distinct']
  simp only [h.mem_iff]

end least

end Node

namespace Cluster

/-- What `nearer` compares: the way to the client, then whether the node is a secondary, then its
name. -/
def distance (latency : Node → Millis) (n : Node) : ℕ ×ₗ Bool ×ₗ String :=
  toLex ((latency n).toNat, toLex (!n.isPrimary, n.name))

theorem nearer_iff (latency : Node → Millis) (a b : Node) :
    nearer latency a b = true ↔ distance latency a ≤ distance latency b := by
  rw [distance, distance, Prod.Lex.toLex_le_toLex, Prod.Lex.toLex_le_toLex, nearer]
  by_cases hlatency : latency a = latency b
  · by_cases hprimary : a.isPrimary = b.isPrimary
    · simp [hlatency, hprimary]
    · cases ha : a.isPrimary <;> cases hb : b.isPrimary <;> simp_all
  · have hne : (latency a).toNat ≠ (latency b).toNat := fun h => hlatency (UInt64.toNat_inj.mp h)
    simp [hlatency, hne, UInt64.lt_iff_toNat_lt]

theorem name_eq_of_distance_eq {latency : Node → Millis} {a b : Node}
    (h : distance latency a = distance latency b) : a.name = b.name :=
  (Prod.mk.inj (toLex.injective (Prod.mk.inj (toLex.injective h)).2)).2

end Cluster

/-- Another list of the same nodes, no two of which have the same name, or are both primary. -/
structure Node.Relisted (nodes nodes' : List Node) : Prop where
  perm : nodes.Perm nodes'
  names : (nodes.map (·.name)).Nodup
  primaries : (nodes.filter (·.isPrimary)).length ≤ 1

namespace Node.Relisted

variable {nodes nodes' : List Node}

theorem eq_of_name (h : Relisted nodes nodes') {a b : Node} (ha : a ∈ nodes) (hb : b ∈ nodes)
    (hab : a.name = b.name) : a = b := List.inj_on_of_nodup_map h.names ha hb hab

theorem eq_of_isPrimary (h : Relisted nodes nodes') {a b : Node} (ha : a ∈ nodes) (hb : b ∈ nodes)
    (hpa : a.isPrimary = true) (hpb : b.isPrimary = true) : a = b := by
  have hfa : a ∈ nodes.filter (·.isPrimary) := List.mem_filter.mpr ⟨ha, hpa⟩
  have hfb : b ∈ nodes.filter (·.isPrimary) := List.mem_filter.mpr ⟨hb, hpb⟩
  obtain ⟨p, hp⟩ : ∃ p, nodes.filter (·.isPrimary) = [p] :=
    List.length_eq_one_iff.mp (Nat.le_antisymm h.primaries (List.length_pos_of_mem hfa))
  rw [hp, List.mem_singleton] at hfa hfb
  exact hfa.trans hfb.symm

theorem named?_eq (h : Relisted nodes nodes') (name : String) :
    named? nodes name = named? nodes' name :=
  find?_eq_of_perm h.perm fun _ ha _ hb hna hnb =>
    h.eq_of_name ha hb ((of_decide_eq_true hna).trans (of_decide_eq_true hnb).symm)

theorem primary?_eq (h : Relisted nodes nodes') : primary? nodes = primary? nodes' :=
  find?_eq_of_perm h.perm fun _ ha _ hb => h.eq_of_isPrimary ha hb

theorem firstSecondary?_eq (h : Relisted nodes nodes') :
    firstSecondary? nodes = firstSecondary? nodes' := by
  have hle : ∀ a b : Node, decide (a.name ≤ b.name) = true ↔ a.name ≤ b.name :=
    fun _ _ => decide_eq_true_iff
  refine least?_eq_of_perm hle (h.perm.filter _) fun a ha b hb => ?_
  exact h.eq_of_name (List.mem_of_mem_filter ha) (List.mem_of_mem_filter hb)

theorem nearest?_eq (h : Relisted nodes nodes') (latency : Node → Millis) :
    least? (Cluster.nearer latency) nodes = least? (Cluster.nearer latency) nodes' :=
  least?_eq_of_perm (Cluster.nearer_iff latency) h.perm fun _ ha _ hb hab =>
    h.eq_of_name ha hb (Cluster.name_eq_of_distance_eq hab)

theorem chosen?_eq (h : Relisted nodes nodes') (latency : Node → Millis) (r : Request) :
    Cluster.chosen? latency nodes' r = Cluster.chosen? latency nodes r := by
  have hpreferred : Cluster.preferred? latency nodes' = Cluster.preferred? latency nodes := by
    funext preference
    cases preference <;>
      simp only [Cluster.preferred?, h.primary?_eq, h.firstSecondary?_eq, h.nearest?_eq]
  simp only [Cluster.chosen?, h.named?_eq, hpreferred]

theorem resolve_eq {c : Cluster} (h : Relisted c.nodes nodes') (r : Request) :
    Cluster.resolve { c with nodes := nodes' } r = c.resolve r := by
  simp only [Cluster.resolve, Cluster.server?, h.chosen?_eq]

end Node.Relisted

end ReplicaLag
