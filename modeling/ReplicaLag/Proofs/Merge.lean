import Mathlib.Data.List.Perm.Basic
import ReplicaLag.Proofs.Scans
import ReplicaLag.Router

/-!
Merging what the parts of a table answer. Rows that are spread over parts, each of which sends its
first ones, merge to the first rows of the whole: a row among the first of the whole is among the
first of its part, and whatever else a part sends comes later. Rows of different keys merge in
strict order, even where the parts are not those of one whole.
-/

namespace ReplicaLag

/-- A list is, up to order, all of its parts. -/
theorem flatMap_filter_perm {α : Type} (place : α → Nat) (n : Nat) (l : List α) :
    ((List.range n).flatMap fun i => l.filter fun x => place x == i).Perm
      (l.filter fun x => place x < n) := by
  induction n with
  | zero => simp
  | succ n ih =>
    have hsplit := List.filter_append_perm (fun x => decide (place x < n))
      (l.filter fun x => place x < n + 1)
    have hlow : (l.filter fun x => place x < n + 1).filter (fun x => place x < n) =
        l.filter fun x => place x < n := by
      rw [List.filter_filter]
      refine List.filter_congr fun x _ => ?_
      grind
    have hlast : (l.filter fun x => place x < n + 1).filter (fun x => !decide (place x < n)) =
        l.filter fun x => place x == n := by
      rw [List.filter_filter]
      refine List.filter_congr fun x _ => ?_
      grind
    rw [hlow, hlast] at hsplit
    rw [List.range_succ, List.flatMap_append, List.flatMap_singleton]
    exact (ih.append_right _).trans hsplit

namespace Router

/-- The order in which a merge puts records. -/
def inOrder (ascending : Bool) (a b : Record) : Bool :=
  if ascending then a.key ≤ b.key else b.key ≤ a.key

theorem merge_eq (ascending : Bool) (count : Nat) (records : List Record) :
    merge ascending count records = (records.mergeSort (inOrder ascending)).take count := by
  unfold merge inOrder
  cases ascending <;> rfl

theorem inOrder_of_before {ascending : Bool} {a b : Record}
    (h : Store.before ascending a.key b.key) : inOrder ascending a b = true := by
  cases ascending <;> simp only [Store.before, if_true, Bool.false_eq_true, if_false] at h <;>
    simpa [inOrder] using String.not_lt.mp (String.lt_asymm h)

theorem not_inOrder_of_before {ascending : Bool} {a b : Record}
    (h : Store.before ascending a.key b.key) : ¬ inOrder ascending b a = true := by
  cases ascending <;> simp only [Store.before, if_true, Bool.false_eq_true, if_false] at h <;>
    simpa [inOrder] using h

theorem inOrder_trans (ascending : Bool) (a b c : Record) (hab : inOrder ascending a b = true)
    (hbc : inOrder ascending b c = true) : inOrder ascending a c = true := by
  cases ascending <;> simp only [inOrder, if_true, Bool.false_eq_true, if_false,
    decide_eq_true_eq] at hab hbc ⊢
  · exact String.le_trans hbc hab
  · exact String.le_trans hab hbc

theorem inOrder_total (ascending : Bool) (a b : Record) :
    (inOrder ascending a b || inOrder ascending b a) = true := by
  cases ascending <;> simp only [inOrder, if_true, Bool.false_eq_true, if_false,
    Bool.or_eq_true, decide_eq_true_eq]
  · exact String.le_total _ _
  · exact String.le_total _ _

theorem mergeSort_inOrder (ascending : Bool) (records : List Record) :
    (records.mergeSort (inOrder ascending)).Pairwise fun a b => inOrder ascending a b = true :=
  List.pairwise_mergeSort (inOrder_trans ascending) (inOrder_total ascending) records

variable {ascending : Bool} {records all front rest : List Record}

/-- Among rows of different keys the order leaves no choice. -/
theorem eq_of_inOrder (h : all.Pairwise fun a b => Store.before ascending a.key b.key)
    {a b : Record} (ha : a ∈ all) (hb : b ∈ all) (hab : inOrder ascending a b = true)
    (hba : inOrder ascending b a = true) : a = b := by
  have hfirst : all.Pairwise fun a b =>
      inOrder ascending a b = true → inOrder ascending b a = true → a = b :=
    h.imp fun hb _ k => absurd k (not_inOrder_of_before hb)
  have hsecond : all.Pairwise (flip fun a b =>
      inOrder ascending a b = true → inOrder ascending b a = true → a = b) :=
    h.imp fun hb k _ => absurd k (not_inOrder_of_before hb)
  exact hfirst.forall_of_forall_of_flip (fun _ _ _ _ => rfl) hsecond ha hb hab hba

/-- Rows that come before all others stay in front. -/
theorem merge_of_perm (count : Nat)
    (hall : all.Pairwise fun a b => Store.before ascending a.key b.key)
    (hp : records.Perm (front ++ rest)) (hf : front.Sublist all) (hr : rest ⊆ all)
    (hfr : ∀ a ∈ front, ∀ b ∈ rest, Store.before ascending a.key b.key) :
    merge ascending count records =
      (front ++ rest.mergeSort (inOrder ascending)).take count := by
  have hrest : ∀ b, b ∈ rest.mergeSort (inOrder ascending) ↔ b ∈ rest := fun b => List.mem_mergeSort
  have hsort : (records.mergeSort (inOrder ascending)).Perm
      (front ++ rest.mergeSort (inOrder ascending)) :=
    (List.mergeSort_perm _ _).trans
      (hp.trans ((List.mergeSort_perm rest (inOrder ascending)).symm.append_left front))
  have hmem : ∀ b ∈ front ++ rest.mergeSort (inOrder ascending), b ∈ all := by
    intro b hb
    rcases List.mem_append.mp hb with hb | hb
    · exact hf.subset hb
    · exact hr ((hrest b).mp hb)
  have hpair : (front ++ rest.mergeSort (inOrder ascending)).Pairwise
      fun a b => inOrder ascending a b = true := by
    refine List.pairwise_append.mpr
      ⟨(hall.sublist hf).imp inOrder_of_before, mergeSort_inOrder ascending rest, ?_⟩
    exact fun a ha b hb => inOrder_of_before (hfr a ha b ((hrest b).mp hb))
  -- both are sorted permutations, and the keys differ, so they are one list
  rw [merge_eq, List.Perm.eq_of_pairwise
    (fun a b ha hb => eq_of_inOrder hall (hmem a (hsort.subset ha)) (hmem b hb))
    (mergeSort_inOrder ascending records) hpair hsort]

/-- The rows whose keys are placed on part `i`. -/
def part (place : String → Nat) (i : Nat) (rows : List Record) : List Record :=
  rows.filter fun x => place x.key == i

/-- The first rows of a part are its share of the first rows of the whole, and later rows. -/
theorem exists_take_part_eq (place : String → Nat) (count : Nat) (all : List Record) (i : Nat) :
    ∃ late, (part place i all).take count = part place i (all.take count) ++ late ∧
      late ⊆ all.drop count := by
  have hlen : (part place i (all.take count)).length ≤ count :=
    Nat.le_trans (List.length_filter_le _ _) (List.length_take_le _ _)
  have hsplit : part place i all =
      part place i (all.take count) ++ part place i (all.drop count) := by
    unfold part
    rw [← List.filter_append, List.take_append_drop]
  refine ⟨_, by rw [hsplit, List.take_append, List.take_of_length_le hlen], ?_⟩
  exact fun x hx => (List.mem_filter.mp (List.mem_of_mem_take hx)).1

/-- The first rows of all parts merge to the first rows of the whole. -/
theorem merge_parts (hall : all.Pairwise fun a b => Store.before ascending a.key b.key)
    {n : Nat} {place : String → Nat} (hn : ∀ x ∈ all, place x.key < n) (count : Nat) :
    merge ascending count ((List.range n).flatMap fun i => (part place i all).take count) =
      all.take count := by
  choose late hsplit hlate using exists_take_part_eq place count all
  have hfront : ((List.range n).flatMap fun i => part place i (all.take count)).Perm
      (all.take count) := by
    have h := flatMap_filter_perm (fun x : Record => place x.key) n (all.take count)
    rwa [List.filter_eq_self.mpr fun x hx => by simpa using hn x (List.mem_of_mem_take hx)] at h
  have hperm : ((List.range n).flatMap fun i => (part place i all).take count).Perm
      (all.take count ++ (List.range n).flatMap late) := by
    simp only [hsplit]
    exact (List.flatMap_append_perm _ _ _).symm.trans (hfront.append_right _)
  have hrest : (List.range n).flatMap late ⊆ all.drop count := by
    intro x hx
    obtain ⟨i, _, hx⟩ := List.mem_flatMap.mp hx
    exact hlate i hx
  rw [merge_of_perm count hall hperm (List.take_sublist _ _)
    (fun x hx => List.mem_of_mem_drop (hrest hx))
    fun a ha b hb => hall.rel_of_mem_take_of_mem_drop ha (hrest hb)]
  -- either the front is as long as asked for, or there is nothing else
  rcases Nat.le_total count all.length with hc | hc
  · exact List.take_left' (List.length_take_of_le hc)
  · rw [List.drop_of_length_le hc] at hrest
    rw [List.subset_nil.mp hrest, List.mergeSort_nil, List.append_nil, List.take_take, Nat.min_self]

/-- Who comes first has the key that all are reached from, if anyone has it. -/
theorem exists_take_one_iff {key : String}
    (hsorted : records.Pairwise fun a b => inOrder ascending a b = true)
    (hreach : ∀ x ∈ records, Store.reaches ascending key x.key) :
    (∃ x ∈ records.take 1, x.key = key) ↔ ∃ x ∈ records, x.key = key := by
  refine ⟨fun ⟨x, hx, hk⟩ => ⟨x, List.mem_of_mem_take hx, hk⟩, fun ⟨x, hx, hk⟩ => ?_⟩
  cases records with
  | nil => cases hx
  | cons y rest =>
    refine ⟨y, List.mem_cons_self, ?_⟩
    have hy := hreach y List.mem_cons_self
    rcases List.mem_cons.mp hx with rfl | hx
    · exact hk
    · have hyx := (List.pairwise_cons.mp hsorted).1 x hx
      cases ascending <;>
        simp only [inOrder, Store.reaches, Bool.false_eq_true, if_true, if_false, hk,
          decide_eq_true_eq] at hyx hy
      · exact String.le_antisymm hy hyx
      · exact String.le_antisymm hyx hy

theorem exists_merge_one_iff {key : String}
    (hreach : ∀ x ∈ records, Store.reaches ascending key x.key) :
    (∃ x ∈ merge ascending 1 records, x.key = key) ↔ ∃ x ∈ records, x.key = key := by
  rw [merge_eq, exists_take_one_iff (mergeSort_inOrder ascending records)
    fun x hx => hreach x (List.mem_mergeSort.mp hx)]
  simp only [List.mem_mergeSort]

/-- Records of different keys merge in strict order. -/
theorem merge_ordered (h : records.Pairwise fun a b => a.key ≠ b.key)
    (ascending : Bool) (count : Nat) :
    (merge ascending count records).Pairwise fun a b => Store.before ascending a.key b.key := by
  have hkeys : (records.mergeSort (inOrder ascending)).Pairwise fun a b => a.key ≠ b.key :=
    ((List.mergeSort_perm _ _).pairwise_iff Ne.symm).mpr h
  rw [merge_eq]
  refine (((mergeSort_inOrder ascending records).and hkeys).imp ?_).take
  rintro a b ⟨hab, hne⟩
  cases ascending <;>
    simp only [inOrder, Store.before, Bool.false_eq_true, if_true, if_false,
      decide_eq_true_eq] at hab ⊢
  · exact String.not_le.mp fun hba => hne (String.le_antisymm hba hab)
  · exact String.not_le.mp fun hba => hne (String.le_antisymm hab hba)

end Router

end ReplicaLag
