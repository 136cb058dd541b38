import Mathlib.Data.List.Forall2
import ReplicaLag.Proofs.Envelopes
import ReplicaLag.Proofs.PlacedKeys

/-!
Scans of all shards, whatever the shards hold. The stable merge of several lists is known by its
order and by what it has of each key (`StablyMerges.unique`), and its first records can be found
among the first ones of each list. Main statement: a router answers a scan with the first records of
the stable merge of what each shard could show, although it asks no shard for more than those; it
waits for the slowest shard, and if shards fail the first of them decides.
-/

namespace ReplicaLag

theorem Body.eq_exception {b : Body} (h : b.isException = true) : ∃ f, b = .exception f := by
  cases b with
  | exception f => exact ⟨f, rfl⟩
  | insert | update | delete | read | scan => cases h

namespace Router

variable {ascending : Bool} {parts : List (List Record)} {merged records : List Record}

/-- All records of some lists, in the order of their keys; records of one key stay as they come in
the lists, one list after another. -/
structure StablyMerges (ascending : Bool) (parts : List (List Record)) (merged : List Record) :
    Prop where
  ordered : merged.Pairwise fun a b => inOrder ascending a b = true
  ofKey : ∀ key, merged.filter (·.key = key) = parts.flatten.filter (·.key = key)

theorem key_eq_of_inOrder {a b : Record} (hab : inOrder ascending a b = true)
    (hba : inOrder ascending b a = true) : a.key = b.key := by
  cases ascending <;> simp only [inOrder, if_true, Bool.false_eq_true, if_false,
    decide_eq_true_eq] at hab hba
  · exact String.le_antisymm hba hab
  · exact String.le_antisymm hab hba

theorem inOrder_of_key_eq {a b : Record} (h : a.key = b.key) (ascending : Bool) :
    inOrder ascending a b = true := by
  cases ascending <;> simp [inOrder, h]

theorem mem_iff_of_filter_key {l l' : List Record}
    (h : ∀ key, l.filter (·.key = key) = l'.filter (·.key = key)) (x : Record) :
    x ∈ l ↔ x ∈ l' := by
  simpa using congrArg (x ∈ ·) (h x.key)

/-- Records in the order of their keys are known by what there is of each key. -/
theorem eq_of_filter_key {l l' : List Record}
    (hl : l.Pairwise fun a b => inOrder ascending a b = true)
    (hl' : l'.Pairwise fun a b => inOrder ascending a b = true)
    (h : ∀ key, l.filter (·.key = key) = l'.filter (·.key = key)) : l = l' := by
  have hmem := mem_iff_of_filter_key h
  induction l generalizing l' with
  | nil =>
    exact (List.eq_nil_iff_forall_not_mem.mpr fun x hx => absurd ((hmem x).mpr hx) (by simp)).symm
  | cons a r ih =>
    cases l' with
    | nil => exact absurd ((hmem a).mp List.mem_cons_self) List.not_mem_nil
    | cons b r' =>
      have ⟨ha, hr⟩ := List.pairwise_cons.mp hl
      have ⟨hb, hr'⟩ := List.pairwise_cons.mp hl'
      have hkey : a.key = b.key := by
        rcases List.mem_cons.mp ((hmem b).mpr List.mem_cons_self) with hba | hba
        · rw [hba]
        rcases List.mem_cons.mp ((hmem a).mp List.mem_cons_self) with hab | hab
        · rw [hab]
        exact key_eq_of_inOrder (ha b hba) (hb a hab)
      have hfirst := h a.key
      simp only [List.filter_cons, hkey, decide_true, if_true, List.cons.injEq] at hfirst
      obtain rfl := hfirst.1
      have hrest : ∀ key, r.filter (·.key = key) = r'.filter (·.key = key) := by
        intro key
        have hk := h key
        simp only [List.filter_cons] at hk
        split at hk
        · exact (List.cons.inj hk).2
        · exact hk
      rw [ih hr hr' hrest (mem_iff_of_filter_key hrest)]

theorem StablyMerges.unique {other : List Record} (h : StablyMerges ascending parts merged)
    (h' : StablyMerges ascending parts other) : merged = other :=
  eq_of_filter_key h.ordered h'.ordered fun key => (h.ofKey key).trans (h'.ofKey key).symm

/-- Sorting keeps the records of one key as they come. -/
theorem filter_key_mergeSort (ascending : Bool) (records : List Record) (key : String) :
    (records.mergeSort (inOrder ascending)).filter (·.key = key) =
      records.filter (·.key = key) := by
  have hsame : (records.filter (·.key = key)).Pairwise fun a b => inOrder ascending a b = true := by
    refine List.pairwise_of_forall_mem_list fun a ha b hb => ?_
    have hak := of_decide_eq_true (List.mem_filter.mp ha).2
    have hbk := of_decide_eq_true (List.mem_filter.mp hb).2
    exact inOrder_of_key_eq (hak.trans hbk.symm) ascending
  have hsub := (List.sublist_mergeSort (inOrder_trans ascending) (inOrder_total ascending) hsame
    List.filter_sublist).filter (·.key = key)
  rw [List.filter_filter] at hsub
  simp only [Bool.and_self] at hsub
  exact (hsub.eq_of_length ((List.mergeSort_perm ..).filter _).length_eq.symm).symm

theorem stablyMerges_mergeSort (ascending : Bool) (parts : List (List Record)) :
    StablyMerges ascending parts (parts.flatten.mergeSort (inOrder ascending)) :=
  ⟨mergeSort_inOrder ascending _, filter_key_mergeSort ascending _⟩

/-- The first records of two lists merge to the first records of the whole, however many more of
each list are there. -/
theorem take_merge (le : Record → Record → Bool) (xs ys : List Record) {n i j : Nat} (hi : n ≤ i)
    (hj : n ≤ j) : ((xs.take i).merge (ys.take j) le).take n = (xs.merge ys le).take n := by
  induction n generalizing xs ys i j with
  | zero => rfl
  | succ n ih =>
    obtain ⟨i, rfl⟩ := Nat.exists_eq_succ_of_ne_zero (by omega : i ≠ 0)
    obtain ⟨j, rfl⟩ := Nat.exists_eq_succ_of_ne_zero (by omega : j ≠ 0)
    cases xs with
    | nil => simp [List.take_take, Nat.min_eq_left hj]
    | cons x xs =>
      cases ys with
      | nil => simp [List.take_take]; omega
      | cons y ys =>
        simp only [List.take_succ_cons, List.cons_merge_cons]
        split
        · have h := ih xs (y :: ys) (i := i) (j := j + 1) (by omega) (by omega)
          rw [List.take_succ_cons] at h
          rw [List.take_succ_cons, List.take_succ_cons, h]
        · have h := ih (x :: xs) ys (i := i + 1) (j := j) (by omega) (by omega)
          rw [List.take_succ_cons] at h
          rw [List.take_succ_cons, List.take_succ_cons, h]

/-- Merging one list after another. -/
def mergeAll (ascending : Bool) (parts : List (List Record)) : List Record :=
  parts.foldr (fun part others => part.merge others (inOrder ascending)) []

theorem take_mergeAll (ascending : Bool) (parts : List (List Record)) (n : Nat) :
    (mergeAll ascending (parts.map (·.take n))).take n = (mergeAll ascending parts).take n := by
  induction parts with
  | nil => rfl
  | cons part rest ih =>
    calc
      ((part.take n).merge (mergeAll ascending (rest.map (·.take n))) (inOrder ascending)).take n
      _ = (((part.take n).take n).merge ((mergeAll ascending (rest.map (·.take n))).take n)
            (inOrder ascending)).take n := (take_merge _ _ _ (Nat.le_refl n) (Nat.le_refl n)).symm
      _ = ((part.take n).merge ((mergeAll ascending rest).take n) (inOrder ascending)).take n := by
        rw [ih, List.take_take, Nat.min_self]
      _ = (part.merge (mergeAll ascending rest) (inOrder ascending)).take n :=
        take_merge _ _ _ (Nat.le_refl n) (Nat.le_refl n)

/-- Of equal records a merge takes those of the first list first. -/
theorem filter_key_merge {xs ys : List Record}
    (hxs : xs.Pairwise fun a b => inOrder ascending a b = true) (key : String) :
    (xs.merge ys (inOrder ascending)).filter (·.key = key) =
      xs.filter (·.key = key) ++ ys.filter (·.key = key) := by
  induction xs generalizing ys with
  | nil => simp
  | cons x xs ihx =>
    have ⟨hx, hrest⟩ := List.pairwise_cons.mp hxs
    induction ys with
    | nil => simp
    | cons y ys ihy =>
      rw [List.cons_merge_cons]
      split
      · rw [List.filter_cons, ihx hrest]
        simp only [List.filter_cons (x := x)]
        split <;> simp
      next hlater =>
        rw [List.filter_cons, ihy, List.filter_cons (x := y)]
        split
        next hy =>
          -- `y` comes strictly first, so nothing of its key is in the other list
          have hnone : (x :: xs).filter (·.key = key) = [] := by
            refine List.filter_eq_nil_iff.mpr fun z hz hzk => hlater ?_
            have hzy : z.key = y.key := (of_decide_eq_true hzk).trans (of_decide_eq_true hy).symm
            rcases List.mem_cons.mp hz with rfl | hz
            · exact inOrder_of_key_eq hzy ascending
            · exact inOrder_trans ascending _ _ _ (hx z hz) (inOrder_of_key_eq hzy ascending)
          rw [hnone, List.nil_append, List.nil_append]
        next => rfl

theorem stablyMerges_mergeAll
    (h : ∀ part ∈ parts, part.Pairwise fun a b => inOrder ascending a b = true) :
    StablyMerges ascending parts (mergeAll ascending parts) := by
  induction parts with
  | nil => exact ⟨.nil, fun _ => rfl⟩
  | cons part rest ih =>
    obtain ⟨hpart, hrest⟩ := List.forall_mem_cons.mp h
    have hmerged := ih hrest
    refine ⟨List.pairwise_merge (inOrder_trans ascending) (inOrder_total ascending) _ _ hpart
      hmerged.ordered, fun key => ?_⟩
    rw [List.flatten_cons, List.filter_append, ← hmerged.ofKey]
    exact filter_key_merge hpart key

/-- The first records of each list are enough for the first records of the stable merge. -/
theorem StablyMerges.merge_take (hm : StablyMerges ascending parts merged)
    (h : ∀ part ∈ parts, part.Pairwise fun a b => inOrder ascending a b = true) (n : Nat) :
    merge ascending n (parts.map (·.take n)).flatten = merged.take n := by
  have htaken : ∀ part ∈ parts.map (·.take n), part.Pairwise fun a b =>
      inOrder ascending a b = true := by
    intro part hpart
    obtain ⟨whole, hwhole, rfl⟩ := List.mem_map.mp hpart
    exact (h whole hwhole).take
  rw [merge_eq, (stablyMerges_mergeSort ascending _).unique (stablyMerges_mergeAll htaken),
    take_mergeAll, hm.unique (stablyMerges_mergeAll h)]

/-- The first answer that is no list of records decides. -/
theorem collect_of_first_exception {before after : List Body} {f : Fault}
    (h : ∀ b ∈ before, ∃ records, b = .scan records) :
    collect (before ++ .exception f :: after) = .error f := by
  induction before with
  | nil => rfl
  | cons b rest ih =>
    obtain ⟨⟨records, rfl⟩, hrest⟩ := List.forall_mem_cons.mp h
    rw [List.cons_append, collect, ih hrest]
    rfl

end Router

/-- All that a shard can show to a scan, without a limit: what the node that serves the scan sees
from its key on. -/
def Shard.CompleteScan (s : Shard) (now : Millis) (r : Request) (ascending : Bool)
    (fields : Option NameSet) (records : List Record) : Prop :=
  ∃ node start, s.cluster.resolve r = .ok node ∧ r.key = some start ∧
    records = s.cluster.store.rows node.name start ascending fields now

theorem Shard.CompleteScan.ordered {s : Shard} {now : Millis} {r : Request} {ascending : Bool}
    {fields : Option NameSet} {records : List Record}
    (h : s.CompleteScan now r ascending fields records) :
    records.Pairwise fun a b => Router.inOrder ascending a b = true := by
  obtain ⟨node, start, _, _, rfl⟩ := h
  exact (s.cluster.store.rows_ordered node.name start ascending fields now).imp
    Router.inOrder_of_before

namespace Router

variable {rt : Router} {now : Millis} {r : Request} {key : Option String} {count : UInt64}
  {ascending : Bool} {fields : Option NameSet} {preference : ReadPreference}

/-- A shard that answers a scan shows the first records of its complete scan. -/
theorem exists_completeScan (ha : r.action = .scan key count ascending fields preference)
    {s : Shard} (hs : s ∈ rt.shards) (h : (s.serve now r).1.body.isException = false) :
    ∃ records, s.CompleteScan now r ascending fields records ∧
      (s.serve now r).1.body = .scan (records.take count.toNat) := by
  have hscan : r.action.isScan = true := by rw [ha]; rfl
  have hmem : (s.serve now r).1 ∈ rt.answers now r := List.mem_map_of_mem hs
  obtain ⟨shown, hbody⟩ := records_of_answers hscan hmem h
  obtain ⟨_, node, start, hr, rfl, _, rfl⟩ := Shard.scan_answered ha hbody
  rw [Store.scan_eq_take] at hbody
  exact ⟨_, ⟨node, start, hr, by rw [Request.key, ha]; rfl, rfl⟩, hbody⟩

theorem collect_of_answered (ha : r.action = .scan key count ascending fields preference)
    (h : ∀ a ∈ rt.answers now r, a.body.isException = false) :
    ∃ complete, List.Forall₂ (fun s records => s.CompleteScan now r ascending fields records)
        rt.shards complete ∧
      collect ((rt.answers now r).map (·.body)) =
        .ok (complete.map (·.take count.toNat)).flatten := by
  have hshard : ∀ s ∈ rt.shards, ∃ records, s.CompleteScan now r ascending fields records ∧
      (s.serve now r).1.body = .scan (records.take count.toNat) :=
    fun s hs => exists_completeScan ha hs (h _ (List.mem_map_of_mem hs))
  choose! complete hcomplete hbody using hshard
  refine ⟨rt.shards.map complete, ?_, ?_⟩
  · exact List.forall₂_map_right_iff.mpr (List.forall₂_same.mpr hcomplete)
  · have hbodies : (rt.answers now r).map (·.body) =
        rt.shards.map fun s => .scan ((complete s).take count.toNat) := by
      rw [answers, List.map_map]
      exact List.map_congr_left hbody
    rw [hbodies, collect_scans, List.map_map, List.flatMap_def]
    rfl

/-- A scan of all shards. If all of them answer, the records are the first ones of the stable merge
of their complete scans, and the wait is the longest of theirs; otherwise the router answers with
the exception of the first shard that fails. -/
theorem scan_gathers_first_records (rt : Router) (now : Millis) {r : Request}
    (ha : r.action = .scan key count ascending fields preference) (hd : r.destination = none)
    (hne : rt.shards ≠ []) :
    let answer := (rt.serve now r).1
    ((∀ a ∈ rt.answers now r, a.body.isException = false) →
      (∃ complete merged,
        List.Forall₂ (fun s records => s.CompleteScan now r ascending fields records)
          rt.shards complete ∧
        StablyMerges ascending complete merged ∧
        answer.body = .scan (merged.take count.toNat)) ∧
      (∀ a ∈ rt.answers now r, a.wait ≤ answer.wait) ∧
      ∃ a ∈ rt.answers now r, a.wait = answer.wait) ∧
    ((∃ a ∈ rt.answers now r, a.body.isException = true) →
      ∃ before a after f, rt.answers now r = before ++ a :: after ∧
        (∀ b ∈ before, b.body.isException = false) ∧ a.body = .exception f ∧
        answer = r.refuse (rt.lastId + 1) f) := by
  intro answer
  have hanswer : answer = (rt.gather now r count ascending).1 := by
    rw [← serve_eq_gather_of_scan ha hd hne]
  constructor
  · intro hall
    obtain ⟨complete, hcomplete, hcollect⟩ := collect_of_answered ha hall
    have hmerged := stablyMerges_mergeSort ascending complete
    have hordered : ∀ part ∈ complete, part.Pairwise fun a b => inOrder ascending a b = true := by
      have hboth := hcomplete.flip.imp fun _ _ h => And.intro (Shard.CompleteScan.ordered h) h
      exact ((List.forall₂_and_left _ _).mp hboth).1
    rw [gather_of_records hcollect] at hanswer
    refine ⟨⟨complete, _, hcomplete, hmerged, ?_⟩, ?_⟩
    · rw [hanswer, ← hmerged.merge_take hordered]
      rfl
    · rw [hanswer]
      exact ⟨(foldl_wait_le_iff.mp (UInt64.le_refl _)).2,
        exists_wait_eq_foldl (by simpa [answers] using hne)⟩
  · rintro ⟨b, hb, hfails⟩
    cases hfirst : (rt.answers now r).find? (·.body.isException) with
    | none => exact absurd hfails (List.find?_eq_none.mp hfirst b hb)
    | some a =>
      obtain ⟨hexception, before, after, hsplit, hbefore⟩ :=
        List.find?_eq_some_iff_append.mp hfirst
      obtain ⟨f, hf⟩ := Body.eq_exception hexception
      have hanswered : ∀ b ∈ before, b.body.isException = false := by simpa using hbefore
      have hcollect : collect ((rt.answers now r).map (·.body)) = .error f := by
        rw [hsplit, List.map_append, List.map_cons, hf]
        refine collect_of_first_exception fun body hbody => ?_
        obtain ⟨b, hb, rfl⟩ := List.mem_map.mp hbody
        exact records_of_answers (by rw [ha]; rfl) (hsplit ▸ List.mem_append_left _ hb)
          (hanswered b hb)
      exact ⟨before, a, after, f, hsplit, hanswered, hf,
        hanswer.trans (gather_of_error hcollect)⟩

/-- Two shards of different nodes and lag that hold versions of one key, each its own; then one of
them is stopped. -/
theorem scan_of_shared_key_is_gathered :
    let one : Shard := { id := 0, cluster := {
      nodes := [{ name := "n1", isPrimary := true }], model := .constant ⟨3, 0⟩ } }
    let two : Shard := { id := 1, cluster := {
      nodes := [{ name := "m1", isPrimary := true }, { name := "m2" }]
      model := .replicated (.ofProfile { defaultDelay := 10 } 0) } }
    let insert (key : String) (v : UInt64) := Request.insert "t" key (.ofList [("v", .nat v)])
    let scan := (Request.scan "t" "" 2).fromClient "c"
    let left := (one.serve 0 (insert "b" 1)).2
    let right := ((two.serve 0 (insert "b" 2)).2.serve 1 (insert "a" 3)).2
    let rt : Router := { shards := [left, right] }
    (∃ complete merged,
      List.Forall₂ (fun s records => s.CompleteScan 5 scan true none records) rt.shards complete ∧
      StablyMerges true complete merged ∧ (rt.serve 5 scan).1.body = .scan (merged.take 2)) ∧
    ∃ f, (Router.serve { shards := [left, right.stop] } 5 scan).1 = scan.refuse 1 f := by
  intro one two insert scan left right rt
  have hall : ∀ a ∈ rt.answers 5 scan, a.body.isException = false := by decide
  have hgathers := scan_gathers_first_records rt 5 (r := scan) rfl rfl (List.cons_ne_nil _ _)
  have hstopped := scan_gathers_first_records { shards := [left, right.stop] } 5 (r := scan) rfl rfl
    (List.cons_ne_nil _ _)
  obtain ⟨_, _, _, f, _, _, _, hrefused⟩ :=
    hstopped.2 ⟨_, List.mem_cons_of_mem _ List.mem_cons_self, rfl⟩
  exact ⟨(hgathers.1 hall).1, f, hrefused⟩

end Router

end ReplicaLag
