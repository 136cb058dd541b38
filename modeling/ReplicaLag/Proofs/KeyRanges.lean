import Mathlib.Data.List.Dedup
import ReplicaLag.Proofs.PlacedKeys

/-!
Key ranges. In order and each once, the boundaries that are at most a key stand in front, and their
number is the range of the key (`lt_rangeOf_iff`); so ranges follow one another as keys do
(`rangeOf_eq_iff`). Shards that hold the ranges of a table answer a scan one after another: upwards,
a merge has nothing to do but append (`Router.Places.merge_ranges`). Main statement: how boundaries
place keys, and what a scan of all shards shows after any run.
-/

namespace ReplicaLag

section Prefix

variable {α : Type} {p : α → Bool} {l : List α}

/-- Where a test that fails once fails ever after, those that pass it stand in front. -/
theorem lt_length_takeWhile_iff (h : l.Pairwise fun x y => p y = true → p x = true) {i : Nat} :
    i < (l.takeWhile p).length ↔ ∃ x, l[i]? = some x ∧ p x = true := by
  induction l generalizing i with
  | nil => simp
  | cons a r ih =>
    have ⟨ha, hr⟩ := List.pairwise_cons.mp h
    by_cases hp : p a = true
    · rw [List.takeWhile_cons_of_pos hp, List.length_cons]
      cases i with
      | zero => simp [hp]
      | succ i => rw [Nat.succ_lt_succ_iff, List.getElem?_cons_succ, ih hr]
    · rw [List.takeWhile_cons_of_neg hp]
      have hnone : ¬ ∃ x, (a :: r)[i]? = some x ∧ p x = true := by
        rintro ⟨x, hx, hpx⟩
        rcases List.mem_cons.mp (List.mem_of_getElem? hx) with rfl | hm
        · exact hp hpx
        · exact hp (ha x hm hpx)
      exact iff_of_false (Nat.not_lt_zero i) hnone

theorem takeWhile_eq_filter (h : l.Pairwise fun x y => p y = true → p x = true) :
    l.takeWhile p = l.filter p := by
  induction l with
  | nil => rfl
  | cons a r ih =>
    have ⟨ha, hr⟩ := List.pairwise_cons.mp h
    by_cases hp : p a = true
    · rw [List.takeWhile_cons_of_pos hp, List.filter_cons_of_pos hp, ih hr]
    · rw [List.takeWhile_cons_of_neg hp, List.filter_cons_of_neg hp, eq_comm]
      exact List.filter_eq_nil_iff.mpr fun x hx hpx => hp (ha x hx hpx)

end Prefix

namespace NameSet

variable {l l' : List String}

theorem mem_names_ofNames {n : String} : n ∈ (ofNames l).names ↔ n ∈ l := by
  rw [names, SortedMap.mem_keys]
  simp only [ofNames, SortedMap.get?_ofList_map (fun _ => ())]
  by_cases h : n ∈ l <;> simp [h]

theorem ofNames_congr (h : ∀ n, n ∈ l ↔ n ∈ l') : ofNames l = ofNames l' := by
  refine SortedMap.ext_get? fun n => ?_
  simp only [ofNames, SortedMap.get?_ofList_map (fun _ => ()), h]

theorem names_ordered (s : NameSet) : s.names.Pairwise (· < ·) := List.pairwise_map.mpr s.sorted

end NameSet

namespace Placement

/-- The boundaries in order, each once. -/
def ordered (boundaries : List String) : List String := (NameSet.ofNames boundaries).names

/-- The keys of a range, from the boundary below it on and below the next one. The first range has
no boundary below it, the last none above it. -/
structure InRange (sorted : List String) (i : Nat) (key : String) : Prop where
  isRange : i ≤ sorted.length
  lower : ∀ b, 0 < i → sorted[i - 1]? = some b → b ≤ key
  upper : ∀ b, sorted[i]? = some b → key < b

variable {boundaries : List String} {key : String} {i : Nat}

theorem ordered_front (boundaries : List String) (key : String) :
    (ordered boundaries).Pairwise fun x y =>
      decide (y ≤ key) = true → decide (x ≤ key) = true := by
  refine (NameSet.names_ordered _).imp fun {x y} hxy hy => decide_eq_true ?_
  exact String.le_trans (String.not_lt.mp (String.lt_asymm hxy)) (of_decide_eq_true hy)

theorem lt_rangeOf_iff :
    i < rangeOf boundaries key ↔ ∃ b, (ordered boundaries)[i]? = some b ∧ b ≤ key := by
  change i < ((ordered boundaries).takeWhile (· ≤ key)).length ↔ _
  rw [lt_length_takeWhile_iff (ordered_front boundaries key)]
  simp only [decide_eq_true_eq]

theorem rangeOf_le_length (boundaries : List String) (key : String) :
    rangeOf boundaries key ≤ (ordered boundaries).length :=
  (List.takeWhile_sublist _).length_le

/-- The range of a key counts the boundaries that are not above it. -/
theorem rangeOf_eq_countP (boundaries : List String) (key : String) :
    rangeOf boundaries key = boundaries.dedup.countP (· ≤ key) := by
  have hperm : (ordered boundaries).Perm boundaries.dedup := by
    refine (List.perm_ext_iff_of_nodup (SortedMap.keys_nodup _) (List.nodup_dedup _)).mpr ?_
    intro b
    rw [List.mem_dedup]
    exact NameSet.mem_names_ofNames
  rw [← hperm.countP_eq, List.countP_eq_length_filter,
    ← takeWhile_eq_filter (ordered_front boundaries key)]
  rfl

theorem rangeOf_mono (boundaries : List String) {k₁ k₂ : String} (h : k₁ ≤ k₂) :
    rangeOf boundaries k₁ ≤ rangeOf boundaries k₂ := by
  rw [rangeOf_eq_countP, rangeOf_eq_countP]
  refine List.countP_mono_left fun b _ hb => decide_eq_true ?_
  exact String.le_trans (of_decide_eq_true hb) h

theorem rangeOf_eq_iff : rangeOf boundaries key = i ↔ InRange (ordered boundaries) i key := by
  constructor
  · rintro rfl
    refine ⟨rangeOf_le_length boundaries key, fun b hpos hb => ?_, fun b hb => ?_⟩
    · obtain ⟨c, hc, hle⟩ := lt_rangeOf_iff.mp (Nat.sub_one_lt_of_lt hpos)
      rwa [Option.some.inj (hb.symm.trans hc)]
    · refine String.not_le.mp fun hle => ?_
      exact Nat.lt_irrefl _ (lt_rangeOf_iff.mpr ⟨b, hb, hle⟩)
  · intro h
    refine Nat.le_antisymm (Nat.not_lt.mp fun hlt => ?_) (Nat.not_lt.mp fun hlt => ?_)
    · obtain ⟨b, hb, hle⟩ := lt_rangeOf_iff.mp hlt
      exact String.not_le.mpr (h.upper b hb) hle
    · -- the boundary below the range is at most the key, so it counts too
      have hpos : 0 < i := Nat.zero_lt_of_lt hlt
      have hi : i - 1 < (ordered boundaries).length := by
        have := h.isRange
        omega
      have hb := List.getElem?_eq_getElem hi
      have := lt_rangeOf_iff.mpr ⟨_, hb, h.lower _ hpos hb⟩
      omega

theorem rangeOf_boundary {b : String} (hb : (ordered boundaries)[i]? = some b) :
    rangeOf boundaries b = i + 1 := by
  refine rangeOf_eq_iff.mpr ⟨?_, fun c _ hc => ?_, fun c hc => ?_⟩
  · exact (List.getElem?_eq_some_iff.mp hb).1
  · rw [Nat.add_sub_cancel] at hc
    obtain rfl := Option.some.inj (hc.symm.trans hb)
    exact String.le_refl c
  · obtain ⟨hi, rfl⟩ := List.getElem?_eq_some_iff.mp hb
    obtain ⟨hj, rfl⟩ := List.getElem?_eq_some_iff.mp hc
    have hordered := List.pairwise_iff_getElem.mp (NameSet.names_ordered (.ofNames boundaries))
    exact hordered i (i + 1) hi hj (Nat.lt_succ_self i)

theorem rangeOf_le_of_lt_boundary {b : String} (hb : (ordered boundaries)[i]? = some b)
    (h : key < b) : rangeOf boundaries key ≤ i := by
  refine Nat.not_lt.mp fun hlt => ?_
  obtain ⟨c, hc, hle⟩ := lt_rangeOf_iff.mp hlt
  rw [Option.some.inj (hc.symm.trans hb)] at hle
  exact String.not_le.mpr h hle

theorem shardOf_ranges_mono (boundaries : List String) (shards : Nat) (hash : String → UInt64)
    {k₁ k₂ : String} (h : k₁ ≤ k₂) :
    (ranges boundaries).shardOf (some k₁) shards hash ≤
      (ranges boundaries).shardOf (some k₂) shards hash := by
  have := rangeOf_mono boundaries h
  simp only [shardOf]
  omega

end Placement

namespace Router

variable {rt : Router} {table : String} {boundaries : List String} {now : Millis} {r : Request}
  {key : Option String} {count : UInt64} {fields : Option NameSet} {preference : ReadPreference}
  {parts : List (List Record)}

theorem placeOf_ranges (h : rt.placements.get? table = some (.ranges boundaries))
    (key : Option String) :
    rt.placeOf table key =
      (Placement.ranges boundaries).shardOf key rt.shards.length rt.hash := by
  rw [placeOf, h]
  rfl

/-- What the shards answer is in order as a whole: a later shard holds later keys. -/
theorem Places.parts_ordered (h : rt.Places table)
    (hranges : rt.placements.get? table = some (.ranges boundaries))
    (ha : r.action = .scan key count true fields preference)
    (hparts : (rt.answers now r).map (·.body) = parts.map .scan) :
    parts.flatten.Pairwise fun a b => Store.before true a.key b.key := by
  refine List.pairwise_flatten.mpr ⟨fun part hpart => ?_, List.pairwise_iff_getElem.mpr ?_⟩
  · obtain ⟨i, hi⟩ := List.mem_iff_getElem?.mp hpart
    obtain ⟨s, node, start, _, _, rfl⟩ := exists_rows ha hparts hi
    exact (s.cluster.store.rows_ordered node start true fields now).take
  · intro i j hi hj hij x hx y hy
    have hxi := (h.part ha hparts (List.getElem?_eq_getElem hi)).1 x hx
    have hyj := (h.part ha hparts (List.getElem?_eq_getElem hj)).1 y hy
    rw [placeOf_ranges hranges] at hxi hyj
    -- were the keys the other way round, so were the shards
    refine String.not_le.mp fun hle => ?_
    have hmono := Placement.shardOf_ranges_mono boundaries rt.shards.length rt.hash hle
    omega

/-- Upwards, the merge of what the shards answer is one answer after another. -/
theorem Places.merge_ranges (h : rt.Places table)
    (hranges : rt.placements.get? table = some (.ranges boundaries))
    (ha : r.action = .scan key count true fields preference)
    (hparts : (rt.answers now r).map (·.body) = parts.map .scan) :
    merge true count.toNat parts.flatten = parts.flatten.take count.toNat := by
  have hordered := (h.parts_ordered hranges ha hparts).imp inOrder_of_before
  rw [merge_eq, List.mergeSort_of_pairwise hordered]

theorem places_of_empty (h : ∀ s ∈ rt.shards, s.cluster.store = Store.empty) :
    rt.Places table := by
  intro i s hs key hkey
  rw [h s (List.mem_of_getElem? hs)] at hkey
  cases hkey

end Router

namespace LiveRouter

variable {l : LiveRouter} {table : String} {boundaries : List String} {events : List RouterEvent}
  {r : Request} {key : Option String} {count : UInt64} {fields : Option NameSet}
  {preference : ReadPreference}

/-- After any run an upward scan of all shards shows the records of one shard after those of the
one before it. -/
theorem run_scan_ranges (hempty : ∀ s ∈ l.router.shards, s.cluster.store = Store.empty)
    (hranges : l.router.placements.get? table = some (.ranges boundaries))
    (he : ∀ e ∈ events, e.concerns table)
    (ha : r.action = .scan key count true fields preference) (hd : r.destination = none)
    (hanswered : ((l.run events).2.request r).1.body.isException = false) :
    ∃ parts : List (List Record),
      ((l.run events).2.router.answers (l.run events).2.clock.now r).map (·.body) =
        parts.map .scan ∧
      (∀ i part, parts[i]? = some part → ∀ x ∈ part,
        (Placement.ranges boundaries).shardOf (some x.key) l.router.shards.length
          l.router.hash = i) ∧
      ((l.run events).2.request r).1.body = .scan (parts.flatten.take count.toNat) := by
  have hlayout := l.run_layout events
  have hplacements : (l.run events).2.router.placements = l.router.placements :=
    congrArg Router.Layout.placements hlayout
  have hranges' : (l.run events).2.router.placements.get? table = some (.ranges boundaries) :=
    hplacements ▸ hranges
  have hplaces := run_places (Router.places_of_empty hempty) he
  obtain ⟨_, parts, hparts, hbody⟩ := Router.scan_parts ha hd hanswered
  refine ⟨parts, hparts, fun i part hi x hx => ?_, ?_⟩
  · rw [← Router.placeOf_ranges hranges, ← Router.placeOf_of_layout hlayout]
    exact (hplaces.part ha hparts hi).1 x hx
  · rw [← hplaces.merge_ranges hranges' ha hparts]
    exact hbody

end LiveRouter

namespace Placement

/-- Key ranges are contiguous and leave no key out. The shard of a key is the number of different
boundaries up to the key, or the last shard if there are fewer shards than that; so shards follow
one another as keys do, a boundary starts the shard above it, and only the set of boundaries counts.
Hashes play no part. After any run of requests for a table that is placed so, an upward scan of all
shards shows the records of one shard after another. -/
theorem ranges_contiguous (boundaries : List String) (hash : String → UInt64) {shards : Nat}
    (hshards : 0 < shards) :
    (ordered boundaries).Pairwise (· < ·) ∧ (∀ b, b ∈ ordered boundaries ↔ b ∈ boundaries) ∧
    let shard (key : String) := (ranges boundaries).shardOf (some key) shards hash
    (∀ (r : Request) (key : String), r.key = some key →
      (ranges boundaries).shardOf r.key shards hash =
        min (boundaries.dedup.countP (· ≤ key)) (shards - 1)) ∧
    (∀ key, shard key < shards) ∧
    (∀ k₁ k₂, k₁ ≤ k₂ → shard k₁ ≤ shard k₂) ∧
    (∀ i b, (ordered boundaries)[i]? = some b →
      shard b = min (i + 1) (shards - 1) ∧ ∀ key < b, shard key ≤ i) ∧
    (∀ i < shards - 1, ∀ key, shard key = i ↔ InRange (ordered boundaries) i key) ∧
    (∀ others : List String, (∀ b, b ∈ others ↔ b ∈ boundaries) →
      ∀ key, (ranges others).shardOf key shards hash =
        (ranges boundaries).shardOf key shards hash) ∧
    ∀ (l : LiveRouter) (table : String) (events : List RouterEvent),
      l.router.shards.length = shards →
      (∀ s ∈ l.router.shards, s.cluster.store = Store.empty) →
      l.router.placements.get? table = some (ranges boundaries) →
      (∀ e ∈ events, e.concerns table) →
      let m := (l.run events).2
      ∀ r key count fields preference, r.action = .scan key count true fields preference →
        r.destination = none → (m.request r).1.body.isException = false →
        ∃ parts : List (List Record),
          (m.router.answers m.clock.now r).map (·.body) = parts.map .scan ∧
          (∀ i part, parts[i]? = some part → ∀ x ∈ part, shard x.key = i) ∧
          (m.request r).1.body = .scan (parts.flatten.take count.toNat) := by
  refine ⟨NameSet.names_ordered _, fun b => NameSet.mem_names_ofNames, ?_⟩
  intro shard
  refine ⟨?_, fun key => shardOf_lt _ _ _ hshards, fun k₁ k₂ h => shardOf_ranges_mono _ _ _ h,
    ?_, ?_, ?_, ?_⟩
  · intro r key hkey
    rw [hkey, ← rangeOf_eq_countP]
    rfl
  · intro i b hb
    have hbelow : ∀ key < b, shard key ≤ i := fun key hlt =>
      Nat.le_trans (Nat.min_le_left _ _) (rangeOf_le_of_lt_boundary hb hlt)
    refine ⟨?_, hbelow⟩
    simp only [shard, shardOf, rangeOf_boundary hb]
  · intro i hi key
    rw [← rangeOf_eq_iff]
    simp only [shard, shardOf]
    omega
  · intro others hsame key
    cases key with
    | none => rfl
    | some k => simp only [shardOf, rangeOf, NameSet.ofNames_congr hsame]
  · rintro l table events rfl hempty hranges he m r key count fields preference ha hd hanswered
    exact LiveRouter.run_scan_ranges hempty hranges he ha hd hanswered

/-- Boundaries out of order, one of them twice, a key in each of the three ranges, and a scan for
two of the keys. -/
theorem three_ranges_are_scanned_in_order :
    let boundaries := ["m", "g", "m"]
    let cluster : Cluster :=
      { nodes := [{ name := "n1", isPrimary := true }], model := .constant ⟨3, 0⟩ }
    let l : LiveRouter := ⟨⟨0⟩, {
      shards := [{ id := 0, cluster }, { id := 1, cluster }, { id := 2, cluster }]
      placements := .ofList [("t", .ranges boundaries)] }⟩
    let insert (key : String) := Request.insert "t" key (.ofList [("v", .nat 1)])
    let events : List RouterEvent :=
      [.request (insert "z"), .request (insert "g"), .request (insert "a"), .advance 5]
    let scan := Request.scan "t" "" 2
    ordered boundaries = ["g", "m"] ∧ (ranges boundaries).shardOf (some "g") 3 = 1 ∧
      ((ranges boundaries).shardOf (some "john") 3 = 1 ↔ InRange (ordered boundaries) 1 "john") ∧
      (ranges ["g", "m"]).shardOf (some "z") 3 = (ranges boundaries).shardOf (some "z") 3 ∧
      ∃ parts : List (List Record), parts.length = 3 ∧
        ((l.run events).2.request scan).1.body = .scan (parts.flatten.take 2) := by
  intro boundaries cluster l insert events scan
  obtain ⟨_, _, _, _, _, hboundary, hrange, hset, hscan⟩ :=
    ranges_contiguous boundaries keyHash (by decide : 0 < 3)
  have hsame : ∀ b, b ∈ ["g", "m"] ↔ b ∈ boundaries := by
    simp [boundaries, or_comm]
  have hempty : ∀ s ∈ l.router.shards, s.cluster.store = Store.empty := by
    simp [l, cluster]
  have he : ∀ e ∈ events, e.concerns "t" := by
    simp [events, insert, RouterEvent.concerns, Request.insert]
  have hanswered : ((l.run events).2.request scan).1.body.isException = false := by decide
  obtain ⟨parts, hparts, _, hbody⟩ :=
    hscan l "t" events rfl hempty rfl he scan (some "") 2 none .primary rfl rfl hanswered
  have hlength : parts.length = (l.run events).2.router.shards.length := by
    simpa [Router.answers] using (congrArg List.length hparts).symm
  exact ⟨by decide, (hboundary 0 "g" (by decide)).1, hrange 1 (by decide) "john",
    hset ["g", "m"] hsame (some "z"), parts, hlength.trans (by decide), hbody⟩

end Placement

end ReplicaLag
