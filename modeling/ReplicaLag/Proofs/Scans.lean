import Mathlib.Data.List.Sort
import ReplicaLag.Store

/-!
What reads and scans of a store depend on. A scan is the beginning of the list of all rows that a
node sees from a key on; the rows come in the order of the scan, each for a key under which the node
sees something (`mem_rows_iff`). So two stores give the same reads and scans, at two nodes and two
moments, if the one node sees in the one what the other sees in the other under every key
(`get_congr`, `scan_congr`).
-/

namespace ReplicaLag

theorem History.visible_congr {h : History} {a b : String} {t u : Millis}
    (e : ∀ v ∈ h, v.isVisibleTo a t = v.isVisibleTo b u) : h.visible a t = h.visible b u := by
  induction h with
  | nil => rfl
  | cons v r ih =>
    rw [visible_cons, visible_cons, e v (by simp), ih fun w hw => e w (by simp [hw])]

namespace Store

variable {s : Store}

theorem history_of_mem {key : String} {h : History} (hm : (key, h) ∈ s.histories.entries) :
    s.history key = h := by
  rw [history, SortedMap.getD, SortedMap.get?_eq_some_iff.mpr hm]
  rfl

theorem mem_entries_of_history {key : String} {v : Version} (h : v ∈ s.history key) :
    (key, s.history key) ∈ s.histories.entries := by
  cases hk : s.histories.get? key with
  | none =>
    rw [history, SortedMap.getD, hk] at h
    cases h
  | some hs =>
    have hm := SortedMap.get?_eq_some_iff.mp hk
    rw [history_of_mem hm]
    exact hm

theorem mem_of_present {node key : String} {t : Millis} {v : Version}
    (h : s.present node key t = some v) : v ∈ s.history key :=
  List.mem_of_find?_eq_some (Option.filter_eq_some_iff.mp h).1

theorem mem_keys_prepend {key k : String} {v : Version} :
    k ∈ (s.prepend key v).keys ↔ k = key ∨ k ∈ s.keys := SortedMap.mem_keys_insert

/-- Every stored version has a property. -/
def Each (P : Version → Prop) (s : Store) : Prop := ∀ key, ∀ v ∈ s.history key, P v

theorem each_empty (P : Version → Prop) : empty.Each P := by simp [Each]

theorem Each.prepend {P : Version → Prop} {v : Version} (h : s.Each P) (hv : P v) (key : String) :
    (s.prepend key v).Each P := by
  intro k w hw
  rw [history_prepend] at hw
  split at hw
  · rcases List.mem_cons.mp hw with rfl | hw
    · exact hv
    · exact h key w hw
  · exact h k w hw

/-- The order in which a scan comes to keys. -/
def before (ascending : Bool) (a b : String) : Prop := if ascending then a < b else b < a

theorem before_asymm {ascending : Bool} {a b : String} (h : before ascending a b) :
    ¬ before ascending b a := by
  cases ascending with
  | true => exact String.lt_asymm h
  | false => exact String.lt_asymm (a := b) (b := a) h

/-- The keys that a scan from `start` may come to. -/
def reaches (ascending : Bool) (start key : String) : Prop :=
  if ascending then start ≤ key else key ≤ start

/-- The histories from `start` on, in the order of a scan. -/
def walk (s : Store) (start : String) (ascending : Bool) : List (String × History) :=
  if ascending then s.histories.above start else s.histories.below start

theorem mem_walk_iff {start : String} {ascending : Bool} {e : String × History} :
    e ∈ s.walk start ascending ↔ e ∈ s.histories.entries ∧ reaches ascending start e.1 := by
  cases ascending <;>
    simp [walk, reaches, SortedMap.above, SortedMap.below, List.mem_filter]

theorem walk_ordered (s : Store) (start : String) (ascending : Bool) :
    (s.walk start ascending).Pairwise fun a b => before ascending a.1 b.1 := by
  cases ascending with
  | true => exact s.histories.sorted.filter _
  | false => exact List.pairwise_reverse.mpr (s.histories.sorted.filter _)

/-- All records that a node sees from `start` on, in the order of a scan. -/
def rows (s : Store) (node start : String) (ascending : Bool) (columns : Option NameSet)
    (t : Millis) : List Record :=
  (s.walk start ascending).filterMap fun e =>
    (History.present e.2 node t).map fun v => ⟨e.1, v.restrict columns⟩

/-- What is found is the beginning of all there is to find. -/
theorem collect_eq {node : String} {count : Nat} {columns : Option NameSet} {t : Millis}
    {found : List Record} (h : found.length < count) (walk : List (String × History)) :
    collect node count columns t found walk =
      found ++ (walk.filterMap fun e =>
        (History.present e.2 node t).map fun v => (⟨e.1, v.restrict columns⟩ : Record)).take
          (count - found.length) := by
  induction walk generalizing found with
  | nil => rw [collect, List.filterMap_nil, List.take_nil, List.append_nil]
  | cons e rest ih =>
    rw [collect]
    cases hv : History.present e.2 node t with
    | none => rw [List.filterMap_cons_none (by rw [hv]; rfl), ih h]
    | some v =>
      have hfound : (found ++ [(⟨e.1, v.restrict columns⟩ : Record)]).length =
          found.length + 1 := by rw [List.length_append, List.length_singleton]
      have hroom : count - found.length = count - (found.length + 1) + 1 := by omega
      rw [List.filterMap_cons_some (by rw [hv]; rfl), hroom, List.take_succ_cons]
      simp only [hfound]
      split
      next hfull => rw [hfull, Nat.sub_self, List.take_zero]
      next hmore =>
        rw [ih (by rw [hfound]; omega), hfound, List.append_assoc, List.singleton_append]

theorem scan_eq_take (s : Store) (node start : String) (count : Nat) (ascending : Bool)
    (columns : Option NameSet) (t : Millis) :
    s.scan node start count ascending columns t =
      (s.rows node start ascending columns t).take count := by
  rw [scan]
  split
  next hzero => rw [hzero, List.take_zero]
  next hpos =>
    have hroom : ([] : List Record).length < count := Nat.pos_of_ne_zero hpos
    exact collect_eq hroom (s.walk start ascending)

theorem rows_ordered (s : Store) (node start : String) (ascending : Bool) (columns : Option NameSet)
    (t : Millis) :
    (s.rows node start ascending columns t).Pairwise fun a b => before ascending a.key b.key := by
  refine List.Pairwise.filterMap _ (fun a b hab x hx y hy => ?_) (s.walk_ordered start ascending)
  obtain ⟨_, _, rfl⟩ := Option.map_eq_some_iff.mp hx
  obtain ⟨_, _, rfl⟩ := Option.map_eq_some_iff.mp hy
  exact hab

/-- There is a row for each key in reach under which the node sees something. -/
theorem mem_rows_iff {node start : String} {ascending : Bool} {columns : Option NameSet}
    {t : Millis} {x : Record} :
    x ∈ s.rows node start ascending columns t ↔
      reaches ascending start x.key ∧
        ∃ v, s.present node x.key t = some v ∧ x.version = v.restrict columns := by
  rw [rows, List.mem_filterMap]
  constructor
  · rintro ⟨⟨key, h⟩, he, hx⟩
    obtain ⟨hm, hreach⟩ := mem_walk_iff.mp he
    obtain ⟨v, hv, rfl⟩ := Option.map_eq_some_iff.mp hx
    exact ⟨hreach, v, by rw [present, history_of_mem hm, hv], rfl⟩
  · rintro ⟨hreach, v, hv, hx⟩
    have hm := mem_entries_of_history (mem_of_present hv)
    refine ⟨(x.key, s.history x.key), mem_walk_iff.mpr ⟨hm, hreach⟩, ?_⟩
    rw [show History.present (s.history x.key) node t = some v from hv, Option.map_some, ← hx]

theorem key_mem_of_mem_rows {node start : String} {ascending : Bool} {columns : Option NameSet}
    {t : Millis} {x : Record} (h : x ∈ s.rows node start ascending columns t) : x.key ∈ s.keys := by
  obtain ⟨_, v, hv, _⟩ := mem_rows_iff.mp h
  exact List.mem_map_of_mem (mem_entries_of_history (mem_of_present hv))

theorem get_of_present {node key : String} {t : Millis} {v : Version}
    (h : s.present node key t = some v) (columns : Option NameSet) :
    s.get node key columns t = v.restrict columns := by
  have hvisible : s.visible node key t = some v := (Option.filter_eq_some_iff.mp h).1
  rw [get, hvisible]
  rfl

/-- A key is read as null unless a version is there to be changed. -/
theorem get_isNull (s : Store) (node key : String) (columns : Option NameSet) (t : Millis) :
    (s.get node key columns t).isNull = (s.present node key t).isNone := by
  have hp : s.present node key t = (s.visible node key t).filter (!·.isNull) := rfl
  rw [get, hp]
  cases s.visible node key t with
  | none => rfl
  | some v =>
    rw [Option.map_some, Option.getD_some, Version.restrict_isNull]
    cases hn : v.isNull <;> simp [Option.filter, hn]

/-- A row shows what a read of its key gives. -/
theorem mem_rows_iff_get {node start : String} {ascending : Bool} {columns : Option NameSet}
    {t : Millis} {x : Record} :
    x ∈ s.rows node start ascending columns t ↔ reaches ascending start x.key ∧
      (s.get node x.key columns t).isNull = false ∧ x.version = s.get node x.key columns t := by
  rw [mem_rows_iff, get_isNull]
  cases hp : s.present node x.key t with
  | none => simp
  | some v => simp [get_of_present hp]

section Congr

variable {u : Store} {a b : String} {t t' : Millis}

theorem get_congr {key : String} (e : s.visible a key t = u.visible b key t')
    (columns : Option NameSet) : s.get a key columns t = u.get b key columns t' := by
  rw [get, get, e]

theorem rows_congr (e : ∀ key, s.visible a key t = u.visible b key t') (start : String)
    (ascending : Bool) (columns : Option NameSet) :
    s.rows a start ascending columns t = u.rows b start ascending columns t' := by
  have asymm : Std.Asymm fun x y : Record => before ascending x.key y.key :=
    ⟨fun _ _ => before_asymm⟩
  -- rows in order are known by what is among them
  refine List.Pairwise.eq_of_mem_iff (s.rows_ordered a start ascending columns t)
    (u.rows_ordered b start ascending columns t') fun x => ?_
  have hp : s.present a x.key t = u.present b x.key t' := congrArg (·.filter (!·.isNull)) (e x.key)
  rw [mem_rows_iff, mem_rows_iff, hp]

theorem scan_congr (e : ∀ key, s.visible a key t = u.visible b key t') (start : String)
    (count : Nat) (ascending : Bool) (columns : Option NameSet) :
    s.scan a start count ascending columns t = u.scan b start count ascending columns t' := by
  rw [scan_eq_take, scan_eq_take, rows_congr e]

end Congr

theorem get_of_unseen {node key : String} {t : Millis} (h : s.visible node key t = none)
    (columns : Option NameSet) : s.get node key columns t = .null := by
  rw [get, h]
  rfl

theorem scan_of_unseen {node : String} {t : Millis} (h : ∀ key, s.visible node key t = none)
    (start : String) (count : Nat) (ascending : Bool) (columns : Option NameSet) :
    s.scan node start count ascending columns t = [] := by
  have hr : s.rows node start ascending columns t = [] := by
    refine List.eq_nil_iff_forall_not_mem.mpr fun x hx => ?_
    obtain ⟨_, v, hv, _⟩ := mem_rows_iff.mp hx
    rw [present, History.present, ← visible, h] at hv
    cases hv
  rw [scan_eq_take, hr, List.take_nil]

/-! What is read is stored, with the columns that were asked for, or nothing. -/

theorem get_returns {P : Version → Prop} (hs : s.Each P) (node key : String)
    (columns : Option NameSet) (t : Millis) :
    s.get node key columns t = .null ∨
      ∃ w wanted, P w ∧ s.get node key columns t = w.restrict wanted := by
  cases hv : s.visible node key t with
  | none => exact .inl (get_of_unseen hv columns)
  | some w =>
    exact .inr ⟨w, columns, hs key w (List.mem_of_find?_eq_some hv), by rw [get, hv]; rfl⟩

theorem scan_returns {P : Version → Prop} (hs : s.Each P) {node start : String} {count : Nat}
    {ascending : Bool} {columns : Option NameSet} {t : Millis} {x : Record}
    (hx : x ∈ s.scan node start count ascending columns t) :
    ∃ w wanted, P w ∧ x.version = w.restrict wanted := by
  rw [scan_eq_take] at hx
  obtain ⟨_, w, hw, hx⟩ := mem_rows_iff.mp (List.mem_of_mem_take hx)
  exact ⟨w, columns, hs x.key w (mem_of_present hw), hx⟩

end Store

end ReplicaLag
