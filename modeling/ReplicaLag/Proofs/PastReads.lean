import ReplicaLag.Proofs.Serving
import ReplicaLag.Store.Run

/-!
Reads of the past. A write puts one version in front of the history of its key, and nobody sees a
version before the moment of its writing, however short its delays. Main statement: writes that all
come later than some moment, accepted or not, change no read and no scan as of that moment, and
leave each history as the end of a longer one.
-/

namespace ReplicaLag

theorem Version.not_isVisibleTo {v : Version} {t : Millis} (h : t < v.writtenAt) (node : String) :
    ¬ v.isVisibleTo node t = true := by
  intro hv
  obtain ⟨d, _, hle⟩ := Version.isVisibleTo_iff.mp hv
  have hwritten : v.writtenAt ≤ t := UInt64.le_trans (Millis.le_plus _ d) hle
  exact UInt64.not_lt.mpr hwritten h

theorem History.visible_append_of_later {newer : History} {t : Millis}
    (h : ∀ v ∈ newer, t < v.writtenAt) (older : History) (node : String) :
    History.visible (newer ++ older) node t = older.visible node t := by
  induction newer with
  | nil => rfl
  | cons v newer ih =>
    obtain ⟨hv, hnewer⟩ := List.forall_mem_cons.mp h
    rw [List.cons_append, History.visible_cons, if_neg (v.not_isVisibleTo hv node), ih hnewer]

namespace Store

variable {s u : Store} {t : Millis}

/-- A write that is accepted puts a version of its own moment in front. -/
theorem write_eq_ok {w : StoreWrite} {v : Version} (h : s.write w = .ok (v, u)) :
    u = s.prepend w.key v ∧ v.writtenAt = w.moment := by
  cases w with
  | insert node key version =>
    cases hi : s.insert node.name key version with
    | error e => rw [write, hi] at h; cases h
    | ok _ =>
      rw [write, hi] at h
      cases h
      exact ⟨(insert_eq_ok_iff.mp hi).2, rfl⟩
  | update node key version =>
    obtain ⟨base, _, he⟩ := update_eq_ok_iff.mp h
    cases he
    exact ⟨rfl, rfl⟩
  | delete node key visibility moment =>
    cases hd : s.delete node key visibility moment with
    | error e => rw [write, hd] at h; cases h
    | ok _ =>
      rw [write, hd] at h
      cases h
      exact ⟨(delete_eq_ok_iff.mp hd).2, rfl⟩

/-- The second store is the first with later versions put in front. -/
def GrownAfter (t : Millis) (s u : Store) : Prop :=
  ∀ key, ∃ newer, u.history key = newer ++ s.history key ∧ ∀ v ∈ newer, t < v.writtenAt

theorem GrownAfter.refl (t : Millis) (s : Store) : GrownAfter t s s :=
  fun _ => ⟨[], rfl, by simp⟩

theorem GrownAfter.prepend (h : GrownAfter t s u) {v : Version} (hv : t < v.writtenAt)
    (key : String) : GrownAfter t s (u.prepend key v) := by
  intro k
  obtain ⟨newer, hk, hnewer⟩ := h k
  by_cases hkey : k = key
  · refine ⟨v :: newer, ?_, List.forall_mem_cons.mpr ⟨hv, hnewer⟩⟩
    rw [history_prepend, if_pos hkey, ← hkey, hk, List.cons_append]
  · exact ⟨newer, by rw [history_prepend, if_neg hkey, hk], hnewer⟩

theorem GrownAfter.step (h : GrownAfter t s u) {w : StoreWrite} (hw : t < w.moment) :
    GrownAfter t s (u.step (.write w)) := by
  cases hu : u.write w with
  | error e =>
    rw [Store.step, hu]
    exact h
  | ok b =>
    obtain ⟨v, written⟩ := b
    obtain ⟨rfl, hmoment⟩ := write_eq_ok hu
    rw [Store.step, hu]
    exact h.prepend (hmoment ▸ hw) w.key

theorem GrownAfter.run (h : GrownAfter t s u) {writes : List StoreWrite}
    (later : ∀ w ∈ writes, t < w.moment) : GrownAfter t s (u.run (writes.map .write)) := by
  induction writes generalizing u with
  | nil => exact h
  | cons w rest ih =>
    obtain ⟨hw, hrest⟩ := List.forall_mem_cons.mp later
    exact ih (h.step hw) hrest

theorem GrownAfter.visible_eq (h : GrownAfter t s u) (node key : String) :
    u.visible node key t = s.visible node key t := by
  obtain ⟨newer, hk, hnewer⟩ := h key
  rw [visible, hk, History.visible_append_of_later hnewer, visible]

/-- Writes of later moments leave every read and scan as of `t` as it was, metadata included, and
each history at the end of what it becomes. -/
theorem run_keeps_past (s : Store) {t : Millis} {writes : List StoreWrite}
    (later : ∀ w ∈ writes, t < w.moment) :
    let u := s.run (writes.map .write)
    (∀ node key columns, u.get node key columns t = s.get node key columns t) ∧
    (∀ node start count ascending columns,
      u.scan node start count ascending columns t = s.scan node start count ascending columns t) ∧
    ∀ key, s.history key <:+ u.history key := by
  intro u
  have hgrown : GrownAfter t s u := (GrownAfter.refl t s).run later
  refine ⟨fun node key columns => ?_, fun node start count ascending columns => ?_, fun key => ?_⟩
  · exact get_congr (hgrown.visible_eq node key) columns
  · exact scan_congr (hgrown.visible_eq node) start count ascending columns
  · obtain ⟨newer, hk, _⟩ := hgrown key
    exact ⟨newer, hk.symm⟩

/-- What is written at 6 without delay, under the same key and under others, and refused at 7, does
not show at 5. -/
theorem later_writes_do_not_show_at_five :
    let node : Node := { name := "n1" }
    let version (t : Millis) (n : UInt64) : Version :=
      (Version.ofValues (.ofList [("v", .nat n)])).stamped node t (.ofList [("n1", 0)])
    let s := Store.empty.run [.write (.insert node "k" (version 5 1))]
    let writes : List StoreWrite := [.update node "k" (version 6 2), .insert node "a" (version 6 3),
      .delete node "k" (.ofList [("n1", Millis.last)]) 6, .insert node "k" (version 7 4)]
    let u := s.run (writes.map .write)
    (∀ w ∈ writes, 5 < w.moment) ∧ u.get "n1" "k" none 5 = s.get "n1" "k" none 5 ∧
      u.scan "n1" "a" 9 true none 5 = s.scan "n1" "a" 9 true none 5 := by
  intro node version s writes u
  have later : ∀ w ∈ writes, 5 < w.moment := by decide
  obtain ⟨hget, hscan, _⟩ := run_keeps_past s later
  exact ⟨later, hget "n1" "k" none, hscan "n1" "a" 9 true none⟩

end Store

end ReplicaLag
