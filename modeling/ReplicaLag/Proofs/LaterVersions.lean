import ReplicaLag.Proofs.Scans

/-!
Versions that were written later. A node that looks as much later sees them as it would have seen
the earlier ones, and a store of them is read and written to alike (`get_later`, `insert_later`).
Sums with a delay stop at the last moment, so this needs room up to there.
-/

namespace ReplicaLag

namespace Millis

variable {t u s d c : Millis}

/-- The moment `c` after `t` comes before the last. -/
def HasRoom (t c : Millis) : Prop := t.toNat + c.toNat < last.toNat

instance (t c : Millis) : Decidable (t.HasRoom c) := inferInstanceAs (Decidable (_ < _))

theorem HasRoom.toNat_add (h : t.HasRoom c) : (t + c).toNat = t.toNat + c.toNat := by
  rw [HasRoom, toNat_last, UInt64.size] at h
  rw [UInt64.toNat_add, Nat.mod_eq_of_lt (by omega)]

theorem plus_later_le_iff (ht : t.HasRoom c) (hd : (t + c).HasRoom d) (hu : u.HasRoom c) :
    (t + c).plus d ≤ u + c ↔ t.plus d ≤ u := by
  rw [UInt64.le_iff_toNat_le, UInt64.le_iff_toNat_le, toNat_plus, toNat_plus, hu.toNat_add,
    ht.toNat_add]
  rw [HasRoom, ht.toNat_add, toNat_last] at hd
  rw [HasRoom, toNat_last] at hu
  omega

theorem elapsedSince_later (ht : t.HasRoom c) (hs : s.HasRoom c) :
    (t + c).elapsedSince (s + c) = t.elapsedSince s := by
  rw [← UInt64.toNat_inj, toNat_elapsedSince, toNat_elapsedSince, ht.toNat_add, hs.toNat_add]
  omega

end Millis

namespace Version

variable {v : Version} {c t : Millis} {node : String}

/-- The version written `c` later. The null version that stands for nothing was never written. -/
def later (c : Millis) (v : Version) : Version :=
  { v with writtenAt := if v.writtenBy.isSome then v.writtenAt + c else v.writtenAt }

/-- A written version that would still reach every node before the last moment if it were written
`c` later. -/
structure HasRoom (c : Millis) (v : Version) : Prop where
  isWritten : v.writtenBy.isSome = true
  moment : v.writtenAt.HasRoom c
  room : ∀ node d, v.visibility.get? node = some d → (v.writtenAt + c).HasRoom d

theorem HasRoom.isVisibleTo_later (h : v.HasRoom c) (ht : t.HasRoom c) :
    (v.later c).isVisibleTo node (t + c) = v.isVisibleTo node t := by
  rw [Bool.eq_iff_iff, isVisibleTo_iff, isVisibleTo_iff]
  refine exists_congr fun d => and_congr_right fun hd => ?_
  rw [later, if_pos h.isWritten]
  exact Millis.plus_later_le_iff h.moment (h.room node d hd) ht

theorem HasRoom.toNat_later (h : v.HasRoom c) :
    (v.later c).writtenAt.toNat = v.writtenAt.toNat + c.toNat := by
  rw [later, if_pos h.isWritten, h.moment.toNat_add]

theorem restrict_writtenAt (v : Version) (columns : Option NameSet) :
    (v.restrict columns).writtenAt = v.writtenAt := by cases columns <;> rfl

theorem restrict_later (c : Millis) (v : Version) (columns : Option NameSet) :
    (v.later c).restrict columns = (v.restrict columns).later c := by cases columns <;> rfl

end Version

def Record.later (c : Millis) (x : Record) : Record := { x with version := x.version.later c }

namespace History

variable {h : History} {c t : Millis}

theorem visible_later (hroom : ∀ v ∈ h, v.HasRoom c) (ht : t.HasRoom c) (node : String) :
    History.visible (h.map (Version.later c)) node (t + c) =
      (h.visible node t).map (Version.later c) := by
  induction h with
  | nil => rfl
  | cons v older ih =>
    rw [List.map_cons, visible_cons, visible_cons, (hroom v (.head _)).isVisibleTo_later ht,
      ih fun w hw => hroom w (.tail _ hw)]
    split <;> rfl

theorem present_later (hroom : ∀ v ∈ h, v.HasRoom c) (ht : t.HasRoom c) (node : String) :
    History.present (h.map (Version.later c)) node (t + c) =
      (h.present node t).map (Version.later c) := by
  rw [present, present, visible_later hroom ht]
  cases h.visible node t with
  | none => rfl
  | some v => cases hv : v.isNull <;> simp [Option.filter, Version.later, hv]

end History

namespace Store

variable {s : Store} {c t : Millis} {node key : String}

/-- The store with all versions written `c` later. -/
def later (c : Millis) (s : Store) : Store := ⟨s.histories.mapValues (List.map (Version.later c))⟩

def versions (s : Store) : List Version := s.histories.entries.flatMap (·.2)

theorem mem_versions_of_mem_history {v : Version} (h : v ∈ s.history key) : v ∈ s.versions :=
  List.mem_flatMap.mpr ⟨_, mem_entries_of_history h, h⟩

theorem history_later (c : Millis) (s : Store) (key : String) :
    (s.later c).history key = (s.history key).map (Version.later c) := by
  simp only [history, later, SortedMap.getD, SortedMap.get?_mapValues]
  cases s.histories.get? key <;> rfl

theorem prepend_later (c : Millis) (s : Store) (key : String) (v : Version) :
    (s.later c).prepend key (v.later c) = (s.prepend key v).later c := by
  rw [prepend, history_later, later, later, prepend, SortedMap.mapValues_insert]
  rfl

theorem present_later (hs : s.Each (Version.HasRoom c)) (ht : t.HasRoom c) (node key : String) :
    (s.later c).present node key (t + c) = (s.present node key t).map (Version.later c) := by
  rw [present, history_later, History.present_later (hs key) ht, present]

theorem get_later (hs : s.Each (Version.HasRoom c)) (ht : t.HasRoom c) (node key : String)
    (columns : Option NameSet) :
    (s.later c).get node key columns (t + c) = (s.get node key columns t).later c := by
  rw [get, get, visible, visible, history_later, History.visible_later (hs key) ht]
  cases (s.history key).visible node t with
  | none => rfl
  | some v => exact v.restrict_later c columns

theorem walk_later (c : Millis) (s : Store) (start : String) (ascending : Bool) :
    (s.later c).walk start ascending =
      (s.walk start ascending).map fun e => (e.1, e.2.map (Version.later c)) := by
  cases ascending with
  | true => exact List.filter_map
  | false =>
    change (SortedMap.below _ start) = (SortedMap.below _ start).map _
    rw [SortedMap.below, SortedMap.below, List.map_reverse]
    exact congrArg List.reverse List.filter_map

theorem scan_later (hs : s.Each (Version.HasRoom c)) (ht : t.HasRoom c) (node start : String)
    (count : Nat) (ascending : Bool) (columns : Option NameSet) :
    (s.later c).scan node start count ascending columns (t + c) =
      (s.scan node start count ascending columns t).map (Record.later c) := by
  rw [scan_eq_take, scan_eq_take, rows, rows, walk_later, List.filterMap_map, List.map_take,
    List.map_filterMap]
  congr 1
  refine List.filterMap_congr fun e he => ?_
  have hroom : ∀ v ∈ e.2, v.HasRoom c := by
    rw [← history_of_mem (mem_walk_iff.mp he).1]
    exact hs e.1
  simp only [Function.comp_apply, History.present_later hroom ht, Option.map_map]
  refine congrFun (congrArg Option.map (funext fun v => ?_)) _
  exact congrArg (Record.mk e.1) (v.restrict_later c columns)

theorem insert_later (hs : s.Each (Version.HasRoom c)) (v : Version)
    (ht : v.writtenAt.HasRoom c) (hv : v.writtenBy.isSome = true) (node key : String) :
    (s.later c).insert node key (v.later c) = (s.insert node key v).map (later c) := by
  have hmoment : (v.later c).writtenAt = v.writtenAt + c := if_pos hv
  rw [insert, insert, hmoment, present_later hs ht]
  cases s.present node key v.writtenAt with
  | none => exact congrArg Except.ok (s.prepend_later c key v)
  | some base => rfl

theorem update_later (hs : s.Each (Version.HasRoom c)) (v : Version)
    (ht : v.writtenAt.HasRoom c) (hv : v.writtenBy.isSome = true) (node key : String) :
    (s.later c).update node key (v.later c) =
      (s.update node key v).map fun u => (u.1.later c, u.2.later c) := by
  have hmoment : (v.later c).writtenAt = v.writtenAt + c := if_pos hv
  rw [update, update, hmoment, present_later hs ht]
  cases s.present node key v.writtenAt with
  | none => rfl
  | some base =>
    exact congrArg Except.ok (Prod.ext rfl (s.prepend_later c key (v.overlaidOn base.values)))

theorem delete_later (hs : s.Each (Version.HasRoom c)) (ht : t.HasRoom c) (node : Node)
    (key : String) (d : Visibility) :
    (s.later c).delete node key d (t + c) = (s.delete node key d t).map (later c) := by
  rw [delete, delete, present_later hs ht]
  cases s.present node.name key t with
  | none => rfl
  | some base => exact congrArg Except.ok (s.prepend_later c key (Version.null.stamped node t d))

end Store

end ReplicaLag
