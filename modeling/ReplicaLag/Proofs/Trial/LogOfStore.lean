import ReplicaLag.Proofs.Scans
import ReplicaLag.Trial.ReferenceLog

/-!
The reference log of a store: its histories turned round, each version with only what the log keeps
of it. The log shows what the store shows, for point reads (`columns_log`) and for scans
(`scan_log`), and a version more in the store is a write more in the log (`log_prepend`).
-/

namespace ReplicaLag

/-- What the log keeps of a version. -/
def Version.logged (v : Version) : LoggedWrite :=
  ⟨if v.isNull then none else some v.values, v.writtenAt, v.visibility⟩

namespace Store

def log (s : Store) : ReferenceLog :=
  ⟨s.histories.mapValues fun h => (h.map Version.logged).reverse⟩

variable {s : Store}

theorem ofKey_log (s : Store) (key : String) :
    s.log.ofKey key = ((s.history key).map Version.logged).reverse := by
  rw [ReferenceLog.ofKey, log, SortedMap.getD, SortedMap.get?_mapValues, history, SortedMap.getD]
  cases s.histories.get? key <;> rfl

theorem log_prepend (s : Store) (key : String) (v : Version) :
    (s.prepend key v).log = s.log.push key v.logged := by
  rw [ReferenceLog.push, ofKey_log]
  simp only [log, prepend, SortedMap.mapValues_insert, List.map_cons, List.reverse_cons]

theorem visible_log (s : Store) (key node : String) (t : Millis) :
    s.log.visible key node t = (s.visible node key t).map Version.logged := by
  rw [ReferenceLog.visible, ofKey_log, List.reverse_reverse, List.find?_map, visible,
    History.visible]
  congr 2
  funext v
  rw [Function.comp_apply, Version.isVisibleTo, Version.visibleSince, Version.logged]
  cases v.visibility.get? node <;> rfl

theorem columns_log (s : Store) (key node : String) (t : Millis) :
    s.log.columns key node t = (s.present node key t).map (·.values) := by
  rw [ReferenceLog.columns, visible_log, present, History.present, visible]
  cases History.visible (s.history key) node t with
  | none => rfl
  | some v => cases h : v.isNull <;> simp [Version.logged, h, Option.filter]

theorem log_keys (s : Store) : s.log.writes.keys = s.histories.entries.map (·.1) := by
  rw [log, SortedMap.keys, SortedMap.mapValues, List.map_map]
  rfl

theorem walk_keys (s : Store) (start : String) (ascending : Bool) :
    (if ascending then s.log.writes.keys.filter (start ≤ ·)
      else s.log.writes.keys.reverse.filter (· ≤ start)) = (s.walk start ascending).map (·.1) := by
  rw [log_keys]
  cases ascending with
  | true => exact List.filter_map ..
  | false =>
    simp only [Bool.false_eq_true, if_false, walk, SortedMap.below]
    rw [List.filter_reverse, List.filter_map, List.map_reverse]
    rfl

theorem scan_log (s : Store) (start node : String) (t : Millis) (count : Nat) (ascending : Bool) :
    s.log.scan start node t count ascending =
      (s.scan node start count ascending none t).map fun r => (r.key, r.version.values) := by
  rw [ReferenceLog.scan, walk_keys, scan_eq_take, List.map_take, rows, List.map_filterMap,
    List.filterMap_map]
  refine congrArg (List.take count) (List.filterMap_congr fun e he => ?_)
  rw [Function.comp_apply, columns_log, present, history_of_mem (mem_walk_iff.mp he).1]
  cases History.present e.2 node t <;> rfl

end Store

end ReplicaLag
