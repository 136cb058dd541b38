import ReplicaLag.Proofs.Scans

/-!
A scan as a list of point reads. The keys from a start on are walked in the order of the scan, each
is read by itself, and what reads as null is dropped. Main statement: a scan is the beginning of
that list, so its keys are in strict order, which of them it shows does not depend on the columns
that are asked for, and a shorter scan is the beginning of a longer one.
-/

namespace ReplicaLag

namespace Store

variable {s : Store} {node start key : String} {ascending : Bool} {columns : Option NameSet}
  {t : Millis}

/-- The keys of the store from `start` on, in the order of a scan; `start` need not be one. -/
def keysFrom (s : Store) (start : String) (ascending : Bool) : List String :=
  if ascending then s.keys.filter (start ≤ ·) else (s.keys.filter (· ≤ start)).reverse

/-- The record of a key as a read of the key shows it; none if the read is null. -/
def read? (s : Store) (node : String) (columns : Option NameSet) (t : Millis) (key : String) :
    Option Record :=
  let v := s.get node key columns t
  if v.isNull then none else some ⟨key, v⟩

theorem mem_keysFrom_iff :
    key ∈ s.keysFrom start ascending ↔ key ∈ s.keys ∧ reaches ascending start key := by
  cases ascending <;> simp [keysFrom, reaches, List.mem_filter]

theorem keysFrom_ordered (s : Store) (start : String) (ascending : Bool) :
    (s.keysFrom start ascending).Pairwise (before ascending) := by
  have hkeys : s.keys.Pairwise (· < ·) := List.pairwise_map.mpr s.histories.sorted
  cases ascending with
  | true => exact hkeys.filter _
  | false => exact List.pairwise_reverse.mpr (hkeys.filter _)

theorem read?_eq_some_iff {x : Record} :
    s.read? node columns t key = some x ↔ x.key = key ∧
      (s.get node x.key columns t).isNull = false ∧ x.version = s.get node x.key columns t := by
  obtain ⟨k, v⟩ := x
  simp only [read?]
  split
  next h =>
    refine iff_of_false (by simp) ?_
    rintro ⟨rfl, hget, _⟩
    exact Bool.noConfusion (h.symm.trans hget)
  next h =>
    rw [Option.some.injEq, Record.mk.injEq, eq_comm, and_congr_right_iff]
    rintro rfl
    simp [h, eq_comm]

/-- The rows of a scan are the reads of the keys that it walks. -/
theorem rows_eq_reads (s : Store) (node start : String) (ascending : Bool)
    (columns : Option NameSet) (t : Millis) :
    s.rows node start ascending columns t =
      (s.keysFrom start ascending).filterMap (s.read? node columns t) := by
  have asymm : Std.Asymm fun x y : Record => before ascending x.key y.key :=
    ⟨fun _ _ => before_asymm⟩
  have hreads : ((s.keysFrom start ascending).filterMap (s.read? node columns t)).Pairwise
      fun x y => before ascending x.key y.key := by
    refine List.Pairwise.filterMap _ (fun a b hab x hx y hy => ?_) (s.keysFrom_ordered start _)
    rw [(read?_eq_some_iff.mp hx).1, (read?_eq_some_iff.mp hy).1]
    exact hab
  -- both are in the order of the scan, so it is enough that they have the same members
  refine List.Pairwise.eq_of_mem_iff (s.rows_ordered node start ascending columns t) hreads
    fun x => ?_
  rw [List.mem_filterMap]
  constructor
  · intro hx
    obtain ⟨hreach, hread⟩ := mem_rows_iff_get.mp hx
    exact ⟨x.key, mem_keysFrom_iff.mpr ⟨key_mem_of_mem_rows hx, hreach⟩,
      read?_eq_some_iff.mpr ⟨rfl, hread⟩⟩
  · rintro ⟨key, hkey, hx⟩
    obtain ⟨rfl, hread⟩ := read?_eq_some_iff.mp hx
    exact mem_rows_iff_get.mpr ⟨(mem_keysFrom_iff.mp hkey).2, hread⟩

/-- Whichever columns are asked for, a row is left of every record that can be seen. -/
theorem map_key_rows (s : Store) (node start : String) (ascending : Bool)
    (columns : Option NameSet) (t : Millis) :
    (s.rows node start ascending columns t).map (·.key) =
      (s.rows node start ascending none t).map (·.key) := by
  simp only [rows, List.map_filterMap, Option.map_map]
  rfl

/-- A scan reads the keys from its start on one by one, at the same node and moment and for the same
columns, and shows the first of them that do not read as null. The keys are those of the store that
are in reach, each of them once and in the order of the scan; a record stays in even if none of its
columns is asked for; and who asks for more records gets the same ones first. -/
theorem scan_eq_reads (s : Store) (node start : String) (count more : Nat) (ascending : Bool)
    (columns : Option NameSet) (t : Millis) :
    s.scan node start count ascending columns t =
      ((s.keysFrom start ascending).filterMap (s.read? node columns t)).take count ∧
    (∀ key, key ∈ s.keysFrom start ascending ↔ key ∈ s.keys ∧ reaches ascending start key) ∧
    (s.keysFrom start ascending).Pairwise (before ascending) ∧
    (s.scan node start count ascending columns t).Pairwise
      (fun x y => before ascending x.key y.key) ∧
    (s.scan node start count ascending columns t).map (·.key) =
      (s.scan node start count ascending none t).map (·.key) ∧
    s.scan node start count ascending columns t <+:
      s.scan node start (count + more) ascending columns t := by
  simp only [scan_eq_take]
  refine ⟨by rw [rows_eq_reads], fun _ => mem_keysFrom_iff, s.keysFrom_ordered start ascending,
    (s.rows_ordered node start ascending columns t).take, ?_, ?_⟩
  · rw [List.map_take, List.map_take, map_key_rows]
  · exact List.take_prefix_take_left (Nat.le_add_right count more)

end Store

end ReplicaLag
