import ReplicaLag.Cluster.Run
import ReplicaLag.Proofs.Columns
import ReplicaLag.Proofs.Scans

/-!
A table without versions: one map from keys to columns, and what it answers to requests one after
another. The table of a store is what its newest versions say; a version more is one entry more or
less in the table (`table_prepend`), and walks of the two meet the same records (`walk_table`).
-/

namespace ReplicaLag

/-- The version without the metadata of its write. -/
def Version.plain (v : Version) : Version := { values := v.values, isNull := v.isNull }

theorem Version.plain_restrict (v : Version) (fields : Option NameSet) :
    (v.restrict fields).plain = { values := v.values.only fields, isNull := v.isNull } := by
  rw [v.restrict_eq]
  rfl

/-- The body with plain versions. -/
def Body.plain : Body → Body
  | .read v => .read v.plain
  | .scan records => .scan (records.map fun r => ⟨r.key, r.version.plain⟩)
  | b => b

/-- For each key its columns. -/
abbrev Table := SortedMap Columns

namespace Table

/-- A key is read with the columns asked for; a version without columns says that it is absent. -/
def read (m : Table) (key : String) (fields : Option NameSet) : Version :=
  match m.get? key with
  | none => { values := SortedMap.empty, isNull := true }
  | some current => { values := current.only fields }

/-- The entries from `start` on, upwards or downwards. -/
def reached (m : Table) (start : String) (ascending : Bool) : List (String × Columns) :=
  if ascending then m.entries.filter fun e => start ≤ e.1
  else (m.entries.filter fun e => e.1 ≤ start).reverse

def scan (m : Table) (start : String) (count : Nat) (ascending : Bool)
    (fields : Option NameSet) : List Record :=
  ((m.reached start ascending).take count).map fun e => ⟨e.1, { values := e.2.only fields }⟩

/-- The answer of one map to a request, and the map afterwards. -/
def answer (m : Table) : Action → Body × Table
  | .insert (some key) values _ =>
    match m.get? key with
    | none => (.insert, m.insert key values)
    | some _ => (.exception ⟨.insert, "key '" ++ key ++ "' already exists"⟩, m)
  | .update (some key) values _ =>
    match m.get? key with
    | none => (.exception ⟨.update, "key '" ++ key ++ "' does not exist"⟩, m)
    | some current => (.update, m.insert key (values.orElse current))
  | .delete (some key) _ =>
    match m.get? key with
    | none => (.exception ⟨.delete, "key '" ++ key ++ "' does not exist"⟩, m)
    | some _ => (.delete, m.erase key)
  | .read (some key) fields _ => (.read (m.read key fields), m)
  | .scan (some start) count ascending fields _ =>
    (.scan (m.scan start count.toNat ascending fields), m)
  | _ => (.exception ⟨.noKeyProvided, "request has no key"⟩, m)

/-- The answers of one map to the requests of a run. Time does nothing to it. -/
def run (m : Table) : List ClusterEvent → List Body
  | [] => []
  | .request r :: events => (m.answer r.action).1 :: (m.answer r.action).2.run events
  | .advance _ :: events => m.run events
  | .clear :: events => run SortedMap.empty events

end Table

/-- The newest version of a key, if that is not a deletion. -/
def History.newest (h : History) : Option Version := h.head?.filter (!·.isNull)

/-- Who sees all versions of a key sees the newest. -/
theorem History.present_eq_newest {h : History} {node : String} {t : Millis}
    (hv : ∀ v ∈ h, v.isVisibleTo node t = true) : h.present node t = h.newest := by
  cases h with
  | nil => rfl
  | cons v h => rw [present, visible_cons, if_pos (hv v List.mem_cons_self)]; rfl

namespace Store

/-- What the newest versions say, wherever they are seen. -/
def table (s : Store) : Table where
  entries := s.histories.entries.filterMap fun e =>
    (History.newest e.2).map fun v => (e.1, v.values)
  sorted := by
    refine List.Pairwise.filterMap _ (fun a b hab x hx y hy => ?_) s.histories.sorted
    obtain ⟨_, _, rfl⟩ := Option.map_eq_some_iff.mp hx
    obtain ⟨_, _, rfl⟩ := Option.map_eq_some_iff.mp hy
    exact hab

theorem table_empty : empty.table = SortedMap.empty := rfl

theorem get?_table (s : Store) (key : String) :
    s.table.get? key = (s.history key).newest.map (·.values) := by
  refine Option.ext fun values => ?_
  rw [SortedMap.get?_eq_some_iff, table, List.mem_filterMap]
  constructor
  · rintro ⟨⟨k, h⟩, hm, he⟩
    obtain ⟨v, hv, he⟩ := Option.map_eq_some_iff.mp he
    cases he
    rw [history_of_mem hm, hv]
    rfl
  · intro h
    obtain ⟨v, hv, rfl⟩ := Option.map_eq_some_iff.mp h
    have hhead : (s.history key).head? = some v := (Option.filter_eq_some_iff.mp hv).1
    have hm := mem_entries_of_history (List.mem_of_mem_head? hhead)
    exact ⟨(key, s.history key), hm, by rw [hv]; rfl⟩

theorem table_prepend (s : Store) (key : String) (v : Version) :
    (s.prepend key v).table =
      if v.isNull then s.table.erase key else s.table.insert key v.values := by
  refine SortedMap.ext_get? fun k => ?_
  rw [get?_table, history_prepend]
  cases hn : v.isNull with
  | true =>
    rw [if_pos rfl, SortedMap.get?_erase, get?_table]
    split
    · simp [History.newest, hn]
    · rfl
  | false =>
    rw [if_neg Bool.false_ne_true, SortedMap.get?_insert, get?_table]
    split
    · simp [History.newest, hn]
    · rfl

/-- The table is walked as the histories are. -/
theorem walk_table (s : Store) (start : String) (ascending : Bool) :
    s.table.reached start ascending =
      (s.walk start ascending).filterMap fun e =>
        (History.newest e.2).map fun v => (e.1, v.values) := by
  have hfilter : ∀ p : String → Bool, (s.table.entries.filter fun e => p e.1) =
      (s.histories.entries.filter fun e => p e.1).filterMap fun e =>
        (History.newest e.2).map fun v => (e.1, v.values) := by
    intro p
    rw [table, List.filter_filterMap, List.filterMap_filter]
    refine List.filterMap_congr fun e _ => ?_
    cases History.newest e.2 <;> cases hp : p e.1 <;> simp [Option.filter, hp]
  cases ascending with
  | true => exact hfilter fun k => start ≤ k
  | false =>
    simp only [Table.reached, Bool.false_eq_true, if_false, SortedMap.below, walk,
      hfilter fun k => k ≤ start, List.filterMap_reverse]

end Store

end ReplicaLag
