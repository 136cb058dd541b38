import Mathlib.Data.List.Dedup
import Mathlib.Data.List.Perm.Basic
import ReplicaLag.Proofs.Columns
import ReplicaLag.Store.Run

/-!
The store as a log. The specification is one list of accepted writes, oldest first, to which every
accepted write is appended and which a clear empties; what a node sees of a key is the last entry
that has come to it. Main statement: a store, after any run from the empty one, judges every write
as the log does, shows what the log shows, and counts versions and keys as the log does.
-/

namespace ReplicaLag

/-- A version has come to a node when its delay to the node has passed since its writing; a delay
that ends after the last moment ends with it. -/
def Version.hasReached (v : Version) (node : String) (t : Millis) : Bool :=
  (v.visibility.get? node).any fun d =>
    min (v.writtenAt.toNat + d.toNat) Millis.last.toNat ≤ t.toNat

/-- Accepted writes of all keys since the last clear, oldest first. -/
abbrev WriteLog := List (String × Version)

namespace WriteLog

def ofKey (log : WriteLog) (key : String) : List Version :=
  (log.filter (·.1 = key)).map (·.2)

/-- The last write of a key that has come to a node. -/
def shown (log : WriteLog) (node key : String) (t : Millis) : Option Version :=
  ((log.ofKey key).filter (·.hasReached node t)).getLast?

/-- The last write of a key that has come to a node, with the columns asked for; without one, a
version that says the key is absent. -/
def read (log : WriteLog) (node key : String) (columns : Option NameSet) (t : Millis) : Version :=
  match log.shown node key t with
  | none => { values := SortedMap.empty, isNull := true }
  | some v => { v with values := v.values.only columns }

/-- What is logged for a write, or why it is refused. The write is judged by what its node sees at
the moment of the write: an insert is logged as it is, an update with its columns over those that
its node sees, and a delete as a tombstone. -/
def judge (log : WriteLog) : StoreWrite → Except Refusal Version
  | .insert node key v =>
    match log.shown node.name key v.writtenAt with
    | none => .ok v
    | some current => if current.isNull then .ok v else .error (.keyExists key)
  | .update node key v =>
    match log.shown node.name key v.writtenAt with
    | none => .error (.nothingToUpdate key)
    | some current =>
      if current.isNull then .error (.nothingToUpdate key)
      else .ok { v with values := v.values.orElse current.values }
  | .delete node key visibility t =>
    match log.shown node.name key t with
    | none => .error (.nothingToDelete key)
    | some current =>
      if current.isNull then .error (.nothingToDelete key)
      else
        .ok { values := SortedMap.empty, writtenAt := t, writtenBy := some node, visibility,
              isNull := true }

def step (log : WriteLog) : StoreEvent → WriteLog
  | .write w =>
    match log.judge w with
    | .ok v => log ++ [(w.key, v)]
    | .error _ => log
  | .clear => []

def run (log : WriteLog) : List StoreEvent → WriteLog
  | [] => log
  | e :: r => (log.step e).run r

theorem ofKey_append (log : WriteLog) (key k : String) (v : Version) :
    ofKey (log ++ [(key, v)]) k = if k = key then log.ofKey k ++ [v] else log.ofKey k := by
  rw [ofKey, List.filter_append, List.map_append]
  by_cases h : k = key
  · simp [ofKey, h]
  · simp [ofKey, h, Ne.symm h]

theorem ofKey_ne_nil_iff {log : WriteLog} {key : String} :
    log.ofKey key ≠ [] ↔ key ∈ log.map (·.1) := by
  simp [ofKey, List.filter_eq_nil_iff]

end WriteLog

theorem Version.hasReached_eq (v : Version) (node : String) (t : Millis) :
    v.hasReached node t = v.isVisibleTo node t := by
  rw [Bool.eq_iff_iff, Version.isVisibleTo_iff, hasReached, Option.any_eq_true]
  refine exists_congr fun d => and_congr_right fun _ => ?_
  rw [decide_eq_true_iff, UInt64.le_iff_toNat_le, Millis.toNat_plus, Millis.toNat_last]

/-- A log and a store hold the same: the history of a key is the log of the key from its end, and
no history is empty. -/
structure Store.Logged (s : Store) (log : WriteLog) : Prop where
  history_eq : ∀ key, s.history key = (log.ofKey key).reverse
  nonempty : ∀ key h, s.histories.get? key = some h → h ≠ []

namespace Store.Logged

variable {s : Store} {log : WriteLog}

theorem empty : Store.empty.Logged [] where
  history_eq _ := rfl
  nonempty _ _ h := by cases h

theorem visible_eq (h : s.Logged log) (node key : String) (t : Millis) :
    s.visible node key t = log.shown node key t := by
  rw [WriteLog.shown, List.getLast?_filter, ← h.history_eq, Store.visible, History.visible]
  simp only [Version.hasReached_eq]

theorem present_eq (h : s.Logged log) (node key : String) (t : Millis) :
    s.present node key t = (log.shown node key t).filter (!·.isNull) := by
  rw [← h.visible_eq]
  rfl

/-- The log judges every write as the store does, and names the version that the store adds. -/
theorem write_eq (h : s.Logged log) (w : StoreWrite) :
    s.write w = (log.judge w).map fun v => (v, s.prepend w.key v) := by
  cases w with
  | insert node key v =>
    rw [Store.write, Store.insert, WriteLog.judge, h.present_eq]
    cases log.shown node.name key v.writtenAt with
    | none => rfl
    | some current =>
      cases hn : current.isNull <;> simp [Option.filter, hn, Except.map, StoreWrite.key]
  | update node key v =>
    rw [Store.write, Store.update, WriteLog.judge, h.present_eq]
    cases log.shown node.name key v.writtenAt with
    | none => rfl
    | some current =>
      cases hn : current.isNull <;>
        simp [Option.filter, hn, Except.map, StoreWrite.key, Version.overlaidOn_eq]
  | delete node key visibility t =>
    rw [Store.write, Store.delete, WriteLog.judge, h.present_eq]
    cases log.shown node.name key t with
    | none => rfl
    | some current =>
      cases hn : current.isNull <;>
        simp [Option.filter, hn, Except.map, StoreWrite.key, Version.null, Version.stamped]

/-- A node reads from the log what it reads from the store. -/
theorem get_eq (h : s.Logged log) (node key : String) (columns : Option NameSet) (t : Millis) :
    s.get node key columns t = log.read node key columns t := by
  rw [Store.get, WriteLog.read, h.visible_eq]
  cases log.shown node key t with
  | none => rfl
  | some v => exact v.restrict_eq columns

theorem prepend (h : s.Logged log) (key : String) (v : Version) :
    (s.prepend key v).Logged (log ++ [(key, v)]) where
  history_eq k := by
    rw [Store.history_prepend, WriteLog.ofKey_append, h.history_eq, h.history_eq]
    split
    next hk => rw [hk, List.reverse_concat]
    next => rfl
  nonempty k hs hk := by
    rw [Store.prepend, SortedMap.get?_insert] at hk
    split at hk
    · cases hk
      exact List.cons_ne_nil _ _
    · exact h.nonempty k hs hk

theorem step (h : s.Logged log) (e : StoreEvent) : (s.step e).Logged (log.step e) := by
  cases e with
  | clear => exact empty
  | write w =>
    rw [Store.step, WriteLog.step, h.write_eq w]
    cases log.judge w with
    | ok v => exact h.prepend w.key v
    | error _ => exact h

theorem run (h : s.Logged log) (events : List StoreEvent) :
    (s.run events).Logged (log.run events) := by
  induction events generalizing s log with
  | nil => exact h
  | cons e r ih => exact ih (h.step e)

theorem mem_keys_iff (h : s.Logged log) {key : String} :
    key ∈ s.keys ↔ key ∈ log.map (·.1) := by
  rw [← WriteLog.ofKey_ne_nil_iff, ← List.reverse_ne_nil_iff, ← h.history_eq, Store.keys,
    SortedMap.mem_keys, Store.history, SortedMap.getD]
  cases hk : s.histories.get? key with
  | none => simp
  | some hs => simpa using h.nonempty key hs hk

theorem size_eq (h : s.Logged log) : s.size = (log.map (·.1)).dedup.length := by
  have hkeys : s.keys.Nodup := s.histories.keys_nodup
  have hperm : s.keys.Perm (log.map (·.1)).dedup :=
    (List.perm_ext_iff_of_nodup hkeys (List.nodup_dedup _)).mpr fun key => by
      rw [h.mem_keys_iff, List.mem_dedup]
  rw [← hperm.length_eq]
  exact (List.length_map _).symm

end Store.Logged

/-- After any run from the empty store: each further write is judged as the log judges it, and adds
what the log adds; a node reads the last entry of a key that has come to it; and the versions of a
key and the keys are those of the log. -/
theorem Store.run_refines_log (events : List StoreEvent) :
    let s := Store.empty.run events
    let log := WriteLog.run [] events
    (∀ w, s.write w = (log.judge w).map fun v => (v, s.prepend w.key v)) ∧
    (∀ node key columns t, s.get node key columns t = log.read node key columns t) ∧
    (∀ key, s.history key = (log.ofKey key).reverse ∧
      s.versionCount key = (log.ofKey key).length) ∧
    s.size = (log.map (·.1)).dedup.length := by
  intro s log
  have h : s.Logged log := Store.Logged.empty.run events
  refine ⟨h.write_eq, h.get_eq, fun key => ⟨h.history_eq key, ?_⟩, h.size_eq⟩
  rw [Store.versionCount, h.history_eq, List.length_reverse]

end ReplicaLag
