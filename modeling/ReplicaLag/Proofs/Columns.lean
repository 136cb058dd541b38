import ReplicaLag.Version

/-!
Columns one by one. What a merged or a restricted version holds in a column is said by look-ups of
that column alone (`Columns.orElse`, `Columns.only`). Main statement: the loops that merge and
restrict versions come to that (`Version.overlaidOn_eq`, `Version.restrict_eq`).
-/

namespace ReplicaLag

namespace Columns

/-- Columns over others: each column as it is set here, else as it is there. -/
def orElse (own base : Columns) : Columns :=
  .tabulate (own.keys ++ base.keys) fun n => (own.get? n).or (base.get? n)

/-- The columns that are wanted, or all of them if none are named. -/
def only (values : Columns) (wanted : Option NameSet) : Columns :=
  .tabulate values.keys fun n =>
    if wanted.all fun names => n ∈ names.names then values.get? n else none

theorem get?_orElse (own base : Columns) (n : String) :
    (own.orElse base).get? n = (own.get? n).or (base.get? n) := by
  rw [orElse, SortedMap.get?_tabulate]
  split
  next => rfl
  next h =>
    rw [List.mem_append, not_or] at h
    rw [SortedMap.get?_eq_none_of_not_mem h.1, SortedMap.get?_eq_none_of_not_mem h.2]
    rfl

theorem get?_only (values : Columns) (wanted : Option NameSet) (n : String) :
    (values.only wanted).get? n =
      if wanted.all fun names => n ∈ names.names then values.get? n else none := by
  rw [only, SortedMap.get?_tabulate]
  split
  next => rfl
  next h =>
    rw [SortedMap.get?_eq_none_of_not_mem h]
    exact (ite_self none).symm

theorem only_empty (wanted : Option NameSet) :
    Columns.only SortedMap.empty wanted = SortedMap.empty := rfl

end Columns

theorem NameSet.has_iff {s : NameSet} {n : String} : s.has n = true ↔ n ∈ s.names := by
  rw [has, SortedMap.contains, names, SortedMap.mem_keys]
  exact Option.isSome_iff_exists

namespace Version

theorem overlaidOn_eq (v : Version) (base : Columns) :
    v.overlaidOn base = { v with values := v.values.orElse base } := by
  have hvalues : v.values.fill base = v.values.orElse base := SortedMap.ext_get? fun n => by
    rw [SortedMap.get?_fill, Columns.get?_orElse]
  rw [overlaidOn, hvalues]

theorem restrict_eq (v : Version) (wanted : Option NameSet) :
    v.restrict wanted = { v with values := v.values.only wanted } := by
  cases wanted with
  | none =>
    have hvalues : v.values.only none = v.values := SortedMap.ext_get? fun n => by
      rw [Columns.get?_only]
      rfl
    rw [restrict, hvalues]
  | some names =>
    have hvalues : (v.values.filter fun n _ => names.has n) = v.values.only (some names) := by
      refine SortedMap.ext_get? fun n => ?_
      rw [SortedMap.get?_filter, Columns.get?_only, Option.all_some]
      by_cases hn : n ∈ names.names
      · rw [decide_eq_true hn, if_pos rfl, NameSet.has_iff.mpr hn]
        cases v.values.get? n <;> rfl
      · have hno : names.has n = false := by
          rw [← Bool.not_eq_true, NameSet.has_iff]
          exact hn
        rw [decide_eq_false hn, if_neg Bool.false_ne_true, hno]
        cases v.values.get? n <;> rfl
    rw [restrict, hvalues]

end Version

end ReplicaLag
