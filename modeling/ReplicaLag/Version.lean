import ReplicaLag.Json
import ReplicaLag.Node
import ReplicaLag.Time

/-!
Versions of a record: its columns as one write left them, with the write's moment, node and the
delay after which each node sees it. A node without a delay never sees the version.
-/

namespace ReplicaLag

abbrev Columns := SortedMap Json

/-- The delay, by node name, after which a write can be seen. -/
abbrev Visibility := SortedMap Millis

/-- Equality of columns: same names, and values equal as JSON. -/
def Columns.same (a b : Columns) : Bool := Json.sameMembers a.entries b.entries

/-- The null version has no columns; it stands for a record that is absent or was deleted. -/
structure Version where
  values : Columns
  writtenAt : Millis := 0
  writtenBy : Option Node := none
  visibility : Visibility := SortedMap.empty
  isNull : Bool := false

namespace Version

def ofValues (values : Columns) : Version := { values }

def null : Version := { values := SortedMap.empty, isNull := true }

/-- The version as `node` writes it at a moment, seen by each node after its delay. -/
def stamped (v : Version) (node : Node) (t : Millis) (visibility : Visibility) : Version :=
  { v with writtenAt := t, writtenBy := some node, visibility }

/-- The version with the columns of `base` that it does not set itself. -/
def overlaidOn (v : Version) (base : Columns) : Version :=
  { v with values := v.values.fill base }

/-- The version with only the wanted columns, or with all of them. -/
def restrict (v : Version) : Option NameSet → Version
  | none => v
  | some wanted => { v with values := v.values.filter fun n _ => wanted.has n }

/-- The moment from which a node sees the version. -/
def visibleSince (v : Version) (node : String) : Option Millis :=
  (v.visibility.get? node).map v.writtenAt.plus

def isVisibleTo (v : Version) (node : String) (t : Millis) : Bool :=
  (v.visibleSince node).any (· ≤ t)

/-- Equality of what was written; when, where and for whom does not count. -/
def same (v w : Version) : Bool := v.values.same w.values

theorem restrict_isNull (v : Version) (cols : Option NameSet) :
    (v.restrict cols).isNull = v.isNull := by cases cols <;> rfl

theorem isVisibleTo_iff {v : Version} {node : String} {t : Millis} :
    v.isVisibleTo node t = true ↔
      ∃ d, v.visibility.get? node = some d ∧ v.writtenAt.plus d ≤ t := by
  unfold isVisibleTo visibleSince
  cases v.visibility.get? node <;> simp

/-- What a node sees, it keeps seeing. -/
theorem isVisibleTo_mono {v : Version} {node : String} {t u : Millis} (h : t ≤ u)
    (hv : v.isVisibleTo node t = true) : v.isVisibleTo node u = true := by
  obtain ⟨d, hd, hle⟩ := isVisibleTo_iff.mp hv
  exact isVisibleTo_iff.mpr ⟨d, hd, UInt64.le_trans hle h⟩

end Version

structure Record where
  key : String
  version : Version

end ReplicaLag
