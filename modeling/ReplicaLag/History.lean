import ReplicaLag.Version

/-!
The versions of one key, newest first. A node sees the first of them that is visible to it; a newer
write that has not reached the node leaves the older one in view.
-/

namespace ReplicaLag

/-- The versions of one key, newest first. -/
abbrev History := List Version

namespace History

def visible (h : History) (node : String) (t : Millis) : Option Version :=
  h.find? (·.isVisibleTo node t)

/-- What a node sees at a moment, if that is not a deletion. -/
def present (h : History) (node : String) (t : Millis) : Option Version :=
  (h.visible node t).filter (!·.isNull)

@[simp] theorem visible_nil (node : String) (t : Millis) : visible [] node t = none := rfl

theorem visible_cons (v : Version) (h : History) (node : String) (t : Millis) :
    visible (v :: h) node t = if v.isVisibleTo node t then some v else visible h node t := by
  simp only [visible, List.find?_cons]
  cases v.isVisibleTo node t <;> rfl

end History

end ReplicaLag
