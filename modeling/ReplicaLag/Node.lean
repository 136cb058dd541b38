import ReplicaLag.SortedMap

/-!
The nodes of a cluster. A node is known by its name; tags group nodes for write concerns, and one
node is the primary.
-/

namespace ReplicaLag

structure Node where
  name : String
  tags : NameSet := SortedMap.empty
  isPrimary : Bool := false
  deriving DecidableEq

namespace Node

def hasTag (n : Node) (tag : String) : Bool := n.tags.has tag

def named? (nodes : List Node) (name : String) : Option Node := nodes.find? (·.name = name)

/-- The first node that is flagged primary. -/
def primary? (nodes : List Node) : Option Node := nodes.find? (·.isPrimary)

def least? (le : Node → Node → Bool) : List Node → Option Node
  | [] => none
  | n :: r =>
    match least? le r with
    | none => some n
    | some m => some (if le n m then n else m)

/-- The non-primary node of the least name. -/
def firstSecondary? (nodes : List Node) : Option Node :=
  least? (fun a b => a.name ≤ b.name) (nodes.filter (!·.isPrimary))

theorem least?_eq_none_iff {le : Node → Node → Bool} {nodes : List Node} :
    least? le nodes = none ↔ nodes = [] := by
  cases nodes with
  | nil => simp [least?]
  | cons n r => simp only [least?]; split <;> simp

theorem primary?_eq_none_iff {nodes : List Node} :
    primary? nodes = none ↔ ∀ m ∈ nodes, m.isPrimary = false := by
  simp [primary?]

theorem firstSecondary?_eq_none_iff {nodes : List Node} :
    firstSecondary? nodes = none ↔ ∀ m ∈ nodes, m.isPrimary = true := by
  simp [firstSecondary?, least?_eq_none_iff, List.filter_eq_nil_iff]

theorem mem_of_least? {le : Node → Node → Bool} {nodes : List Node} {n : Node}
    (h : least? le nodes = some n) : n ∈ nodes := by
  induction nodes generalizing n with
  | nil => simp [least?] at h
  | cons m r ih =>
    simp only [least?] at h
    split at h
    · cases h; simp
    next k hk => cases h; split <;> simp [ih hk]

end Node

end ReplicaLag
