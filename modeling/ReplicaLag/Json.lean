import ReplicaLag.Binary64
import ReplicaLag.SortedMap

/-!
JSON values. A number is a natural number, a negative integer or a floating-point number; the three
kinds never equal one another, so `2` and `2.0` are different column values. The members of an
object are kept as a list; the reader writes them in order of their names.
-/

namespace ReplicaLag

/-- A number as it was written: with a point or an exponent it is binary. -/
inductive Number where
  | natural (n : UInt64)
  | negative (n : Int64)
  | binary (x : Binary64)
  deriving DecidableEq, Repr

def Number.intLimit : Nat := 0x8000000000000000

inductive Json where
  | null
  | bool (b : Bool)
  | number (n : Number)
  | string (s : String)
  | array (items : List Json)
  | object (members : List (String × Json))
  deriving Repr, Inhabited

def Number.same : Number → Number → Bool
  | .natural a, .natural b => a == b
  | .negative a, .negative b => a == b
  | .binary a, .binary b => a.same b
  | _, _ => false

namespace Json

mutual

/-- Equality of values: members count in the order in which they stand. -/
def same : Json → Json → Bool
  | null, null => true
  | bool a, bool b => a == b
  | number a, number b => a.same b
  | string a, string b => a == b
  | array a, array b => sameItems a b
  | object a, object b => sameMembers a b
  | _, _ => false

def sameItems : List Json → List Json → Bool
  | [], [] => true
  | a :: r, b :: s => same a b && sameItems r s
  | _, _ => false

def sameMembers : List (String × Json) → List (String × Json) → Bool
  | [], [] => true
  | (m, a) :: r, (n, b) :: s => m == n && same a b && sameMembers r s
  | _, _ => false

end

/-- The member of that name, if the value is an object that has one. -/
def member? (name : String) : Json → Option Json
  | object ms => ms.lookup name
  | _ => none

def nat (n : UInt64) : Json := number (.natural n)

def ofNat (n : Nat) : Json := nat n.toUInt64

def ofOption {α : Type} (f : α → Json) : Option α → Json
  | some a => f a
  | none => null

def ofMap {α : Type} (f : α → Json) (m : SortedMap α) : Json :=
  object (m.entries.map fun e => (e.1, f e.2))

def ofNames (s : NameSet) : Json := array (s.names.map string)

mutual

theorem same_self : ∀ j : Json, same j j = true
  | null => rfl
  | bool b => by simp [same]
  | number (.natural n) => by simp [same, Number.same]
  | number (.negative n) => by simp [same, Number.same]
  | number (.binary x) => by simp [same, Number.same, Binary64.same_self]
  | string s => by simp [same]
  | array l => by simp [same, sameItems_self l]
  | object l => by simp [same, sameMembers_self l]

theorem sameItems_self : ∀ l : List Json, sameItems l l = true
  | [] => rfl
  | a :: r => by simp [sameItems, same_self a, sameItems_self r]

theorem sameMembers_self : ∀ l : List (String × Json), sameMembers l l = true
  | [] => rfl
  | (n, a) :: r => by simp [sameMembers, same_self a, sameMembers_self r]

end

end Json

end ReplicaLag
