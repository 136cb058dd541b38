import ReplicaLag.Json

/-!
Reading values of a wanted shape out of JSON. A record is an object, whose unknown members are
passed over, or an array of its fields in their order; a field that is missing may have a default,
but `null` stands for an absent value only where the field is optional.
-/

namespace ReplicaLag

/-- Whether an array may hold more items than the record it stands for has fields. -/
inductive RecordForm where
  | exact
  | leading
  deriving DecidableEq, Repr

namespace Json

/-- The members of a record with the given fields. -/
def members? (form : RecordForm) (fields : List String) : Json → Option (List (String × Json))
  | object ms => some ms
  | array xs =>
    if form = .leading ∨ xs.length ≤ fields.length then some (fields.zip xs) else none
  | _ => none

/-- A field that has to be there. -/
def required {α : Type} (ms : List (String × Json)) (name : String) (f : Json → Option α) :
    Option α :=
  (ms.lookup name).bind f

/-- A field that may be missing. -/
def defaulted {α : Type} (ms : List (String × Json)) (name : String) (d : α)
    (f : Json → Option α) : Option α :=
  match ms.lookup name with
  | some j => f j
  | none => some d

def toBool? : Json → Option Bool
  | bool b => some b
  | _ => none

def toString? : Json → Option String
  | string s => some s
  | _ => none

def toNat64? : Json → Option UInt64
  | number (.natural n) => some n
  | _ => none

def toNat32? : Json → Option UInt32
  | number (.natural n) => if n.toNat < UInt32.size then some n.toUInt32 else none
  | _ => none

/-- A tag is a string, or an object whose one member has the tag for its name and is `null`. -/
def toTag? : Json → Option String
  | string s | object [(s, null)] => some s
  | _ => none

def toOption? {α : Type} (f : Json → Option α) : Json → Option (Option α)
  | null => some none
  | j => (f j).map some

def toList? {α : Type} (f : Json → Option α) : Json → Option (List α)
  | array xs => xs.mapM f
  | _ => none

/-- An object as a map; of two members for one name the later one counts. -/
def toMap? {α : Type} (f : Json → Option α) : Json → Option (SortedMap α)
  | object ms => (ms.mapM fun m => (f m.2).map fun a => (m.1, a)).map .ofList
  | _ => none

def toNames? (j : Json) : Option NameSet := (j.toList? toString?).map .ofNames

end Json

end ReplicaLag
