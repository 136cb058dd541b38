import ReplicaLag.Binary64.Decimal
import ReplicaLag.Response
import ReplicaLag.Text.Hidden

/-!
One-line texts of values for messages: records by field, texts in quotes, every value under the name
of its kind.
-/

namespace ReplicaLag

namespace Inspect

def hex (n : Nat) : List Char := Nat.toDigits 16 n

def quotedChar (c : Char) : List Char :=
  if c = '\x00' then ['\\', '0']
  else if c = '\t' then ['\\', 't']
  else if c = '\r' then ['\\', 'r']
  else if c = '\n' then ['\\', 'n']
  else if c = '\\' then ['\\', '\\']
  else if c = '"' then ['\\', '"']
  else if c.toNat < 0x20 ∨ c.toNat = 0x7f ∨ (0x7f < c.toNat ∧ Hidden.isHidden c) then
    ['\\', 'u', '\x7b'] ++ hex c.toNat ++ ['\x7d']
  else [c]

def text (s : String) : String := "\"" ++ String.ofList (s.toList.flatMap quotedChar) ++ "\""

def bool (b : Bool) : String := if b then "true" else "false"

def list (items : List String) : String := "[" ++ ", ".intercalate items ++ "]"

def braced (items : List String) : String := "\x7b" ++ ", ".intercalate items ++ "\x7d"

def wrap (name inner : String) : String := name ++ "(" ++ inner ++ ")"

def record (name : String) (fields : List (String × String)) : String :=
  name ++ " \x7b " ++ ", ".intercalate (fields.map fun f => f.1 ++ ": " ++ f.2) ++ " \x7d"

def option {α : Type} (f : α → String) : Option α → String
  | some a => wrap "Some" (f a)
  | none => "None"

def map {α : Type} (f : α → String) (m : SortedMap α) : String :=
  braced (m.entries.map fun e => text e.1 ++ ": " ++ f e.2)

def names (s : NameSet) : String := braced (s.names.map text)

def moment (t : Millis) : String := wrap "Timestamp" (toString t.toNat)

end Inspect

open Inspect

/-- The text of a number; an infinity has none of its own. -/
def Number.inspect : Number → String
  | .natural n => wrap "Number" (toString n.toNat)
  | .negative n => wrap "Number" (toString n.toInt)
  | .binary x => wrap "Number" x.text

namespace Json

mutual

def inspect : Json → String
  | null => "Null"
  | bool b => wrap "Bool" (Inspect.bool b)
  | number n => n.inspect
  | string s => wrap "String" (text s)
  | array l => "Array " ++ Inspect.list (inspectItems l)
  | object l => "Object " ++ braced (inspectMembers l)

def inspectItems : List Json → List String
  | [] => []
  | a :: r => inspect a :: inspectItems r

def inspectMembers : List (String × Json) → List String
  | [] => []
  | (n, a) :: r => (text n ++ ": " ++ inspect a) :: inspectMembers r

end

end Json

def Columns.inspect (c : Columns) : String := Inspect.map Json.inspect c

def Node.inspect (n : Node) : String :=
  record "Node" [("name", text n.name), ("tags", names n.tags),
    ("is_primary", Inspect.bool n.isPrimary)]

def Visibility.inspect (v : Visibility) : String :=
  record "StalenessMap" [("delays", Inspect.map (fun (d : Millis) => toString d.toNat) v)]

def Version.inspect (v : Version) : String :=
  record "Version" [("values", v.values.inspect), ("written_at", moment v.writtenAt),
    ("written_by", option Node.inspect v.writtenBy), ("visibility", v.visibility.inspect),
    ("is_null", Inspect.bool v.isNull)]

def Record.inspect (r : Record) : String :=
  record "Record" [("key", text r.key), ("version", r.version.inspect)]

def Fault.inspect (f : Fault) : String :=
  record "SimError" [("kind", f.kind.name), ("message", Inspect.text f.message)]

def Body.inspect : Body → String
  | .insert => "Insert"
  | .update => "Update"
  | .delete => "Delete"
  | .read v => wrap "Read" v.inspect
  | .scan rs => wrap "Scan" (Inspect.list (rs.map Record.inspect))
  | .exception f => wrap "Exception" f.inspect

end ReplicaLag
