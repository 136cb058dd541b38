import ReplicaLag.Json
import ReplicaLag.Binary64.Decimal

/-!
JSON text of a value, on one line and without blanks. Quotes, backslashes and control characters are
escaped and nothing else is.
-/

namespace ReplicaLag

namespace Json.Writer

def hexDigit (n : Nat) : Char :=
  if n < 10 then Char.ofNat ('0'.toNat + n) else Char.ofNat ('a'.toNat + (n - 10))

def escaped (c : Char) : List Char :=
  if c = '"' then ['\\', '"']
  else if c = '\\' then ['\\', '\\']
  else if c = '\n' then ['\\', 'n']
  else if c = '\r' then ['\\', 'r']
  else if c = '\t' then ['\\', 't']
  else if c = '\x08' then ['\\', 'b']
  else if c = '\x0c' then ['\\', 'f']
  else if c.toNat < 0x20 then
    ['\\', 'u', '0', '0', hexDigit (c.toNat / 16), hexDigit (c.toNat % 16)]
  else [c]

def quoted (s : String) : String :=
  "\"" ++ String.ofList (s.toList.flatMap escaped) ++ "\""

end Json.Writer

/-- An infinity has no numeral and is written as `null`. -/
def Number.text : Number → String
  | .natural n => toString n.toNat
  | .negative n => toString n.toInt
  | .binary x => if x.isFinite then x.text else "null"

namespace Json

mutual

def write : Json → String
  | null => "null"
  | bool b => if b then "true" else "false"
  | number n => n.text
  | string s => Writer.quoted s
  | array l => "[" ++ writeItems l ++ "]"
  | object l => "\x7b" ++ writeMembers l ++ "\x7d"

def writeItems : List Json → String
  | [] => ""
  | [a] => write a
  | a :: r => write a ++ "," ++ writeItems r

def writeMembers : List (String × Json) → String
  | [] => ""
  | [(n, a)] => Writer.quoted n ++ ":" ++ write a
  | (n, a) :: r => Writer.quoted n ++ ":" ++ write a ++ "," ++ writeMembers r

end

end Json

end ReplicaLag
