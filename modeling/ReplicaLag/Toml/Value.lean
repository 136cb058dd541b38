import ReplicaLag.Toml.Scalar
import ReplicaLag.Toml.Tree

/-!
Keys and values of TOML. Arrays may spread over lines and end in a comma; tables in braces may not.
Arrays and tables in braces nest at most 79 deep, and a dotted key has at most 79 parts.
-/

namespace ReplicaLag.Toml

/-- How deep values may nest, and how many parts a key may have. -/
def maxDepth : Nat := 79

/-- Drops blanks, line ends, and comments that end in a line end. -/
def skipLines (fuel : Nat) (cs : List Char) : List Char :=
  match fuel with
  | 0 => cs
  | fuel + 1 =>
    let cs := skipBlanks cs
    match newline? (skipComment cs) with
    | some r => skipLines fuel r
    | none => cs

def isBare (c : Char) : Bool := c.isAlphanum || c = '-' || c = '_'

def keyPart (cs : List Char) : Option (String × List Char) :=
  match cs with
  | '"' :: r => lineText '"' cs.length [] r
  | '\'' :: r => lineText '\'' cs.length [] r
  | _ =>
    let name := cs.takeWhile isBare
    if name.isEmpty then none else some (String.ofList name, cs.drop name.length)

def keyParts (fuel : Nat) (acc : List String) (cs : List Char) :
    Option (List String × List Char) :=
  match fuel with
  | 0 => none
  | fuel + 1 =>
    match keyPart (skipBlanks cs) with
    | none => none
    | some (k, r) =>
      match skipBlanks r with
      | '.' :: r => keyParts fuel (k :: acc) r
      | r => some ((k :: acc).reverse, r)

/-- A key, as the path to its table and its last part. -/
def key (cs : List Char) : Option ((List String × String) × List Char) :=
  match keyParts maxDepth [] cs with
  | none => none
  | some (parts, r) => parts.getLast?.map fun k => ((parts.dropLast, k), r)

mutual

/-- A value, inside at most `depth` more levels; `fuel` bounds the characters read. -/
def value (fuel depth : Nat) (cs : List Char) : Option (Json × List Char) :=
  match fuel with
  | 0 => none
  | fuel + 1 =>
    match cs with
    | [] => none
    | c :: r =>
      if c = '"' ∨ c = '\'' then (text cs).map fun (s, r) => (.string s, r)
      else if c = '[' then
        match depth with
        | 0 => none
        | depth + 1 => items fuel depth [] r
      else if c = '{' then
        match depth with
        | 0 => none
        | depth + 1 =>
          match skipBlanks r with
          | '}' :: r => some (.object [], r)
          | r => pairs fuel depth [] r
      else scalar cs

/-- The rest of an array after its bracket or a comma. -/
def items (fuel depth : Nat) (acc : List Json) (cs : List Char) : Option (Json × List Char) :=
  match fuel with
  | 0 => none
  | fuel + 1 =>
    match skipLines (cs.length + 1) cs with
    | ']' :: r => some (.array acc.reverse, r)
    | cs =>
      match value fuel depth cs with
      | none => none
      | some (v, r) =>
        match skipLines (r.length + 1) r with
        | ',' :: r => items fuel depth (v :: acc) r
        | ']' :: r => some (.array (v :: acc).reverse, r)
        | _ => none

/-- The rest of a table in braces that has at least one more pair. -/
def pairs (fuel depth : Nat) (acc : Entries) (cs : List Char) : Option (Json × List Char) :=
  match fuel with
  | 0 => none
  | fuel + 1 =>
    match key cs with
    | none => none
    | some ((path, k), r) =>
      match r with
      | '=' :: r =>
        match value fuel depth (skipBlanks r) with
        | none => none
        | some (v, r) =>
          match acc.insert path k (.value v) with
          | none => none
          | some acc =>
            match skipBlanks r with
            | ',' :: r => pairs fuel depth acc r
            | '}' :: r => some (.object (membersOf acc), r)
            | _ => none
      | _ => none

end

end ReplicaLag.Toml
