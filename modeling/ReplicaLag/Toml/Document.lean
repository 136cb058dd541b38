import ReplicaLag.Toml.Value

/-!
TOML documents: lines of pairs under headers. A header closes the table before it; no key and no
header may be given twice, in whatever way the tables came about.
-/

namespace ReplicaLag.Toml

/-- A document under construction: its tables so far, and the table whose pairs are being read. -/
structure Draft where
  root : Entries := []
  current : Entries := []
  path : List String := []
  isElement : Bool := false

namespace Draft

/-- Puts an element at the end of an array of tables. -/
def push (k : String) (element : Entries) (_ : Origin) (es : Entries) : Option Entries :=
  match es.lookup k with
  | none => some (es ++ [(k, .tables [element])])
  | some (.tables elements) => some (Entries.set es k (.tables (elements ++ [element])))
  | some _ => none

/-- The tables with the current one in its place. -/
def close (d : Draft) : Option Entries :=
  match d.path.getLast? with
  | none => some d.current
  | some k =>
    if d.isElement then d.root.descend false (push k d.current) d.path.dropLast .written
    else
      d.root.descend false (fun _ es => some (es.set k (.table .written d.current)))
        d.path.dropLast .written

/-- Starts the table of a header. A table that was only implied keeps what is in it. -/
def openTable (root : Entries) (path : List String) (k : String) : Option Draft := do
  let current ← match root.find? (path ++ [k]) with
    | none => some []
    | some (.table .implied inner) => some inner
    | some _ => none
  let root ← root.descend false (fun _ es => some (es.remove k)) path .written
  return { root, current, path := path ++ [k] }

def openElement (root : Entries) (path : List String) (k : String) : Option Draft := do
  match root.find? (path ++ [k]) with
  | none | some (.tables _) => pure ()
  | some _ => none
  let root ← root.descend false (fun _ es => some es) path .written
  return { root, path := path ++ [k], isElement := true }

/-- Closes the current table and starts the one of a header. -/
def header (d : Draft) (isElement : Bool) (path : List String) (k : String) : Option Draft := do
  let root ← d.close
  if isElement then openElement root path k else openTable root path k

def pair (d : Draft) (path : List String) (k : String) (v : Json) : Option Draft :=
  (d.current.insert path k (.value v)).map fun current => { d with current }

end Draft

/-- Drops blanks and a comment, and the line end after them unless the text ends there. -/
def endLine (cs : List Char) : Option (List Char) :=
  match skipComment (skipBlanks cs) with
  | [] => some []
  | cs => newline? cs

def readHeader (d : Draft) (cs : List Char) : Option (Draft × List Char) :=
  match cs with
  | '[' :: r => do
    let ((path, k), r) ← key r
    match r with
    | ']' :: ']' :: r => return (← d.header true path k, r)
    | _ => none
  | _ => do
    let ((path, k), r) ← key cs
    match r with
    | ']' :: r => return (← d.header false path k, r)
    | _ => none

def readPair (d : Draft) (cs : List Char) : Option (Draft × List Char) := do
  let ((path, k), r) ← key cs
  match r with
  | '=' :: r =>
    let (v, r) ← value (r.length + 1) maxDepth (skipBlanks r)
    return (← d.pair path k v, r)
  | _ => none

/-- The lines of a document; `fuel` bounds their number. -/
def readLines (fuel : Nat) (d : Draft) (cs : List Char) : Option Draft :=
  match fuel with
  | 0 => none
  | fuel + 1 =>
    match skipBlanks cs with
    | [] => some d
    | '#' :: r =>
      match endLine ('#' :: r) with
      | some r => readLines fuel d r
      | none => none
    | '[' :: r =>
      match readHeader d r with
      | some (d, r) =>
        match endLine r with
        | some r => readLines fuel d r
        | none => none
      | none => none
    | cs =>
      match newline? cs with
      | some r => readLines fuel d r
      | none =>
        match readPair d cs with
        | some (d, r) =>
          match endLine r with
          | some r => readLines fuel d r
          | none => none
        | none => none

/-- The table that a document denotes, as JSON; a byte order mark may stand before it. -/
def read? (text : String) : Option Json := do
  let cs := match text.toList with
    | '\ufeff' :: r => r
    | cs => cs
  let d ← readLines (cs.length + 1) {} cs
  return .object (membersOf (← d.close))

end ReplicaLag.Toml
