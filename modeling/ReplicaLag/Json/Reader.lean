import ReplicaLag.Json

/-!
The strict reader of JSON text. It takes no comments, no trailing commas, no lone surrogates, no raw
control characters and no numbers beyond the largest finite one; values nest at most 127 deep; of
two members of one name the later one counts.
-/

namespace ReplicaLag

namespace Number

/-- Appends digits to a significand for as long as it fits in 64 bits, and counts them. -/
def absorb (s : Nat) : List Nat → Nat × Nat
  | [] => (s, 0)
  | d :: r =>
    if s * 10 + d < UInt64.size then
      let (t, n) := absorb (s * 10 + d) r
      (t, n + 1)
    else (s, 0)

/-- A significand times a power of ten: the significand, then the power, then their product or
quotient are rounded. Powers below `10 ^ -308` are divided out in steps; two such steps bring every
64-bit significand to zero. There is no answer beyond the largest finite number. -/
def scale (f : Binary64) (e : Int) : Nat → Option Binary64
  | 0 => some ⟨0⟩
  | steps + 1 =>
    if f.isZero then some f
    else if e.natAbs ≤ 308 then
      let power := Binary64.ofNat (Nat.pow 10 e.natAbs)
      let g := if 0 ≤ e then f.mul power else f.div power
      if g.isFinite then some g else none
    else if 0 ≤ e then none
    else scale (f.div (Binary64.ofNat (Nat.pow 10 308))) (e + 308) steps

/-- The value of a numeral with a point or an exponent, or of one too long for an integer. -/
def binaryOf (isNegative : Bool) (whole fraction : List Nat) (e : Int) : Option Number :=
  let (s, n) := absorb 0 whole
  let (t, m) := absorb s fraction
  let x := scale (Binary64.ofNat t) (e + (whole.length - n : Nat) - m) 4
  x.map fun x => .binary (if isNegative then x.neg else x)

/-- The value of a numeral without point and exponent: an integer when it fits into 64 bits, where
the negative zero is a floating-point number. -/
def integerOf (isNegative : Bool) (whole : List Nat) : Option Number :=
  let n := whole.foldl (fun (n : Nat) d => n * 10 + d) 0
  if isNegative then
    if 0 < n ∧ n ≤ intLimit then some (.negative (Int64.ofInt (-(n : Int))))
    else binaryOf true whole [] 0
  else if n < UInt64.size then some (.natural n.toUInt64)
  else binaryOf false whole [] 0

end Number

namespace Json.Reader

def digitOf (c : Char) : Nat := c.toNat - '0'.toNat

def digits (cs : List Char) : List Nat × List Char :=
  ((cs.takeWhile Char.isDigit).map digitOf, cs.dropWhile Char.isDigit)

def isBlank (c : Char) : Bool := c = ' ' || c = '\t' || c = '\n' || c = '\r'

def skipBlanks (cs : List Char) : List Char := cs.dropWhile isBlank

/-- The digits after a point; there is at least one. -/
def fraction : List Char → Option (Option (List Nat) × List Char)
  | '.' :: r =>
    match digits r with
    | ([], _) => none
    | (ds, r) => some (some ds, r)
  | r => some (none, r)

/-- The exponent, with or without a sign; there is at least one digit. -/
def power : List Char → Option (Option Int × List Char)
  | c :: r =>
    if c = 'e' ∨ c = 'E' then
      let (isNegative, r) := match r with
        | '+' :: r => (false, r)
        | '-' :: r => (true, r)
        | r => (false, r)
      match digits r with
      | ([], _) => none
      | (ds, r) =>
        let n := ds.foldl (fun (n : Nat) d => n * 10 + d) 0
        some (some (if isNegative then -(n : Int) else (n : Int)), r)
    else some (none, c :: r)
  | [] => some (none, [])

/-- A numeral: no sign but minus, no leading zero. -/
def number (cs : List Char) : Option (Number × List Char) :=
  let (isNegative, cs) := match cs with
    | '-' :: r => (true, r)
    | r => (false, r)
  match digits cs with
  | ([], _) => none
  | (0 :: _ :: _, _) => none
  | (whole, r) => do
    let (part, r) ← fraction r
    let (e, r) ← power r
    let value ← match part, e with
      | none, none => Number.integerOf isNegative whole
      | _, _ => Number.binaryOf isNegative whole (part.getD []) (e.getD 0)
    return (value, r)

def hexValue (c : Char) : Option Nat :=
  if c.isDigit then some (digitOf c)
  else if 'a' ≤ c ∧ c ≤ 'f' then some (c.toNat - 'a'.toNat + 10)
  else if 'A' ≤ c ∧ c ≤ 'F' then some (c.toNat - 'A'.toNat + 10)
  else none

def hex4 : List Char → Option (Nat × List Char)
  | a :: b :: c :: d :: r => do
    let a ← hexValue a
    let b ← hexValue b
    let c ← hexValue c
    let d ← hexValue d
    return (((a * 16 + b) * 16 + c) * 16 + d, r)
  | _ => none

/-- The character of a numeric escape; the high half of a pair needs its low half. -/
def unicode (cs : List Char) : Option (Char × List Char) := do
  let (n, r) ← hex4 cs
  if n < 0xD800 ∨ 0xDFFF < n then return (Char.ofNat n, r)
  else if n < 0xDC00 then
    match r with
    | '\\' :: 'u' :: r =>
      let (m, r) ← hex4 r
      if 0xDC00 ≤ m ∧ m ≤ 0xDFFF then
        return (Char.ofNat (0x10000 + (n - 0xD800) * 0x400 + (m - 0xDC00)), r)
      else none
    | _ => none
  else none

def escape : List Char → Option (Char × List Char)
  | '"' :: r => some ('"', r)
  | '\\' :: r => some ('\\', r)
  | '/' :: r => some ('/', r)
  | 'b' :: r => some ('\x08', r)
  | 'f' :: r => some ('\x0c', r)
  | 'n' :: r => some ('\n', r)
  | 'r' :: r => some ('\r', r)
  | 't' :: r => some ('\t', r)
  | 'u' :: r => unicode r
  | _ => none

/-- The rest of a string, to its closing quote; `fuel` bounds its length. -/
def string (fuel : Nat) (acc : List Char) (cs : List Char) : Option (String × List Char) :=
  match fuel, cs with
  | 0, _ => none
  | _, [] => none
  | fuel + 1, c :: r =>
    if c = '"' then some (String.ofList acc.reverse, r)
    else if c = '\\' then
      match escape r with
      | some (c, r) => string fuel (c :: acc) r
      | none => none
    else if c.toNat < 0x20 then none
    else string fuel (c :: acc) r

def word (w : List Char) (cs : List Char) : Option (List Char) :=
  if w.isPrefixOf cs then some (cs.drop w.length) else none

mutual

/-- One value, inside at most `depth` more levels; `fuel` bounds the characters read. -/
def value (fuel depth : Nat) (cs : List Char) : Option (Json × List Char) :=
  match fuel with
  | 0 => none
  | fuel + 1 =>
    match skipBlanks cs with
    | [] => none
    | c :: r =>
      if c = '"' then (string fuel [] r).map fun (s, r) => (.string s, r)
      else if c = '[' then
        match depth with
        | 0 => none
        | depth + 1 =>
          match skipBlanks r with
          | ']' :: r => some (.array [], r)
          | r => items fuel depth [] r
      else if c = '{' then
        match depth with
        | 0 => none
        | depth + 1 =>
          match skipBlanks r with
          | '}' :: r => some (.object [], r)
          | r => members fuel depth [] r
      else if c = 'n' then (word "ull".toList r).map fun r => (.null, r)
      else if c = 't' then (word "rue".toList r).map fun r => (.bool true, r)
      else if c = 'f' then (word "alse".toList r).map fun r => (.bool false, r)
      else (number (c :: r)).map fun (n, r) => (.number n, r)

/-- The rest of an array that has at least one more item. -/
def items (fuel depth : Nat) (acc : List Json) (cs : List Char) : Option (Json × List Char) :=
  match fuel with
  | 0 => none
  | fuel + 1 =>
    match value fuel depth cs with
    | none => none
    | some (v, r) =>
      match skipBlanks r with
      | ',' :: r => items fuel depth (v :: acc) r
      | ']' :: r => some (.array (v :: acc).reverse, r)
      | _ => none

/-- The rest of an object that has at least one more member. -/
def members (fuel depth : Nat) (acc : List (String × Json)) (cs : List Char) :
    Option (Json × List Char) :=
  match fuel with
  | 0 => none
  | fuel + 1 =>
    match skipBlanks cs with
    | '"' :: r =>
      match string fuel [] r with
      | none => none
      | some (k, r) =>
        match skipBlanks r with
        | ':' :: r =>
          match value fuel depth r with
          | none => none
          | some (v, r) =>
            let acc := SortedMap.insertEntry k v acc
            match skipBlanks r with
            | ',' :: r => members fuel depth acc r
            | '}' :: r => some (.object acc, r)
            | _ => none
        | _ => none
    | _ => none

end

/-- How deep arrays and objects may nest. -/
def maxDepth : Nat := 127

end Json.Reader

/-- The value that a text denotes, if it is well-formed from end to end. -/
def Json.read? (text : String) : Option Json :=
  let cs := text.toList
  match Json.Reader.value (cs.length + 1) Json.Reader.maxDepth cs with
  | some (v, r) => if (Json.Reader.skipBlanks r).isEmpty then some v else none
  | none => none

end ReplicaLag
