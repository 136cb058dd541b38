import ReplicaLag.Json.Reader

/-!
The scalars of TOML 1.0: texts in four kinds of quotes, integers of 64 bits in four bases,
floating-point numbers, and dates and times. A reader takes its scalar off the front and leaves the
rest.
-/

namespace ReplicaLag.Toml

def isBlank (c : Char) : Bool := c = ' ' || c = '\t'

def skipBlanks (cs : List Char) : List Char := cs.dropWhile isBlank

def newline? : List Char → Option (List Char)
  | '\n' :: r => some r
  | '\r' :: '\n' :: r => some r
  | _ => none

/-- Whether a character may stand in comments and quotes: no control but the tab. -/
def isText (c : Char) : Bool := c = '\t' || (0x20 ≤ c.toNat && c.toNat != 0x7f)

/-- Drops a comment, which ends before a character that it may not contain. -/
def skipComment : List Char → List Char
  | '#' :: r => r.dropWhile isText
  | cs => cs

/-! Texts. -/

def hexNumber (acc : Nat) : Nat → List Char → Option (Nat × List Char)
  | 0, cs => some (acc, cs)
  | n + 1, c :: r =>
    match Json.Reader.hexValue c with
    | some d => hexNumber (acc * 16 + d) n r
    | none => none
  | _, [] => none

/-- The character with a number, which is not a surrogate. -/
def charOf? (n : Nat) : Option Char := if n.isValidChar then some (Char.ofNat n) else none

def escape : List Char → Option (Char × List Char)
  | '"' :: r => some ('"', r)
  | '\\' :: r => some ('\\', r)
  | 'b' :: r => some ('\x08', r)
  | 'f' :: r => some ('\x0c', r)
  | 'n' :: r => some ('\n', r)
  | 'r' :: r => some ('\r', r)
  | 't' :: r => some ('\t', r)
  | 'u' :: r => do
    let (n, r) ← hexNumber 0 4 r
    return (← charOf? n, r)
  | 'U' :: r => do
    let (n, r) ← hexNumber 0 8 r
    return (← charOf? n, r)
  | _ => none

/-- The rest of a text on one line, to its closing quote. -/
def lineText (quote : Char) (fuel : Nat) (acc : List Char) (cs : List Char) :
    Option (String × List Char) :=
  match fuel, cs with
  | 0, _ => none
  | _, [] => none
  | fuel + 1, c :: r =>
    if c = quote then some (String.ofList acc.reverse, r)
    else if quote = '"' ∧ c = '\\' then
      match escape r with
      | some (c, r) => lineText quote fuel (c :: acc) r
      | none => none
    else if isText c then lineText quote fuel (c :: acc) r
    else none

def skipSpace (fuel : Nat) (cs : List Char) : List Char :=
  match fuel with
  | 0 => cs
  | fuel + 1 =>
    match newline? (skipBlanks cs) with
    | some r => skipSpace fuel r
    | none => skipBlanks cs

/-- The rest of a text over several lines. Up to two quotes may stand before the three that close
it; a backslash at the end of a line joins it with the next text. -/
def longText (quote : Char) (fuel : Nat) (acc : List Char) (cs : List Char) :
    Option (String × List Char) :=
  match fuel, cs with
  | 0, _ => none
  | _, [] => none
  | fuel + 1, c :: r =>
    if c = quote then
      let quotes := (c :: r).takeWhile (· = quote)
      let r := (c :: r).drop quotes.length
      if quotes.length < 3 then longText quote fuel (quotes ++ acc) r
      else if quotes.length ≤ 5 then
        some (String.ofList (quotes.drop 3 ++ acc).reverse, r)
      else none
    else
      match newline? (c :: r) with
      | some r => longText quote fuel ('\n' :: acc) r
      | none =>
        if quote = '"' ∧ c = '\\' then
          match newline? (skipBlanks r) with
          | some r => longText quote fuel acc (skipSpace fuel r)
          | none =>
            match escape r with
            | some (c, r) => longText quote fuel (c :: acc) r
            | none => none
        else if isText c then longText quote fuel (c :: acc) r
        else none

/-- A text that starts with a quote. A line end after three opening quotes is not part of it. -/
def text (cs : List Char) : Option (String × List Char) :=
  match cs with
  | q :: r =>
    if q = '"' ∨ q = '\'' then
      if [q, q].isPrefixOf r then
        let r := r.drop 2
        longText q (cs.length + 1) [] ((newline? r).getD r)
      else lineText q (cs.length + 1) [] r
    else none
  | [] => none

/-! Numbers. -/

/-- Digits of a base, of which two may be parted by an underscore. -/
def moreDigits (value? : Char → Option Nat) (fuel : Nat) (acc : List Nat) (cs : List Char) :
    Option (List Nat × List Char) :=
  match fuel, cs with
  | 0, _ => none
  | fuel + 1, '_' :: c :: r =>
    match value? c with
    | some d => moreDigits value? fuel (d :: acc) r
    | none => none
  | _, ['_'] => none
  | fuel + 1, c :: r =>
    match value? c with
    | some d => moreDigits value? fuel (d :: acc) r
    | none => some (acc.reverse, c :: r)
  | _, [] => some (acc.reverse, [])

def digits (value? : Char → Option Nat) : List Char → Option (List Nat × List Char)
  | c :: r =>
    match value? c with
    | some d => moreDigits value? (r.length + 1) [d] r
    | none => none
  | [] => none

/-- The value of a digit in a base up to sixteen. -/
def digitBelow (base : Nat) (c : Char) : Option Nat :=
  (Json.Reader.hexValue c).filter (· < base)

/-- The digits of a whole number: none follow a leading zero. -/
def whole : List Char → Option (List Nat × List Char)
  | '0' :: r => some ([0], r)
  | cs => digits (digitBelow 10) cs

def numberOf (base : Nat) (ds : List Nat) : Nat := ds.foldl (fun n d => n * base + d) 0

def integer? (isNegative : Bool) (n : Nat) : Option Json :=
  if isNegative ∧ 0 < n then
    if n ≤ Number.intLimit then some (.number (.negative (Int64.ofInt (-(n : Int))))) else none
  else if n < Number.intLimit then some (.number (.natural n.toUInt64))
  else none

/-- A decimal, rounded. Positive numbers beyond the largest finite one are refused. -/
def float? (isNegative : Bool) (whole fraction : List Nat) (e : Int) : Option Json :=
  let n := numberOf 10 (whole ++ fraction)
  let e := e - fraction.length
  let order := ((Nat.toDigits 10 n).length : Int) + e
  let x : Binary64 :=
    if n = 0 ∨ order < -400 then ⟨0⟩
    else if 400 < order then .ofMagnitude false Binary64.infinite
    else if 0 ≤ e then .ofNat (n * Nat.pow 10 e.toNat)
    else .ofRatio n (Nat.pow 10 (-e).toNat)
  if isNegative then some (.number (.binary x.neg))
  else if x.isFinite then some (.number (.binary x))
  else none

def special (isNegative : Bool) (m : Nat) : Json := .number (.binary (.ofMagnitude isNegative m))

/-- An exponent, if one follows; then it has digits. -/
def exponent? : List Char → Option (Option Int × List Char)
  | c :: r =>
    if c = 'e' ∨ c = 'E' then do
      let (isNegative, r) := match r with
        | '+' :: r => (false, r)
        | '-' :: r => (true, r)
        | r => (false, r)
      let (ds, r) ← digits (digitBelow 10) r
      let n := numberOf 10 ds
      return (some (if isNegative then -(n : Int) else n), r)
    else some (none, c :: r)
  | [] => some (none, [])

/-- A decimal integer or a floating-point number, after its sign. -/
def unsigned (isNegative : Bool) : List Char → Option (Json × List Char)
  | 'i' :: 'n' :: 'f' :: r => some (special isNegative Binary64.infinite, r)
  | 'n' :: 'a' :: 'n' :: r => some (special isNegative (Binary64.infinite + 0x8000000000000), r)
  | cs => do
    let (ws, r) ← whole cs
    match r with
    | '.' :: r =>
      let (fs, r) ← digits (digitBelow 10) r
      let (e, r) ← exponent? r
      return (← float? isNegative ws fs (e.getD 0), r)
    | r =>
      match ← exponent? r with
      | (some e, r) => return (← float? isNegative ws [] e, r)
      | (none, r) => return (← integer? isNegative (numberOf 10 ws), r)

def inBase (base : Nat) (cs : List Char) : Option (Json × List Char) := do
  let (ds, r) ← digits (digitBelow base) cs
  return (← integer? false (numberOf base ds), r)

def number : List Char → Option (Json × List Char)
  | '+' :: r => unsigned false r
  | '-' :: r => unsigned true r
  | '0' :: 'x' :: r => inBase 16 r
  | '0' :: 'o' :: r => inBase 8 r
  | '0' :: 'b' :: r => inBase 2 r
  | cs => unsigned false cs

/-! Dates and times. -/

def fixed (acc : Nat) : Nat → List Char → Option (Nat × List Char)
  | 0, cs => some (acc, cs)
  | n + 1, c :: r => if c.isDigit then fixed (acc * 10 + Json.Reader.digitOf c) n r else none
  | _, [] => none

def char? (c : Char) : List Char → Option (List Char)
  | d :: r => if c = d then some r else none
  | [] => none

def daysIn (year month : Nat) : Nat :=
  if month = 2 then
    if year % 4 = 0 ∧ (year % 100 ≠ 0 ∨ year % 400 = 0) then 29 else 28
  else if month = 4 ∨ month = 6 ∨ month = 9 ∨ month = 11 then 30
  else 31

def date? (cs : List Char) : Option (List Char) := do
  let (year, r) ← fixed 0 4 cs
  let r ← char? '-' r
  let (month, r) ← fixed 0 2 r
  let r ← char? '-' r
  let (day, r) ← fixed 0 2 r
  if 1 ≤ month ∧ month ≤ 12 ∧ 1 ≤ day ∧ day ≤ daysIn year month then some r else none

/-- Drops a time of day; leap seconds and fractions of seconds are times. -/
def time? (cs : List Char) : Option (List Char) := do
  let (hour, r) ← fixed 0 2 cs
  let r ← char? ':' r
  let (minute, r) ← fixed 0 2 r
  let r ← char? ':' r
  let (second, r) ← fixed 0 2 r
  if 23 < hour ∨ 59 < minute ∨ 60 < second then none
  else
    match r with
    | '.' :: c :: s => if c.isDigit then some (s.dropWhile Char.isDigit) else some r
    | _ => some r

/-- Drops an offset from universal time, if one follows. -/
def skipOffset (cs : List Char) : Option (List Char) :=
  match cs with
  | 'Z' :: r | 'z' :: r => some r
  | '+' :: r | '-' :: r => do
    let (hour, r) ← fixed 0 2 r
    let r ← char? ':' r
    let (minute, r) ← fixed 0 2 r
    if 23 < hour ∨ 59 < minute then none else some r
  | _ => some cs

/-- Drops a date, a time, or a date with a time and perhaps an offset. -/
def dateTime? (cs : List Char) : Option (List Char) :=
  match date? cs with
  | none => time? cs
  | some r =>
    match r with
    | d :: s =>
      if d = 'T' ∨ d = 't' ∨ d = ' ' then
        match time? s with
        | some s => skipOffset s
        | none => some r
      else some r
    | [] => some r

/-- A date or a time. It stands for a table with one nameless entry, the date's text. -/
def moment (cs : List Char) : Option (Json × List Char) :=
  (dateTime? cs).map fun r =>
    (.object [("", .string (String.ofList (cs.take (cs.length - r.length))))], r)

def scalar (cs : List Char) : Option (Json × List Char) :=
  match cs with
  | 't' :: 'r' :: 'u' :: 'e' :: r => some (.bool true, r)
  | 'f' :: 'a' :: 'l' :: 's' :: 'e' :: r => some (.bool false, r)
  | _ => moment cs <|> number cs

end ReplicaLag.Toml
