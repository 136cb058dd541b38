import ReplicaLag.Binary64

/-!
Decimal text of binary floating-point numbers. A number is written with the fewest digits that read
back as it; of two such decimals the nearer one is taken, and of two equally near ones the even one.
-/

namespace ReplicaLag

/-- The decimal `digits * 10 ^ exponent`. -/
structure Decimal where
  digits : Nat
  exponent : Int
  deriving DecidableEq, Repr

namespace Binary64

/-- The greatest `p` with `10 ^ p ≤ num / den`. -/
def decimalOrder (num den : Nat) : Int :=
  if den ≤ num then ((Nat.toDigits 10 (num / den)).length : Int) - 1
  else -((Nat.toDigits 10 ((den - 1) / num)).length : Int)

/-- Four times the significand, and the bounds of the decimals that read back, in quarter units. -/
def readBack (x : Binary64) : Nat × Nat × Nat :=
  let m := x.significand
  let low := if m = leadingBit ∧ -1074 < x.exponent then 4 * m - 1 else 4 * m - 2
  (low, 4 * m, 4 * m + 2)

/-- The decimal of exponent `s` next to the number that reads back as it, if there is one. -/
def onGrid? (x : Binary64) (s : Int) : Option Nat :=
  let (low, mid, high) := x.readBack
  let e := x.exponent - 2
  -- one decimal step is `step` and one quarter unit is `unit`, over a common denominator
  let step := Nat.pow 10 s.toNat <<< (-e).toNat
  let unit := Nat.pow 10 (-s).toNat <<< e.toNat
  let c := mid * unit / step
  let reads (d : Nat) : Bool :=
    if x.significand % 2 = 0 then low * unit ≤ d * step ∧ d * step ≤ high * unit
    else low * unit < d * step ∧ d * step < high * unit
  let below := mid * unit - c * step
  let above := (c + 1) * step - mid * unit
  match reads c, reads (c + 1) with
  | false, false => none
  | true, false => some c
  | false, true => some (c + 1)
  | true, true =>
    if below < above then some c
    else if above < below then some (c + 1)
    else some (c + c % 2)

/-- The first of the grids of `n`, `n + 1`, … digits that holds a decimal which reads back. -/
def shortestFrom (x : Binary64) (order : Int) : Nat → Nat → Decimal
  | n, 0 => ⟨0, order - n⟩
  | n, more + 1 =>
    let s := order - n + 1
    match x.onGrid? s with
    | some d => ⟨d, s⟩
    | none => shortestFrom x order (n + 1) more

/-- The shortest decimal that reads back as a finite number; seventeen digits always do. -/
def shortest (x : Binary64) : Decimal :=
  if x.isZero then ⟨0, 0⟩
  else x.shortestFrom (decimalOrder x.ratio.1 x.ratio.2) 1 17

end Binary64

namespace Decimal

/-- The digits without closing zeros, and how many zeros were dropped. -/
def trimZeros : List Char → List Char × Nat
  | [] => ([], 0)
  | c :: r =>
    match trimZeros r with
    | ([], n) => if c = '0' then ([], n + 1) else ([c], n)
    | (ds, n) => (c :: ds, n)

def zeros (n : Nat) : String := String.ofList (List.replicate n '0')

/-- Positional while at most sixteen digits stand before the point, or at most four zeros between it
and the first digit; else with an exponent that has its sign, plus or minus, and no padding. -/
def text (d : Decimal) : String :=
  if d.digits = 0 then "0.0"
  else
    let (ds, n) := trimZeros (Nat.toDigits 10 d.digits)
    let e := d.exponent + n
    let point : Int := ds.length + e
    if 0 ≤ e ∧ point ≤ 16 then String.ofList ds ++ zeros e.toNat ++ ".0"
    else if 0 < point ∧ point ≤ 16 then
      String.ofList (ds.take point.toNat) ++ "." ++ String.ofList (ds.drop point.toNat)
    else if -5 < point ∧ point ≤ 0 then "0." ++ zeros (-point).toNat ++ String.ofList ds
    else
      let power := (if 1 < point then "e+" else "e") ++ toString (point - 1)
      match ds with
      | [c] => String.ofList [c] ++ power
      | c :: r => String.ofList (c :: '.' :: r) ++ power
      | [] => power

end Decimal

/-- The text of a finite number; it always shows a point or an exponent. -/
def Binary64.text (x : Binary64) : String :=
  (if x.isNegative then "-" else "") ++ x.shortest.text

end ReplicaLag
