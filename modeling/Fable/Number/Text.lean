import Fable.Number.Binary

namespace Fable.Number

structure Decimal where
  digits : Nat
  exponent : Int

structure Ratio where
  num : Nat
  den : Nat

namespace Ratio

def ofBinary (m : Nat) (e : Int) : Ratio :=
  if 0 ≤ e then ⟨m * Nat.pow 2 e.toNat, 1⟩ else ⟨m, Nat.pow 2 (-e).toNat⟩

def scaled (r : Ratio) (u : Int) : Ratio :=
  if 0 ≤ u then ⟨r.num, r.den * Nat.pow 10 u.toNat⟩ else ⟨r.num * Nat.pow 10 (-u).toNat, r.den⟩

def le (r : Ratio) (n : Nat) : Bool := r.num ≤ n * r.den

def lt (r : Ratio) (n : Nat) : Bool := r.num < n * r.den

def ge (r : Ratio) (n : Nat) : Bool := n * r.den ≤ r.num

def gt (r : Ratio) (n : Nat) : Bool := n * r.den < r.num

def magnitude (r : Ratio) : Int :=
  if r.den ≤ r.num then ((Nat.toDigits 10 (r.num / r.den)).length : Int) - 1
  else match (List.range 400).find? fun k ↦ r.den ≤ r.num * Nat.pow 10 k with
    | some k => -(k : Int)
    | none => 0

end Ratio

/-- The neighbour of `value` among the multiples of `10 ^ u` that lies between `low` and `high`, the
nearer one of two, the even one of two equally near. -/
def gridPoint? (low value high : Ratio) (closed : Bool) (u : Int) : Option Nat :=
  let low := low.scaled u
  let value := value.scaled u
  let high := high.scaled u
  let inside (n : Nat) := if closed then low.le n && high.ge n else low.lt n && high.gt n
  let d := value.num / value.den
  let twice := 2 * (value.num % value.den)
  match inside d, inside (d + 1) with
  | true, true =>
    if twice < value.den then some d
    else if value.den < twice then some (d + 1)
    else some (if d % 2 = 0 then d else d + 1)
  | true, false => some d
  | false, true => some (d + 1)
  | false, false => none

/-- The shortest decimal for the float `m · 2 ^ e`, where `m` is positive. The float below is nearer
than the one above when `m` is the least mantissa of its exponent. -/
def shortest (m : Nat) (e : Int) : Decimal :=
  let low := Ratio.ofBinary (if m = Nat.pow 2 52 ∧ -1074 < e then 4 * m - 1 else 4 * m - 2) (e - 2)
  let value := Ratio.ofBinary m e
  let high := Ratio.ofBinary (4 * m + 2) (e - 2)
  let top := value.magnitude
  let found := (List.range 17).findSome? fun (k : Nat) ↦
    let u := top - (k : Int)
    (gridPoint? low value high (m % 2 = 0) u).map fun d ↦ Decimal.mk d u
  found.getD ⟨m, e⟩

def dropZeros : List Char → List Char :=
  fun cs ↦ (cs.reverse.dropWhile (· == '0')).reverse

def exponentText (e : Int) : String :=
  let digits := (toString e.natAbs)
  (if e < 0 then "-" else "+") ++ (if digits.length < 2 then "0" ++ digits else digits)

/-- `point` is the place of the decimal point, counted from the first of the digits. -/
def placed (digits : List Char) (point : Int) : String :=
  let n : Int := digits.length
  if -4 < point ∧ point ≤ 16 then
    if point ≤ 0 then "0." ++ "".pushn '0' (-point).toNat ++ String.ofList digits
    else if n ≤ point then String.ofList digits ++ "".pushn '0' (point - n).toNat ++ ".0"
    else String.ofList (digits.take point.toNat) ++ "." ++ String.ofList (digits.drop point.toNat)
  else
    let fraction := digits.drop 1
    String.ofList (digits.take 1) ++
      (if fraction.isEmpty then "" else "." ++ String.ofList fraction) ++
      "e" ++ exponentText (point - 1)

def magnitudeText (m : Nat) (e : Int) : String :=
  if m = 0 then "0.0"
  else
    let d := shortest m e
    let all := Nat.toDigits 10 d.digits
    placed (dropZeros all) (all.length + d.exponent)

def floatText (x : Float) : String :=
  match binary x with
  | .nan => "nan"
  | .infinite negative => if negative then "-inf" else "inf"
  | .finite negative m e => (if negative then "-" else "") ++ magnitudeText m e

def ofDecimal (negative : Bool) (digits : Nat) (exponent : Int) : Float :=
  let size : Int := (Nat.toDigits 10 digits).length + exponent
  let x : Float :=
    if digits = 0 ∨ size < -400 then 0
    else if 400 < size then (1.0 : Float) / 0
    else OfScientific.ofScientific digits (decide (exponent < 0)) exponent.natAbs
  if negative then -x else x

def digitsValue (cs : List Char) : Nat :=
  cs.foldl (fun n c ↦ n * 10 + (c.toNat - 48)) 0

/-- No float, and no point in the middle between two of them, has more digits. -/
def mostSignificant : Nat := 800

/-- The digits without zeros in front. Of those beyond the last one that can matter it is only told
whether they are all zeros, by one digit; with it comes how many more there were. -/
def significant (digits : List Char) : List Char × Nat :=
  let ds := digits.dropWhile (· == '0')
  let (front, back) := ds.splitAt mostSignificant
  if back.isEmpty then (front, 0)
  else (front ++ [if back.all (· == '0') then '0' else '1'], back.length - 1)

def ofParts (negative : Bool) (integer fraction : List Char) (exponent : Int) : Float :=
  let (digits, cut) := significant (integer ++ fraction)
  ofDecimal negative (digitsValue digits) (exponent - fraction.length + cut)

def exponentValue (negative : Bool) (digits : List Char) : Int :=
  let ds := digits.dropWhile (· == '0')
  let n := if 20 < ds.length then Nat.pow 10 20 else digitsValue ds
  if negative then -n else n

end Fable.Number
