namespace Fable.Number

/-- What a float stands for: nothing, an infinity, or `± mantissa · 2 ^ exponent`. -/
inductive Binary
  | nan
  | infinite (negative : Bool)
  | finite (negative : Bool) (mantissa : Nat) (exponent : Int)

def binary (x : Float) : Binary :=
  let bits := x.toBits.toNat
  let negative := bits / Nat.pow 2 63 == 1
  let exponent : Nat := bits / Nat.pow 2 52 % 2048
  let fraction := bits % Nat.pow 2 52
  if exponent = 2047 then if fraction = 0 then .infinite negative else .nan
  else if exponent = 0 then .finite negative fraction (-1074)
  else .finite negative (fraction + Nat.pow 2 52) ((exponent : Int) - 1075)

def signed (negative : Bool) (n : Nat) : Int :=
  if negative then -n else n

/-- Where a whole number lies with respect to a float; nowhere for a float that is no number. -/
def compareWhole (n : Int) (x : Float) : Option Ordering :=
  match binary x with
  | .nan => none
  | .infinite negative => some (if negative then .gt else .lt)
  | .finite negative m e =>
    if 0 ≤ e then some (compare n (signed negative (m * Nat.pow 2 e.toNat)))
    else some (compare (n * Int.ofNat (Nat.pow 2 (-e).toNat)) (signed negative m))

def whole? (x : Float) : Option Int :=
  match binary x with
  | .finite negative m e =>
    if 0 ≤ e then some (signed negative (m * Nat.pow 2 e.toNat))
    else if m % Nat.pow 2 (-e).toNat = 0 then some (signed negative (m / Nat.pow 2 (-e).toNat))
    else none
  | _ => none

def nearest? (n : Int) : Option Float :=
  let x := Float.ofInt n
  match binary x with
  | .finite .. => some x
  | _ => none

end Fable.Number

namespace Fable.Number.Residue

def modulus : Nat := Nat.pow 2 61 - 1

/-- A residue with its sign as a word of 64 bits; there is no -1. -/
def word (negative : Bool) (n : Nat) : Nat :=
  if !negative || n = 0 then n else Nat.pow 2 64 - max n 2

def ofInt (n : Int) : Nat :=
  word (n < 0) (n.natAbs % modulus)

def ofFloat (x : Float) : Nat :=
  match binary x with
  | .nan => 0
  | .infinite negative => word negative 314159
  | .finite negative m e => word negative (m * Nat.pow 2 (e % 61).toNat % modulus)

end Fable.Number.Residue
