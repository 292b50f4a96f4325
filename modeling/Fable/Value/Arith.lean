import Fable.Fault
import Fable.Value.Shared

namespace Fable.Value

def addFloats (x y : Float) : Except Fault Value :=
  .ok (ofFloat 0 (x + y))

def nearest (v : Value) : Except Fault Float :=
  match v.int? with
  | some n => match Number.nearest? n with
    | some x => .ok x
    | Option.none => .error .overflow
  | Option.none => .error .mismatch

def add (a b : Value) : Except Fault Value :=
  match a.float?, b.float? with
  | some x, some y => addFloats x y
  | some x, Option.none => do addFloats x (← nearest b)
  | Option.none, some y => do addFloats (← nearest a) y
  | Option.none, Option.none => match a.int?, b.int? with
    | some n, some m => .ok (int (n + m))
    | _, _ => match a.string?, b.string? with
      | some s, some t => .ok (text (s ++ t))
      | _, _ => match a, b with
        | list xs _, list ys _ => .ok (list (xs ++ ys))
        | _, _ => .error .mismatch

def orderFloats (x y : Float) : Option Ordering :=
  if x < y then some .lt else if y < x then some .gt else if x == y then some .eq else Option.none

def orderSets (xs ys : List Value) : Option Ordering :=
  match within (fun _ _ ↦ false) xs ys, within (fun _ _ ↦ false) ys xs with
  | true, true => some .eq
  | true, false => some .lt
  | false, true => some .gt
  | false, false => Option.none

def orderAtoms (a b : Value) : Except Fault (Option Ordering) :=
  match a.float?, b.float?, a.int?, b.int? with
  | some x, some y, _, _ => .ok (orderFloats x y)
  | some x, _, _, some m => .ok ((Number.compareWhole m x).map Ordering.swap)
  | _, some y, some n, _ => .ok (Number.compareWhole n y)
  | _, _, some n, some m => .ok (some (compare n m))
  | _, _, _, _ => match a.string?, b.string? with
    | some s, some t => .ok (some (compare s t))
    | _, _ => match a, b with
      | set xs, set ys => .ok (orderSets xs ys)
      | _, _ => .error .mismatch

mutual

/-- Where a value stands with respect to another, given when two records are equal; nowhere if one
of them is no number. Lists are compared at the first place where they differ. -/
def orderBy (peers : Nat → Nat → Bool) : Value → Value → Except Fault (Option Ordering)
  | list xs _, list ys _ => orderLists peers xs ys
  | a, b => orderAtoms a b

def orderLists (peers : Nat → Nat → Bool) :
    List Value → List Value → Except Fault (Option Ordering)
  | [], [] => .ok (some .eq)
  | [], _ :: _ => .ok (some .lt)
  | _ :: _, [] => .ok (some .gt)
  | x :: xs, y :: ys =>
    if likeBy peers x y then orderLists peers xs ys else orderBy peers x y

end

/-- The order where records count as equal only if they are one. This is all there is to order if
one of the two values is no list, or can name something. -/
def order (a b : Value) : Except Fault (Option Ordering) :=
  orderBy (fun _ _ ↦ false) a b

def lt (a b : Value) : Except Fault Bool :=
  (order a b).map (· == some .lt)

theorem order_int (m n : Int) : (int m).order (int n) = .ok (some (compare m n)) := by
  simp [order, orderBy, orderAtoms, float?, int?]

theorem lt_int (m n : Int) : (int m).lt (int n) = .ok (decide (m < n)) := by
  rw [lt, order_int, Except.map, Except.ok.injEq, Bool.eq_iff_iff, beq_iff_eq, Option.some.injEq,
    Int.compare_eq_lt, decide_eq_true_iff]

def insertSorted (v : Value) : List Value → Except Fault (List Value)
  | [] => .ok [v]
  | w :: ws => do if ← lt v w then pure (v :: w :: ws) else pure (w :: (← insertSorted v ws))

def sort : List Value → Except Fault (List Value)
  | [] => .ok []
  | v :: vs => do insertSorted v (← sort vs)

end Fable.Value
