import Fable.Object.Record
import Fable.Random.Seed

namespace Fable

/-- A draw changes the generator, and may fail before or after that. -/
abbrev Draw := EStateM Fault Twister

namespace Draw

def lift {α : Type} : Except Fault α → Draw α
  | .ok a => pure a
  | .error f => throw f

def below (bound : Nat) : Draw Nat := fun t ↦
  match t.below bound with
  | some (n, t) => .ok n t
  | none => .error .tooDeep t

/-- How many numbers there are from 1 to a positive one; a float has to be whole once it is one
more. -/
def span (n : Value) : Except Fault Nat :=
  match n with
  | .float x => match Number.binary (x + 1) with
    | .infinite _ => .error .overflow
    | _ => match Number.whole? (x + 1) with
      | some stop => if 1 < stop then .ok (stop - 1).toNat else .error .badValue
      | none => .error .badValue
  | n => match n.int? with
    | some n => .ok n.toNat
    | none => .error .mismatch

def negated : Value → Value
  | .float x => .float (-x)
  | v => match v.int? with
    | some n => .int (-n)
    | none => v

/-- From 1 to a positive number, from -1 down to a negative one, 0 otherwise. -/
def random (n : Value) : Draw Value := do
  match ← lift (n.order (.int 0)) with
  | some .gt => return .int ((← below (← lift (span n))) + 1)
  | some .lt => return .int (-((← below (← lift (span (negated n)))) + 1))
  | _ => return .int 0

def pickOne (v : Value) : Draw Value := do
  if !v.truthy then return .none
  match v with
  | .dict es _ =>
    let i ← below es.length
    match Table.find? es (.int i) with
    | some w => return w
    | none => throw .noKey
  | .set xs => do
    let _ ← below xs.length
    throw .mismatch
  | v =>
    let members ← lift v.elements
    let i ← below members.length
    return members.getD i .none

def chance (percent : Value) : Draw Value := do
  let r ← below 100
  return .bool (← lift ((Value.int r).lt percent))

def reseed (seed : Value) : Draw Value := do
  set (← lift (Twister.ofValue seed))
  return .none

end Draw

end Fable
