import Fable.Object.Record

namespace Fable

structure Arrival where
  object : Value
  container : Value

structure Store where
  records : Table Record := []
  /-- The latest last. -/
  arrivals : List Arrival := []
  retired : List Record := []
  made : Nat := 0
  deriving Inhabited

namespace Store

def lookup? (s : Store) (id : Value) : Option Record :=
  s.records.find? id

def find? (s : Store) (id : Value) : Option Record :=
  if id.isNone then none else s.lookup? id

def isDefined (s : Store) (id : Value) : Bool :=
  (s.find? id).isSome

def ids (s : Store) : List Value :=
  s.records.keys

def record? (s : Store) (serial : Nat) : Option Record :=
  (s.records.entries ++ s.retired).find? (·.serial == serial)

def parent (s : Store) (id : Value) : Value :=
  match s.find? id with
  | some r => r.parent
  | none => .none

def climb (s : Store) : Nat → Value → Value
  | 0, current => current
  | n + 1, current =>
    let up := if current.isNone then .none else s.parent current
    if up.isNone then current else s.climb n up

/-- The containers from `current` outwards, up to one that was seen before. -/
def chain (s : Store) : (limit : Nat) → (seen : List Value) → (current : Value) → List Value
  | 0, _, _ => []
  | n + 1, seen, current =>
    if current.isNone || current.isAmong seen then []
    else current :: s.chain n (current :: seen) (s.parent current)

def ancestors (s : Store) (id : Value) : List Value :=
  s.chain (s.records.length + 1) [id] (s.parent id)

def held (s : Store) (id holder : Value) : Bool :=
  (s.ancestors id).any fun a ↦ Value.same a holder

def children (s : Store) (container : Value) : List Value :=
  (s.arrivals.filter fun a ↦ Value.alike a.container container).map (·.object)

def first (s : Store) (container : Value) : Value :=
  (s.children container).headD .none

def successor (id : Value) : List Value → Except Fault Value
  | [] => .error .badValue
  | x :: xs => if Value.alike x id then .ok (xs.headD .none) else successor id xs

def next (s : Store) (id : Value) : Except Fault Value :=
  let container := s.parent id
  if container.isNone then .ok .none else successor id (s.children container)

def isIn (s : Store) (id container : Value) : Bool :=
  s.isDefined id && Value.same (s.parent id) container

def hasFlag (s : Store) (id flag : Value) : Bool :=
  match s.find? id with
  | some r => r.hasFlag flag
  | none => false

def openFlag : Value := .text "OPENBIT"

def transparentFlag : Value := .text "TRANSBIT"

def showsInside (s : Store) (id : Value) : Bool :=
  s.hasFlag id openFlag || s.hasFlag id transparentFlag

/-- The object is directly in the location, or in an open or transparent container that is. -/
def visible (s : Store) (id location : Value) : Bool :=
  let container := s.parent id
  if container.isNone then false
  else if Value.same container location then true
  else Value.same (s.parent container) location && s.showsInside container

def property (s : Store) (id key default : Value) : Value :=
  match s.find? id with
  | none => default
  | some r => match Field.ofKey? key with
    | some f => if (r.field f).isNone then default else r.field f
    | none => (r.properties.find? key).getD default

end Store

end Fable
