import Fable.Number.Binary
import Fable.Value.Basic

namespace Fable

inductive Slots.Place
  | free
  | left
  | taken (residue : Nat) (member : Value)

structure Slots where
  places : Array Slots.Place := Array.replicate 8 .free
  deriving Inhabited

namespace Slots

def Place.isFree : Place → Bool
  | free => true
  | _ => false

def Place.content? : Place → Option (Nat × Value)
  | taken residue member => some (residue, member)
  | _ => none

def size (s : Slots) : Nat := s.places.size

/-- Goes along some slots up to one that is free. With it comes the last one passed that a member
has left. -/
def scan (places : Array Place) (left : Option Nat) : List Nat → Option Nat × Option Nat
  | [] => (left, none)
  | slot :: slots => match places.getD slot .free with
    | .free => (left, some slot)
    | .left => scan places (some slot) slots
    | .taken .. => scan places left slots

/-- The slot for a residue. Some neighbours of a slot are looked at, then those of another; `left`
is the last one passed that a member has left. -/
def search (s : Slots) : (rounds : Nat) → (left : Option Nat) → (slot rest : Nat) → Option Nat
  | 0, left, _, _ => left
  | n + 1, left, slot, rest =>
    let near := (List.range (if slot + 10 ≤ s.size then 10 else 1)).map (slot + ·)
    match scan s.places left near with
    | (left, some free) => some (left.getD free)
    | (left, none) => search s n left ((slot * 5 + 1 + rest / 32) % s.size) (rest / 32)

def take (s : Slots) (residue : Nat) (member : Value) : Slots :=
  match s.search (s.size + 13) none (residue % s.size) residue with
  | some slot => { places := s.places.setIfInBounds slot (.taken residue member) }
  | none => s

def sizeBeyond (n : Nat) : (doublings : Nat) → (size : Nat) → Nat
  | 0, size => size
  | d + 1, size => if size ≤ n then sizeBeyond n d (size * 2) else size

def contents (s : Slots) : List (Nat × Value) :=
  s.places.toList.filterMap Place.content?

def moved (s : Slots) : Slots :=
  let contents := s.contents
  let size := sizeBeyond (contents.length * 4) contents.length 8
  contents.foldl (fun t (r, m) ↦ t.take r m) { places := Array.replicate size .free }

def used (s : Slots) : Nat :=
  s.places.countP fun p ↦ !p.isFree

def add (s : Slots) (residue : Nat) (member : Value) : Slots :=
  let s := s.take residue member
  if s.used * 5 < (s.size - 1) * 3 then s else s.moved

def release (s : Slots) (member : Value) : Slots :=
  { places := s.places.map fun p ↦
      if p.content?.any fun c ↦ Value.alike member c.2 then .left else p }

def members (s : Slots) : List Value :=
  s.contents.map (·.2)

end Slots

structure Members where
  items : List Value := []
  slots : Slots := {}
  deriving Inhabited

namespace Members

/-- The residue of a number. Other values have none that could be foreseen. -/
def residue? (v : Value) : Option Nat :=
  match v.float?, v.int? with
  | some x, _ => if x.isNaN then none else some (Number.Residue.ofFloat x)
  | none, some n => some (Number.Residue.ofInt n)
  | none, none => none

def contains (m : Members) (v : Value) : Bool :=
  v.isAmong m.items

def insert (m : Members) (v : Value) : Members :=
  if m.contains v then m
  else { items := m.items ++ [v], slots := m.slots.add ((residue? v).getD 0) v }

def erase (m : Members) (v : Value) : Members :=
  { items := m.items.filter fun w ↦ !Value.alike v w, slots := m.slots.release v }

@[simp] theorem items_insert (m : Members) (v : Value) :
    (m.insert v).items = if m.contains v then m.items else m.items ++ [v] := by
  unfold insert
  split <;> rfl

@[simp] theorem items_erase (m : Members) (v : Value) :
    (m.erase v).items = m.items.filter fun w ↦ !Value.alike v w := rfl

def ofList (vs : List Value) : Members :=
  vs.foldl insert {}

/-- The members as they are gone through: numbers by their slots; if there are others among them, as
they came. -/
def inOrder (m : Members) : List Value :=
  if m.items.all fun v ↦ (residue? v).isSome then m.slots.members else m.items

end Members

end Fable
