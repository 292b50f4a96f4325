import Fable.Code
import Fable.Number.Binary

namespace Fable

inductive StandardVerb
  | look | examine | take | drop | inventory | openUp | closeUp | walk | score | quit
  deriving DecidableEq, Repr

inductive Body
  | code (c : Code)
  | verb (v : StandardVerb)

/-- Two routines are the same only if they were made at the same moment. -/
structure Routine where
  name : String
  stamp : Nat
  body : Body

inductive Reason
  | died
  | won
  | quit
  | limit
  deriving DecidableEq, Repr

def Reason.text : Reason → String
  | died => "died"
  | won => "won"
  | quit => "quit"
  | limit => "limit"

inductive Value
  | none
  | bool (b : Bool)
  | int (n : Int)
  /-- A float that is a number or an infinity. -/
  | float (x : Float)
  /-- A float that is no number, told from others by the moment at which it was made. -/
  | nan (stamp : Nat)
  | text (s : String)
  /-- The stamp of a container that has none is 0. -/
  | list (items : List Value) (stamp : Nat := 0)
  | dict (entries : List (Value × Value)) (stamp : Nat := 0)
  /-- The members in the order in which they are gone through. -/
  | set (items : List Value)
  | fatal
  | directive (d : Directive)
  | message (m : Message)
  | routine (r : Routine)
  /-- The record of an object, as it stands when it is looked at. -/
  | object (serial : Nat)
  | command (verb direct indirect : Value) (stamp : Nat := 0)
  | outcome (reason : Reason) (score moves : Value) (diagnostics : List String) (stamp : Nat := 0)
  deriving Inhabited

namespace Value

def ofFloat (stamp : Nat) (x : Float) : Value :=
  if x.isNaN then nan stamp else float x

def string? : Value → Option String
  | text s => some s
  | message m => some m.text
  | _ => Option.none

def isText (v : Value) : Bool := v.string?.isSome

def hasText (s : String) : Value → Bool
  | text t => t == s
  | message m => m.text == s
  | _ => false

def int? : Value → Option Int
  | bool b => some (if b then 1 else 0)
  | int n => some n
  | _ => Option.none

def float? : Value → Option Float
  | float x => some x
  | nan _ => some (0 / 0)
  | _ => Option.none

def isNone : Value → Bool
  | none => true
  | _ => false

def truthy : Value → Bool
  | none => false
  | bool b => b
  | int n => n != 0
  | float x => !(x == 0)
  | text s => !s.isEmpty
  | list xs _ => !xs.isEmpty
  | dict es _ => !es.isEmpty
  | set xs => !xs.isEmpty
  | _ => true

/-- Values that can name something: an object, a flag, a property, a global, a verb or a routine. -/
def hashable : Value → Bool
  | list .. | dict .. | set _ | object _ | outcome .. => false
  | command v d i _ => v.hashable && d.hashable && i.hashable
  | _ => true

def seekable : Value → Bool
  | set _ => true
  | v => v.hashable

def sameWhole (n : Int) : Value → Bool
  | bool b => n == if b then 1 else 0
  | int m => n == m
  | float x => Number.compareWhole n x == some .eq
  | _ => false

def sameFloat (x : Float) : Value → Bool
  | bool b => Number.compareWhole (if b then 1 else 0) x == some .eq
  | int m => Number.compareWhole m x == some .eq
  | float y => x == y
  | _ => false

def itself : Value → Value → Bool
  | nan a, nan b => a == b
  | float x, float y => x.toBits == y.toBits
  | _, _ => false

/-- What tells a container from others that are equal to it; 0 if nothing does. -/
def stampOf : Value → Nat
  | list _ n | dict _ n | command _ _ _ n | outcome _ _ _ _ n => n
  | _ => 0

def isOne : Value → Value → Bool
  | object a, object b => a == b
  | a, b => a.stampOf != 0 && a.stampOf == b.stampOf

mutual

def isMarked : Value → Bool
  | object _ => true
  | list xs n => n != 0 || itemsMarked xs
  | set xs => itemsMarked xs
  | dict es n => n != 0 || entriesMarked es
  | command v d i n => n != 0 || v.isMarked || d.isMarked || i.isMarked
  | outcome _ s m _ n => n != 0 || s.isMarked || m.isMarked
  | _ => false

def itemsMarked : List Value → Bool
  | [] => false
  | x :: xs => x.isMarked || itemsMarked xs

def entriesMarked : List (Value × Value) → Bool
  | [] => false
  | (k, v) :: es => k.isMarked || v.isMarked || entriesMarked es

end

def withStamp (n : Nat) : Value → Value
  | list xs 0 => list xs n
  | dict es 0 => dict es n
  | command v d i 0 => command v d i n
  | outcome r s m ds 0 => outcome r s m ds n
  | v => v

mutual

/-- The value with stamps from `next` on for those containers in it without one in which there are
records, and the stamp after those. -/
def stamped (next : Nat) : Value → Value × Nat
  | list xs 0 =>
    if itemsMarked xs then
      let (ys, n) := stampedItems (next + 1) xs
      (list ys next, n)
    else (list xs, next)
  | dict es 0 =>
    if entriesMarked es then
      let (fs, n) := stampedEntries (next + 1) es
      (dict fs next, n)
    else (dict es, next)
  | command v d i 0 =>
    if v.isMarked || d.isMarked || i.isMarked then
      let (v, n) := stamped (next + 1) v
      let (d, n) := stamped n d
      let (i, n) := stamped n i
      (command v d i next, n)
    else (command v d i, next)
  | outcome r s m ds 0 =>
    if s.isMarked || m.isMarked then
      let (s, n) := stamped (next + 1) s
      let (m, n) := stamped n m
      (outcome r s m ds next, n)
    else (outcome r s m ds, next)
  | v => (v, next)

def stampedItems (next : Nat) : List Value → List Value × Nat
  | [] => ([], next)
  | x :: xs =>
    let (y, n) := stamped next x
    let (ys, n) := stampedItems n xs
    (y :: ys, n)

def stampedEntries (next : Nat) : List (Value × Value) → List (Value × Value) × Nat
  | [] => ([], next)
  | (k, v) :: es =>
    let (k, n) := stamped next k
    let (v, n) := stamped n v
    let (fs, n) := stampedEntries n es
    ((k, v) :: fs, n)

end

mutual

/-- Equality of values, given when two records are equal. Dictionaries and sets are compared without
regard to order. -/
def sameBy (peers : Nat → Nat → Bool) : Value → Value → Bool
  | none, b => b.isNone
  | bool x, b => sameWhole (if x then 1 else 0) b
  | int n, b => sameWhole n b
  | float x, b => sameFloat x b
  | text s, b => b.hasText s
  | message m, b => b.hasText m.text
  | list xs _, list ys _ => sameItems peers xs ys
  | dict xs _, dict ys _ => xs.length == ys.length && sameEntries peers xs ys
  | set xs, set ys => xs.length == ys.length && within peers xs ys
  | fatal, fatal => true
  | directive d, directive e => d == e
  | routine r, routine q => r.stamp == q.stamp
  | object a, object b => a == b || peers a b
  | command v d i _, command v' d' i' _ =>
    (itself v v' || sameBy peers v v') && (itself d d' || sameBy peers d d') &&
      (itself i i' || sameBy peers i i')
  | outcome r s m ds _, outcome r' s' m' ds' _ =>
    r == r' && (itself s s' || sameBy peers s s') && (itself m m' || sameBy peers m m') && ds == ds'
  | _, _ => false

def sameItems (peers : Nat → Nat → Bool) : List Value → List Value → Bool
  | [], [] => true
  | x :: xs, y :: ys => (itself x y || sameBy peers x y) && sameItems peers xs ys
  | _, _ => false

def sameEntries (peers : Nat → Nat → Bool) : List (Value × Value) → List (Value × Value) → Bool
  | [], _ => true
  | (k, v) :: es, ys =>
    (ys.any fun e ↦ (itself k e.1 || sameBy peers k e.1) && (itself v e.2 || sameBy peers v e.2)) &&
      sameEntries peers es ys

def within (peers : Nat → Nat → Bool) : List Value → List Value → Bool
  | [], _ => true
  | x :: xs, ys => (ys.any fun y ↦ itself x y || sameBy peers x y) && within peers xs ys

end

/-- Equality where records count as equal only if they are one. This is all there is to equality if
one of the two values can name something. -/
def same (a b : Value) : Bool :=
  sameBy (fun _ _ ↦ false) a b

def alike (a b : Value) : Bool :=
  itself a b || same a b

@[simp] theorem same_text (s t : String) : same (text s) (text t) = (s == t) := by
  simp [same, sameBy, hasText, BEq.comm]

@[simp] theorem same_text_none (s : String) : same (text s) none = false := by
  simp [same, sameBy, hasText]

@[simp] theorem same_none_text (s : String) : same none (text s) = false := by
  simp [same, sameBy, isNone]

@[simp] theorem same_none_none : same none none = true := by
  simp [same, sameBy, isNone]

@[simp] theorem alike_text (s : String) (v : Value) : alike (text s) v = same (text s) v := by
  simp [alike, itself]

@[simp] theorem alike_none (v : Value) : alike none v = same none v := by
  simp [alike, itself]

def isAmong (v : Value) (vs : List Value) : Bool :=
  vs.any (alike v)

end Value

abbrev Table (α : Type) := List (Value × α)

namespace Table

variable {α : Type}

def find? (t : Table α) (key : Value) : Option α :=
  (List.find? (fun e ↦ Value.alike e.1 key) t).map (·.2)

def contains (t : Table α) (key : Value) : Bool :=
  t.any fun e ↦ Value.alike e.1 key

/-- A key that is there keeps its place, and its spelling, and takes the new entry. -/
def insert (t : Table α) (key : Value) (a : α) : Table α :=
  match t with
  | [] => [(key, a)]
  | e :: t => if Value.alike e.1 key then (e.1, a) :: t else e :: insert t key a

def ofEntries (es : List (Value × α)) : Table α :=
  es.foldl (fun t e ↦ t.insert e.1 e.2) []

def modify (t : Table α) (key : Value) (f : α → α) : Table α :=
  t.map fun e ↦ if Value.alike e.1 key then (e.1, f e.2) else e

def keys (t : Table α) : List Value :=
  t.map (·.1)

def entries (t : Table α) : List α :=
  t.map (·.2)

end Table

end Fable
