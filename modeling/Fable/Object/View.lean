import Fable.Object.Store

namespace Fable.Store

/-- The text of a record. Inside its own text a record is not written again. -/
def recordText (s : Store) : (depth : Nat) → Value.Reference
  | 0 => Value.ellipsis
  | d + 1 => fun around serial ↦
    if around.any (Value.isOne (.object serial)) then .ok "..."
    else match s.record? serial with
      | some r => r.textBy (s.recordText d) (.object serial :: around)
      | none => .ok "..."

def writeRecord (s : Store) : Value.Reference :=
  s.recordText (s.made + 1)

def text (s : Store) (v : Value) : Except Fault String :=
  v.textBy s.writeRecord

def describe (s : Store) (v : Value) : Except Fault Value :=
  match v.string? with
  | some t => match s.lookup? v with
    | some r => .ok r.name
    | none => .ok (.text t)
  | none => (s.text v).map .text

def peers (s : Store) : (depth : Nat) → (a b : Nat) → Bool
  | 0, _, _ => false
  | d + 1, a, b => match s.record? a, s.record? b with
    | some q, some r => Value.equalItems (s.peers d) (q.parts.map (·.2)) (r.parts.map (·.2))
    | _, _ => false

def equal (s : Store) (a b : Value) : Bool :=
  Value.equalBy (s.peers (s.made + 1)) a b

def isAmong (s : Store) (v : Value) (vs : List Value) : Bool :=
  vs.any (Value.likeBy (s.peers (s.made + 1)) v)

def allEqual (s : Store) : List Value → Bool
  | [] => true
  | v :: vs => vs.all (s.equal v)

def order (s : Store) (a b : Value) : Except Fault (Option Ordering) :=
  Value.orderBy (s.peers (s.made + 1)) a b

def less (s : Store) (a b : Value) : Except Fault Bool :=
  (s.order a b).map (· == some .lt)

def atLeast (s : Store) (a b : Value) : Except Fault Bool :=
  (s.order a b).map fun o ↦ o == some .gt || o == some .eq

def view (s : Store) (r : Record) : Except Fault Value :=
  r.view s.writeRecord

def views (s : Store) : Except Fault (List Value) :=
  s.records.entries.mapM s.view

def snapshot (s : Store) : Except Fault Value := do
  pure (.dict [(.text "objects", .list (← s.views))])

abbrev Opening := List Value → Nat → Except Fault Value

mutual

/-- A value with all records, commands and outcomes in it laid open as dictionaries, given what
records become. What is inside itself stays as it is there. A member of a set or a key that would
become a dictionary is refused. -/
def openedBy (record : Opening) (around : List Value) : Value → Except Fault Value
  | .list xs n =>
    if around.any (Value.isOne (.list xs n)) then .ok (.list xs n)
    else (openedItems record (.list xs n :: around) xs).map .list
  | .set xs => do
    let ys ← openedItems record around xs
    if ys.all Value.hashable then pure (.set (Members.ofList ys).inOrder) else .error .mismatch
  | .dict es n =>
    if around.any (Value.isOne (.dict es n)) then .ok (.dict es n)
    else (openedEntries record (.dict es n :: around) es).map .dict
  | .object serial => record around serial
  | .command v d i n =>
    if around.any (Value.isOne (.command v d i n)) then .ok (.command v d i n)
    else do
      let verb ← openedBy record (.command v d i n :: around) v
      let direct ← openedBy record (.command v d i n :: around) d
      let indirect ← openedBy record (.command v d i n :: around) i
      pure (.dict [(.text "verb", verb), (.text "prso", direct), (.text "prsi", indirect)])
  | .outcome r s m ds n =>
    if around.any (Value.isOne (.outcome r s m ds n)) then .ok (.outcome r s m ds n)
    else do
      let score ← openedBy record (.outcome r s m ds n :: around) s
      let moves ← openedBy record (.outcome r s m ds n :: around) m
      pure (.dict [
        (.text "reason", .text r.text),
        (.text "score", score),
        (.text "moves", moves),
        (.text "diagnostics", .list (ds.map .text))])
  | v => .ok v

def openedItems (record : Opening) (around : List Value) : List Value → Except Fault (List Value)
  | [] => .ok []
  | x :: xs => do
    let y ← openedBy record around x
    pure (y :: (← openedItems record around xs))

def openedEntries (record : Opening) (around : List Value) :
    List (Value × Value) → Except Fault (List (Value × Value))
  | [] => .ok []
  | (k, v) :: es => do
    let key ← openedBy record around k
    let w ← openedBy record around v
    if key.hashable then pure ((key, w) :: (← openedEntries record around es)) else .error .mismatch

end

def openedPart (record : Opening) (around : List Value) (name : String) (v : Value) :
    Except Fault (Value × Value) := do
  let w ← match name, v with
    | "properties", .dict es _ => (openedEntries record around es).map .dict
    | _, v => openedBy record around v
  pure (.text name, w)

def openedRecord (s : Store) : (depth : Nat) → Opening
  | 0 => fun _ serial ↦ .ok (.object serial)
  | d + 1 => fun around serial ↦
    if around.any (Value.isOne (.object serial)) then .ok (.object serial)
    else match s.record? serial with
      | some r => do
        let parts ← r.parts.mapM fun (name, v) ↦
          openedPart (s.openedRecord d) (.object serial :: around) name v
        pure (.dict parts)
      | none => .ok (.object serial)

def opened (s : Store) (t : Table Value) : Except Fault (Table Value) :=
  openedEntries (s.openedRecord (s.made + 1)) [] t

end Fable.Store
