import Fable.Value.Arith
import Fable.Value.Basic
import Fable.Value.Members
import Fable.Value.Text

namespace Fable

namespace Value

def elements : Value → Except Fault (List Value)
  | text s => .ok (s.toList.map fun c ↦ text c.toString)
  | message m => .ok (m.text.toList.map fun c ↦ text c.toString)
  | list xs _ => .ok xs
  | set xs => .ok xs
  | dict es _ => .ok (es.map (·.1))
  | _ => .error .mismatch

def collect (seen : Members) : List Value → Except Fault Members
  | [] => .ok seen
  | v :: vs => if v.hashable then collect (seen.insert v) vs else .error .mismatch

def toFlags (v : Value) : Except Fault Members :=
  if v.truthy then do collect {} (← v.elements) else .ok {}

def toEntry (v : Value) : Except Fault (Value × Value) := do
  match ← v.elements with
  | [k, w] => if k.hashable then .ok (k, w) else .error .mismatch
  | _ => .error .badValue

def insertEntries (t : Table Value) : List Value → Except Fault (Table Value)
  | [] => .ok t
  | v :: vs => do
    let e ← v.toEntry
    insertEntries (t.insert e.1 e.2) vs

def toTable (v : Value) : Except Fault (Table Value) :=
  match v with
  | dict es _ => .ok es
  | v => if v.truthy then do insertEntries [] (← v.elements) else .ok []

end Value

inductive Field
  | desc
  | ldesc
  | fdesc
  | synonyms
  | adjectives
  | size
  | action
  deriving DecidableEq, Repr

namespace Field

def name : Field → String
  | desc => "desc"
  | ldesc => "ldesc"
  | fdesc => "fdesc"
  | synonyms => "synonyms"
  | adjectives => "adjectives"
  | size => "size"
  | action => "action"

def all : List Field := [desc, ldesc, fdesc, synonyms, adjectives, size, action]

def ofName? (s : String) : Option Field :=
  all.find? (·.name == s)

def ofKey? (v : Value) : Option Field :=
  v.string?.bind ofName?

end Field

structure Record where
  id : Value
  serial : Nat := 0
  parent : Value := .none
  flags : Members := {}
  properties : Table Value := []
  desc : Value := .none
  ldesc : Value := .none
  fdesc : Value := .none
  synonyms : Value := .list []
  adjectives : Value := .list []
  size : Value := .int 0
  action : Value := .none
  deriving Inhabited

namespace Record

def name (r : Record) : Value :=
  if r.desc.truthy then r.desc else r.id

def field (r : Record) : Field → Value
  | .desc => r.desc
  | .ldesc => r.ldesc
  | .fdesc => r.fdesc
  | .synonyms => r.synonyms
  | .adjectives => r.adjectives
  | .size => r.size
  | .action => r.action

def setField (r : Record) (f : Field) (v : Value) : Record :=
  match f with
  | .desc => { r with desc := v }
  | .ldesc => { r with ldesc := v }
  | .fdesc => { r with fdesc := v }
  | .synonyms => { r with synonyms := v }
  | .adjectives => { r with adjectives := v }
  | .size => { r with size := v }
  | .action => { r with action := v }

def hasFlag (r : Record) (flag : Value) : Bool :=
  r.flags.contains flag

def setFlag (r : Record) (flag : Value) : Record :=
  { r with flags := r.flags.insert flag }

def clearFlag (r : Record) (flag : Value) : Record :=
  { r with flags := r.flags.erase flag }

def parts (r : Record) : List (String × Value) := [
  ("id", r.id),
  ("parent", r.parent),
  ("flags", .set r.flags.inOrder),
  ("properties", .dict r.properties),
  ("desc", r.desc),
  ("ldesc", r.ldesc),
  ("fdesc", r.fdesc),
  ("synonyms", r.synonyms),
  ("adjectives", r.adjectives),
  ("size", r.size),
  ("action", r.action)]

/-- The text of a part. The table of properties belongs to the record alone, so that it cannot be
one of the values around. -/
def partText (record : Value.Reference) (around : List Value) (name : String) (v : Value) :
    Except Fault String := do
  let t ← match name, v with
    | "properties", .dict es _ =>
      (Value.quotedEntries record around es).map (Value.bracketed "\x7b" "\x7d")
    | _, v => v.quoted record around
  pure (name ++ "=" ++ t)

def textBy (record : Value.Reference) (around : List Value) (r : Record) : Except Fault String := do
  let parts ← r.parts.mapM fun (name, v) ↦ partText record around name v
  pure (Value.bracketed "ObjectRecord(" ")" parts)

def actionName (record : Value.Reference) (r : Record) : Except Fault Value :=
  match r.action with
  | .none => .ok .none
  | .text s => .ok (.text s)
  | .message m => .ok (.message m)
  | .routine q => .ok (.text q.name)
  | v => (v.quoted record []).map .text

def view (record : Value.Reference) (r : Record) : Except Fault Value := do
  let action ← r.actionName record
  let flags ← Value.sort r.flags.items
  let synonyms ← r.synonyms.elements
  let adjectives ← r.adjectives.elements
  pure (.dict [
    (.text "id", r.id),
    (.text "parent", r.parent),
    (.text "flags", .list flags),
    (.text "properties", .dict r.properties),
    (.text "desc", r.desc),
    (.text "ldesc", r.ldesc),
    (.text "fdesc", r.fdesc),
    (.text "synonyms", .list synonyms),
    (.text "adjectives", .list adjectives),
    (.text "size", r.size),
    (.text "action", action)])

end Record

structure Attributes where
  parent : Value := .none
  flags : Value := .none
  properties : Value := .none
  fields : List (Field × Value) := []
  unknown : List Value := []
  clashing : Bool := false

namespace Attributes

def insertName (name : Value) : List Value → List Value
  | [] => [name]
  | v :: vs => if name.string?.getD "" < v.string?.getD "" then name :: v :: vs
    else v :: insertName name vs

def put (a : Attributes) (name : Value) (v : Value) : Attributes :=
  let s := name.string?.getD ""
  if s = "parent" then { a with parent := v }
  else if s = "flags" then { a with flags := v }
  else if s = "properties" then { a with properties := v }
  else if s = "obj_id" ∨ s = "self" then { a with clashing := true }
  else match Field.ofName? s with
    | some f => { a with fields := a.fields ++ [(f, v)] }
    | none => { a with unknown := insertName name a.unknown }

def ofValue (v : Value) : Except Fault Attributes :=
  match v with
  | .dict es _ =>
    es.foldlM (fun a e ↦ if e.1.isText then .ok (a.put e.1 e.2) else .error .mismatch) {}
  | _ => .error .mismatch

def record (a : Attributes) (id : Value) (serial : Nat) : Except Fault Record := do
  let flags ← a.flags.toFlags
  let properties ← a.properties.toTable
  pure (a.fields.foldl (fun r e ↦ r.setField e.1 e.2)
    { id, serial, parent := a.parent, flags, properties })

end Attributes

end Fable
