import Fable.Game.Action

namespace Fable

namespace Store

/-- The objects met from one on, going from each to the next, and how that ends. -/
def cursor (s : Store) : (limit : Nat) → Value → List Value × Except Fault Unit
  | 0, _ => ([], .error .tooDeep)
  | n + 1, x =>
    if x.isNone then ([], .ok ())
    else match s.next x with
      | .error f => ([x], .error f)
      | .ok y =>
        let (xs, e) := s.cursor n y
        (x :: xs, e)

def walk (s : Store) (container : Value) : List Value × Except Fault Unit :=
  s.cursor (s.arrivals.length + 1) (s.first container)

def weighDown (s : Store) : (depth : Nat) → Value → Except Fault Value
  | 0, _ => .error .tooDeep
  | d + 1, container => do
    let (xs, ending) := s.walk container
    let total ← xs.foldlM (fun total x ↦ do
      let inside ← s.weighDown d x
      total.add (← (s.property x (.text "size") (.int 0)).add inside)) (.int 0)
    ending
    pure total

def weight (s : Store) (container : Value) : Except Fault Value :=
  s.weighDown (s.records.length + 2) container

end Store

namespace Play

def weight (container : Value) : Play Value := do
  demand container
  fresh (← lift ((← get).store.weight container))

def touchedFlag : Value := .text "TOUCHBIT"

def invisibleFlag : Value := .text "INVISIBLE"

def undescribedFlag : Value := .text "NDESCBIT"

def forEach (container : Value) (act : Value → Play Unit) : Play Unit := do
  let (xs, ending) := (← get).store.walk container
  xs.forM act
  lift ending

def listInside (container : Value) : Play Unit := do
  tell [.text "The ", desc, container, .text " contains:", newline]
  forEach container fun x ↦ tell [.text "  A ", desc, x, newline]

def listItself (id : Value) : Play Unit := do
  let s := (← get).store
  let first := s.property id (.text "fdesc") .none
  if first.truthy && !s.hasFlag id touchedFlag then tell [first, newline]
  else tell [.text "There is a ", desc, id, .text " here.", newline]

def listObject (id : Value) : Play Unit := do
  let g ← get
  if !Value.same id (g.global "WINNER") && !g.store.hasFlag id invisibleFlag then
    if !g.store.hasFlag id undescribedFlag then listItself id
    if g.store.showsInside id && !(g.store.first id).isNone then listInside id

def describeContents (container : Value) : Play Unit := do
  demand container
  forEach container listObject

def describeRoom (handled : Bool) : Play Unit := do
  let here := (← get).global "HERE"
  if !handled then
    let text ← property here (.text "ldesc") .none
    if text.truthy then tell [text, newline]
  describeContents here
  onStore (Store.setFlag here touchedFlag)

end Play

end Fable
