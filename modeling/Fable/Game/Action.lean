import Fable.Game.State
import Fable.Tell

namespace Fable.Play

def define (id : Value) (a : Attributes) : Play Value :=
  surviving (onStore (Store.define id a)) .none

def move (id into : Value) : Play Bool :=
  surviving (do onStore (Store.move id into); pure true) false

def property (id key default : Value) : Play Value := do
  demand id
  match (← get).store.find? id with
  | none => pure default
  | some _ =>
    if (Field.ofKey? key).isNone then demand key
    pure ((← get).store.property id key default)

def hasFlag (id flag : Value) : Play Bool := do
  demand id
  if (← get).store.isDefined id && !flag.seekable then fail .mismatch
  pure ((← get).store.hasFlag id flag)

def inScope (id : Value) : Play Bool := do
  demand id
  pure ((← get).inScope id)

def verbTag (verb : Value) : Play Value := do
  demand verb
  pure ((← get).verbTag verb)

def verbIs : List Value → Play Bool
  | [] => pure false
  | v :: vs => do
    if (← get).global "PRSA" |>.isNone then pure false
    else if (← get).store.equal (← verbTag v) ((← get).global "PRSA") then pure true
    else verbIs vs

def registerVerb (verb tag : Value) : Play Value := do
  let resolved := if tag.truthy then tag else verb
  demand verb
  modify fun g ↦ { g with verbs := g.verbs.insert verb resolved }
  pure resolved

def registerRoutine (name routine : Value) : Play Value := do
  demand name
  modify fun g ↦ { g with routines := g.routines.insert name routine }
  pure routine

def routine (name : Value) : Play Value := do
  demand name
  pure (((← get).routines.find? name).getD .none)

def score (points : Value) : Play Value := do
  let total ← sum ((← get).globalOr "SCORE" (.int 0)) points
  setGlobal "SCORE" total
  pure total

def voice (s : Store) : Tell.Voice where
  describe := s.describe
  record := s.writeRecord

def tell (tokens : List Value) : Play Unit := do
  let (out, fault) := Tell.render (voice (← get).store) 0 tokens
  out.forM write
  match fault with
  | some f => if f.isAuthoring then report f else fail f
  | none => pure ()

def newline : Value := .directive .newline

def desc : Value := .directive .desc

def number : Value := .directive .number

variable (exec : Exec)

def call (name : Value) (args : List Value) : Play Value := do
  let r ← routine name
  if r.isNone then pure .none else boundary (exec r args)

def applyAction (id message : Value) : Play Value := do
  demand id
  match (← get).store.find? id with
  | none => pure .none
  | some r =>
    if r.action.isNone then pure .none
    else if r.action.isText then call exec r.action [message]
    else boundary (exec r.action [message])

/-- Takes the player into a room and lets the room's handler look. A refused move changes
nothing. -/
def goTo (room : Value) : Play Value := do
  if ← move ((← get).global "WINNER") room then
    setGlobal "HERE" room
    applyAction exec room (.message .look)
  else pure (.bool false)

def endGame {α : Type} (reason : Reason) : Play α :=
  throw (.ended reason)

def die {α : Type} (message : Value) : Play α := do
  write message
  write (.text "\n\n")
  write (← lift ((← get).config.deathBanner.add (.text "\n")))
  setGlobal "DEAD-FLAG" (.bool true)
  modify fun g ↦ { g with dead := true }
  note (.died message)
  endGame .died

def win {α : Type} : Play α := do
  let banner ← lift ((Value.text "\n").add (← get).config.victoryBanner)
  write (← lift (banner.add (.text "\n")))
  setGlobal "WON-FLAG" (.bool true)
  modify fun g ↦ { g with won := true }
  note (.won ((← get).global "SCORE"))
  endGame .won

end Fable.Play
