import Fable.Fault
import Fable.Object.Change
import Fable.Random.Draw

namespace Fable

structure Config where
  seed : Value := .none
  playerId : Value := .text "PLAYER"
  strict : Value := .bool false
  maxMoves : Value := .none
  prompt : Value := .text ">"
  loadMax : Value := .int 100
  deathBanner : Value := .text "    ****  You have died  ****"
  victoryBanner : Value := .text "    ****  You have won  ****"
  deriving Inhabited

def Config.set (c : Config) (s : Setting) (v : Value) : Config :=
  match s with
  | .seed => { c with seed := v }
  | .playerId => { c with playerId := v }
  | .strict => { c with strict := v }
  | .maxMoves => { c with maxMoves := v }
  | .prompt => { c with prompt := v }
  | .loadMax => { c with loadMax := v }
  | .deathBanner => { c with deathBanner := v }
  | .victoryBanner => { c with victoryBanner := v }

inductive Event
  | reset (player seed : Value)
  | authoring (text : String)
  | stray (signal : String)
  | died (message : Value)
  | won (score : Value)
  | ended (reason : Reason)
  | installed (title : String) (objects : Nat)

structure Game where
  config : Config := {}
  store : Store := {}
  globals : Table Value := []
  verbs : Table Value := []
  routines : Table Value := []
  diagnostics : List String := []
  dead : Bool := false
  won : Bool := false
  generator : Twister := default
  /-- Everything written so far; something that is no text can be among it. -/
  written : Array Value := #[]
  log : Array Event := #[]
  /-- How much was written before each line that was asked for at a terminal. -/
  prompts : Array Nat := #[]
  starts : Nat := 0
  /-- The stamp of the next value that is told from others by one. -/
  stamp : Nat := 1
  deriving Inhabited

/-- A computation on a game. What it did before it is left early stays done. -/
abbrev Play := EStateM Exit Game

abbrev Exec := Value → List Value → Play Value

structure Command where
  verb : Value
  direct : Value := .none
  indirect : Value := .none

def Command.toValue (c : Command) : Value :=
  .command c.verb c.direct c.indirect

namespace Play

def fail {α : Type} (f : Fault) : Play α :=
  throw (.fault f)

def lift {α : Type} : Except Fault α → Play α
  | .ok a => pure a
  | .error f => fail f

def onStore {α : Type} (c : Store.Change α) : Play α := fun g ↦
  match c g.store with
  | .ok a s => .ok a { g with store := s }
  | .error f s => .error (.fault f) { g with store := s }

def onGenerator {α : Type} (d : Draw α) : Play α := fun g ↦
  match d g.generator with
  | .ok a t => .ok a { g with generator := t }
  | .error f t => .error (.fault f) { g with generator := t }

def newStamps (count : Nat) : Play Nat := fun g ↦
  .ok g.stamp { g with stamp := g.stamp + count }

/-- A value that has just been made: what is no number, or a container, is not the same as anything
before. -/
def fresh (v : Value) : Play Value :=
  match v with
  | .nan _ => do pure (.nan (← newStamps 1))
  | .list .. | .dict .. | .command .. | .outcome .. => do pure (v.withStamp (← newStamps 1))
  | v => pure v

def freshCopy (v : Value) : Play Value := fun g ↦
  let (w, stamp) := v.stamped g.stamp
  .ok w { g with stamp }

@[simp] theorem fresh_int (n : Int) : fresh (.int n) = pure (.int n) := rfl

@[simp] theorem fresh_text (s : String) : fresh (.text s) = pure (.text s) := rfl

def sum (v w : Value) : Play Value := do
  fresh (← lift (v.add w))

def text (v : Value) : Play String := do
  lift ((← get).store.text v)

def demand (v : Value) : Play Unit :=
  if v.hashable then pure () else fail .mismatch

def write (v : Value) : Play Unit :=
  modify fun g ↦ { g with written := g.written.push v }

def note (e : Event) : Play Unit :=
  modify fun g ↦ { g with log := g.log.push e }

/-- Records a fault of the game's content; in a strict game it is a failure. -/
def report (f : Fault) : Play Unit := do
  if (← get).config.strict.truthy then fail f
  note (.authoring f.text)
  modify fun g ↦ { g with diagnostics := g.diagnostics ++ [f.text] }

def surviving {α : Type} (p : Play α) (instead : α) : Play α :=
  tryCatch p fun
    | .fault f => if f.isAuthoring then do report f; pure instead else fail f
    | e => throw e

/-- The boundary of a routine: an exit from inside it becomes its value. -/
def boundary (p : Play Value) : Play Value :=
  tryCatch p fun
    | .signal s => pure s.value
    | e => throw e

end Play

namespace Game

def global (g : Game) (name : String) : Value :=
  (g.globals.find? (.text name)).getD .none

def globalOr (g : Game) (name : String) (default : Value) : Value :=
  (g.globals.find? (.text name)).getD default

def reserved (player loadMax : Value) : Table Value := [
  (.text "PRSO", .none),
  (.text "PRSI", .none),
  (.text "PRSA", .none),
  (.text "WINNER", player),
  (.text "HERE", .none),
  (.text "PLAYER", player),
  (.text "SCORE", .int 0),
  (.text "MOVES", .int 0),
  (.text "VERBOSE", .bool false),
  (.text "SUPER-BRIEF", .bool false),
  (.text "WON-FLAG", .bool false),
  (.text "DEAD-FLAG", .bool false),
  (.text "P-CONT", .none),
  (.text "QUOTE-FLAG", .bool false),
  (.text "P-OFLAG", .none),
  (.text "LOAD-MAX", loadMax),
  (.text "LOAD-ALLOWED", loadMax)]

def inScope (g : Game) (id : Value) : Bool :=
  g.store.visible id (g.global "HERE") || g.store.visible id (g.global "WINNER")

def verbTag (g : Game) (verb : Value) : Value :=
  if verb.isNone then .none else (g.verbs.find? verb).getD verb

end Game

namespace Play

def setGlobal (name : String) (v : Value) : Play Unit :=
  modify fun g ↦ { g with globals := g.globals.insert (.text name) v }

def configure (s : Setting) (v : Value) : Play Unit :=
  modify fun g ↦ { g with config := g.config.set s v }

def reset : Play Unit := do
  let config := (← get).config
  let player := config.playerId
  match Store.define player { fields := [(.desc, .text "you")] } (← get).store.cleared with
  | .error f _ => fail f
  | .ok _ store =>
    modify fun g ↦ { g with
      store, globals := Game.reserved player config.loadMax, verbs := [], routines := [],
      diagnostics := [], dead := false, won := false, starts := g.starts + 1 }
    let generator ← lift (Twister.ofValue config.seed)
    modify fun g ↦ { g with generator }
    note (.reset player config.seed)

end Play

def Game.start (config : Config) : Except Exit Game :=
  match Play.reset { config } with
  | .ok _ g => .ok g
  | .error e _ => .error e

end Fable
