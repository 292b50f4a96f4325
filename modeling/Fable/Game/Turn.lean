import Fable.Game.Action
import Fable.Text.Typed

namespace Fable.Play

variable (exec : Exec)

def offerTo (id : Value) : Play Value :=
  if id.isNone then pure .none else applyAction exec id (.message .action)

def offerVerb (tag : Value) : Play Value := do
  let routine := Value.text ("V-" ++ (← text tag))
  if (← get).routines.contains routine then call exec routine []
  else
    tell [.text "You can't do that.", newline]
    pure (.bool false)

def firstTaken : List (Play Value) → Play Value → Play Value
  | [], last => last
  | p :: ps, last => do
    let v ← p
    if v.truthy then pure v else firstTaken ps last

/-- The winner, unless it is the player, the room, the indirect and the direct object, and at last
the verb's routine are offered the command, until one takes it. -/
def offer (tag direct indirect : Value) : Play Value :=
  firstTaken
    [do
      let winner := (← get).global "WINNER"
      if (← get).store.equal winner ((← get).global "PLAYER") then pure .none
      else applyAction exec winner (.message .action),
     do applyAction exec ((← get).global "HERE") (.message .before),
     offerTo exec indirect,
     offerTo exec direct]
    (offerVerb exec tag)

/-- Runs one command. The room hears of its end in any case. -/
def perform (verb direct indirect : Value) : Play Bool := do
  let tag ← verbTag verb
  setGlobal "PRSA" tag
  setGlobal "PRSO" direct
  setGlobal "PRSI" indirect
  let handled ← offer exec tag direct indirect
  discard <| applyAction exec ((← get).global "HERE") (.message .after)
  pure handled.truthy

inductive Source
  | script (echo : Bool)
  | terminal
  deriving DecidableEq, Repr

def echoed (s : Store) (prompt line : Value) : Except Fault Value := do
  pure (.text ((← s.text prompt) ++ " " ++ (← s.text line) ++ "\n"))

def readScript (lines prompts : List Value) : List (Option Value) :=
  prompts.mapIdx fun i _ ↦ lines[i]?

def echoScript (lines prompts : List Value) : Except Fault (List Value) :=
  (prompts.zip lines).mapM fun (prompt, line) ↦ echoed {} prompt line

def showRead (source : Source) (line : Option Value) : Play Unit :=
  match source, line with
  | .terminal, _ => modify fun g ↦ { g with prompts := g.prompts.push g.written.size }
  | .script true, some l => do
    write (← lift (echoed (← get).store (← get).config.prompt l))
  | .script _, _ => pure ()

def atLimit : Play Bool := do
  let limit := (← get).config.maxMoves
  if limit.isNone then pure false
  else lift ((← get).store.atLeast ((← get).globalOr "MOVES" (.int 0)) limit)

def noteStray (s : Signal) : Play Unit := do
  note (.stray s.name)
  modify fun g ↦ { g with diagnostics := g.diagnostics ++ [s.name ++ " raised outside a routine"] }

def turn (resolve : String → Play (Option Command)) (line : String) : Play Bool :=
  tryCatch
    (do match ← resolve line with
      | none =>
        tell [.text "I don't understand that.", newline]
        pure false
      | some c =>
        discard <| perform exec c.verb c.direct c.indirect
        pure true)
    fun
    | .signal s => do noteStray s; pure true
    | e => throw e

def countMove : Play Unit := do
  setGlobal "MOVES" (← sum ((← get).globalOr "MOVES" (.int 0)) (.int 1))

/-- Plays lines until they run out, the limit of moves is reached, or the game ends. -/
def turns (resolve : String → Play (Option Command)) (source : Source) : List Value → Play Reason
  | [] => do
    if ← atLimit then pure .limit
    else
      showRead source none
      pure .quit
  | line :: rest => do
    if ← atLimit then pure .limit
    else
      showRead source (some line)
      if line.isNone then pure .quit
      else match line.string? with
        | none => fail .noAttribute
        | some s =>
          let s := Text.trim s
          if s.isEmpty then turns resolve source rest
          else
            if ← turn exec resolve s then countMove
            turns resolve source rest

/-- Plays a session. The end of the game is its result; other failures go on. -/
def run (resolve : String → Play (Option Command)) (source : Source) (lines : List Value)
    (start : Value) : Play Value := do
  let reason ← tryCatch
    (do
      if !start.isNone then discard <| goTo exec start
      turns exec resolve source lines)
    fun
    | .ended r => pure r
    | e => throw e
  note (.ended reason)
  let g ← get
  pure (.outcome reason (g.globalOr "SCORE" (.int 0)) (g.globalOr "MOVES" (.int 0)) g.diagnostics)

end Fable.Play
