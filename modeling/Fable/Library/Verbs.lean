import Fable.Library.Listing

namespace Fable

namespace StandardVerb

def all : List StandardVerb :=
  [look, examine, take, drop, inventory, openUp, closeUp, walk, score, quit]

def tag : StandardVerb → String
  | look => "LOOK"
  | examine => "EXAMINE"
  | take => "TAKE"
  | drop => "DROP"
  | inventory => "INVENTORY"
  | openUp => "OPEN"
  | closeUp => "CLOSE"
  | walk => "WALK"
  | score => "SCORE"
  | quit => "QUIT"

def routineName : StandardVerb → String
  | look => "v_look"
  | examine => "v_examine"
  | take => "v_take"
  | drop => "v_drop"
  | inventory => "v_inventory"
  | openUp => "v_open"
  | closeUp => "v_close"
  | walk => "v_walk"
  | score => "v_score"
  | quit => "v_quit"

def names : List (String × StandardVerb) := [
  ("LOOK", look), ("L", look), ("EXAMINE", examine), ("X", examine), ("TAKE", take), ("GET", take),
  ("DROP", drop), ("INVENTORY", inventory), ("I", inventory), ("OPEN", openUp), ("CLOSE", closeUp),
  ("WALK", walk), ("GO", walk), ("SCORE", score), ("QUIT", quit), ("Q", quit)]

def refusals : List Value := [
  .text "A valiant attempt.",
  .text "You can't be serious.",
  .text "What a concept!",
  .text "Not a prayer."]

end StandardVerb

namespace Play

def returnTrue {α : Type} : Play α :=
  throw (.signal .returnTrue)

def returnFalse {α : Type} : Play α :=
  throw (.signal .returnFalse)

def takeableFlag : Value := .text "TAKEBIT"

def containerFlag : Value := .text "CONTBIT"

def directInScope (verb : String) : Play Value := do
  let direct := (← get).global "PRSO"
  if direct.isNone then
    tell [.text "What do you want to ", .text verb, .text "?", newline]
    returnTrue
  if ← inScope direct then pure direct
  else
    tell [.text "You can't see any such thing.", newline]
    returnTrue

variable (exec : Exec)

def look : Play Value := do
  let here := (← get).global "HERE"
  tell [desc, here, newline]
  let handled ← applyAction exec here (.message .look)
  describeRoom handled.truthy
  returnTrue

def examine : Play Value := do
  let direct ← directInScope "examine"
  let s := (← get).store
  let own := s.property direct (.text "TEXT") .none
  let text := if own.truthy then own else s.property direct (.text "ldesc") .none
  if text.truthy then tell [text, newline]
  else if s.showsInside direct && !(s.first direct).isNone then describeContents direct
  else tell [.text "There's nothing special about the ", desc, direct, .text ".", newline]
  returnTrue

def tooHeavy (winner direct : Value) : Play Bool := do
  let load ← lift ((← weight winner).add ((← get).store.property direct (.text "size") (.int 0)))
  lift ((← get).store.less ((← get).globalOr "LOAD-ALLOWED" (.int 100)) load)

def take : Play Value := do
  let direct ← directInScope "take"
  let winner := (← get).global "WINNER"
  if Value.same ((← get).store.parent direct) winner then
    tell [.text "You already have that.", newline]
    returnTrue
  if !(← get).store.hasFlag direct takeableFlag then
    tell [← onGenerator (Draw.pickOne (.list StandardVerb.refusals)), newline]
    returnTrue
  if ← tooHeavy winner direct then
    tell [.text "Your load is too heavy.", newline]
    returnTrue
  let firstTouch := !(← get).store.hasFlag direct touchedFlag
  if !(← move direct winner) then
    tell [.text "You can't take the ", desc, direct, .text " while you are in it.", newline]
    returnFalse
  onStore (Store.setFlag direct touchedFlag)
  tell [.text "Taken.", newline]
  if firstTouch then
    discard <| score ((← get).store.property direct (.text "VALUE") (.int 0))
  returnTrue

def drop : Play Value := do
  let direct := (← get).global "PRSO"
  let winner := (← get).global "WINNER"
  demand direct
  if direct.isNone || !Value.same ((← get).store.parent direct) winner then
    tell [.text "You're not carrying that.", newline]
    returnTrue
  if !(← move direct ((← get).global "HERE")) then
    tell [.text "You can't drop that here.", newline]
    returnFalse
  tell [.text "Dropped.", newline]
  returnTrue

def inventory : Play Value := do
  let winner := (← get).global "WINNER"
  demand winner
  if ((← get).store.first winner).isNone then
    tell [.text "You are empty-handed.", newline]
    returnTrue
  tell [.text "You are carrying:", newline]
  forEach winner fun x ↦ tell [.text "  A ", desc, x, newline]
  returnTrue

def directContainer (verb : String) : Play Value := do
  let direct ← directInScope verb
  if (← get).store.hasFlag direct containerFlag then pure direct
  else
    tell [.text "You must tell me how to do that to a ", desc, direct, .text ".", newline]
    returnTrue

def revealed : List Value → Play Unit
  | [] => pure ()
  | [x] => tell [.text "a ", desc, x]
  | x :: xs => do
    tell [.text "a ", desc, x]
    tell [.text ", "]
    revealed xs

def openUp : Play Value := do
  let direct ← directContainer "open"
  if (← get).store.hasFlag direct Store.openFlag then
    tell [.text "It is already open.", newline]
    returnTrue
  onStore (Store.setFlag direct Store.openFlag)
  let contents := (← get).store.children direct
  if contents.isEmpty || (← get).store.hasFlag direct Store.transparentFlag then
    tell [.text "Opened.", newline]
    returnTrue
  tell [.text "Opening the ", desc, direct, .text " reveals "]
  revealed contents
  tell [.text ".", newline]
  returnTrue

def closeUp : Play Value := do
  let direct ← directContainer "close"
  if !(← get).store.hasFlag direct Store.openFlag then
    tell [.text "It is already closed.", newline]
    returnTrue
  onStore (Store.clearFlag direct Store.openFlag)
  tell [.text "Closed.", newline]
  returnTrue

def arrive (room : Value) : Play Unit := do
  let death := (← get).store.property room (.text "DEATH") .none
  if death.truthy then die death
  if ((← get).store.property room (.text "VICTORY") .none).truthy then win

def destination : Play Value := do
  let direction := (← get).global "PRSO"
  if direction.truthy then property ((← get).global "HERE") direction .none else pure .none

def walk : Play Value := do
  let dest ← destination
  if dest.isNone then
    tell [.text "You can't go that way.", newline]
    returnFalse
  demand dest
  if !(← get).store.isDefined dest then
    tell [dest, newline]
    returnFalse
  tell [desc, dest, newline]
  let handled ← goTo exec dest
  if !Value.alike ((← get).global "HERE") dest then returnFalse
  describeRoom handled.truthy
  arrive dest
  returnTrue

def showScore : Play Value := do
  let g ← get
  tell [.text "Your score is ", number, g.globalOr "SCORE" (.int 0),
    .text " in ", number, g.globalOr "MOVES" (.int 0), .text " moves.", newline]
  returnTrue

def standardVerb : StandardVerb → Play Value
  | .look => look exec
  | .examine => examine
  | .take => take
  | .drop => drop
  | .inventory => inventory
  | .openUp => openUp
  | .closeUp => closeUp
  | .walk => walk exec
  | .score => showScore
  | .quit => endGame .quit

def newRoutine (name : String) (body : Body) : Play Value := do
  pure (.routine { name, stamp := ← newStamps 1, body })

def registerVerbRoutine (verb : StandardVerb) : Play Unit := do
  let r ← newRoutine verb.routineName (.verb verb)
  discard <| registerRoutine (.text ("V-" ++ verb.tag)) r

def installStandardVerbs : Play Unit := do
  StandardVerb.names.forM fun (name, verb) ↦ discard <| registerVerb (.text name) (.text verb.tag)
  StandardVerb.all.forM registerVerbRoutine

end Play

end Fable
