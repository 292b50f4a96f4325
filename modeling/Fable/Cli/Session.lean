import Fable.Cli.Screen
import Fable.Json.Printer
import Fable.Script.Eval
import Fable.World.File

namespace Fable.Cli

structure Outcome where
  exit : Nat
  transcript : String := ""
  closing : String := ""
  stderr : String := ""
  crash : Option Fault := none
  asked : Nat := 0

def Outcome.stdout (o : Outcome) : String :=
  o.transcript ++ o.closing

def complaint (log text : String) : Outcome where
  exit := 1
  stderr := log ++ plain text ++ "\n"

def crashed (log : String) (f : Fault) : Outcome where
  exit := 1
  stderr := log
  crash := some f

def problemText : World.Problem → String
  | .invalid issues =>
    "invalid world definition: " ++ toString issues.length ++ " validation error" ++
      (if issues.length = 1 then "" else "s") ++ " for WorldSpec"
  | p => p.text

def failed (log : String) : Fault → Outcome
  | .world p => complaint log ("Error: " ++ problemText p)
  | f => crashed log f

def faultOf : Exit → Fault
  | .fault f => f
  | _ => .badValue

def PlayRequest.config (p : PlayRequest) : Config where
  seed := p.seed.elim .none .int
  strict := .bool p.strict
  maxMoves := p.maxMoves.elim .none .int

def prepare (w : World.Spec) : Play Value := do
  Play.installStandardVerbs
  w.install

def result (w : World.Spec) (reason : Reason) (score moves : Value) (diagnostics : List String)
    (transcript : String) : Value :=
  .dict [
    (.text "reason", .text reason.text),
    (.text "score", score),
    (.text "moves", moves),
    (.text "diagnostics", .list (diagnostics.map .text)),
    (.text "title", .text w.title),
    (.text "transcript", .text transcript)]

def summary (w : World.Spec) (reason : Reason) (score moves : Value) : Except Fault String := do
  pure (plain ("\n[" ++ w.title ++ ": " ++ reason.text ++ ", score " ++ (← score.toText) ++ ", " ++
    (← moves.toText) ++ " moves]\n"))

def closing (p : PlayRequest) (w : World.Spec) (reason : Reason) (score moves : Value)
    (diagnostics : List String) (written : List Value) : Except Fault String :=
  if p.json then
    match joined? written with
    | some t => (Json.pretty 0 (result w reason score moves diagnostics t)).map (· ++ "\n")
    | none => .error .mismatch
  else summary w reason score moves

def transcript (p : PlayRequest) (g : Game) : String :=
  if p.json then prompts g else screen g

def finished (p : PlayRequest) (level : Level) (w : World.Spec) (v : Value) (g : Game) : Outcome :=
  let log := g.logText level
  let base : Outcome := match v with
    | .outcome reason score moves diagnostics _ =>
      match closing p w reason score moves diagnostics g.written.toList with
      | .ok t => { exit := 0, stderr := log, closing := t }
      | .error f => crashed log f
    | _ => crashed log .badValue
  { base with transcript := transcript p g, asked := g.prompts.size }

def broken (p : PlayRequest) (level : Level) (f : Fault) (g : Game) : Outcome :=
  let log := g.logText level
  let base := if f.isAuthoring then complaint log ("Authoring error: " ++ f.text) else crashed log f
  { base with transcript := transcript p g, asked := g.prompts.size }

def playFrom (p : PlayRequest) (level : Level) (w : World.Spec)
    (source : Play.Source) (lines : List String) (start : Value) (g : Game) : Outcome :=
  match Play.run Play.exec (Play.resolve (.text "WALK")) source (lines.map .text) start g with
  | .ok v g => finished p level w v g
  | .error e g => broken p level (faultOf e) g

def playWorld (p : PlayRequest) (level : Level) (w : World.Spec) (script : Option World.Lookup)
    (typed : List String) : Outcome :=
  match Game.start p.config with
  | .error e => failed "" (faultOf e)
  | .ok g => match prepare w g with
    | .error e g => failed (g.logText level) (faultOf e)
    | .ok start g => match script with
      | none => playFrom p level w .terminal typed start g
      | some (.ok bytes) => match World.fileText? bytes with
        | some t => playFrom p level w (.script true) (Text.scriptLines t) start g
        | none => crashed (g.logText level) .decoding
      | some (.error _) => crashed (g.logText level) .decoding

def play (p : PlayRequest) (level : Level) (find : String → World.Lookup)
    (typed : List String) : Outcome :=
  match World.Spec.load find p.world with
  | .error f => failed "" f
  | .ok w => playWorld p level w (p.script.map fun s ↦ find (World.tidyPath s)) typed

def treeLine (r : Record) (depth : Nat) : String :=
  let flags := ((Value.sort r.flags.items).toOption.getD r.flags.items).map Value.display
  "".pushn ' ' (2 * depth) ++ "- " ++ r.id.display ++ " (" ++ r.name.display ++ ")" ++
    (if flags.isEmpty then "" else " [" ++ ", ".intercalate flags ++ "]")

def tree (s : Store) : (limit : Nat) → (depth : Nat) → Value → List String
  | 0, _, _ => []
  | n + 1, depth, id => match s.find? id with
    | none => []
    | some r => treeLine r depth :: (s.children id).flatMap (tree s n (depth + 1))

def inspectLines (w : World.Spec) (s : Store) : List String :=
  ("World: " ++ w.title) ::
    (match w.start with
      | some room => if room.isEmpty then [] else ["  Start: " ++ room]
      | none => []) ++
    (s.children .none).flatMap (tree s (s.records.length + 1) 1)

def inspectStore (json : Bool) (log : String) (w : World.Spec) (s : Store) : Outcome :=
  if json then
    match s.snapshot.bind (Json.pretty 0) with
    | .ok t => { exit := 0, stderr := log, closing := t ++ "\n" }
    | .error f => crashed log f
  else
    { exit := 0, stderr := log
      closing := String.join ((inspectLines w s).map fun l ↦ plain l ++ "\n") }

def inspect (path : String) (json : Bool) (level : Level)
    (find : String → World.Lookup) : Outcome :=
  match World.Spec.load find path with
  | .error f => failed "" f
  | .ok w => match Game.start {} with
    | .error e => failed "" (faultOf e)
    | .ok g => match w.install g with
      | .error e g => failed (g.logText level) (faultOf e)
      | .ok _ g => inspectStore json (g.logText level) w g.store

def Task.files : Task → List String
  | .play p => p.world :: p.script.toList
  | .inspect world _ => [world]

def Demand.unmet? (find : String → World.Lookup) : Demand → Option (Except Refused Outcome)
  | number t => if (Text.readInt? t).isSome then none else some (.error .usage)
  | file path =>
    if !World.isPath path then some (.ok (crashed "" .badValue))
    else if (find path).toBool then none
    else some (.error .usage)
  | never => some (.error .usage)

def Task.run (t : Task) (level : Level) (find : String → World.Lookup)
    (typed : List String) : Outcome :=
  match t with
  | .play p => Cli.play p level find typed
  | .inspect world json => Cli.inspect world json level find

def Request.run (r : Request) (find : String → World.Lookup) (typed : List String) :
    Except Refused Outcome :=
  match r.demands.findSome? (Demand.unmet? find) with
  | some instead => instead
  | none => .ok (r.task.run r.level find typed)

end Fable.Cli
