import Fable.Cli.Options
import Fable.Game.State

namespace Fable

namespace Event

def level : Event → Cli.Level
  | authoring _ => .warning
  | stray _ => .error
  | _ => .info

def channel : Event → String
  | installed .. => "zilrt.world"
  | _ => "zilrt.runtime.interpreter"

def text : Event → String
  | reset player seed => "game reset (player=" ++ player.display ++ ", seed=" ++ seed.display ++ ")"
  | authoring t => "authoring error: " ++ t
  | stray name => "routine exit " ++ Text.quote name ++ " escaped outside any routine"
  | died message => "player died: " ++ message.display
  | won score => "player won with score " ++ score.display
  | ended reason => "game over: " ++ reason.text
  | installed title n => "world " ++ Text.quote title ++ " installed (" ++ toString n ++ " objects)"

def line (e : Event) : String :=
  e.level.name ++ " " ++ e.channel ++ ": " ++ e.text ++ "\n"

end Event

def Game.logText (g : Game) (level : Cli.Level) : String :=
  String.join ((g.log.toList.filter fun e ↦ level.rank ≤ e.level.rank).map Event.line)

end Fable

namespace Fable.Cli

def escapeChar : Char := '\x1b'

def isParameter (c : Char) : Bool := '0' ≤ c && c ≤ '?'

def isIntermediate (c : Char) : Bool := ' ' ≤ c && c ≤ '/'

def isFinal (c : Char) : Bool := '@' ≤ c && c ≤ '~'

def sequenceLength? : List Char → Option Nat
  | '[' :: cs =>
    let rest := cs.dropWhile isParameter
    match rest.dropWhile isIntermediate with
    | c :: _ =>
      if isFinal c then some ((cs.takeWhile isParameter).length +
        (rest.takeWhile isIntermediate).length + 2)
      else none
    | [] => none
  | _ => none

def plainFrom : (skipped : Nat) → List Char → List Char
  | _, [] => []
  | n + 1, _ :: cs => plainFrom n cs
  | 0, c :: cs =>
    if c = escapeChar then
      match sequenceLength? cs with
      | some n => plainFrom n cs
      | none => c :: plainFrom 0 cs
    else c :: plainFrom 0 cs

def plain (s : String) : String :=
  String.ofList (plainFrom 0 s.toList)

def shown (v : Value) : String :=
  match v with
  | .none => ""
  | v => plain v.display

def joined? (written : List Value) : Option String :=
  (written.mapM Value.string?).map String.join

def promptText (g : Game) : String :=
  g.config.prompt.display ++ " "

def prompts (g : Game) : String :=
  String.join (g.prompts.toList.map fun _ ↦ promptText g)

/-- What is written, with the prompts where they were. `n` pieces come before these, and `asked`
tells in rising order how many pieces come before each prompt. -/
def interleaved (prompt : String) (asked : List Nat) (n : Nat) : List Value → List String
  | [] => asked.map fun _ ↦ prompt
  | v :: vs =>
    (asked.takeWhile (· ≤ n)).map (fun _ ↦ prompt) ++
      shown v :: interleaved prompt (asked.dropWhile (· ≤ n)) (n + 1) vs

def screen (g : Game) : String :=
  String.join (interleaved (promptText g) g.prompts.toList 0 g.written.toList)

end Fable.Cli
