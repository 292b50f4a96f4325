import Fable.Cli.Session

namespace Fable.Cli

def findFile (path : String) : IO World.Lookup := do
  try
    return .ok (← IO.FS.readBinFile path)
  catch
    | .inappropriateType _ code _ => return .error (if code = 20 then .notFolder else .folder)
    | _ => return .error .missing

def usage : String :=
  "Usage: [--log-level LEVEL] play WORLD [-s SCRIPT] [--seed N] [--strict] [--max-moves N] [-j]\n" ++
    "       [--log-level LEVEL] inspect WORLD [-j]"

def finish (o : Outcome) (shown : Nat) : IO UInt32 := do
  IO.print (String.ofList (o.stdout.toList.drop shown))
  IO.eprint o.stderr
  match o.crash with
  | some f => IO.eprintln f.kind
  | none => pure ()
  return o.exit.toUInt32

/-- Asks for one line after the other. The session is played anew with every line; what it showed
before stays the same. -/
partial def converse (run : List String → Except Refused Outcome) (typed : List String)
    (shown : Nat) : IO UInt32 := do
  match run typed with
  | .error _ => IO.eprintln usage; return 2
  | .ok o =>
    if o.asked ≤ typed.length then finish o shown
    else
      IO.print (String.ofList (o.transcript.toList.drop shown))
      (← IO.getStdout).flush
      let line ← (← IO.getStdin).getLine
      if line.isEmpty then finish o o.transcript.length
      else converse run (typed ++ Text.typedLines line) o.transcript.length

end Fable.Cli

def main (args : List String) : IO UInt32 := do
  match Fable.Cli.request args with
  | .error .help => IO.println Fable.Cli.usage; return 0
  | .error .usage => IO.eprintln Fable.Cli.usage; return 2
  | .ok r =>
    let paths := r.task.files ++ r.task.files.map Fable.World.tidyPath
    let found ← paths.mapM fun f ↦ do return (f, ← Fable.Cli.findFile f)
    Fable.Cli.converse (r.run fun f ↦ (found.lookup f).getD (.error .missing)) [] 0
