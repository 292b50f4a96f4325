import Fable.Script.Operation

namespace Fable

def Command.ofValue (v : Value) : Except Fault (Option Command) :=
  if v.isNone then .ok none
  else do
    match ← v.elements with
    | [verb] => .ok (some { verb })
    | [verb, direct] => .ok (some { verb, direct })
    | [verb, direct, indirect] => .ok (some { verb, direct, indirect })
    | _ => .error .mismatch

namespace Play

def attempt (p : Play Value) : Play Value :=
  tryCatch p fun
    | .fault f => pure (.text ("caught " ++ f.kind))
    | e => throw e

mutual

def eval (exec : Exec) (args : List Value) : Code → Play Value
  | .none => pure .none
  | .bool b => pure (.bool b)
  | .int n => pure (.int n)
  | .float x => fresh (.ofFloat 0 x)
  | .text s => pure (.text s)
  | .fatal => pure .fatal
  | .directive d => pure (.directive d)
  | .message m => pure (.message m)
  | .list items => do pure (.list (← evalAll exec args items))
  | .dict entries => do pure (.dict (← evalEntries exec args entries))
  | .routine name body => newRoutine name (.code body)
  | .op o items => do apply exec args o (← evalAll exec args items)
  | .block items => evalBlock exec args .none items
  | .branch test yes no => do
    if (← eval exec args test).truthy then eval exec args yes else eval exec args no
  | .cond clauses => evalClauses exec args clauses
  | .attempt body => attempt (eval exec args body)
  | .play lines start echo walkVerb resolver => do
    let lines ← evalAll exec args lines
    let start ← eval exec args start
    let walkVerb ← eval exec args walkVerb
    fresh (← run exec (evalResolver exec walkVerb resolver) (.script echo) lines start)

def evalAll (exec : Exec) (args : List Value) : List Code → Play (List Value)
  | [] => pure []
  | c :: cs => do
    let v ← eval exec args c
    pure (v :: (← evalAll exec args cs))

def evalEntries (exec : Exec) (args : List Value) : List (String × Code) → Play (Table Value)
  | [] => pure []
  | (k, c) :: es => do
    let v ← eval exec args c
    pure ((.text k, v) :: (← evalEntries exec args es))

def evalBlock (exec : Exec) (args : List Value) (last : Value) : List Code → Play Value
  | [] => pure last
  | c :: cs => do
    let v ← eval exec args c
    evalBlock exec args v cs

/-- The last value of a clause's items; a routine written out as an item is called. -/
def evalItems (exec : Exec) (args : List Value) (last : Value) : List Code → Play Value
  | [] => pure last
  | .routine _ body :: cs => do
    let v ← eval exec [] body
    evalItems exec args v cs
  | c :: cs => do
    let v ← eval exec args c
    evalItems exec args v cs

def evalClause (exec : Exec) (args : List Value) : List Code → Play (Option Value)
  | [] => pure none
  | .routine _ body :: cs => do
    let v ← eval exec [] body
    if v.truthy then some <$> evalItems exec args v cs else pure none
  | c :: cs => do
    let v ← eval exec args c
    if v.truthy then some <$> evalItems exec args v cs else pure none

def evalClauses (exec : Exec) (args : List Value) : List (List Code) → Play Value
  | [] => pure (.bool false)
  | clause :: rest => do
    match ← evalClause exec args clause with
    | some v => pure v
    | none => evalClauses exec args rest

def evalResolver (exec : Exec) (walkVerb : Value) : Option Code → String → Play (Option Command)
  | none, line => resolve walkVerb line
  | some c, line => do lift (Command.ofValue (← eval exec [.text line] c))

end

def execWithin : (depth : Nat) → Exec
  | 0, _, _ => fail .tooDeep
  | n + 1, .routine r, args => match r.body with
    | .code c => eval (execWithin n) args c
    | .verb v => if args.isEmpty then standardVerb (execWithin n) v else fail .mismatch
  | _ + 1, _, _ => fail .mismatch

def callDepth : Nat := 1000

/-- Calls made by a routine that `exec` called. -/
def innerExec : Exec :=
  execWithin (callDepth - 1)

/-- Calls a value. Only routines can be called, and those of the standard verbs take no
arguments. -/
def exec : Exec :=
  execWithin callDepth

def step (c : Code) : Play Value :=
  eval exec [] c

def configureAll (settings : List (Setting × Code)) : Play Unit :=
  settings.forM fun (s, c) ↦ do configure s (← step c)

end Play

def Game.startWith (config : Config) (settings : List (Setting × Code)) : Except Exit Game :=
  match (do Play.configureAll settings; Play.reset : Play Unit) { config } with
  | .ok _ g => .ok g
  | .error e _ => .error e

end Fable
