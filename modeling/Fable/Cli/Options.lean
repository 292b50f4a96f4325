import Fable.Text.Typed

namespace Fable.Cli

structure Switch where
  spelled : String
  name : String
  valued : Bool

structure Found where
  options : List (String × String)
  rest : List String

namespace Found

def value? (f : Found) (name : String) : Option String :=
  f.options.reverse.lookup name

def has (f : Found) (name : String) : Bool :=
  (f.value? name).isSome

end Found

def lookup? (known : List Switch) (spelled : String) : Option Switch :=
  known.find? (·.spelled == spelled)

abbrev Given := List (String × String) × Option String

def shortOptions (known : List Switch) : List Char → Option Given
  | [] => some ([], none)
  | c :: cs => do
    let o ← lookup? known (String.ofList ['-', c])
    if o.valued then
      if cs.isEmpty then some ([], some o.name) else some ([(o.name, String.ofList cs)], none)
    else
      let (options, pending) ← shortOptions known cs
      some ((o.name, "") :: options, pending)

def longOption (o : Switch) (value : Option String) : Option Given :=
  match o.valued, value with
  | true, some v => some ([(o.name, v)], none)
  | true, none => some ([], some o.name)
  | false, some _ => none
  | false, none => some ([(o.name, "")], none)

def splitValue (arg : List Char) : String × Option String :=
  match arg.dropWhile (· != '=') with
  | [] => (String.ofList arg, none)
  | _ :: v => (String.ofList (arg.takeWhile (· != '=')), some (String.ofList v))

def option (known : List Switch) (arg : List Char) : Option Given :=
  let (spelled, value) := splitValue arg
  match (known.filter fun o ↦ 2 < o.spelled.length).find? (·.spelled == spelled) with
  | some o => longOption o value
  | none => if arg.take 2 = ['-', '-'] then none else shortOptions known (arg.drop 1)

/-- Goes through arguments; `pending` names an option that waits for its value. With `front` the
options end at the first argument that is none. -/
def scan (known : List Switch) (front : Bool) :
    (pending : Option String) → List String → Option Found
  | some _, [] => none
  | some name, a :: as => do
    let f ← scan known front none as
    some { f with options := (name, a) :: f.options }
  | none, [] => some ⟨[], []⟩
  | none, a :: as =>
    if a = "--" then some ⟨[], as⟩
    else if a.toList.head? = some '-' && 1 < a.length then do
      let (options, pending) ← option known a.toList
      let f ← scan known front pending as
      some { f with options := options ++ f.options }
    else if front then some ⟨[], a :: as⟩
    else do
      let f ← scan known front none as
      some { f with rest := a :: f.rest }

inductive Level
  | debug
  | info
  | warning
  | error
  deriving DecidableEq, Repr

namespace Level

def name : Level → String
  | debug => "DEBUG"
  | info => "INFO"
  | warning => "WARNING"
  | error => "ERROR"

def rank : Level → Nat
  | debug => 10
  | info => 20
  | warning => 30
  | error => 40

def ofName? (s : String) : Option Level :=
  [debug, info, warning, error].find? fun l ↦ l.name == s.map Char.toUpper

end Level

structure PlayRequest where
  world : String
  script : Option String := none
  seed : Option Int := none
  strict : Bool := false
  maxMoves : Option Int := none
  json : Bool := false

inductive Task
  | play (p : PlayRequest)
  | inspect (world : String) (json : Bool)

inductive Demand
  | number (text : String)
  | file (path : String)
  | never
  deriving DecidableEq, Repr

structure Request where
  level : Level
  demands : List Demand
  task : Task

inductive Refused
  | usage
  | help
  deriving DecidableEq, Repr

def helpOption : Switch := ⟨"--help", "help", false⟩

def groupOptions : List Switch :=
  [⟨"--log-level", "log-level", true⟩, helpOption]

def jsonOptions : List Switch :=
  [⟨"--json-output", "json", false⟩, ⟨"-j", "json", false⟩, helpOption]

def playOptions : List Switch :=
  [⟨"--script", "script", true⟩, ⟨"-s", "script", true⟩, ⟨"--seed", "seed", true⟩,
    ⟨"--strict", "strict", false⟩, ⟨"--max-moves", "max-moves", true⟩] ++ jsonOptions

def scanned (known : List Switch) (front : Bool) (args : List String) : Except Refused Found :=
  match scan known front none args with
  | none => .error .usage
  | some f => if f.has "help" then .error .help else .ok f

def optionDemand? (f : Found) (name : String) : Option Demand :=
  match name with
  | "script" => (f.value? name).map .file
  | "seed" | "max-moves" => (f.value? name).map .number
  | _ => none

def worldDemands : List String → List Demand
  | [] => [.never]
  | [w] => [.file w]
  | w :: _ => [.file w, .never]

def demands (f : Found) : List Demand :=
  (f.options.map (·.1)).eraseDups.filterMap (optionDemand? f) ++ worldDemands f.rest

def whole? (f : Found) (name : String) : Option Int :=
  (f.value? name).bind Text.readInt?

def theWorld (f : Found) : String :=
  f.rest.headD ""

def playRequest (level : Level) (args : List String) : Except Refused Request := do
  let f ← scanned playOptions false args
  pure ⟨level, demands f, .play {
    world := theWorld f, seed := whole? f "seed", maxMoves := whole? f "max-moves",
      script := f.value? "script",
    strict := f.has "strict", json := f.has "json" }⟩

def inspectRequest (level : Level) (args : List String) : Except Refused Request := do
  let f ← scanned jsonOptions false args
  pure ⟨level, demands f, .inspect (theWorld f) (f.has "json")⟩

def request (args : List String) : Except Refused Request := do
  let f ← scanned groupOptions true args
  match Level.ofName? ((f.value? "log-level").getD "WARNING") with
  | none => .error .usage
  | some level => match f.rest with
    | "play" :: args => playRequest level args
    | "inspect" :: args => inspectRequest level args
    | _ => .error .usage

end Fable.Cli
