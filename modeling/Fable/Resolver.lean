import Fable.Game.Action
import Fable.Text.Case
import Fable.Text.Typed

namespace Fable

namespace Resolver

def directions : List (String × String) := [
  ("n", "NORTH"), ("north", "NORTH"), ("s", "SOUTH"), ("south", "SOUTH"),
    ("e", "EAST"), ("east", "EAST"),
  ("w", "WEST"), ("west", "WEST"), ("u", "UP"), ("up", "UP"), ("d", "DOWN"), ("down", "DOWN")]

def direction? (word : String) : Option String :=
  directions.lookup word

def articles : List String := ["the", "a", "an"]

def prepositions : List String := ["with", "in", "into", "on", "to", "at", "from", "under"]

def significant (line : String) : List String :=
  (Text.words (Text.lower line)).filter fun w ↦ !articles.contains w

def phrases (ws : List String) : List String × List String :=
  let direct := ws.takeWhile fun w ↦ !prepositions.contains w
  (direct, ws.drop (direct.length + 1))

def lowered (v : Value) : Except Fault (List String) := do
  (← v.elements).mapM fun x ↦ match x.string? with
    | some s => .ok (Text.lower s)
    | none => .error .noAttribute

/-- Do the words name the object? Joined they may be its identity; otherwise the last one is its
identity or a synonym, and the others are adjectives of it. -/
def names (id : Value) (r : Record) (phrase : List String) : Except Fault Bool := do
  let joined := Text.upper ("-".intercalate phrase)
  if Value.same (.text joined) id then return true
  let synonyms ← lowered r.synonyms
  let own ← match id.string? with
    | some s => pure (Text.lower s)
    | none => .error .noAttribute
  if !(own :: synonyms).contains (phrase.getLastD "") then return false
  let known ← lowered r.adjectives
  return phrase.dropLast.all known.contains

def firstNamed (phrase : List String) : Table Record → Except Fault (Option Value)
  | [] => .ok none
  | (id, r) :: rest =>
    if id.isNone then firstNamed phrase rest
    else do
      if ← names id r phrase then pure (some id) else firstNamed phrase rest

/-- The object that the words name: the first one in scope, or else the first one at all. -/
def match? (g : Game) (phrase : List String) : Except Fault (Option Value) := do
  match ← firstNamed phrase (g.store.records.filter fun e ↦ g.inScope e.1) with
  | some id => return some id
  | none => firstNamed phrase g.store.records

def matchPhrase (g : Game) (phrase : List String) : Except Fault (Option Value) :=
  if phrase.isEmpty then .ok none else match? g phrase

def onlyDirection? : List String → Option String
  | [word] => direction? word
  | _ => none

def fill (g : Game) (verb : String) (direct indirect : List String) :
    Except Fault (Option Command) := do
  let x ← matchPhrase g direct
  let y ← matchPhrase g indirect
  if (!direct.isEmpty && x.isNone) || (!indirect.isEmpty && y.isNone) then return none
  return some { verb := .text verb, direct := x.getD .none, indirect := y.getD .none }

/-- A verb, with the words after it. A direction alone needs no object if the action is that of
walking. -/
def resolveVerb (g : Game) (walkVerb : Value) (verb : String) (rest : List String) :
    Except Fault (Option Command) :=
  let walks := g.store.equal (g.verbTag (.text verb)) walkVerb
  if !g.verbs.contains (.text verb) then .ok none
  else match if walks then onlyDirection? rest else none with
    | some d => .ok (some { verb := .text verb, direct := .text d })
    | none => fill g verb (phrases rest).1 (phrases rest).2

def resolve (g : Game) (walkVerb : Value) (line : String) : Except Fault (Option Command) :=
  match significant line with
  | [] => .ok none
  | first :: rest => match onlyDirection? (first :: rest) with
    | some d => .ok (some { verb := walkVerb, direct := .text d })
    | none => resolveVerb g walkVerb (Text.upper first) rest

end Resolver

def Play.resolve (walkVerb : Value) (line : String) : Play (Option Command) := do
  lift (Resolver.resolve (← get) walkVerb line)

end Fable
