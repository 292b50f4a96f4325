import Fable.Game.Turn
import Fable.Library.Verbs
import Fable.Resolver
import Fable.World.Spec

namespace Fable

namespace Game

def containers (g : Game) : List Value :=
  g.store.records.entries.foldl
    (fun cs r ↦ if r.parent.isNone || r.parent.isAmong cs then cs else cs ++ [r.parent]) g.store.ids

def contents (g : Game) : Except Fault (Table Value) := do
  pure ((← Value.sort g.containers).filterMap fun c ↦
    let xs := g.store.children c
    if xs.isEmpty then none else some (c, .list xs))

def snapshot (g : Game) : Except Fault Value := do
  pure (.dict [
    (.text "objects", .list (← g.store.views)),
    (.text "roots", .list (g.store.children .none)),
    (.text "children", .dict (← g.contents)),
    (.text "globals", .dict g.globals),
    (.text "verbs", .dict g.verbs),
    (.text "routines", .list g.routines.keys),
    (.text "dead", .bool g.dead),
    (.text "won", .bool g.won),
    (.text "diagnostics", .list (g.diagnostics.map .text))])

end Game

namespace Play

def ask (f : Game → Value) : Play Value := do
  pure (f (← get))

def askOf (id : Value) (f : Game → Value) : Play Value := do
  demand id
  ask f

def change (c : Store.Change Unit) : Play Value := do
  onStore c
  pure .none

def attributes (v : Value) : Play Attributes :=
  lift (Attributes.ofValue v)

def locate (id levels : Value) : Play Value := do
  if ← lift (levels.lt (.int 1)) then fail .tooFewLevels
  demand id
  match levels.int? with
  | none => fail .mismatch
  | some n => ask fun g ↦ g.store.climb (n - 1).toNat (g.store.parent id)

def visible (id location : Value) : Play Value :=
  askOf id fun g ↦ .bool (g.store.visible id location)

def getGlobal (name default : Value) : Play Value :=
  askOf name fun g ↦ (g.globals.find? name).getD default

def assignGlobal (name v : Value) : Play Value := do
  demand name
  modify fun g ↦ { g with globals := g.globals.insert name v }
  pure v

def globalIs (name : String) (candidates : List Value) : Play Value :=
  ask fun g ↦ .bool (g.store.isAmong (g.global name) candidates)

def verbNames (tag : Value) : Play Value :=
  ask fun g ↦ .list ((g.verbs.filter fun e ↦ g.store.equal e.2 tag).map (·.1))

def signal {α : Type} (s : Signal) : Play α :=
  throw (.signal s)

/-- Installs the world that a value defines. A text has room for as many stamps as it has
characters. -/
def world (v : Value) : Play Value := do
  let stamp ← newStamps ((v.string?.getD "").length + 1)
  match World.Spec.ofValue stamp v with
  | .ok w => w.install
  | .error p => fail (.world p)

def resolveLine (line walkVerb : Value) : Play Value := do
  match line.string? with
  | none => fail .noAttribute
  | some s => match ← resolve walkVerb s with
    | some c => fresh c.toValue
    | none => pure .none

def argument (args : List Value) (i : Value) : Play Value :=
  match i.int? with
  | some n => pure (if n < 0 then .none else args.getD n.toNat .none)
  | none => fail .mismatch

def describeRoomUnless (handled : Value) : Play Value := do
  describeRoom handled.truthy
  pure .none

variable (exec : Exec)

def applyObjects : Op → List Value → Play Value
  | .define, [id] => define id {}
  | .define, [id, a] => do define id (← attributes a)
  | .place, [id] => onStore (Store.define id {})
  | .place, [id, a] => do onStore (Store.define id (← attributes a))
  | .get, [id] => askOf id fun g ↦ (g.store.find? id).elim .none fun r ↦ .object r.serial
  | .parent, [id] => askOf id fun g ↦ g.store.parent id
  | .locate, [id] => locate id (.int 1)
  | .locate, [id, levels] => locate id levels
  | .move, [id, into] => do pure (.bool (← move id into))
  | .shift, [id, into] => change (Store.move id into)
  | .remove, [id] => change (Store.remove id)
  | .children, [id] => askOf id fun g ↦ .list (g.store.children id)
  | .first, [id] => askOf id fun g ↦ g.store.first id
  | .next, [id] => do demand id; lift ((← get).store.next id)
  | .hasFlag, [id, flag] => do pure (.bool (← hasFlag id flag))
  | .setFlag, [id, flag] => change (Store.setFlag id flag)
  | .clearFlag, [id, flag] => change (Store.clearFlag id flag)
  | .getProperty, [id, key] => property id key .none
  | .getProperty, [id, key, default] => property id key default
  | .setProperty, [id, key, v] => change (Store.setProperty id key v)
  | .visible, [id, location] => visible id location
  | .inScope, [id] => do pure (.bool (← inScope id))
  | .describe, [v] => do lift ((← get).store.describe v)
  | .isIn, [id, container] => askOf id fun g ↦ .bool (g.store.isIn id container)
  | .held, [id, holder] => askOf id fun g ↦ .bool (g.store.held id holder)
  | .isDefined, [id] => askOf id fun g ↦ .bool (g.store.isDefined id)
  | .isRecorded, [id] => askOf id fun g ↦ .bool (g.store.lookup? id).isSome
  | .ids, [] => ask fun g ↦ .list g.store.ids
  | .count, [] => ask fun g ↦ .int g.store.records.length
  | .records, [] => do fresh (← freshCopy (← lift (← get).store.snapshot))
  | _, _ => fail .mismatch

def applyTables : Op → List Value → Play Value
  | .setGlobal, [name, v] => assignGlobal name v
  | .getGlobal, [name] => getGlobal name .none
  | .getGlobal, [name, default] => getGlobal name default
  | .hasGlobal, [name] => askOf name fun g ↦ .bool (g.globals.contains name)
  | .globals, [] => do fresh (.dict (← get).globals)
  | .registerVerb, [verb] => registerVerb verb .none
  | .registerVerb, [verb, tag] => registerVerb verb tag
  | .verbTag, [verb] => verbTag verb
  | .verbNames, [tag] => verbNames tag
  | .registerRoutine, [name, r] => registerRoutine name r
  | .routineNames, [] => ask fun g ↦ .list g.routines.keys
  | .hasRoutine, [name] => askOf name fun g ↦ .bool (g.routines.contains name)
  | .getRoutine, [name] => routine name
  | .verbIs, names => do pure (.bool (← verbIs names))
  | .directIs, ids => globalIs "PRSO" ids
  | .indirectIs, ids => globalIs "PRSI" ids
  | .hereIs, ids => globalIs "HERE" ids
  | _, _ => fail .mismatch

def applyPlay : Op → List Value → Play Value
  | .invoke, r :: args => boundary (exec r args)
  | .call, name :: args => call exec name args
  | .applyAction, [id, message] => applyAction exec id message
  | .perform, [verb] => do pure (.bool (← perform exec verb .none .none))
  | .perform, [verb, direct] => do pure (.bool (← perform exec verb direct .none))
  | .perform, [verb, direct, indirect] => do pure (.bool (← perform exec verb direct indirect))
  | .goTo, [room] => goTo exec room
  | .tell, tokens => do tell tokens; pure .none
  | .score, [points] => score points
  | .random, [n] => onGenerator (Draw.random n)
  | .pickOne, [v] => onGenerator (Draw.pickOne v)
  | .prob, [percent] => onGenerator (Draw.chance percent)
  | .die, [message] => die message
  | .win, [] => win
  | .quit, [] => endGame .quit
  | .reset, [] => do reset; pure .none
  | .standardVerbs, [] => do installStandardVerbs; pure .none
  | .weight, [id] => weight id
  | .describeContents, [id] => do describeContents id; pure .none
  | .describeRoom, [] => describeRoomUnless (.bool false)
  | .describeRoom, [handled] => describeRoomUnless handled
  | .world, [w] => world w
  | .resolve, [line] => resolveLine line (.text "WALK")
  | .resolve, [line, walkVerb] => resolveLine line walkVerb
  | .state, [] => do fresh (← freshCopy (← lift (← get).snapshot))
  | .configure s, [v] => do configure s v; pure .none
  | _, _ => fail .mismatch

def apply (args : List Value) : Op → List Value → Play Value
  | .arg, [i] => argument args i
  | .list, vs => fresh (.list vs)
  | .not, [v] => pure (.bool (!v.truthy))
  | .add, [v, w] => sum v w
  | .equal, vs => ask fun g ↦ .bool (g.store.allEqual vs)
  | .returnTrue, [] => signal .returnTrue
  | .returnFalse, [] => signal .returnFalse
  | .returnFatal, [] => signal .returnFatal
  | .returnValue, [] => signal (.returnValue .none)
  | .returnValue, [v] => signal (.returnValue v)
  | o, vs => match o with
    | .define | .place | .get | .parent | .locate | .move | .shift | .remove
    | .children | .first | .next
    | .hasFlag | .setFlag | .clearFlag | .getProperty | .setProperty
    | .visible | .inScope | .describe
    | .isIn | .held | .isDefined | .isRecorded | .ids | .count | .records => applyObjects o vs
    | .setGlobal | .getGlobal | .hasGlobal | .globals | .registerVerb | .verbTag | .verbNames
    | .registerRoutine | .routineNames | .hasRoutine | .getRoutine | .verbIs
    | .directIs | .indirectIs
    | .hereIs => applyTables o vs
    | _ => applyPlay exec o vs

end Play

end Fable
