import Fable.Game.Action
import Fable.Json.Reader
import Fable.Value.Text
import Fable.World.Whole

namespace Fable.World

structure ObjectSpec where
  id : String
  parent : Option String
  desc : Option String
  ldesc : Option String
  fdesc : Option String
  synonyms : List String
  adjectives : List String
  flags : List String
  size : Value
  action : Option String
  properties : Table Value

structure Spec where
  title : String
  start : Option String
  globals : Table Value
  verbs : Table String
  objects : List ObjectSpec

abbrev Checked (α : Type) := Except (List Issue) α

namespace Checked

def both {α β γ : Type} (f : α → β → γ) : Checked α → Checked β → Checked γ
  | .ok a, .ok b => .ok (f a b)
  | .ok _, .error es => .error es
  | .error es, .ok _ => .error es
  | .error es, .error es' => .error (es ++ es')

def apply {α β : Type} (f : Checked (α → β)) (a : Checked α) : Checked β :=
  both (fun f a ↦ f a) f a

def all {α : Type} (cs : List (Checked α)) : Checked (List α) :=
  cs.foldr (both List.cons) (.ok [])

end Checked

def reject {α : Type} (path : List Step) (e : Expected) : Checked α :=
  .error [⟨path, e⟩]

abbrev Check (α : Type) := List Step → Value → Checked α

def text? : Value → Option String
  | .text s => some s
  | .message m => some m.text
  | .directive d => some d.text
  | _ => none

def checkText : Check String := fun path v ↦
  match text? v with
  | some s => .ok s
  | none => reject path .text

def checkOptional : Check (Option String) := fun path v ↦
  if v.isNone then .ok none else (checkText path v).map some

def checkList {α : Type} (form : Form) (check : Check α) : Check (List α) := fun path v ↦
  match v with
  | .list xs _ | .set xs => Checked.all (xs.mapIdx fun i x ↦ check (path ++ [.index i]) x)
  | _ => reject path (.list form)

def unprintable (v : Value) : String :=
  match v with
  | .command .. => "<unprintable Command object>"
  | _ => "<unprintable int object>"

/-- The step to the value of a key: whole numbers of 64 bits and texts are as they are. -/
def keyStep (key : Value) : Step :=
  match key.string?, key.int? with
  | some s, _ => .field s
  | none, some n =>
    if -Int.ofNat (Nat.pow 2 63) ≤ n ∧ n < Int.ofNat (Nat.pow 2 63) then .index n
    else .field ((Text.ofInt? n).getD (unprintable key))
  | none, none => .field ((key.quoted Value.ellipsis []).toOption.getD (unprintable key))

def checkKey : Check Value := fun path key ↦
  match text? key with
  | some s => .ok (.text s)
  | none => reject (path ++ [.field "[key]"]) .text

def checkTable {α : Type} (form : Form) (check : Check α) : Check (Table α) := fun path v ↦
  match v with
  | .dict es _ =>
    let entries := es.map fun (k, w) ↦
      let path := path ++ [keyStep k]
      Checked.both Prod.mk (checkKey path k) (check path w)
    (Checked.all entries).map Table.ofEntries
  | _ => reject path (.dictionary form)

def anything (form : Form) : Check Value := fun _ v ↦
  .ok (match form with
    | .value => v
    | .json => Json.settled v)

def checkFloat (path : List Step) (x : Float) : Checked Value :=
  match Number.binary x with
  | .nan | .infinite _ => reject path .finiteFloat
  | .finite .. => match Number.whole? x with
    | some n => if n.natAbs < Nat.pow 2 63 then .ok (.int n) else reject path .smallWhole
    | none => reject path .wholeFloat

def checkWholeText (path : List Step) (s : String) : Checked Value :=
  if Whole.startsTooLong s.toList then reject path .smallWhole
  else match Whole.read? s.toList with
    | some n => .ok (.int n)
    | none => reject path .wholeText

/-- A whole number, or what can be read as one. The text of a directive is taken as it is. -/
def checkWhole : Check Value := fun path v ↦
  match v with
  | .directive d => .ok (.text d.text)
  | v => match v.float?, v.int?, v.string? with
    | some x, _, _ => checkFloat path x
    | none, some n, _ => .ok (.int n)
    | none, none, some s => checkWholeText path s
    | none, none, none => reject path .whole

/-- The value of a field; it is the last one if the field is given repeatedly. -/
def given? (es : List (Value × Value)) (name : String) : Option Value :=
  Table.find? es.reverse (.text name)

def fieldOr {α : Type} (check : Check α) (default : α) (path : List Step)
    (es : List (Value × Value)) (name : String) : Checked α :=
  match given? es name with
  | some v => check (path ++ [.field name]) v
  | none => .ok default

def fieldRequired {α : Type} (check : Check α) (path : List Step) (es : List (Value × Value))
    (name : String) : Checked α :=
  match given? es name with
  | some v => check (path ++ [.field name]) v
  | none => reject (path ++ [.field name]) .present

def checkDefinition {α : Type} (form : Form) (name : String)
    (check : List Step → List (Value × Value) → Checked α) : Check α := fun path v ↦
  match v with
  | .dict es _ => check path es
  | _ => reject path (.definition form name)

def checkObject (form : Form) : Check ObjectSpec :=
  checkDefinition form "ObjectSpec" fun path es ↦
    let spec : Checked _ := (fieldRequired checkText path es "id").map ObjectSpec.mk
    let spec := spec.apply (fieldOr checkOptional none path es "parent")
    let spec := spec.apply (fieldOr checkOptional none path es "desc")
    let spec := spec.apply (fieldOr checkOptional none path es "ldesc")
    let spec := spec.apply (fieldOr checkOptional none path es "fdesc")
    let spec := spec.apply (fieldOr (checkList form checkText) [] path es "synonyms")
    let spec := spec.apply (fieldOr (checkList form checkText) [] path es "adjectives")
    let spec := spec.apply (fieldOr (checkList form checkText) [] path es "flags")
    let spec := spec.apply (fieldOr checkWhole (.int 0) path es "size")
    let spec := spec.apply (fieldOr checkOptional none path es "action")
    spec.apply (fieldOr (checkTable form (anything form)) [] path es "properties")

def checkWorld (form : Form) : Check Spec :=
  checkDefinition form "WorldSpec" fun path es ↦
    let spec : Checked _ := (fieldOr checkText "Untitled" path es "title").map Spec.mk
    let spec := spec.apply (fieldOr checkOptional none path es "start")
    let spec := spec.apply (fieldOr (checkTable form (anything form)) [] path es "globals")
    let spec := spec.apply (fieldOr (checkTable form checkText) [] path es "verbs")
    spec.apply (fieldOr (checkList form (checkObject form)) [] path es "objects")

def check (form : Form) (v : Value) : Except Problem Spec :=
  (checkWorld form [] v).mapError .invalid

/-- The world that a value defines; a text is read as JSON first, with stamps beyond the given
one. -/
def Spec.ofValue (stamp : Nat) (v : Value) : Except Problem Spec :=
  match v.string? with
  | some s => match Json.read .given stamp s with
    | .ok v => check .json v
    | .error _ => .error (.invalid [⟨[], .json⟩])
  | none => check .value v

def optional : Option String → Value
  | some s => .text s
  | none => .none

def texts (ss : List String) : Value :=
  .list (ss.map .text)

def ObjectSpec.toValue (o : ObjectSpec) : Value :=
  .dict [
    (.text "id", .text o.id),
    (.text "parent", optional o.parent),
    (.text "desc", optional o.desc),
    (.text "ldesc", optional o.ldesc),
    (.text "fdesc", optional o.fdesc),
    (.text "synonyms", texts o.synonyms),
    (.text "adjectives", texts o.adjectives),
    (.text "flags", texts o.flags),
    (.text "size", o.size),
    (.text "action", optional o.action),
    (.text "properties", .dict o.properties)]

def Spec.toValue (w : Spec) : Value :=
  .dict [
    (.text "title", .text w.title),
    (.text "start", optional w.start),
    (.text "globals", .dict w.globals),
    (.text "verbs", .dict (w.verbs.map fun (k, v) ↦ (k, .text v))),
    (.text "objects", .list (w.objects.map ObjectSpec.toValue))]

def ObjectSpec.attributes (o : ObjectSpec) (properties : Value) : Attributes where
  parent := optional o.parent
  flags := texts o.flags
  properties
  fields :=
    let given (f : Field) : Option String → List (Field × Value)
      | some s => [(f, .text s)]
      | none => []
    given .desc o.desc ++ given .ldesc o.ldesc ++ given .fdesc o.fdesc ++
      [(.synonyms, texts o.synonyms), (.adjectives, texts o.adjectives), (.size, o.size)] ++
      given .action o.action

def ObjectSpec.install (o : ObjectSpec) : Play Unit := do
  let properties ← Play.freshCopy (.dict (← Play.lift ((← get).store.opened o.properties)))
  tryCatch (discard <| Play.onStore (Store.define (.text o.id) (o.attributes properties))) fun
    | .fault (.cycle x p) => Play.fail (.world (.cycle (Fault.cycleText x p)))
    | e => throw e

/-- Defines everything in order: globals, verbs, objects. The room where the game starts is the
result. -/
def Spec.install (w : Spec) : Play Value := do
  w.globals.forM fun (name, v) ↦ modify fun g ↦ { g with globals := g.globals.insert name v }
  w.verbs.forM fun (name, tag) ↦ discard <| Play.registerVerb name (.text tag)
  w.objects.forM ObjectSpec.install
  match w.start with
  | none => pure ()
  | some room =>
    if !(← get).store.isDefined (.text room) then Play.fail (.world (.undefinedStart room))
  Play.note (.installed w.title w.objects.length)
  pure (optional w.start)

end Fable.World
