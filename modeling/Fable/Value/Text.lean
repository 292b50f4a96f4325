import Fable.Fault
import Fable.Number.Text
import Fable.Text.Typed
import Fable.Value.Basic

namespace Fable.Value

def wholeText (n : Int) : Except Fault String :=
  match Text.ofInt? n with
  | some t => .ok t
  | Option.none => .error .badValue

def bracketed (left right : String) (parts : List String) : String :=
  left ++ ", ".intercalate parts ++ right

abbrev Reference := List Value → Nat → Except Fault String

mutual

def quoted (record : Reference) (around : List Value) : Value → Except Fault String
  | none => .ok "None"
  | bool b => .ok (if b then "True" else "False")
  | int n => wholeText n
  | float x => .ok (Number.floatText x)
  | nan _ => .ok "nan"
  | text s => .ok (Text.quote s)
  | list xs n =>
    if around.any (isOne (list xs n)) then .ok "[...]"
    else (quotedItems record (list xs n :: around) xs).map (bracketed "[" "]")
  | dict es n =>
    if around.any (isOne (dict es n)) then .ok "\x7b...\x7d"
    else (quotedEntries record (dict es n :: around) es).map (bracketed "\x7b" "\x7d")
  | set [] => .ok "set()"
  | set xs => (quotedItems record around xs).map (bracketed "\x7b" "\x7d")
  | fatal => .ok "FATAL"
  | directive d => .ok ("<Directive." ++ d.label ++ ": " ++ Text.quote d.text ++ ">")
  | message m => .ok ("<Message." ++ m.label ++ ": " ++ Text.quote m.text ++ ">")
  | routine r => .ok ("<function " ++ r.name ++ ">")
  | object serial => record around serial
  | command v d i n =>
    if around.any (isOne (command v d i n)) then .ok "..."
    else do
      let verb ← quoted record (command v d i n :: around) v
      let direct ← quoted record (command v d i n :: around) d
      let indirect ← quoted record (command v d i n :: around) i
      pure ("Command(verb=" ++ verb ++ ", prso=" ++ direct ++ ", prsi=" ++ indirect ++ ")")
  | outcome r s m ds n =>
    if around.any (isOne (outcome r s m ds n)) then .ok "..."
    else do
      let score ← quoted record (outcome r s m ds n :: around) s
      let moves ← quoted record (outcome r s m ds n :: around) m
      pure ("GameResult(reason=" ++ Text.quote r.text ++ ", score=" ++
        score ++ ", moves=" ++ moves ++
        ", diagnostics=" ++ bracketed "[" "]" (ds.map Text.quote) ++ ")")

def quotedItems (record : Reference) (around : List Value) : List Value → Except Fault (List String)
  | [] => .ok []
  | x :: xs => do
    let t ← quoted record around x
    pure (t :: (← quotedItems record around xs))

def quotedEntries (record : Reference) (around : List Value) :
    List (Value × Value) → Except Fault (List String)
  | [] => .ok []
  | (k, v) :: es => do
    let t ← quoted record around k
    let u ← quoted record around v
    pure ((t ++ ": " ++ u) :: (← quotedEntries record around es))

end

def textBy (record : Reference) : Value → Except Fault String
  | text s => .ok s
  | message m => .ok m.text
  | directive d => .ok d.text
  | v => v.quoted record []

def ellipsis : Reference := fun _ _ ↦ .ok "..."

def toText (v : Value) : Except Fault String :=
  v.textBy ellipsis

/-- The text of a value for a reader, to whom a number without one is not shown. -/
def display (v : Value) : String :=
  v.toText.toOption.getD ""

end Fable.Value
