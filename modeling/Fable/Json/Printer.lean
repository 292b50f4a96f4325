import Fable.Number.Text
import Fable.Text.Quoted
import Fable.Value.Text

namespace Fable.Json

def escapedUnit (u : Nat) : List Char :=
  '\\' :: 'u' :: Text.hex 4 u

def escapedChar (c : Char) : List Char :=
  if c = '"' ∨ c = '\\' then ['\\', c]
  else if c = '\n' then ['\\', 'n']
  else if c = '\r' then ['\\', 'r']
  else if c = '\t' then ['\\', 't']
  else if c = '\x08' then ['\\', 'b']
  else if c = '\x0c' then ['\\', 'f']
  else if 0x20 ≤ c.toNat ∧ c.toNat < 0x7f then [c]
  else if c.toNat < 0x10000 then escapedUnit c.toNat
  else
    let n := c.toNat - 0x10000
    escapedUnit (0xd800 + n / 0x400) ++ escapedUnit (0xdc00 + n % 0x400)

def stringText (s : String) : String :=
  "\"" ++ String.ofList (s.toList.flatMap escapedChar) ++ "\""

def floatText (x : Float) : String :=
  match Number.binary x with
  | .nan => "NaN"
  | .infinite negative => if negative then "-Infinity" else "Infinity"
  | _ => Number.floatText x

def margin (depth : Nat) : String :=
  "\n" ++ "".pushn ' ' (2 * depth)

def enclosed (left right : String) (depth : Nat) (members : List String) : String :=
  if members.isEmpty then left ++ right
  else left ++ margin (depth + 1) ++ ("," ++ margin (depth + 1)).intercalate members ++
    margin depth ++ right

mutual

def pretty (depth : Nat) : Value → Except Fault String
  | .none => .ok "null"
  | .bool b => .ok (if b then "true" else "false")
  | .int n => Value.wholeText n
  | .float x => .ok (floatText x)
  | .nan _ => .ok "NaN"
  | .text s => .ok (stringText s)
  | .message m => .ok (stringText m.text)
  | .list xs _ => (prettyItems (depth + 1) xs).map (enclosed "[" "]" depth)
  | .dict es _ => (prettyMembers (depth + 1) es).map (enclosed "\x7b" "\x7d" depth)
  | v => v.toText.map stringText

def prettyItems (depth : Nat) : List Value → Except Fault (List String)
  | [] => .ok []
  | x :: xs => do
    let t ← pretty depth x
    pure (t :: (← prettyItems depth xs))

def prettyMembers (depth : Nat) : List (Value × Value) → Except Fault (List String)
  | [] => .ok []
  | (k, v) :: es => do
    let name ← k.toText
    let t ← pretty depth v
    pure ((stringText name ++ ": " ++ t) :: (← prettyMembers depth es))

end

end Fable.Json
