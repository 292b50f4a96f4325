import Fable.Value.Text

namespace Fable.Tell

structure Voice where
  describe : Value → Except Fault Value
  record : Value.Reference

def ofCode? (code : Int) : Option String :=
  if 0 ≤ code ∧ code ≤ 0x10ffff then
    some (if code.toNat.isValidChar then Char.ofNat code.toNat else '\ufffd').toString
  else none

def numberText (voice : Voice) (d : Directive) (position : Nat) : Value → Except Fault String
  | .bool b => .ok (if b then "1" else "0")
  | .int n => Value.wholeText n
  | .float x => .ok (Number.floatText x)
  | .nan _ => .ok "nan"
  | v => do .error (.malformed d position (.notNumber (← v.quoted voice.record [])))

/-- A value as one character: a whole number is a code, of anything else the first character is
taken. -/
def charText (voice : Voice) (d : Directive) (position : Nat) (v : Value) : Except Fault String :=
  match v.int? with
  | some n => match ofCode? n with
    | some s => .ok s
    | none => do .error (.malformed d position (.noCharacter (← Value.wholeText n)))
  | none => do pure (String.ofList ((← v.textBy voice.record).toList.take 1))

def operand (voice : Voice) (d : Directive) (position : Nat) (v : Value) : Except Fault Value :=
  match d with
  | .desc => voice.describe v
  | .number => (numberText voice d position v).map .text
  | _ => (charText voice d position v).map .text

def plain (voice : Voice) (v : Value) : Except Fault Value :=
  match v with
  | .text _ | .message _ => .ok v
  | v => (v.textBy voice.record).map .text

/-- What is written, and the fault that ends it, if the stream is malformed or a token has no text.
`position` counts the tokens before these. -/
def render (voice : Voice) (position : Nat) : List Value → List Value × Option Fault
  | [] => ([], none)
  | .directive .newline :: rest =>
    let (out, fault) := render voice (position + 1) rest
    (.text "\n" :: out, fault)
  | [.directive d] => ([], some (.malformed d position .nothingFollows))
  | .directive d :: v :: rest => match operand voice d position v with
    | .ok w =>
      let (out, fault) := render voice (position + 2) rest
      (w :: out, fault)
    | .error f => ([], some f)
  | v :: rest => match plain voice v with
    | .ok w =>
      let (out, fault) := render voice (position + 1) rest
      (w :: out, fault)
    | .error f => ([], some f)

end Fable.Tell
