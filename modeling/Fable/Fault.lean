import Fable.Code
import Fable.Value.Basic
import Fable.World.Problem

namespace Fable

inductive Malformation
  | nothingFollows
  | notNumber (operand : String)
  | noCharacter (code : String)
  deriving DecidableEq, Repr

def Malformation.text : Malformation → String
  | nothingFollows => "has no following token"
  | notNumber operand => "expects a number, got " ++ operand
  | noCharacter code => "has no character for code " ++ code

inductive Fault
  | cycle (object into : String)
  | malformed (directive : Directive) (position : Nat) (how : Malformation)
  | world (problem : World.Problem)
  | unknownOptions (object names : String)
  | tooFewLevels
  | mismatch
  | badValue
  | noAttribute
  | noKey
  | overflow
  | decoding
  | tooDeep
  deriving DecidableEq, Repr

namespace Fault

def isAuthoring : Fault → Bool
  | cycle .. | malformed .. => true
  | _ => false

def kind : Fault → String
  | cycle .. => "ContainmentCycle"
  | malformed .. => "MalformedOutputStream"
  | world _ => "WorldFileError"
  | unknownOptions .. | mismatch => "TypeError"
  | tooFewLevels | badValue => "ValueError"
  | noAttribute => "AttributeError"
  | noKey => "KeyError"
  | overflow => "OverflowError"
  | decoding => "UnicodeDecodeError"
  | tooDeep => "RecursionError"

def cycleText (object into : String) : String :=
  "moving " ++ object ++ " into " ++ into ++ " would create a containment cycle"

def sentence? : Fault → Option String
  | cycle x p => some (cycleText x p)
  | malformed d n how => some (d.text ++ " at token " ++ toString n ++ " " ++ how.text)
  | world p => some p.text
  | unknownOptions x names => some ("unknown object options for " ++ x ++ ": " ++ names)
  | tooFewLevels => some "levels must be >= 1"
  | _ => none

def text (f : Fault) : String :=
  f.sentence?.getD ""

end Fault

inductive Signal
  | returnTrue
  | returnFalse
  | returnFatal
  | returnValue (v : Value)

namespace Signal

def value : Signal → Value
  | returnTrue => .bool true
  | returnFalse => .bool false
  | returnFatal => .fatal
  | returnValue v => v

def name : Signal → String
  | returnTrue => "ReturnTrue"
  | returnFalse => "ReturnFalse"
  | returnFatal => "FatalReturn"
  | returnValue _ => "ReturnValue"

end Signal

inductive Exit
  | fault (f : Fault)
  | signal (s : Signal)
  | ended (reason : Reason)

end Fable
