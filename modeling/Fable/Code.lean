namespace Fable

inductive Directive
  | newline
  | desc
  | number
  | char
  deriving DecidableEq, Repr

namespace Directive

def text : Directive → String
  | newline => "CR"
  | desc => "D"
  | number => "N"
  | char => "C"

def label : Directive → String
  | newline => "NEWLINE"
  | desc => "DESC"
  | number => "NUMBER"
  | char => "CHAR"

end Directive

inductive Message
  | look
  | before
  | after
  | action
  | enter
  deriving DecidableEq, Repr

namespace Message

def text : Message → String
  | look => "look"
  | before => "begin"
  | after => "end"
  | action => "action"
  | enter => "enter"

def label : Message → String
  | look => "LOOK"
  | before => "BEGIN"
  | after => "END"
  | action => "ACTION"
  | enter => "ENTER"

end Message

inductive Setting
  | seed
  | playerId
  | strict
  | maxMoves
  | prompt
  | loadMax
  | deathBanner
  | victoryBanner
  deriving DecidableEq, Repr

inductive Op
  | arg | list | not | add | equal | invoke
  | returnTrue | returnFalse | returnFatal | returnValue
  | define | place
  | get | parent | locate | move | shift | remove | children | first | next
  | hasFlag | setFlag | clearFlag | getProperty | setProperty
  | visible | inScope | describe | isIn | held | isDefined | isRecorded | ids | count | records
  | setGlobal | getGlobal | hasGlobal | globals
  | registerVerb | verbTag | verbNames
  | registerRoutine | routineNames | hasRoutine | getRoutine
  | verbIs | directIs | indirectIs | hereIs
  | call | applyAction | perform | goTo
  | tell | score | random | pickOne | prob
  | die | win | quit | reset
  | standardVerbs | weight | describeContents | describeRoom
  | world | resolve | state
  | configure (setting : Setting)
  deriving DecidableEq, Repr

/-- Expressions. Everything from `none` to `routine` is a value written out; a routine is made anew
each time its expression is evaluated. -/
inductive Code
  | none
  | bool (b : Bool)
  | int (n : Int)
  | float (x : Float)
  | text (s : String)
  | fatal
  | directive (d : Directive)
  | message (m : Message)
  | list (items : List Code)
  | dict (entries : List (String × Code))
  | routine (name : String) (body : Code)
  /-- An operation on the values of its arguments, taken from left to right. -/
  | op (o : Op) (args : List Code)
  /-- All in order; the value of the last. -/
  | block (items : List Code)
  | branch (test yes no : Code)
  /-- The first clause whose head holds; a routine written out as an item is called. -/
  | cond (clauses : List (List Code))
  /-- The value, or the kind of the failure as text. -/
  | attempt (body : Code)
  /-- Plays the lines; without a resolver of its own, words are resolved with the given walk
  verb. -/
  | play (lines : List Code) (start : Code) (echo : Bool) (walkVerb : Code) (resolver : Option Code)
  deriving Inhabited

end Fable
