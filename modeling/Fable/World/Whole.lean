import Fable.Text.Typed

namespace Fable.World.Whole

def isLeading (c : Char) : Bool := '1' ≤ c && c ≤ '9'

def dropMinus : List Char → List Char
  | '-' :: ds => ds
  | ds => ds

/-- Does the text start with more digits than a number may have? Digits that start with a zero do
not count. -/
def startsTooLong (cs : List Char) : Bool :=
  let ds := dropMinus cs
  ds.head?.any isLeading && Text.mostDigits < (ds.takeWhile Char.isDigit).length

/-- What is left behind a zero, of which `last` was the last character: more zeros and underscores
are passed over, up to another digit, a minus sign or a point. -/
def behindZero (last : Char) : List Char → Option (List Char)
  | [] => some [last]
  | c :: cs =>
    if c = '0' ∨ c = '_' then behindZero c cs
    else if isLeading c ∨ c = '-' then some (c :: cs)
    else if c = '.' then some (last :: c :: cs)
    else none

def dropLeadingZeros : List Char → Option (List Char)
  | [] => none
  | c :: cs =>
    if c = '0' then behindZero c cs
    else if isLeading c ∨ c = '-' then some (c :: cs)
    else none

def dropZeroFraction (cs : List Char) : List Char :=
  match cs.dropWhile (· != '.') with
  | '.' :: zeros => if !zeros.isEmpty && zeros.all (· == '0') then cs.takeWhile (· != '.') else cs
  | _ => cs

def hasDoubleUnderscore : List Char → Bool
  | '_' :: '_' :: _ => true
  | _ :: cs => hasDoubleUnderscore cs
  | [] => false

def dropUnderscores (cs : List Char) : Option (List Char) :=
  if cs.head? = some '_' ∨ cs.getLast? = some '_' ∨ hasDoubleUnderscore cs then none
  else some (cs.filter (· != '_'))

/-- Without a plus sign, behind which no minus sign may follow. -/
def dropPlus : List Char → Option (List Char)
  | '+' :: '-' :: _ => none
  | '+' :: cs => some cs
  | cs => some cs

def cleaned (cs : List Char) : Option (List Char) := do
  let cs ← dropPlus (Text.trimChars Text.isSpace cs)
  let (sign, cs) := match cs with
    | '-' :: cs => (['-'], cs)
    | cs => ([], cs)
  pure (sign ++ (← dropUnderscores (dropZeroFraction (← dropLeadingZeros cs))))

def asciiDigit? (c : Char) : Option Nat :=
  if c.isDigit then some (c.toNat - 48) else none

def isPlain (ds : List Char) : Bool :=
  ds == ['0'] || (ds.head?.any isLeading && ds.all Char.isDigit)

def readPlain? (cs : List Char) : Option Int :=
  let ds := dropMinus cs
  if isPlain ds && ds.length ≤ Text.mostDigits then Text.readSigned asciiDigit? cs else none

def read? (cs : List Char) : Option Int :=
  (cleaned cs).bind readPlain?

end Fable.World.Whole
