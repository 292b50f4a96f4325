import Fable.Number.Text
import Fable.Text.Typed
import Fable.Value.Basic

namespace Fable.Json

inductive Complaint
  | value
  | propertyName
  | colon
  | comma
  | extraData
  | unterminatedString
  | controlCharacter
  | escape
  | unicodeEscape
  | byteOrderMark
  | digits
  deriving DecidableEq, Repr

def Complaint.text : Complaint → String
  | value => "Expecting value"
  | propertyName => "Expecting property name enclosed in double quotes"
  | colon => "Expecting ':' delimiter"
  | comma => "Expecting ',' delimiter"
  | extraData => "Extra data"
  | unterminatedString => "Unterminated string starting at"
  | controlCharacter => "Invalid control character at"
  | escape => "Invalid \\escape"
  | unicodeEscape => "Invalid \\uXXXX escape"
  | byteOrderMark => "Unexpected UTF-8 BOM (decode using utf-8-sig)"
  | digits => "Too many digits"

structure Trouble where
  complaint : Complaint
  left : Nat
  deriving DecidableEq, Repr

def Trouble.describe (t : Trouble) (source : String) : String :=
  let cs := source.toList
  let place := cs.length - t.left
  let before := cs.take place
  let line := before.count '\n' + 1
  let column := (before.reverse.takeWhile (· != '\n')).length + 1
  s!"{t.complaint.text}: line {line} column {column} (char {place})"

/-- A text may come from a file, or be given as it is. The two differ in how long a number may be,
and in whether half of a pair of code units may stand alone. -/
inductive Origin
  | file
  | given
  deriving DecidableEq, Repr

abbrev Read (α : Type) := Except Trouble (α × List Char)

def trouble {α : Type} (c : Complaint) (place : List Char) : Except Trouble α :=
  .error ⟨c, place.length⟩

def isSpace (c : Char) : Bool :=
  c = ' ' || c = '\t' || c = '\n' || c = '\r'

def skip (cs : List Char) : List Char :=
  cs.dropWhile isSpace

def hexValue? (c : Char) : Option Nat :=
  if '0' ≤ c ∧ c ≤ '9' then some (c.toNat - 48)
  else if 'a' ≤ c ∧ c ≤ 'f' then some (c.toNat - 87)
  else if 'A' ≤ c ∧ c ≤ 'F' then some (c.toNat - 55)
  else none

def unit? (a b c d : Char) : Option Nat := do
  let a ← hexValue? a
  let b ← hexValue? b
  let c ← hexValue? c
  let d ← hexValue? d
  pure (((a * 16 + b) * 16 + c) * 16 + d)

def isHigh (u : Nat) : Bool := 0xd800 ≤ u && u < 0xdc00

def isLow (u : Nat) : Bool := 0xdc00 ≤ u && u < 0xe000

def ofUnit (u : Nat) : Char :=
  if u.isValidChar then Char.ofNat u else '\ufffd'

def simpleEscape? (c : Char) : Option Char :=
  if c = '"' ∨ c = '\\' ∨ c = '/' then some c
  else if c = 'b' then some '\x08'
  else if c = 'f' then some '\x0c'
  else if c = 'n' then some '\n'
  else if c = 'r' then some '\r'
  else if c = 't' then some '\t'
  else none

/-- The code units of the rest of a string, from the last one back to the first, with those that are
`done` behind them. `opened` is the text from its opening quote on. -/
def units (opened : List Char) (done : List Nat) : List Char → Read (List Nat)
  | [] => trouble .unterminatedString opened
  | '"' :: rest => .ok (done, rest)
  | '\\' :: 'u' :: a :: b :: c :: d :: rest =>
    match rest.isEmpty, unit? a b c d with
    | false, some u => units opened (u :: done) rest
    | _, _ => trouble .unicodeEscape ('u' :: a :: b :: c :: d :: rest)
  | '\\' :: 'u' :: rest => trouble .unicodeEscape ('u' :: rest)
  | '\\' :: c :: rest => match simpleEscape? c with
    | some e => units opened (e.toNat :: done) rest
    | none => trouble .escape ('\\' :: c :: rest)
  | ['\\'] => trouble .unterminatedString opened
  | c :: rest =>
    if c.toNat < 0x20 then trouble .controlCharacter (c :: rest)
    else units opened (c.toNat :: done) rest

def ofPair (u v : Nat) : Char :=
  Char.ofNat (0x10000 + (u - 0xd800) * 0x400 + (v - 0xdc00))

def joined (done : List Char) : List Nat → List Char
  | [] => done
  | [u] => ofUnit u :: done
  | v :: u :: us =>
    if isHigh u && isLow v then joined (ofPair u v :: done) us
    else joined (ofUnit v :: done) (u :: us)

def isTorn : List Nat → Bool
  | [] => false
  | [u] => isHigh u || isLow u
  | v :: u :: us =>
    if isHigh u && isLow v then isTorn us else isHigh v || isLow v || isTorn (u :: us)

def fraction? : List Char → Option (List Char × List Char)
  | '.' :: d :: rest =>
    if d.isDigit then some ((d :: rest).takeWhile Char.isDigit, (d :: rest).dropWhile Char.isDigit)
    else none
  | _ => none

def exponent? : List Char → Option (Int × List Char)
  | c :: rest =>
    if c = 'e' ∨ c = 'E' then
      let (negative, ds) := match rest with
        | '-' :: ds => (true, ds)
        | '+' :: ds => (false, ds)
        | ds => (false, ds)
      let digits := ds.takeWhile Char.isDigit
      if digits.isEmpty then none
      else some (Number.exponentValue negative digits, ds.dropWhile Char.isDigit)
    else none
  | [] => none

def integer? : List Char → Option (List Char × List Char)
  | [] => none
  | c :: rest =>
    if c = '0' then some (['0'], rest)
    else if c.isDigit then some (c :: rest.takeWhile Char.isDigit, rest.dropWhile Char.isDigit)
    else none

structure Numeral where
  negative : Bool
  integer : List Char
  fraction : Option (List Char)
  exponent : Option Int

namespace Numeral

def isWhole (n : Numeral) : Bool :=
  n.fraction.isNone && n.exponent.isNone

def value (n : Numeral) : Value :=
  if n.isWhole then .int (Number.signed n.negative (Number.digitsValue n.integer))
  else .float (Number.ofParts n.negative n.integer (n.fraction.getD []) (n.exponent.getD 0))

/-- In a file the digits of a whole number count, otherwise those before any point. -/
def tooLong (origin : Origin) (n : Numeral) : Bool :=
  match origin with
  | .file => n.isWhole && Text.mostDigits < n.integer.length
  | .given => Text.mostDigits < n.integer.length

end Numeral

def numeral? (cs : List Char) : Option (Numeral × List Char) := do
  let (negative, ds) := match cs with
    | '-' :: ds => (true, ds)
    | ds => (false, ds)
  let (integer, rest) ← integer? ds
  let (fraction, rest) := match fraction? rest with
    | some (ds, rest) => (some ds, rest)
    | none => (none, rest)
  let (exponent, rest) := match exponent? rest with
    | some (e, rest) => (some e, rest)
    | none => (none, rest)
  pure ({ negative, integer, fraction, exponent }, rest)

def words (stamp : Nat) : List (String × Value) := [
  ("null", .none), ("true", .bool true), ("false", .bool false),
  ("NaN", .nan stamp), ("Infinity", .float (1.0 / 0.0)), ("-Infinity", .float (-1.0 / 0.0))]

def dropPrefix? : List Char → List Char → Option (List Char)
  | [], rest => some rest
  | _ :: _, [] => none
  | p :: ps, c :: cs => if p = c then dropPrefix? ps cs else none

variable (origin : Origin) (stamp : Nat)

def string (opened rest : List Char) : Except Trouble (String × List Char) := do
  let (us, rest) ← units opened [] rest
  if origin = .given ∧ isTorn us then trouble .unicodeEscape opened
  else pure (String.ofList (joined [] us), rest)

def word? (cs : List Char) : Option (Value × List Char) :=
  (words stamp).findSome? fun (w, v) ↦ (dropPrefix? w.toList cs).map fun rest ↦ (v, rest)

def scalar (cs : List Char) : Read Value :=
  match numeral? cs with
  | some (n, rest) => if n.tooLong origin then trouble .digits cs else .ok (n.value, rest)
  | none => match word? stamp cs with
    | some r => .ok r
    | none => trouble .value cs

mutual

/-- A value that starts at the first character. The limit is never reached if it exceeds the number
of characters. -/
def value : (limit : Nat) → List Char → Read Value
  | 0, cs => trouble .value cs
  | n + 1, cs => match cs with
    | '"' :: rest => (string origin cs rest).map fun (s, rest) ↦ (.text s, rest)
    | '{' :: rest => match skip rest with
      | '}' :: rest => .ok (.dict [], rest)
      | rest => members n [] rest
    | '[' :: rest => match skip rest with
      | ']' :: rest => .ok (.list [], rest)
      | rest => items n [] rest
    | cs => scalar origin stamp cs

def members : (limit : Nat) → List (Value × Value) → List Char → Except Trouble (Value × List Char)
  | 0, _, cs => trouble .value cs
  | n + 1, done, cs => match cs with
    | '"' :: rest => do
      let (name, rest) ← string origin cs rest
      match skip rest with
      | ':' :: rest =>
        let (v, rest) ← value n (skip rest)
        let done := (.text name, v) :: done
        match skip rest with
        | '}' :: rest => .ok (.dict done.reverse, rest)
        | ',' :: rest => members n done (skip rest)
        | rest => trouble .comma rest
      | rest => trouble .colon rest
    | cs => trouble .propertyName cs

def items : (limit : Nat) → List Value → List Char → Except Trouble (Value × List Char)
  | 0, _, cs => trouble .value cs
  | n + 1, done, cs => do
    let (v, rest) ← value n cs
    match skip rest with
    | ']' :: rest => .ok (.list (v :: done).reverse, rest)
    | ',' :: rest => items n (v :: done) (skip rest)
    | rest => trouble .comma rest

end

def readAll (source : String) : Except Trouble Value := do
  let cs := source.toList
  if cs.head? = some '\ufeff' then trouble .byteOrderMark cs
  else
    let (v, rest) ← value origin stamp (2 * cs.length + 2) (skip cs)
    match skip rest with
    | [] => pure v
    | rest => trouble .extraData rest

mutual

def numbered (next : Nat) : Value → Value × Nat
  | .nan _ => (.nan next, next + 1)
  | .list xs _ =>
    let (ys, n) := numberedItems next [] xs
    (.list ys, n)
  | .dict es _ =>
    let (fs, n) := numberedEntries next [] es
    (.dict fs, n)
  | v => (v, next)

def numberedItems (next : Nat) (done : List Value) : List Value → List Value × Nat
  | [] => (done.reverse, next)
  | x :: xs =>
    let (y, n) := numbered next x
    numberedItems n (y :: done) xs

def numberedEntries (next : Nat) (done : List (Value × Value)) :
    List (Value × Value) → List (Value × Value) × Nat
  | [] => (done.reverse, next)
  | (k, v) :: es =>
    let (w, n) := numbered next v
    numberedEntries n ((k, w) :: done) es

end

/-- The value of a whole text. What is no number in it is all one and the same in a file; otherwise
each has a stamp of its own from the given one on. -/
def read (source : String) : Except Trouble Value := do
  let v ← readAll origin stamp source
  match origin with
  | .file => pure v
  | .given => pure (numbered stamp v).1

mutual

def settled : Value → Value
  | .list xs _ => .list (settledItems [] xs)
  | .dict es _ => .dict (settledEntries [] es)
  | v => v

def settledItems (done : List Value) : List Value → List Value
  | [] => done.reverse
  | x :: xs => settledItems (settled x :: done) xs

def settledEntries (done : Table Value) : List (Value × Value) → Table Value
  | [] => done
  | (k, v) :: es => settledEntries (done.insert k (settled v)) es

end

end Fable.Json
