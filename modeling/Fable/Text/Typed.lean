namespace Fable.Text

/-- The blanks of ASCII, with the separators of files, groups, records and units among them, and
every space and line or paragraph separator beyond ASCII. -/
def isBlank (c : Char) : Bool :=
  let n := c.toNat
  (9 ≤ n && n ≤ 13) || (28 ≤ n && n ≤ 32) || n == 0x85 || n == 0xa0 || n == 0x1680 ||
    (0x2000 ≤ n && n ≤ 0x200a) || n == 0x2028 || n == 0x2029 || n == 0x202f ||
      n == 0x205f || n == 0x3000

def trimChars (p : Char → Bool) (cs : List Char) : List Char :=
  ((cs.dropWhile p).reverse.dropWhile p).reverse

def trim (s : String) : String :=
  String.ofList (trimChars isBlank s.toList)

/-- The blanks that may stand around a number; the separators of ASCII are none of them. -/
def isSpace (c : Char) : Bool :=
  isBlank c && !(28 ≤ c.toNat && c.toNat ≤ 31)

def wordsOf : List Char → List (List Char)
  | [] => []
  | [c] => if isBlank c then [] else [[c]]
  | c :: d :: cs =>
    if isBlank c then wordsOf (d :: cs)
    else if isBlank d then [c] :: wordsOf (d :: cs)
    else match wordsOf (d :: cs) with
      | [] => [[c]]
      | w :: ws => (c :: w) :: ws

def words (s : String) : List String :=
  (wordsOf s.toList).map String.ofList

def unifyEnds : List Char → List Char
  | [] => []
  | '\r' :: '\n' :: cs => '\n' :: unifyEnds cs
  | c :: cs => (if c = '\r' then '\n' else c) :: unifyEnds cs

/-- A carriage return, alone or before a line feed, is read as a line feed. -/
def unifyLineEnds (s : String) : String :=
  String.ofList (unifyEnds s.toList)

def isLineBreak (c : Char) : Bool :=
  let n := c.toNat
  (10 ≤ n && n ≤ 13) || (28 ≤ n && n ≤ 30) || n == 0x85 || n == 0x2028 || n == 0x2029

/-- The lines that end at a character of `isEnd`; a last line without its end counts if it holds
anything. -/
def splitEnded (isEnd : Char → Bool) : List Char → List (List Char)
  | [] => []
  | c :: cs =>
    if isEnd c then [] :: splitEnded isEnd cs
    else match splitEnded isEnd cs with
      | [] => [[c]]
      | l :: ls => (c :: l) :: ls

def scriptLines (s : String) : List String :=
  (splitEnded isLineBreak (unifyEnds s.toList)).map String.ofList

def typedLines (s : String) : List String :=
  (splitEnded (· == '\n') (unifyEnds s.toList)).map String.ofList

/-- The zeros of all decimal digit rows; the nine other digits of a row follow its zero. -/
def digitZeros : Array Nat :=
  #[
    0x30, 0x660, 0x6f0, 0x7c0, 0x966, 0x9e6, 0xa66, 0xae6, 0xb66, 0xbe6, 0xc66, 0xce6, 0xd66, 0xde6,
    0xe50, 0xed0, 0xf20, 0x1040, 0x1090, 0x17e0, 0x1810, 0x1946, 0x19d0, 0x1a80, 0x1a90, 0x1b50,
    0x1bb0, 0x1c40, 0x1c50, 0xa620, 0xa8d0, 0xa900, 0xa9d0, 0xa9f0, 0xaa50, 0xabf0, 0xff10, 0x104a0,
    0x10d30, 0x11066, 0x110f0, 0x11136, 0x111d0, 0x112f0, 0x11450, 0x114d0, 0x11650, 0x116c0,
    0x11730, 0x118e0, 0x11950, 0x11c50, 0x11d50, 0x11da0, 0x16a60, 0x16ac0, 0x16b50, 0x1d7ce,
    0x1d7d8, 0x1d7e2, 0x1d7ec, 0x1d7f6, 0x1e140, 0x1e2f0, 0x1e950, 0x1fbf0]

def digitValue? (c : Char) : Option Nat :=
  (digitZeros.find? fun z ↦ z ≤ c.toNat && c.toNat ≤ z + 9).map (c.toNat - ·)

def readDigitsFrom (digit? : Char → Option Nat) (value : Nat) : List Char → Option Nat
  | [] => some value
  | ['_'] => none
  | '_' :: c :: cs => (digit? c).bind fun d ↦ readDigitsFrom digit? (value * 10 + d) cs
  | c :: cs => (digit? c).bind fun d ↦ readDigitsFrom digit? (value * 10 + d) cs

def readDigits (digit? : Char → Option Nat) : List Char → Option Nat
  | [] => none
  | c :: cs => (digit? c).bind fun d ↦ readDigitsFrom digit? d cs

def readSigned (digit? : Char → Option Nat) : List Char → Option Int
  | '-' :: cs => (readDigits digit? cs).map fun n ↦ -(n : Int)
  | '+' :: cs => (readDigits digit? cs).map Int.ofNat
  | cs => (readDigits digit? cs).map Int.ofNat

/-- Numbers of more digits are neither read nor written. -/
def mostDigits : Nat := 4300

def readInt? (s : String) : Option Int :=
  if mostDigits < s.toList.countP (fun c ↦ (digitValue? c).isSome) then none
  else readSigned digitValue? (trimChars isSpace s.toList)

def ofInt? (n : Int) : Option String :=
  let digits := toString n.natAbs
  if digits.length ≤ mostDigits then some (if n < 0 then "-" ++ digits else digits) else none

end Fable.Text
