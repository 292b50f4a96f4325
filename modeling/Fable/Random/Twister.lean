namespace Fable

structure Twister where
  words : Array UInt32
  used : Nat
  deriving Inhabited

namespace Twister

def size : Nat := 624

def mix (w : UInt32) : UInt32 := w ^^^ (w >>> 30)

def word (a : Array UInt32) (i : Nat) : UInt32 := a.getD i 0

def initial (seed : UInt32) : Array UInt32 :=
  (List.range (size - 1)).foldl
    (fun a i ↦ a.push (1812433253 * mix (word a i) + (i + 1).toUInt32)) #[seed]

def digits (n : Nat) : Array UInt32 :=
  (List.range (max 1 ((n.log2 + 32) / 32))).foldl (fun a i ↦ a.push (n >>> (32 * i)).toUInt32) #[]

/-- A table of words that is being worked over from place 1 on, round and round. -/
structure Sweep where
  words : Array UInt32
  place : Nat
  key : Nat

def Sweep.put (s : Sweep) (w : UInt32) (key : Nat) : Sweep :=
  let words := s.words.setIfInBounds s.place w
  if s.place + 1 < size then ⟨words, s.place + 1, key⟩
  else ⟨words.setIfInBounds 0 (word words (size - 1)), 1, key⟩

def Sweep.stir (keys : Array UInt32) (s : Sweep) : Sweep :=
  let w :=
    (word s.words s.place ^^^ (mix (word s.words (s.place - 1)) * 1664525)) + word keys s.key +
    s.key.toUInt32
  s.put w (if s.key + 1 < keys.size then s.key + 1 else 0)

def Sweep.settle (s : Sweep) : Sweep :=
  s.put ((word s.words s.place ^^^ (mix (word s.words (s.place - 1)) * 1566083941))
    - s.place.toUInt32) s.key

def ofKeys (keys : Array UInt32) : Twister :=
  let stirred := Nat.repeat (Sweep.stir keys) (max size keys.size) ⟨initial 19650218, 1, 0⟩
  let settled := Nat.repeat Sweep.settle (size - 1) stirred
  ⟨settled.words.setIfInBounds 0 0x80000000, size⟩

def ofSeed (seed : Int) : Twister :=
  ofKeys (digits seed.natAbs)

def twisted (a : Array UInt32) (i : Nat) : UInt32 :=
  let y := (word a i &&& 0x80000000) ||| (word a ((i + 1) % size) &&& 0x7fffffff)
  word a ((i + 397) % size) ^^^ (y >>> 1) ^^^ (if y &&& 1 = 0 then 0 else 0x9908b0df)

def refreshed (a : Array UInt32) : Array UInt32 :=
  (List.range size).foldl (fun a i ↦ a.setIfInBounds i (twisted a i)) a

def temper (w : UInt32) : UInt32 :=
  let w := w ^^^ (w >>> 11)
  let w := w ^^^ ((w <<< 7) &&& 0x9d2c5680)
  let w := w ^^^ ((w <<< 15) &&& 0xefc60000)
  w ^^^ (w >>> 18)

def next (t : Twister) : UInt32 × Twister :=
  if t.used < size then (temper (word t.words t.used), { t with used := t.used + 1 })
  else
    let words := refreshed t.words
    (temper (word words 0), ⟨words, 1⟩)

/-- A number of so many bits: the first words are the low ones, and of the last word the high bits
are taken. -/
def bits (count : Nat) (t : Twister) : Nat × Twister :=
  let (w, t) := t.next
  if h : 32 < count then
    let (high, t) := bits (count - 32) t
    (w.toNat + Nat.pow 2 32 * high, t)
  else (w.toNat >>> (32 - count), t)
termination_by count

section
variable (bound : Nat)

/-- The first number below `bound` among those drawn with the bits of `bound`. There is none if such
a number is never drawn. -/
def below (t : Twister) : Option (Nat × Twister) :=
  let (r, t) := t.bits (bound.log2 + 1)
  if r < bound then some (r, t)
  -- Applied by a tactic, the function bears no mark of the place where it is called.
  else by apply below; exact t
partial_fixpoint

theorem below_eq (t : Twister) :
    t.below bound =
      let (r, t) := t.bits (bound.log2 + 1)
      if r < bound then some (r, t) else t.below bound := by
  rw [below]

end

end Twister

end Fable
