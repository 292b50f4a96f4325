import Fable.Fault
import Fable.Number.Binary
import Fable.Random.Twister
import Fable.Value.Basic

namespace Fable.Digest

/-- The first 64 bits of the fractions of the cube roots of the first eighty primes. -/
def roundConstants : Array UInt64 :=
  #[
    0x428a2f98d728ae22, 0x7137449123ef65cd, 0xb5c0fbcfec4d3b2f, 0xe9b5dba58189dbbc,
    0x3956c25bf348b538, 0x59f111f1b605d019, 0x923f82a4af194f9b, 0xab1c5ed5da6d8118,
    0xd807aa98a3030242, 0x12835b0145706fbe, 0x243185be4ee4b28c, 0x550c7dc3d5ffb4e2,
    0x72be5d74f27b896f, 0x80deb1fe3b1696b1, 0x9bdc06a725c71235, 0xc19bf174cf692694,
    0xe49b69c19ef14ad2, 0xefbe4786384f25e3, 0x0fc19dc68b8cd5b5, 0x240ca1cc77ac9c65,
    0x2de92c6f592b0275, 0x4a7484aa6ea6e483, 0x5cb0a9dcbd41fbd4, 0x76f988da831153b5,
    0x983e5152ee66dfab, 0xa831c66d2db43210, 0xb00327c898fb213f, 0xbf597fc7beef0ee4,
    0xc6e00bf33da88fc2, 0xd5a79147930aa725, 0x06ca6351e003826f, 0x142929670a0e6e70,
    0x27b70a8546d22ffc, 0x2e1b21385c26c926, 0x4d2c6dfc5ac42aed, 0x53380d139d95b3df,
    0x650a73548baf63de, 0x766a0abb3c77b2a8, 0x81c2c92e47edaee6, 0x92722c851482353b,
    0xa2bfe8a14cf10364, 0xa81a664bbc423001, 0xc24b8b70d0f89791, 0xc76c51a30654be30,
    0xd192e819d6ef5218, 0xd69906245565a910, 0xf40e35855771202a, 0x106aa07032bbd1b8,
    0x19a4c116b8d2d0c8, 0x1e376c085141ab53, 0x2748774cdf8eeb99, 0x34b0bcb5e19b48a8,
    0x391c0cb3c5c95a63, 0x4ed8aa4ae3418acb, 0x5b9cca4f7763e373, 0x682e6ff3d6b2b8a3,
    0x748f82ee5defb2fc, 0x78a5636f43172f60, 0x84c87814a1f0ab72, 0x8cc702081a6439ec,
    0x90befffa23631e28, 0xa4506cebde82bde9, 0xbef9a3f7b2c67915, 0xc67178f2e372532b,
    0xca273eceea26619c, 0xd186b8c721c0c207, 0xeada7dd6cde0eb1e, 0xf57d4f7fee6ed178,
    0x06f067aa72176fba, 0x0a637dc5a2c898a6, 0x113f9804bef90dae, 0x1b710b35131c471b,
    0x28db77f523047d84, 0x32caab7b40c72493, 0x3c9ebe0a15c9bebc, 0x431d67c49c100d4c,
    0x4cc5d4becb3e42b6, 0x597f299cfc657e2a, 0x5fcb6fab3ad6faec, 0x6c44198c4a475817]

structure State where
  a : UInt64
  b : UInt64
  c : UInt64
  d : UInt64
  e : UInt64
  f : UInt64
  g : UInt64
  h : UInt64

/-- The first 64 bits of the fractions of the square roots of the first eight primes. -/
def initial : State where
  a := 0x6a09e667f3bcc908
  b := 0xbb67ae8584caa73b
  c := 0x3c6ef372fe94f82b
  d := 0xa54ff53a5f1d36f1
  e := 0x510e527fade682d1
  f := 0x9b05688c2b3e6c1f
  g := 0x1f83d9abfb41bd6b
  h := 0x5be0cd19137e2179

def rotated (w n : UInt64) : UInt64 :=
  (w >>> n) ||| (w <<< (64 - n))

def bytesOf (n : Nat) : (count : Nat) → List UInt8
  | 0 => []
  | k + 1 => bytesOf (n / 256) k ++ [n.toUInt8]

def number (bytes : List UInt8) : Nat :=
  bytes.foldl (fun n b ↦ n * 256 + b.toNat) 0

/-- The message, one bit, zeros, and the length of the message in bits: whole blocks of 128
bytes. -/
def padded (message : List UInt8) : List UInt8 :=
  message ++ 0x80 :: List.replicate ((239 - message.length % 128) % 128) 0 ++
    bytesOf (8 * message.length) 16

def pieces (size : Nat) (bytes : List UInt8) : (count : Nat) → List (List UInt8)
  | 0 => []
  | k + 1 => bytes.take size :: pieces size (bytes.drop size) k

def word (ws : Array UInt64) (i : Nat) : UInt64 := ws.getD i 0

def scheduled (ws : Array UInt64) (i : Nat) : UInt64 :=
  let x := word ws (i - 15)
  let y := word ws (i - 2)
  word ws (i - 16) + (rotated x 1 ^^^ rotated x 8 ^^^ (x >>> 7)) + word ws (i - 7) +
    (rotated y 19 ^^^ rotated y 61 ^^^ (y >>> 6))

def schedule (block : List UInt8) : Array UInt64 :=
  let start := ((pieces 8 block 16).map fun w ↦ (number w).toUInt64).toArray
  (List.range 64).foldl (fun ws i ↦ ws.push (scheduled ws (i + 16))) start

def round (s : State) (k w : UInt64) : State :=
  let choice := (s.e &&& s.f) ^^^ (~~~s.e &&& s.g)
  let majority := (s.a &&& s.b) ^^^ (s.a &&& s.c) ^^^ (s.b &&& s.c)
  let t := s.h + (rotated s.e 14 ^^^ rotated s.e 18 ^^^ rotated s.e 41) + choice + k + w
  let u := (rotated s.a 28 ^^^ rotated s.a 34 ^^^ rotated s.a 39) + majority
  ⟨t + u, s.a, s.b, s.c, s.d + t, s.e, s.f, s.g⟩

def compress (s : State) (block : List UInt8) : State :=
  let ws := schedule block
  let t := (List.range 80).foldl (fun t i ↦ round t (word roundConstants i) (word ws i)) s
  ⟨s.a + t.a, s.b + t.b, s.c + t.c, s.d + t.d, s.e + t.e, s.f + t.f, s.g + t.g, s.h + t.h⟩

def digest (message : List UInt8) : List UInt8 :=
  let bytes := padded message
  let s := (pieces 128 bytes (bytes.length / 128)).foldl compress initial
  [s.a, s.b, s.c, s.d, s.e, s.f, s.g, s.h].flatMap fun w ↦ bytesOf w.toNat 8

end Fable.Digest

namespace Fable.Seed

def words (done : Array UInt32) : List UInt8 → Array UInt32
  | a :: b :: c :: d :: bytes =>
    words
      (done.push (a.toUInt32 ||| b.toUInt32 <<< 8 ||| c.toUInt32 <<< 16 ||| d.toUInt32 <<< 24))
      bytes
  | [] => done
  | bytes => done.push (Digest.number bytes.reverse).toUInt32

def trimmed (ws : Array UInt32) : Array UInt32 :=
  let ws := ws.popWhile (· == 0)
  if ws.isEmpty then #[0] else ws

/-- The words of the number whose digits are the bytes of a text and those of their digest. -/
def ofText (s : String) : Array UInt32 :=
  let bytes := s.toUTF8.data.toList
  trimmed (words #[] (bytes ++ Digest.digest bytes).reverse)

end Fable.Seed

namespace Fable

/-- The generator that a value seeds; nothing, and what is no number, may seed any. -/
def Twister.ofValue (seed : Value) : Except Fault Twister :=
  match seed with
  | .none => .ok (ofSeed 0)
  | .float x => .ok (ofSeed (Number.Residue.ofFloat x))
  | .nan _ => .ok (ofSeed 0)
  | v => match v.int?, v.string? with
    | some n, _ => .ok (ofSeed n)
    | none, some s => .ok (ofKeys (Seed.ofText s))
    | none, none => .error .mismatch

end Fable
