import DesignToWeb.Text.Character

/-!
# SHA-1

The digest of a byte string, five words of 32 bits.
-/

namespace DesignToWeb.Text.Sha1

def rotate (w : UInt32) (n : UInt32) : UInt32 := (w <<< n) ||| (w >>> (32 - n))

def lengthBytes (bytes : List UInt8) : List UInt8 :=
  (List.range 8).map fun i ↦ UInt8.ofNat ((8 * bytes.length) >>> (8 * (7 - i)))

/-- The message with a one bit, zeros, and its length in bits, in whole blocks of 64 bytes. -/
def pad (bytes : List UInt8) : List UInt8 :=
  let zeros := (119 - bytes.length % 64) % 64
  bytes ++ [0x80] ++ List.replicate zeros 0 ++ lengthBytes bytes

def chunks {α : Type} (size : Nat) (xs : List α) : List (List α) :=
  (List.range (xs.length / size)).map fun i ↦ (xs.drop (size * i)).take size

def word (bytes : List UInt8) : UInt32 :=
  bytes.foldl (fun w b ↦ (w <<< 8) ||| b.toUInt32) 0

/-- The eighty words for the rounds, from the sixteen of a block. -/
def schedule (block : List UInt32) : List UInt32 :=
  let next := fun (ws : List UInt32) (_ : Nat) ↦
    rotate (ws.getD 2 0 ^^^ ws.getD 7 0 ^^^ ws.getD 13 0 ^^^ ws.getD 15 0) 1 :: ws
  ((List.range 64).foldl next block.reverse).reverse

structure State where
  a : UInt32
  b : UInt32
  c : UInt32
  d : UInt32
  e : UInt32

def start : State := ⟨0x67452301, 0xefcdab89, 0x98badcfe, 0x10325476, 0xc3d2e1f0⟩

/-- The mixing function and the constant of a round. -/
def mix (round : Nat) (s : State) : UInt32 × UInt32 :=
  if round < 20 then ((s.b &&& s.c) ||| ((s.b ^^^ 0xffffffff) &&& s.d), 0x5a827999)
  else if round < 40 then (s.b ^^^ s.c ^^^ s.d, 0x6ed9eba1)
  else if round < 60 then ((s.b &&& s.c) ||| (s.b &&& s.d) ||| (s.c &&& s.d), 0x8f1bbcdc)
  else (s.b ^^^ s.c ^^^ s.d, 0xca62c1d6)

def step (s : State) (input : UInt32 × Nat) : State :=
  let (f, k) := mix input.2 s
  { a := rotate s.a 5 + f + s.e + k + input.1
    b := s.a
    c := rotate s.b 30
    d := s.c
    e := s.d }

def compress (s : State) (block : List UInt32) : State :=
  let t := (schedule block).zipIdx.foldl step s
  ⟨s.a + t.a, s.b + t.b, s.c + t.c, s.d + t.d, s.e + t.e⟩

def digest (bytes : List UInt8) : State :=
  (chunks 16 ((chunks 4 (pad bytes)).map word)).foldl compress start

/-- The digest of a text in UTF-8, as forty hexadecimal digits. -/
def hexDigest (s : String) : List Char :=
  let d := digest s.toUTF8.toList
  [d.a, d.b, d.c, d.d, d.e].flatMap fun w ↦ hex 8 w.toNat

end DesignToWeb.Text.Sha1
