import MtossBot.Library.Hex

/-!
# SHA-256

The hash of a list of bytes, over natural numbers cut to 32 bits, and its hexadecimal digest.
-/

namespace MtossBot
namespace Sha256

/-- Words are 32 bits. -/
def word (n : Nat) : Nat := n % 2 ^ 32

def rotr (x n : Nat) : Nat := word ((x >>> n) ||| (x <<< (32 - n)))

/-- The round constants. -/
def k : List Nat :=
  [0x428a2f98, 0x71374491, 0xb5c0fbcf, 0xe9b5dba5, 0x3956c25b, 0x59f111f1, 0x923f82a4, 0xab1c5ed5,
   0xd807aa98, 0x12835b01, 0x243185be, 0x550c7dc3, 0x72be5d74, 0x80deb1fe, 0x9bdc06a7, 0xc19bf174,
   0xe49b69c1, 0xefbe4786, 0x0fc19dc6, 0x240ca1cc, 0x2de92c6f, 0x4a7484aa, 0x5cb0a9dc, 0x76f988da,
   0x983e5152, 0xa831c66d, 0xb00327c8, 0xbf597fc7, 0xc6e00bf3, 0xd5a79147, 0x06ca6351, 0x14292967,
   0x27b70a85, 0x2e1b2138, 0x4d2c6dfc, 0x53380d13, 0x650a7354, 0x766a0abb, 0x81c2c92e, 0x92722c85,
   0xa2bfe8a1, 0xa81a664b, 0xc24b8b70, 0xc76c51a3, 0xd192e819, 0xd6990624, 0xf40e3585, 0x106aa070,
   0x19a4c116, 0x1e376c08, 0x2748774c, 0x34b0bcb5, 0x391c0cb3, 0x4ed8aa4a, 0x5b9cca4f, 0x682e6ff3,
   0x748f82ee, 0x78a5636f, 0x84c87814, 0x8cc70208, 0x90befffa, 0xa4506ceb, 0xbef9a3f7, 0xc67178f2]

/-- The eight working variables. -/
structure State where
  a : Nat
  b : Nat
  c : Nat
  d : Nat
  e : Nat
  f : Nat
  g : Nat
  h : Nat

def initial : State :=
  ⟨0x6a09e667, 0xbb67ae85, 0x3c6ef372, 0xa54ff53a, 0x510e527f, 0x9b05688c, 0x1f83d9ab, 0x5be0cd19⟩

/-- One round, on a round constant and a word of the schedule. -/
def round (s : State) (kw : Nat × Nat) : State :=
  let s1 := rotr s.e 6 ^^^ rotr s.e 11 ^^^ rotr s.e 25
  let ch := (s.e &&& s.f) ^^^ ((2 ^ 32 - 1 - s.e) &&& s.g)
  let t1 := word (s.h + s1 + ch + kw.1 + kw.2)
  let s0 := rotr s.a 2 ^^^ rotr s.a 13 ^^^ rotr s.a 22
  let maj := (s.a &&& s.b) ^^^ (s.a &&& s.c) ^^^ (s.b &&& s.c)
  let t2 := word (s0 + maj)
  ⟨word (t1 + t2), s.a, s.b, s.c, word (s.d + t1), s.e, s.f, s.g⟩

/-- The next word of the schedule, from the sixteen before it, latest first. -/
def nextWord (w : List Nat) : Nat :=
  let x := w.getD 14 0
  let y := w.getD 1 0
  let s0 := rotr x 7 ^^^ rotr x 18 ^^^ (x >>> 3)
  let s1 := rotr y 17 ^^^ rotr y 19 ^^^ (y >>> 10)
  word (w.getD 15 0 + s0 + w.getD 6 0 + s1)

/-- `n` more words of the schedule, which is kept latest first. -/
def extend : Nat → List Nat → List Nat
  | 0, w => w
  | n + 1, w => extend n (nextWord w :: w)

/-- The big-endian number of a list of bytes. -/
def beNat (bytes : List Nat) : Nat := bytes.foldl (fun acc b => 256 * acc + b) 0

/-- `n` chunks of `size` elements. -/
def chunks {α : Type} (size : Nat) : Nat → List α → List (List α)
  | 0, _ => []
  | n + 1, l => l.take size :: chunks size n (l.drop size)

/-- Compress one block of 64 bytes. -/
def compress (s : State) (block : List Nat) : State :=
  let w := (extend 48 ((chunks 4 16 block).map beNat).reverse).reverse
  let r := (k.zip w).foldl round s
  ⟨word (s.a + r.a), word (s.b + r.b), word (s.c + r.c), word (s.d + r.d),
   word (s.e + r.e), word (s.f + r.f), word (s.g + r.g), word (s.h + r.h)⟩

/-- The message, a one bit, zeros up to a whole number of blocks, and the message's length in bits as eight bytes. -/
def pad (bytes : List Nat) : List Nat :=
  let zeros := (119 - bytes.length % 64) % 64
  bytes ++ 0x80 :: List.replicate zeros 0 ++
    (List.range 8).map fun i => (8 * bytes.length) >>> (8 * (7 - i)) % 256

/-- The hash of a list of bytes. -/
def hash (bytes : List Nat) : State :=
  let m := pad bytes
  (chunks 64 (m.length / 64) m).foldl compress initial

/-- The digest as 64 lowercase hexadecimal digits. -/
def hexdigest (bytes : List Nat) : List Char :=
  let s := hash bytes
  hexOf 8 s.a ++ hexOf 8 s.b ++ hexOf 8 s.c ++ hexOf 8 s.d ++ hexOf 8 s.e ++ hexOf 8 s.f ++ hexOf 8 s.g ++ hexOf 8 s.h

theorem length_hexdigest (bytes : List Nat) : (hexdigest bytes).length = 64 := by
  simp [hexdigest]

/-- Every character of a digest is a lowercase hexadecimal digit. -/
theorem mem_hexdigest {bytes : List Nat} : ∀ c ∈ hexdigest bytes, c ∈ lowerHex := by
  intro c hc
  simp only [hexdigest, List.mem_append] at hc
  rcases hc with ((((((h | h) | h) | h) | h) | h) | h) | h <;> exact mem_hexOf 8 _ c h

example : String.ofList (hexdigest ("abc".toUTF8.data.toList.map UInt8.toNat)) =
    "ba7816bf8f01cfea414140de5dae2223b00361a396177a9cb410ff61f20015ad" := by
  decide +kernel

end Sha256
end MtossBot
