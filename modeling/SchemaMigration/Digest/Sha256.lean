/-!
# SchemaMigration.Digest.Sha256

The SHA-256 digest of a text's UTF-8 bytes, in hexadecimal.

* `pad` : the message completed to whole 64-byte blocks.
* `schedule` : the 64 words of one block.
* `compress` : one block mixed into the chaining state.
* `sha256Hex` : 64 small hexadecimal digits.
-/

namespace SchemaMigration
namespace Digest

structure Chain where
  a : UInt32
  b : UInt32
  c : UInt32
  d : UInt32
  e : UInt32
  f : UInt32
  g : UInt32
  h : UInt32

def Chain.initial : Chain :=
  ⟨0x6a09e667, 0xbb67ae85, 0x3c6ef372, 0xa54ff53a, 0x510e527f, 0x9b05688c, 0x1f83d9ab, 0x5be0cd19⟩

def roundConstants : List UInt32 := [
  0x428a2f98, 0x71374491, 0xb5c0fbcf, 0xe9b5dba5, 0x3956c25b, 0x59f111f1, 0x923f82a4, 0xab1c5ed5,
  0xd807aa98, 0x12835b01, 0x243185be, 0x550c7dc3, 0x72be5d74, 0x80deb1fe, 0x9bdc06a7, 0xc19bf174,
  0xe49b69c1, 0xefbe4786, 0x0fc19dc6, 0x240ca1cc, 0x2de92c6f, 0x4a7484aa, 0x5cb0a9dc, 0x76f988da,
  0x983e5152, 0xa831c66d, 0xb00327c8, 0xbf597fc7, 0xc6e00bf3, 0xd5a79147, 0x06ca6351, 0x14292967,
  0x27b70a85, 0x2e1b2138, 0x4d2c6dfc, 0x53380d13, 0x650a7354, 0x766a0abb, 0x81c2c92e, 0x92722c85,
  0xa2bfe8a1, 0xa81a664b, 0xc24b8b70, 0xc76c51a3, 0xd192e819, 0xd6990624, 0xf40e3585, 0x106aa070,
  0x19a4c116, 0x1e376c08, 0x2748774c, 0x34b0bcb5, 0x391c0cb3, 0x4ed8aa4a, 0x5b9cca4f, 0x682e6ff3,
  0x748f82ee, 0x78a5636f, 0x84c87814, 0x8cc70208, 0x90befffa, 0xa4506ceb, 0xbef9a3f7, 0xc67178f2]

/-- Rotation to the right by `n` of 1 to 31 places. -/
def rotateRight (x : UInt32) (n : UInt32) : UInt32 := (x >>> n) ||| (x <<< (32 - n))

def smallSigma0 (x : UInt32) : UInt32 := rotateRight x 7 ^^^ rotateRight x 18 ^^^ (x >>> 3)

def smallSigma1 (x : UInt32) : UInt32 := rotateRight x 17 ^^^ rotateRight x 19 ^^^ (x >>> 10)

def bigSigma0 (x : UInt32) : UInt32 := rotateRight x 2 ^^^ rotateRight x 13 ^^^ rotateRight x 22

def bigSigma1 (x : UInt32) : UInt32 := rotateRight x 6 ^^^ rotateRight x 11 ^^^ rotateRight x 25

/-- The message, the byte 0x80, as few zero bytes as make whole blocks, and the length in bits as
eight bytes, the most significant first. -/
def pad (message : List UInt8) : List UInt8 :=
  let size := message.length
  let zeros := (119 - size % 64) % 64
  let bits := 8 * size
  message ++ [0x80] ++ List.replicate zeros 0 ++
    (List.range 8).map fun i => UInt8.ofNat (bits / Nat.pow 256 (7 - i))

/-- Four bytes as one word, the most significant first; a rest of fewer than four is dropped. -/
def toWords : List UInt8 → List UInt32
  | a :: b :: c :: d :: rest =>
    ((a.toUInt32 <<< 24) ||| (b.toUInt32 <<< 16) ||| (c.toUInt32 <<< 8) ||| d.toUInt32) ::
      toWords rest
  | _ => []

/-- The schedule extended by `count` words, each from four earlier ones. -/
def extend : (count : Nat) → Array UInt32 → Array UInt32
  | 0, words => words
  | count + 1, words =>
    let n := words.size
    let word := smallSigma1 (words.getD (n - 2) 0) + words.getD (n - 7) 0 +
      smallSigma0 (words.getD (n - 15) 0) + words.getD (n - 16) 0
    extend count (words.push word)

/-- The 64 words that one block of 16 supplies to the rounds. -/
def schedule (block : List UInt32) : List UInt32 := (extend 48 block.toArray).toList

/-- One round, with the sum of its constant and its schedule word. -/
def Chain.round (s : Chain) (input : UInt32) : Chain :=
  let t1 := s.h + bigSigma1 s.e + ((s.e &&& s.f) ^^^ (~~~s.e &&& s.g)) + input
  let t2 := bigSigma0 s.a + ((s.a &&& s.b) ^^^ (s.a &&& s.c) ^^^ (s.b &&& s.c))
  ⟨t1 + t2, s.a, s.b, s.c, s.d + t1, s.e, s.f, s.g⟩

/-- One block mixed into the chaining state. -/
def compress (s : Chain) (block : List UInt32) : Chain :=
  let t := ((roundConstants.zip (schedule block)).map fun (k, w) => k + w).foldl Chain.round s
  ⟨s.a + t.a, s.b + t.b, s.c + t.c, s.d + t.d, s.e + t.e, s.f + t.f, s.g + t.g, s.h + t.h⟩

def absorb (s : Chain) (words : List UInt32) : Chain :=
  match _cut : words.drop 15 with
  | [] => s
  | _ :: rest => absorb (compress s (words.take 16)) rest
termination_by words.length
decreasing_by
  have := congrArg List.length _cut
  simp only [List.length_drop, List.length_cons] at this
  omega

/-- The eight hexadecimal digits of a word. -/
def wordHex (word : UInt32) : List Char :=
  (List.range 8).map fun i => Nat.digitChar (word.toNat / Nat.pow 16 (7 - i) % 16)

/-- The digest of the text's UTF-8 bytes, as 64 hexadecimal digits. -/
def sha256Hex (text : String) : String :=
  let s := absorb Chain.initial (toWords (pad text.toUTF8.toList))
  String.ofList ([s.a, s.b, s.c, s.d, s.e, s.f, s.g, s.h].flatMap wordHex)

end Digest
end SchemaMigration
