/-!
# Message digests

SHA-1 gives the 20-byte digest from which named identifiers are derived, SHA-256 the 32-byte digest that
identifies generated code. Both read words from bytes most significant first, pad a message with a
one bit, zeros and its bit length to a multiple of 64 bytes, and take the padded bytes in blocks of
sixteen words.
-/

namespace NodeShader.Digest

/-! ### Blocks -/

/-- The four bytes of a word, most significant first. -/
def bytesOfWord (w : UInt32) : List UInt8 :=
  [(w >>> 24).toUInt8, (w >>> 16).toUInt8, (w >>> 8).toUInt8, w.toUInt8]

/-- Groups of four bytes as words; a shorter group at the end is dropped. -/
def wordsOfBytes : List UInt8 → List UInt32
  | a :: b :: c :: d :: rest =>
    (a.toUInt32 <<< 24 ||| b.toUInt32 <<< 16 ||| c.toUInt32 <<< 8 ||| d.toUInt32)
      :: wordsOfBytes rest
  | _ => []

/-- The eight bytes of a bit length, most significant first. -/
def lengthBytes (bits : Nat) : List UInt8 :=
  bytesOfWord (bits >>> 32).toUInt32 ++ bytesOfWord bits.toUInt32

/-- The message, a one bit, as few zeros as fill the last block, and the bit length. -/
def pad (message : List UInt8) : List UInt8 :=
  let zeros := (119 - message.length % 64) % 64
  message ++ 0x80 :: List.replicate zeros 0 ++ lengthBytes (8 * message.length)

/-- Groups of sixteen words. -/
def blocks (words : List UInt32) : List (List UInt32) :=
  if words.length < 16 then []
  else words.take 16 :: blocks (words.drop 16)
termination_by words.length
decreasing_by simp only [List.length_drop]; omega

/-- Rotation to the left by `n` of 32 bits. -/
def rotateLeft (w : UInt32) (n : UInt32) : UInt32 := w <<< n ||| w >>> (32 - n)

/-- Rotation to the right by `n` of 32 bits. -/
def rotateRight (w : UInt32) (n : UInt32) : UInt32 := w >>> n ||| w <<< (32 - n)

/-- Extends a block by `count` words, each made by `next` from the words before it. -/
def extend (next : Array UInt32 → UInt32) : Nat → Array UInt32 → Array UInt32
  | 0, words => words
  | count + 1, words => extend next count (words.push (next words))

/-- The word `back` places before the end. -/
def wordBack (words : Array UInt32) (back : Nat) : UInt32 := words.getD (words.size - back) 0

/-! ### SHA-1 -/

namespace Sha1

/-- The five working words. -/
structure State where
  a : UInt32
  b : UInt32
  c : UInt32
  d : UInt32
  e : UInt32

def start : State := ⟨0x67452301, 0xefcdab89, 0x98badcfe, 0x10325476, 0xc3d2e1f0⟩

/-- The next word of the message schedule. -/
def nextWord (words : Array UInt32) : UInt32 :=
  rotateLeft (wordBack words 3 ^^^ wordBack words 8 ^^^ wordBack words 14 ^^^ wordBack words 16) 1

/-- The mixing function and constant of round `i`. -/
def mix (s : State) (i : Nat) : UInt32 :=
  if i < 20 then ((s.b &&& s.c) ||| (~~~s.b &&& s.d)) + 0x5a827999
  else if i < 40 then (s.b ^^^ s.c ^^^ s.d) + 0x6ed9eba1
  else if i < 60 then ((s.b &&& s.c) ||| (s.b &&& s.d) ||| (s.c &&& s.d)) + 0x8f1bbcdc
  else (s.b ^^^ s.c ^^^ s.d) + 0xca62c1d6

/-- Round `i` with its schedule word. -/
def step (s : State) (input : UInt32 × Nat) : State :=
  ⟨rotateLeft s.a 5 + mix s input.2 + s.e + input.1, s.a, rotateLeft s.b 30, s.c, s.d⟩

/-- The state after one block. -/
def compress (s : State) (block : List UInt32) : State :=
  let schedule := (extend nextWord 64 block.toArray).toList
  let t := (schedule.zip (List.range 80)).foldl step s
  ⟨s.a + t.a, s.b + t.b, s.c + t.c, s.d + t.d, s.e + t.e⟩

/-- The digest of a message. -/
def digest (message : List UInt8) : List UInt8 :=
  let s := (blocks (wordsOfBytes (pad message))).foldl compress start
  [s.a, s.b, s.c, s.d, s.e].flatMap bytesOfWord

end Sha1

/-! ### SHA-256 -/

namespace Sha256

/-- The eight working words. -/
structure State where
  a : UInt32
  b : UInt32
  c : UInt32
  d : UInt32
  e : UInt32
  f : UInt32
  g : UInt32
  h : UInt32

def start : State :=
  ⟨0x6a09e667, 0xbb67ae85, 0x3c6ef372, 0xa54ff53a, 0x510e527f, 0x9b05688c, 0x1f83d9ab, 0x5be0cd19⟩

/-- One constant for each of the 64 rounds. -/
def roundConstants : List UInt32 := [
  0x428a2f98, 0x71374491, 0xb5c0fbcf, 0xe9b5dba5, 0x3956c25b, 0x59f111f1, 0x923f82a4, 0xab1c5ed5,
  0xd807aa98, 0x12835b01, 0x243185be, 0x550c7dc3, 0x72be5d74, 0x80deb1fe, 0x9bdc06a7, 0xc19bf174,
  0xe49b69c1, 0xefbe4786, 0x0fc19dc6, 0x240ca1cc, 0x2de92c6f, 0x4a7484aa, 0x5cb0a9dc, 0x76f988da,
  0x983e5152, 0xa831c66d, 0xb00327c8, 0xbf597fc7, 0xc6e00bf3, 0xd5a79147, 0x06ca6351, 0x14292967,
  0x27b70a85, 0x2e1b2138, 0x4d2c6dfc, 0x53380d13, 0x650a7354, 0x766a0abb, 0x81c2c92e, 0x92722c85,
  0xa2bfe8a1, 0xa81a664b, 0xc24b8b70, 0xc76c51a3, 0xd192e819, 0xd6990624, 0xf40e3585, 0x106aa070,
  0x19a4c116, 0x1e376c08, 0x2748774c, 0x34b0bcb5, 0x391c0cb3, 0x4ed8aa4a, 0x5b9cca4f, 0x682e6ff3,
  0x748f82ee, 0x78a5636f, 0x84c87814, 0x8cc70208, 0x90befffa, 0xa4506ceb, 0xbef9a3f7, 0xc67178f2]

/-- The next word of the message schedule. -/
def nextWord (words : Array UInt32) : UInt32 :=
  let w15 := wordBack words 15
  let w2 := wordBack words 2
  let s0 := rotateRight w15 7 ^^^ rotateRight w15 18 ^^^ (w15 >>> 3)
  let s1 := rotateRight w2 17 ^^^ rotateRight w2 19 ^^^ (w2 >>> 10)
  wordBack words 16 + s0 + wordBack words 7 + s1

/-- One round with a schedule word and its constant. -/
def step (s : State) (input : UInt32 × UInt32) : State :=
  let s1 := rotateRight s.e 6 ^^^ rotateRight s.e 11 ^^^ rotateRight s.e 25
  let choice := (s.e &&& s.f) ^^^ (~~~s.e &&& s.g)
  let t1 := s.h + s1 + choice + input.2 + input.1
  let s0 := rotateRight s.a 2 ^^^ rotateRight s.a 13 ^^^ rotateRight s.a 22
  let majority := (s.a &&& s.b) ^^^ (s.a &&& s.c) ^^^ (s.b &&& s.c)
  ⟨t1 + s0 + majority, s.a, s.b, s.c, s.d + t1, s.e, s.f, s.g⟩

/-- The state after one block. -/
def compress (s : State) (block : List UInt32) : State :=
  let schedule := (extend nextWord 48 block.toArray).toList
  let t := (schedule.zip roundConstants).foldl step s
  ⟨s.a + t.a, s.b + t.b, s.c + t.c, s.d + t.d, s.e + t.e, s.f + t.f, s.g + t.g, s.h + t.h⟩

/-- The digest of a message. -/
def digest (message : List UInt8) : List UInt8 :=
  let s := (blocks (wordsOfBytes (pad message))).foldl compress start
  [s.a, s.b, s.c, s.d, s.e, s.f, s.g, s.h].flatMap bytesOfWord

end Sha256

end NodeShader.Digest
