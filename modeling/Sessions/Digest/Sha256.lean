/-!
# Sessions.Digest.Sha256

The 256-bit secure hash of a sequence of bytes. The message is padded to whole blocks of sixteen
words; each block, extended to sixty-four words, is mixed into eight words of state.
-/

namespace Sessions.Digest

/-- The constants of the rounds: the first bits of the fractional parts of the cube roots of the
first sixty-four primes. -/
def roundConstants : List UInt32 :=
  [0x428a2f98, 0x71374491, 0xb5c0fbcf, 0xe9b5dba5, 0x3956c25b, 0x59f111f1, 0x923f82a4, 0xab1c5ed5,
   0xd807aa98, 0x12835b01, 0x243185be, 0x550c7dc3, 0x72be5d74, 0x80deb1fe, 0x9bdc06a7, 0xc19bf174,
   0xe49b69c1, 0xefbe4786, 0x0fc19dc6, 0x240ca1cc, 0x2de92c6f, 0x4a7484aa, 0x5cb0a9dc, 0x76f988da,
   0x983e5152, 0xa831c66d, 0xb00327c8, 0xbf597fc7, 0xc6e00bf3, 0xd5a79147, 0x06ca6351, 0x14292967,
   0x27b70a85, 0x2e1b2138, 0x4d2c6dfc, 0x53380d13, 0x650a7354, 0x766a0abb, 0x81c2c92e, 0x92722c85,
   0xa2bfe8a1, 0xa81a664b, 0xc24b8b70, 0xc76c51a3, 0xd192e819, 0xd6990624, 0xf40e3585, 0x106aa070,
   0x19a4c116, 0x1e376c08, 0x2748774c, 0x34b0bcb5, 0x391c0cb3, 0x4ed8aa4a, 0x5b9cca4f, 0x682e6ff3,
   0x748f82ee, 0x78a5636f, 0x84c87814, 0x8cc70208, 0x90befffa, 0xa4506ceb, 0xbef9a3f7, 0xc67178f2]

/-- The eight words that are mixed. -/
structure HashState where
  a : UInt32
  b : UInt32
  c : UInt32
  d : UInt32
  e : UInt32
  f : UInt32
  g : UInt32
  h : UInt32
deriving DecidableEq, Repr

/-- The state before the first block: the first bits of the fractional parts of the square roots of
the first eight primes. -/
def HashState.start : HashState :=
  ⟨0x6a09e667, 0xbb67ae85, 0x3c6ef372, 0xa54ff53a, 0x510e527f, 0x9b05688c, 0x1f83d9ab, 0x5be0cd19⟩

def rotateRight (x : UInt32) (n : UInt32) : UInt32 :=
  (x >>> n) ||| (x <<< (32 - n))

/-- The four bytes of a word, highest first. -/
def wordBytes (w : UInt32) : List UInt8 :=
  [(w >>> 24).toUInt8, (w >>> 16).toUInt8, (w >>> 8).toUInt8, w.toUInt8]

/-- The words that bytes make up; a rest of fewer than four bytes is passed over. -/
def wordsOf : List UInt8 → List UInt32
  | a :: b :: c :: d :: rest =>
    ((a.toUInt32 <<< 24) ||| (b.toUInt32 <<< 16) ||| (c.toUInt32 <<< 8) ||| d.toUInt32) ::
      wordsOf rest
  | _ => []

/-- The eight bytes of a length, highest first. -/
def lengthBytes (n : Nat) : List UInt8 :=
  (List.range 8).map fun i => UInt8.ofNat (n / Nat.pow 256 (7 - i))

/-- The message with a one bit, zeros and its length in bits after it, a whole number of blocks. -/
def padMessage (bytes : List UInt8) : List UInt8 :=
  let n := bytes.length
  bytes ++ 0x80 :: List.replicate ((119 - n % 64) % 64) 0 ++ lengthBytes (8 * n)

/-- Extends the words of a block, which are given last word first, by so many words. -/
def extend : Nat → List UInt32 → List UInt32
  | 0, ws => ws
  | n + 1, ws =>
    let at2 := ws.getD 1 0
    let at7 := ws.getD 6 0
    let at15 := ws.getD 14 0
    let at16 := ws.getD 15 0
    let s0 := rotateRight at15 7 ^^^ rotateRight at15 18 ^^^ (at15 >>> 3)
    let s1 := rotateRight at2 17 ^^^ rotateRight at2 19 ^^^ (at2 >>> 10)
    extend n ((at16 + s0 + at7 + s1) :: ws)

/-- One round, with its constant and its word. -/
def HashState.round (s : HashState) (k w : UInt32) : HashState :=
  let s1 := rotateRight s.e 6 ^^^ rotateRight s.e 11 ^^^ rotateRight s.e 25
  let choice := (s.e &&& s.f) ^^^ (~~~s.e &&& s.g)
  let t1 := s.h + s1 + choice + k + w
  let s0 := rotateRight s.a 2 ^^^ rotateRight s.a 13 ^^^ rotateRight s.a 22
  let majority := (s.a &&& s.b) ^^^ (s.a &&& s.c) ^^^ (s.b &&& s.c)
  ⟨t1 + s0 + majority, s.a, s.b, s.c, s.d + t1, s.e, s.f, s.g⟩

def HashState.add (s t : HashState) : HashState :=
  ⟨s.a + t.a, s.b + t.b, s.c + t.c, s.d + t.d, s.e + t.e, s.f + t.f, s.g + t.g, s.h + t.h⟩

/-- Mixes a block of sixteen words into the state. -/
def HashState.mix (s : HashState) (block : List UInt32) : HashState :=
  let words := (extend 48 block.reverse).reverse
  s.add ((roundConstants.zip words).foldl (fun t kw => t.round kw.1 kw.2) s)

/-- Mixes so many blocks into the state. -/
def mixBlocks : (blocks : Nat) → HashState → List UInt32 → HashState
  | 0, s, _ => s
  | n + 1, s, ws => mixBlocks n (s.mix (ws.take 16)) (ws.drop 16)

/-- The hash of bytes, thirty-two bytes long. -/
def sha256 (bytes : List UInt8) : List UInt8 :=
  let words := wordsOf (padMessage bytes)
  let s := mixBlocks (words.length / 16) .start words
  [s.a, s.b, s.c, s.d, s.e, s.f, s.g, s.h].flatMap wordBytes

end Sessions.Digest
