import Bitcoin.Bytes.Number
import Bitcoin.Hash.Padding

/-! # The SHA-2 family

One compression function over words of `w` bits, with the amounts that tell the 32-bit and the 64-bit
member apart in a `Variant`. The constants of the 32-bit member are the high halves of those of the
64-bit member, so one table serves both.
-/

namespace Bitcoin.Hash.Sha2

/-- Two rotations and a third amount, which rotates or shifts. -/
structure Amounts where
  first : Nat
  second : Nat
  third : Nat

/-- What one member of the family is made of. -/
structure Variant (w : Nat) where
  /-- The chaining value before the first block, eight words. -/
  initial : List (BitVec w)
  constants : List (BitVec w)
  bigSigma0 : Amounts
  bigSigma1 : Amounts
  smallSigma0 : Amounts
  smallSigma1 : Amounts

structure State (w : Nat) where
  a : BitVec w
  b : BitVec w
  c : BitVec w
  d : BitVec w
  e : BitVec w
  f : BitVec w
  g : BitVec w
  h : BitVec w

variable {w : Nat}

def rotations (amounts : Amounts) (x : BitVec w) : BitVec w :=
  x.rotateRight amounts.first ^^^ x.rotateRight amounts.second ^^^ x.rotateRight amounts.third

def rotationsAndShift (amounts : Amounts) (x : BitVec w) : BitVec w :=
  x.rotateRight amounts.first ^^^ x.rotateRight amounts.second ^^^ x >>> amounts.third

/-- Where `x` has a one, the bit of `y`; elsewhere the bit of `z`. -/
def choose (x y z : BitVec w) : BitVec w :=
  (x &&& y) ^^^ (~~~x &&& z)

/-- The bit that two of the three words agree on. -/
def majority (x y z : BitVec w) : BitVec w :=
  (x &&& y) ^^^ (x &&& z) ^^^ (y &&& z)

/-- Extend the schedule, last word first, by `more` words, each made of four earlier ones. -/
def extend (v : Variant w) : Nat → List (BitVec w) → List (BitVec w)
  | 0, words => words
  | more + 1, words =>
      let back (distance : Nat) := words.getD (distance - 1) 0
      let word := rotationsAndShift v.smallSigma1 (back 2) + back 7
        + rotationsAndShift v.smallSigma0 (back 15) + back 16
      extend v more (word :: words)

/-- One word for each round: the words of the block, then the extension. -/
def schedule (v : Variant w) (block : List (BitVec w)) : List (BitVec w) :=
  (extend v (v.constants.length - 16) block.reverse).reverse

/-- One round, with its constant and its word of the schedule. -/
def round (v : Variant w) (s : State w) (constant word : BitVec w) : State w :=
  let t1 := s.h + rotations v.bigSigma1 s.e + choose s.e s.f s.g + constant + word
  let t2 := rotations v.bigSigma0 s.a + majority s.a s.b s.c
  { a := t1 + t2, b := s.a, c := s.b, d := s.c, e := s.d + t1, f := s.e, g := s.f, h := s.g }

def State.toList (s : State w) : List (BitVec w) :=
  [s.a, s.b, s.c, s.d, s.e, s.f, s.g, s.h]

/-- The state whose words are the first eight of a list, missing ones being zero. -/
def State.ofList (words : List (BitVec w)) : State w :=
  let word (i : Nat) := words.getD i 0
  { a := word 0, b := word 1, c := word 2, d := word 3
    e := word 4, f := word 5, g := word 6, h := word 7 }

/-- Absorb one block into the chaining value. -/
def compress (v : Variant w) (chaining block : List (BitVec w)) : List (BitVec w) :=
  let rounds := v.constants.zip (schedule v block)
  let final := rounds.foldl (fun s (k, x) => round v s k x) (State.ofList chaining)
  List.zipWith (· + ·) chaining final.toList

/-- The big-endian words of a block, `size` octets each. -/
def wordsOf (w size : Nat) (block : Bytes) : List (BitVec w) :=
  (chunks size block).map fun word => BitVec.ofNat w (Bytes.toNat word)

/-- The digest of a message, as the number that its words spell in base `1 <<< w`. A block has sixteen
    words, and the message length takes two. -/
def digest (v : Variant w) (message : Bytes) : Nat :=
  let size := w / 8
  let length := Octets.ofNat (2 * size) (8 * message.length)
  let blocks := chunks (16 * size) (pad (16 * size) length.toList message)
  let final := blocks.foldl (fun chaining block => compress v chaining (wordsOf w size block)) v.initial
  Digits.toNat (1 <<< w) (final.map BitVec.toNat)

/-- The first 64 bits of the fractional parts of the square roots of the first eight primes. -/
def squareRoots : List Nat :=
  [0x6a09e667f3bcc908, 0xbb67ae8584caa73b, 0x3c6ef372fe94f82b, 0xa54ff53a5f1d36f1,
   0x510e527fade682d1, 0x9b05688c2b3e6c1f, 0x1f83d9abfb41bd6b, 0x5be0cd19137e2179]

/-- The first 64 bits of the fractional parts of the cube roots of the first eighty primes. -/
def cubeRoots : List Nat :=
  [0x428a2f98d728ae22, 0x7137449123ef65cd, 0xb5c0fbcfec4d3b2f, 0xe9b5dba58189dbbc,
   0x3956c25bf348b538, 0x59f111f1b605d019, 0x923f82a4af194f9b, 0xab1c5ed5da6d8118,
   0xd807aa98a3030242, 0x12835b0145706fbe, 0x243185be4ee4b28c, 0x550c7dc3d5ffb4e2,
   0x72be5d74f27b896f, 0x80deb1fe3b1696b1, 0x9bdc06a725c71235, 0xc19bf174cf692694,
   0xe49b69c19ef14ad2, 0xefbe4786384f25e3, 0x0fc19dc68b8cd5b5, 0x240ca1cc77ac9c65,
   0x2de92c6f592b0275, 0x4a7484aa6ea6e483, 0x5cb0a9dcbd41fbd4, 0x76f988da831153b5,
   0x983e5152ee66dfab, 0xa831c66d2db43210, 0xb00327c898fb213f, 0xbf597fc7beef0ee4,
   0xc6e00bf33da88fc2, 0xd5a79147930aa725, 0x06ca6351e003826f, 0x142929670a0e6e70,
   0x27b70a8546d22ffc, 0x2e1b21385c26c926, 0x4d2c6dfc5ac42aed, 0x53380d139d95b3df,
   0x650a73548baf63de, 0x766a0abb3c77b2a8, 0x81c2c92e47edaee6, 0x92722c851482353b,
   0xa2bfe8a14cf10364, 0xa81a664bbc423001, 0xc24b8b70d0f89791, 0xc76c51a30654be30,
   0xd192e819d6ef5218, 0xd69906245565a910, 0xf40e35855771202a, 0x106aa07032bbd1b8,
   0x19a4c116b8d2d0c8, 0x1e376c085141ab53, 0x2748774cdf8eeb99, 0x34b0bcb5e19b48a8,
   0x391c0cb3c5c95a63, 0x4ed8aa4ae3418acb, 0x5b9cca4f7763e373, 0x682e6ff3d6b2b8a3,
   0x748f82ee5defb2fc, 0x78a5636f43172f60, 0x84c87814a1f0ab72, 0x8cc702081a6439ec,
   0x90befffa23631e28, 0xa4506cebde82bde9, 0xbef9a3f7b2c67915, 0xc67178f2e372532b,
   0xca273eceea26619c, 0xd186b8c721c0c207, 0xeada7dd6cde0eb1e, 0xf57d4f7fee6ed178,
   0x06f067aa72176fba, 0x0a637dc5a2c898a6, 0x113f9804bef90dae, 0x1b710b35131c471b,
   0x28db77f523047d84, 0x32caab7b40c72493, 0x3c9ebe0a15c9bebc, 0x431d67c49c100d4c,
   0x4cc5d4becb3e42b6, 0x597f299cfc657e2a, 0x5fcb6fab3ad6faec, 0x6c44198c4a475817]

def wide : Variant 64 where
  initial := squareRoots.map (BitVec.ofNat 64)
  constants := cubeRoots.map (BitVec.ofNat 64)
  bigSigma0 := ⟨28, 34, 39⟩
  bigSigma1 := ⟨14, 18, 41⟩
  smallSigma0 := ⟨1, 8, 7⟩
  smallSigma1 := ⟨19, 61, 6⟩

/-- The member with 32-bit words, whose constants are high halves. -/
def narrow : Variant 32 where
  initial := squareRoots.map fun x => BitVec.ofNat 32 (x >>> 32)
  constants := (cubeRoots.take 64).map fun x => BitVec.ofNat 32 (x >>> 32)
  bigSigma0 := ⟨2, 13, 22⟩
  bigSigma1 := ⟨6, 11, 25⟩
  smallSigma0 := ⟨7, 18, 3⟩
  smallSigma1 := ⟨17, 19, 10⟩

end Sha2

def sha256 (message : Bytes) : Octets 32 :=
  Octets.ofNat 32 (Sha2.digest Sha2.narrow message)

def sha512 (message : Bytes) : Octets 64 :=
  Octets.ofNat 64 (Sha2.digest Sha2.wide message)

end Bitcoin.Hash
