import Bitcoin.Bytes.Number
import Bitcoin.Hash.Padding

/-! # RIPEMD-160

Two lines of eighty steps over the same sixteen little-endian words, added crosswise to the chaining
value. A line is the list of its steps: which of five functions, which constant, which word of the
block and which rotation.
-/

namespace Bitcoin.Hash.Ripemd160

abbrev Word := BitVec 32

structure State where
  a : Word
  b : Word
  c : Word
  d : Word
  e : Word

/-- The five functions of the steps, in the order in which the left line uses them. -/
inductive Mixer where
  | parity
  | choose
  | orNot
  | chooseBack
  | orNotBack

def Mixer.apply (m : Mixer) (x y z : Word) : Word :=
  match m with
  | .parity => x ^^^ y ^^^ z
  | .choose => (x &&& y) ||| (~~~x &&& z)
  | .orNot => (x ||| ~~~y) ^^^ z
  | .chooseBack => (x &&& z) ||| (y &&& ~~~z)
  | .orNotBack => x ^^^ (y ||| ~~~z)

structure Step where
  mixer : Mixer
  constant : Word
  /-- Which word of the block is added. -/
  source : Nat
  rotation : Nat

/-- Eighty steps: the mixer and the constant change every sixteen. -/
def line (mixers : List (Mixer × Word)) (sources rotations : List Nat) : List Step :=
  let perStep := mixers.flatMap (List.replicate 16)
  List.zipWith (fun (m, k) (source, rotation) => ⟨m, k, source, rotation⟩)
    perStep (sources.zip rotations)

/-- Which word of the block each step of the left line adds. -/
def leftSources : List Nat :=
  [0, 1, 2, 3, 4, 5, 6, 7, 8, 9, 10, 11, 12, 13, 14, 15,
   7, 4, 13, 1, 10, 6, 15, 3, 12, 0, 9, 5, 2, 14, 11, 8,
   3, 10, 14, 4, 9, 15, 8, 1, 2, 7, 0, 6, 13, 11, 5, 12,
   1, 9, 11, 10, 0, 8, 12, 4, 13, 3, 7, 15, 14, 5, 6, 2,
   4, 0, 5, 9, 7, 12, 2, 10, 14, 1, 3, 8, 11, 6, 15, 13]

def leftRotations : List Nat :=
  [11, 14, 15, 12, 5, 8, 7, 9, 11, 13, 14, 15, 6, 7, 9, 8,
   7, 6, 8, 13, 11, 9, 7, 15, 7, 12, 15, 9, 11, 7, 13, 12,
   11, 13, 6, 7, 14, 9, 13, 15, 14, 8, 13, 6, 5, 12, 7, 5,
   11, 12, 14, 15, 14, 15, 9, 8, 9, 14, 5, 6, 8, 6, 5, 12,
   9, 15, 5, 11, 6, 8, 13, 12, 5, 12, 13, 14, 11, 8, 5, 6]

def rightSources : List Nat :=
  [5, 14, 7, 0, 9, 2, 11, 4, 13, 6, 15, 8, 1, 10, 3, 12,
   6, 11, 3, 7, 0, 13, 5, 10, 14, 15, 8, 12, 4, 9, 1, 2,
   15, 5, 1, 3, 7, 14, 6, 9, 11, 8, 12, 2, 10, 0, 4, 13,
   8, 6, 4, 1, 3, 11, 15, 0, 5, 12, 2, 13, 9, 7, 10, 14,
   12, 15, 10, 4, 1, 5, 8, 7, 6, 2, 13, 14, 0, 3, 9, 11]

def rightRotations : List Nat :=
  [8, 9, 9, 11, 13, 15, 15, 5, 7, 7, 8, 11, 14, 14, 12, 6,
   9, 13, 15, 7, 12, 8, 9, 11, 7, 7, 12, 7, 6, 15, 13, 11,
   9, 7, 15, 11, 8, 6, 6, 14, 12, 13, 5, 14, 13, 13, 7, 5,
   15, 5, 8, 11, 14, 14, 6, 14, 6, 9, 12, 9, 12, 5, 15, 8,
   8, 5, 12, 9, 12, 5, 14, 6, 8, 13, 6, 5, 15, 13, 11, 11]

def leftLine : List Step :=
  line [(.parity, 0x00000000), (.choose, 0x5a827999), (.orNot, 0x6ed9eba1),
    (.chooseBack, 0x8f1bbcdc), (.orNotBack, 0xa953fd4e)] leftSources leftRotations

/-- The steps of the right line, whose mixers come in the opposite order. -/
def rightLine : List Step :=
  line [(.orNotBack, 0x50a28be6), (.chooseBack, 0x5c4dd124), (.orNot, 0x6d703ef3),
    (.choose, 0x7a6d76e9), (.parity, 0x00000000)] rightSources rightRotations

def Step.run (block : Array Word) (s : State) (step : Step) : State :=
  let sum := s.a + step.mixer.apply s.b s.c s.d + block.getD step.source 0 + step.constant
  { a := s.e, b := sum.rotateLeft step.rotation + s.e, c := s.b, d := s.c.rotateLeft 10, e := s.d }

/-- Absorb one block into the chaining value. -/
def compress (s : State) (block : Array Word) : State :=
  let l := leftLine.foldl (Step.run block) s
  let r := rightLine.foldl (Step.run block) s
  { a := s.b + l.c + r.d, b := s.c + l.d + r.e, c := s.d + l.e + r.a
    d := s.e + l.a + r.b, e := s.a + l.b + r.c }

def initial : State :=
  { a := 0x67452301, b := 0xefcdab89, c := 0x98badcfe, d := 0x10325476, e := 0xc3d2e1f0 }

/-- The little-endian words of a block. -/
def wordsOf (block : Bytes) : Array Word :=
  ((chunks 4 block).map fun word => BitVec.ofNat 32 (Bytes.toNat word.reverse)).toArray

/-- The digest of a message, as the number that its words spell, last word most significant. -/
def digest (message : Bytes) : Nat :=
  let length := Octets.ofNatLE 8 (8 * message.length)
  let blocks := chunks 64 (pad 64 length.toList message)
  let s := blocks.foldl (fun s block => compress s (wordsOf block)) initial
  Digits.toNat (1 <<< 32) ([s.e, s.d, s.c, s.b, s.a].map BitVec.toNat)

end Ripemd160

def ripemd160 (message : Bytes) : Octets 20 :=
  Octets.ofNatLE 20 (Ripemd160.digest message)

end Bitcoin.Hash
