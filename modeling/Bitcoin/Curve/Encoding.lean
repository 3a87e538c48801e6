import Bitcoin.Curve.Jacobian
import Bitcoin.Integer.Modular

/-! # Encodings of points

A point is written as 4 and both coordinates, or in compressed form as the first coordinate after 2 or
3, which tells whether the second coordinate is even or odd. Infinity has no encoding.
-/

namespace Bitcoin.Point

def coordinate (x : FieldElement) : Bytes :=
  (Octets.ofNat 32 x.val).toList

/-- The encoding of a point, in 33 octets if `compressed` and in 65 otherwise. -/
def encode (compressed : Bool) : Point → Result Bytes
  | .infinity => .error (.invalidKey .infinityEncoding)
  | .affine x y =>
      if compressed then .ok ((if y.isOdd then 3 else 2) :: coordinate x)
      else .ok (4 :: coordinate x ++ coordinate y)

def x : Point → Result Int
  | .infinity => .error (.invalidKey .infinityEncoding)
  | .affine x _ => .ok x.val

def y : Point → Result Int
  | .infinity => .error (.invalidKey .infinityEncoding)
  | .affine _ y => .ok y.val

/-- The element that 32 octets denote, when they are below the prime. -/
def coordinate? (bs : Bytes) : Option FieldElement :=
  if h : Bytes.toNat bs < fieldPrime then some ⟨Bytes.toNat bs, h⟩ else none

/-- The point above or below `x` whose second coordinate has the given parity. -/
def lift? (x : FieldElement) (odd : Bool) : Option Point := do
  let y ← (cubic x).sqrt?
  return .affine x (if y.isOdd = odd then y else -y)

/-- The point with two given coordinates, when it is on the curve. -/
def ofCoordinates? (x y : FieldElement) : Option Point :=
  if y * y = cubic x then some (.affine x y) else none

/-- The point that octets of either form denote, when it is on the curve. -/
def decodeForm? (tag : UInt8) (content : Bytes) : Option Point :=
  if tag = 4 then do
    ofCoordinates? (← coordinate? (content.take 32)) (← coordinate? (content.drop 32))
  else do lift? (← coordinate? content) (tag = 3)

/-- The length and first octet are those of one of the two forms. -/
def hasForm (tag : UInt8) (content : Bytes) : Bool :=
  ((tag = 2 ∨ tag = 3) ∧ content.length = 32) ∨ (tag = 4 ∧ content.length = 64)

/-- Read a point of the curve in either form. -/
def decode : Bytes → Result Point
  | [] => .error (.invalidKey (.malformedPoint 0))
  | tag :: content =>
      if hasForm tag content then
        match decodeForm? tag content with
        | some p => .ok p
        | none => .error (.invalidKey .offCurve)
      else .error (.invalidKey (.malformedPoint (content.length + 1)))

def multiply (p : Point) (k : Scalar) : Point :=
  nsmul k.val p

/-- The multiple of a point by an integer, which only matters modulo the group order. -/
def multiplyInteger (p : Point) (k : Int) : Result Point := do
  let reduced ← Integer.modulo k groupOrder
  return p.multiply (← Integer.toScalar reduced)

def addGenerator (p : Point) (k : Scalar) : Point :=
  p.add (generator.multiply k)

/-- A point among other values: its compressed encoding. -/
def describe (p : Point) : String :=
  match p.encode true with
  | .ok octets => s!"CurvePoint({Hex.encode octets})"
  | .error _ => "CurvePoint(infinity)"

end Bitcoin.Point
