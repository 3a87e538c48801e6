import Bitcoin.Curve.Point

/-! # Multiples of points

Many additions in a row are cheaper without divisions. A triple `(x, y, z)` with `z ≠ 0` stands for the
point `(x / z², y / z³)`, and one with `z = 0` for infinity, so only the way back to a point divides.
`Point.nsmul` doubles and adds on triples.
-/

namespace Bitcoin

/-- Coordinates with a common denominator: `x` over its square, `y` over its cube. -/
structure Jacobian where
  x : FieldElement
  y : FieldElement
  z : FieldElement
  deriving DecidableEq

namespace Jacobian

def infinity : Jacobian := ⟨1, 1, 0⟩

/-- The point that a triple stands for. -/
def toPoint (p : Jacobian) : Point :=
  if p.z = 0 then .infinity
  else
    let inverse := p.z.inverse
    let square := inverse * inverse
    .affine (p.x * square) (p.y * (square * inverse))

/-- Twice a point. A point without height, and infinity, give `z = 0`. -/
def double (p : Jacobian) : Jacobian :=
  let height := p.y * p.y
  let s := 4 * (p.x * height)
  let m := 3 * (p.x * p.x)
  let x := m * m - 2 * s
  { x := x, y := m * (s - x) - 8 * (height * height), z := 2 * (p.y * p.z) }

/-- The sum of a triple and a pair of coordinates. Both are brought over the denominator of the triple;
    what is then missing between them tells whether the points are equal or mirrored. -/
def addAffine (p : Jacobian) (x₂ y₂ : FieldElement) : Jacobian :=
  if p.z = 0 then ⟨x₂, y₂, 1⟩
  else
    let zz := p.z * p.z
    let h := x₂ * zz - p.x
    let r := y₂ * (zz * p.z) - p.y
    if h = 0 then if r = 0 then p.double else infinity
    else
      let hh := h * h
      let hhh := hh * h
      let v := p.x * hh
      let x := r * r - hhh - 2 * v
      { x := x, y := r * (v - x) - p.y * hhh, z := p.z * h }

/-- The triple of `k` copies of a pair of coordinates: twice the half of them, and one more if `k` is
    odd. -/
def multiple (k : Nat) (x y : FieldElement) : Jacobian :=
  if _h : k = 0 then infinity
  else
    let even := (multiple (k / 2) x y).double
    if k % 2 = 1 then even.addAffine x y else even
termination_by k
decreasing_by omega

end Jacobian

namespace Point

/-- The sum of `k` copies of a point. -/
def nsmul (k : Nat) : Point → Point
  | .infinity => .infinity
  | .affine x y => (Jacobian.multiple k x y).toPoint

end Point

end Bitcoin
