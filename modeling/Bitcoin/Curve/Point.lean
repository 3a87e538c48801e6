import Bitcoin.Curve.Field

/-! # Points of the curve

A point is infinity or a pair of coordinates; `OnCurve` tells which pairs belong to the curve. Points
are added by the chord and tangent rule.
-/

namespace Bitcoin

inductive Point where
  | infinity
  | affine (x y : FieldElement)
  deriving DecidableEq

namespace Point

/-- The right-hand side of the curve equation. -/
def cubic (x : FieldElement) : FieldElement :=
  x * x * x + 7

/-- The point satisfies the curve equation, or is infinity. -/
def OnCurve : Point → Prop
  | .infinity => True
  | .affine x y => y * y = cubic x

instance (p : Point) : Decidable p.OnCurve := by
  cases p <;> unfold OnCurve <;> infer_instance

def generator : Point :=
  .affine (Fin.ofNat fieldPrime generatorX) (Fin.ofNat fieldPrime generatorY)

/-- The point mirrored at the horizontal axis. -/
def negate : Point → Point
  | .infinity => .infinity
  | .affine x y => .affine x (-y)

/-- The slope of the line through two points of which the second is not the mirror image of the
    first: of the tangent if they are equal, of the chord otherwise. -/
def slope (x₁ y₁ x₂ y₂ : FieldElement) : FieldElement :=
  if x₁ = x₂ then 3 * (x₁ * x₁) * (2 * y₁).inverse
  else (y₁ - y₂) * (x₁ - x₂).inverse

/-- The sum of two points: the line through them meets the curve in the mirror image of it. -/
def add : Point → Point → Point
  | .infinity, q => q
  | p, .infinity => p
  | .affine x₁ y₁, .affine x₂ y₂ =>
      if x₁ = x₂ ∧ y₁ = -y₂ then .infinity
      else
        let s := slope x₁ y₁ x₂ y₂
        let x := s * s - x₁ - x₂
        .affine x (s * (x₁ - x) - y₁)

end Point

end Bitcoin
