import Bitcoin.Proofs.Curve.Action

/-! # Reachable points

The points that a program can hold: infinity, the generator and points that were read, and what comes of
these by the operations of the group. They are the points of the curve.
-/

namespace Bitcoin.Point

/-- The point comes out of some sequence of operations. -/
inductive Reachable : Point → Prop where
  | infinity : Reachable .infinity
  | generator : Reachable Point.generator
  | decode {octets : Bytes} {p : Point} : Point.decode octets = .ok p → Reachable p
  | add {p q : Point} : Reachable p → Reachable q → Reachable (p.add q)
  | negate {p : Point} : Reachable p → Reachable p.negate
  | multiply {p : Point} (k : Scalar) : Reachable p → Reachable (p.multiply k)
  | multiplyInteger {p q : Point} {k : Int} :
      Reachable p → p.multiplyInteger k = .ok q → Reachable q
  | addGenerator {p : Point} (k : Scalar) : Reachable p → Reachable (p.addGenerator k)

theorem Reachable.onCurve {p : Point} (reachable : p.Reachable) : p.OnCurve := by
  induction reachable with
  | infinity => trivial
  | generator => exact onCurve_generator
  | decode h => exact (encode_decode h).1
  | add _ _ hp hq => exact onCurve_add hp hq
  | negate _ hp => exact onCurve_negate hp
  | multiply k _ hp => exact onCurve_multiply hp k
  | multiplyInteger _ h hp => exact ((multiplyInteger_eq_ok hp).1 h).1
  | addGenerator k _ hp => exact onCurve_addGenerator hp k

/-- Being on the curve is all that can be told of reachable points: any point of the curve can be read. -/
theorem reachable_iff_onCurve {p : Point} : p.Reachable ↔ p.OnCurve := by
  refine ⟨Reachable.onCurve, fun onCurve => ?_⟩
  cases p with
  | infinity => exact .infinity
  | affine x y => exact .decode (decode_encode onCurve (encode_uncompressed x y))

end Bitcoin.Point
