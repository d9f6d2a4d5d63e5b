import Dialogue.Proofs.Number.Nearest
import Dialogue.Proofs.Number.ReadBack

/-!
Numbers that are whole. A number has a whole value if it is finite and that many times one; but for the two zeros, no
two numbers have the same value.
-/

namespace Dialogue.Number

/-- The number is finite and is this whole number. -/
def HasValue (x : Number) (value : Int) : Prop := x.isFinite = true ∧ x.signedUnits = value * one

variable {x y : Number} {value : Int} {n : Nat}

theorem signedUnits_cases (x : Number) :
    (x.isNegative = false ∧ x.signedUnits = x.units) ∨ (x.isNegative = true ∧ x.signedUnits = -(x.units : Int)) := by
  unfold signedUnits
  cases x.isNegative with
  | false => exact .inl ⟨rfl, rfl⟩
  | true => exact .inr ⟨rfl, rfl⟩

theorem units_eq_natAbs (x : Number) : x.units = x.signedUnits.natAbs := by
  rcases x.signedUnits_cases with ⟨_, signed⟩ | ⟨_, signed⟩ <;> omega

theorem isNegative_eq (some : x.signedUnits ≠ 0) : x.isNegative = decide (x.signedUnits < 0) := by
  rcases x.signedUnits_cases with ⟨sign, signed⟩ | ⟨sign, signed⟩ <;> rw [sign] <;> symm
  · exact decide_eq_false (by omega)
  · exact decide_eq_true (by omega)

theorem units_eq_zero_iff : x.units = 0 ↔ x.isZero = true := by
  constructor
  · intro nothing
    by_contra some
    exact units_ne_zero (Bool.eq_false_iff.mpr some) nothing
  · exact units_eq_zero

/-- The natural numbers among the values are the ones that are taken for an index. -/
theorem hasValue_natCast : x.HasValue n ↔ x.toNat? = some n := by
  rw [toNat?_eq_some, HasValue, ← units_eq_zero_iff, ← Nat.cast_mul]
  generalize n * one = whole
  refine and_congr_right fun _ => ?_
  rcases x.signedUnits_cases with ⟨sign, signed⟩ | ⟨sign, signed⟩
  · simp [signed, sign]
  · simp only [signed, sign, Bool.true_eq_false, false_or]
    omega

/-- But for zero, whose sign the value does not tell, a value belongs to one number. -/
theorem HasValue.unique (first : x.HasValue value) (second : y.HasValue value) (some : value ≠ 0) : x = y := by
  have same : x.signedUnits = y.signedUnits := first.2.trans second.2.symm
  have nonzero : x.signedUnits ≠ 0 := by
    rw [first.2]
    exact mul_ne_zero some (Int.natCast_ne_zero.mpr one_pos.ne')
  calc
    x = ofUnits x.isNegative (x.units * 1) 1 := (ofUnits_units first.1 Nat.one_pos).symm
    _ = ofUnits y.isNegative (y.units * 1) 1 := by
      rw [isNegative_eq nonzero, isNegative_eq (same ▸ nonzero), x.units_eq_natAbs, y.units_eq_natAbs, same]
    _ = y := ofUnits_units second.1 Nat.one_pos

end Dialogue.Number
