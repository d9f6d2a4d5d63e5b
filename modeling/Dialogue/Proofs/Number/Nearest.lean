import Mathlib.Data.Nat.Dist
import Mathlib.Tactic.Ring
import Dialogue.Number.Rounding

/-!
Rounding is what it is said to be. A finite number is `significand * 2 ^ scale` units, and a quotient is rounded to a
finite number that no other one is nearer to, with an even word if another one is as near. A quotient that a finite
number has exactly is therefore rounded to that number.
-/

namespace Dialogue

section NearestEven

variable {numerator denominator : Nat}

theorem nearestEven_cases (numerator denominator : Nat) :
    (nearestEven numerator denominator = numerator / denominator ∧
      2 * (numerator % denominator) ≤ denominator) ∨
    (nearestEven numerator denominator = numerator / denominator + 1 ∧
      denominator ≤ 2 * (numerator % denominator)) := by
  unfold nearestEven
  dsimp only
  split
  · exact .inl ⟨rfl, by omega⟩
  · split
    · exact .inr ⟨rfl, by omega⟩
    · rcases Nat.mod_two_eq_zero_or_one (numerator / denominator) with even | odd
      · exact .inl ⟨by rw [even]; rfl, by omega⟩
      · exact .inr ⟨by rw [odd], by omega⟩

theorem nearestEven_mul (k : Nat) (positive : 0 < denominator) : nearestEven (k * denominator) denominator = k := by
  unfold nearestEven
  simp only [Nat.mul_div_cancel k positive, Nat.mul_mod_left]
  rw [if_pos (by omega)]

theorem nearestEven_scale (numerator denominator : Nat) {factor : Nat} (positive : 0 < factor) :
    nearestEven (numerator * factor) (denominator * factor) = nearestEven numerator denominator := by
  unfold nearestEven
  dsimp only
  rw [Nat.mul_div_mul_right _ _ positive, Nat.mul_mod_mul_right, ← Nat.mul_assoc]
  simp only [Nat.mul_lt_mul_right positive]

/-- No multiple of the denominator is nearer than the one that is chosen. -/
theorem nearestEven_nearest (numerator : Nat) (positive : 0 < denominator) (k : Nat) :
    Nat.dist numerator (nearestEven numerator denominator * denominator) ≤ Nat.dist numerator (k * denominator) := by
  have split := Nat.div_add_mod' numerator denominator
  have small := Nat.mod_lt numerator positive
  have side : k * denominator ≤ numerator / denominator * denominator ∨
      numerator / denominator * denominator + denominator ≤ k * denominator := by
    rcases Nat.lt_or_ge (numerator / denominator) k with above | below
    · right
      have scaled := Nat.mul_le_mul_right denominator above
      rwa [Nat.succ_mul] at scaled
    · exact .inl (Nat.mul_le_mul_right denominator below)
  unfold Nat.dist
  rcases nearestEven_cases numerator denominator with ⟨down, _⟩ | ⟨up, _⟩
  · rw [down]
    omega
  · rw [up, Nat.succ_mul]
    omega

/-- If another multiple is as near, the chosen one is even. -/
theorem nearestEven_tie (positive : 0 < denominator) {k : Nat} (other : k ≠ nearestEven numerator denominator)
    (tie : Nat.dist numerator (nearestEven numerator denominator * denominator) =
      Nat.dist numerator (k * denominator)) : nearestEven numerator denominator % 2 = 0 := by
  have split := Nat.div_add_mod' numerator denominator
  have small := Nat.mod_lt numerator positive
  generalize quotient : numerator / denominator = q at split
  have next : (q + 1) * denominator = q * denominator + denominator := Nat.succ_mul q denominator
  -- A multiple that is not one of the two neighbours is further away than both.
  have side : k = q ∨ k = q + 1 ∨ k * denominator + denominator ≤ q * denominator ∨
      (q + 1) * denominator + denominator ≤ k * denominator := by
    rcases Nat.lt_or_ge k q with below | above
    · have scaled := Nat.mul_le_mul_right denominator below
      rw [Nat.succ_mul] at scaled
      exact .inr (.inr (.inl scaled))
    · rcases Nat.lt_or_ge (q + 1) k with beyond | within
      · have scaled := Nat.mul_le_mul_right denominator beyond
        rw [Nat.succ_mul] at scaled
        exact .inr (.inr (.inr scaled))
      · omega
  unfold Nat.dist at tie
  unfold nearestEven at other tie ⊢
  simp only [quotient] at other tie ⊢
  by_cases low : 2 * (numerator % denominator) < denominator
  · rw [if_pos low] at other tie
    rcases side with rfl | rfl | far | far
    · exact absurd rfl other
    all_goals omega
  · rw [if_neg low] at other tie ⊢
    by_cases high : denominator < 2 * (numerator % denominator)
    · rw [if_pos high] at other tie
      rw [next] at tie
      rcases side with rfl | rfl | far | far
      · omega
      · exact absurd rfl other
      all_goals omega
    · rw [if_neg high]
      omega

end NearestEven

namespace Number

theorem fractionCount_eq : fractionCount = 2 ^ 52 := rfl

theorem infinityWord_eq : infinityWord = 2047 * 2 ^ 52 := rfl

theorem signWeight_eq : signWeight = 2 ^ 63 := rfl

section Word

theorem toNat_lt (x : Number) : x.bits.toNat < 2 ^ 64 := x.bits.toNat_lt

theorem bits_ofWord (negative : Bool) {magnitude : Nat} (small : magnitude < signWeight) :
    (ofWord negative magnitude).bits.toNat = (if negative then signWeight else 0) + magnitude := by
  rw [signWeight_eq] at small ⊢
  unfold ofWord
  rw [signWeight_eq, UInt64.toNat_ofNat']
  cases negative <;> simp <;> omega

theorem magnitudeWord_ofWord (negative : Bool) {magnitude : Nat} (small : magnitude < signWeight) :
    (ofWord negative magnitude).magnitudeWord = magnitude := by
  unfold magnitudeWord
  rw [bits_ofWord negative small]
  rw [signWeight_eq] at small ⊢
  cases negative <;> simp <;> omega

theorem isNegative_ofWord (negative : Bool) {magnitude : Nat} (small : magnitude < signWeight) :
    (ofWord negative magnitude).isNegative = negative := by
  unfold isNegative
  rw [bits_ofWord negative small]
  rw [signWeight_eq] at small ⊢
  cases negative
  · simpa using small
  · simp

theorem ofWord_self (x : Number) : ofWord x.isNegative x.magnitudeWord = x := by
  have bound := x.toNat_lt
  have word : (ofWord x.isNegative x.magnitudeWord).bits = x.bits := by
    apply UInt64.toNat_inj.mp
    have small : x.magnitudeWord < signWeight := Nat.mod_lt _ (by decide)
    rw [bits_ofWord _ small]
    unfold isNegative magnitudeWord
    rw [signWeight_eq]
    by_cases negative : 2 ^ 63 ≤ x.bits.toNat
    · simp only [negative, decide_true, if_true]
      omega
    · simp only [negative, decide_false]
      simp
      omega
  cases x
  exact congrArg Number.mk word

end Word

section Units

/-- The magnitude of a number counts the steps of its significand from the first power of two on. -/
theorem magnitudeWord_eq (x : Number) : x.magnitudeWord = x.scale * fractionCount + x.significand := by
  have split := Nat.div_add_mod' x.magnitudeWord fractionCount
  unfold scale significand fractionField
  unfold exponentField
  rw [fractionCount_eq] at split ⊢
  by_cases low : x.magnitudeWord / 2 ^ 52 = 0
  · rw [if_pos low, low]
    omega
  · rw [if_neg low]
    omega

theorem significand_lt (x : Number) : x.significand < 2 * fractionCount := by
  have small := Nat.mod_lt x.magnitudeWord (show 0 < fractionCount by decide)
  unfold significand fractionField
  split <;> omega

theorem significand_normal (x : Number) : x.scale = 0 ∨ fractionCount ≤ x.significand := by
  unfold scale significand
  split <;> omega

/-- A word made of a scale and a significand has the value that they say, also if the significand has just become
too long. -/
theorem units_of_word {x : Number} {shift significand : Nat}
    (word : x.magnitudeWord = shift * fractionCount + significand) (short : significand ≤ 2 * fractionCount)
    (normal : shift = 0 ∨ fractionCount ≤ significand) : x.units = significand * 2 ^ shift := by
  have own := x.magnitudeWord_eq
  have small := x.significand_lt
  have long := x.significand_normal
  rw [word] at own
  have positive : 0 < fractionCount := by decide
  unfold units
  show x.significand * 2 ^ x.scale = _
  -- The word fixes scale and significand but for a significand that fills the next power of two.
  have cases : (x.scale = shift ∧ x.significand = significand) ∨
      (x.scale = shift + 1 ∧ x.significand = fractionCount ∧ significand = 2 * fractionCount) := by
    rw [fractionCount_eq] at *
    omega
  rcases cases with ⟨sameScale, sameSignificand⟩ | ⟨nextScale, full, carried⟩
  · rw [sameScale, sameSignificand]
  · rw [nextScale, full, carried, pow_succ]
    ring

theorem units_eq_zero {x : Number} (zero : x.isZero = true) : x.units = 0 := by
  have word : x.magnitudeWord = 0 := by simpa [isZero] using zero
  have own := x.magnitudeWord_eq
  have empty : x.significand = 0 := by omega
  unfold units
  rw [empty, Nat.zero_mul]

theorem bits_mod_two (x : Number) : x.bits.toNat % 2 = x.magnitudeWord % 2 := by
  unfold magnitudeWord
  rw [signWeight_eq]
  omega

theorem isFinite_iff (x : Number) : x.isFinite = true ↔ x.magnitudeWord < infinityWord := by
  simp [isFinite]

end Units

section Rounding

variable {negative : Bool} {numerator denominator : Nat}

/-- The power of two at which a quotient is rounded. -/
def shiftOf (numerator denominator : Nat) : Nat := Nat.log2 (numerator / denominator) - 52

def roundedSignificand (numerator denominator : Nat) : Nat :=
  nearestEven numerator (denominator * 2 ^ shiftOf numerator denominator)

theorem ofUnits_eq (negative : Bool) (numerator denominator : Nat) :
    ofUnits negative numerator denominator =
      ofWord negative (min (shiftOf numerator denominator * fractionCount + roundedSignificand numerator denominator)
        infinityWord) := rfl

/-- At that power of two the quotient has no more than fifty-three bits before the point. -/
theorem div_lt_of_shift (numerator denominator : Nat) :
    numerator / (denominator * 2 ^ shiftOf numerator denominator) < 2 * fractionCount := by
  rw [← Nat.div_div_eq_div_mul, Nat.div_lt_iff_lt_mul (Nat.two_pow_pos _), fractionCount_eq, ← pow_succ', ← pow_add]
  have bound : numerator / denominator < 2 ^ (Nat.log2 (numerator / denominator) + 1) := Nat.lt_log2_self
  refine bound.trans_le (Nat.pow_le_pow_right (by decide) ?_)
  unfold shiftOf
  omega

theorem le_of_shift (shifted : shiftOf numerator denominator ≠ 0) :
    fractionCount * 2 ^ shiftOf numerator denominator ≤ numerator / denominator := by
  have positive : numerator / denominator ≠ 0 := by
    intro zero
    rw [shiftOf, zero] at shifted
    exact shifted (by decide)
  have bound : 2 ^ Nat.log2 (numerator / denominator) ≤ numerator / denominator := Nat.log2_self_le positive
  refine le_trans ?_ bound
  rw [fractionCount_eq, ← pow_add]
  apply Nat.pow_le_pow_right (by decide)
  unfold shiftOf at shifted ⊢
  omega

theorem roundedSignificand_le (numerator denominator : Nat) :
    roundedSignificand numerator denominator ≤ 2 * fractionCount := by
  have below := div_lt_of_shift numerator denominator
  unfold roundedSignificand
  rcases nearestEven_cases numerator (denominator * 2 ^ shiftOf numerator denominator) with
    ⟨down, _⟩ | ⟨up, _⟩ <;> omega

theorem roundedSignificand_normal (numerator denominator : Nat) :
    shiftOf numerator denominator = 0 ∨ fractionCount ≤ roundedSignificand numerator denominator := by
  by_cases shifted : shiftOf numerator denominator = 0
  · exact .inl shifted
  · right
    have enough := le_of_shift shifted
    have scaled : fractionCount ≤ numerator / (denominator * 2 ^ shiftOf numerator denominator) := by
      rw [← Nat.div_div_eq_div_mul]
      exact (Nat.le_div_iff_mul_le (Nat.two_pow_pos _)).mpr enough
    unfold roundedSignificand
    rcases nearestEven_cases numerator (denominator * 2 ^ shiftOf numerator denominator) with
    ⟨down, _⟩ | ⟨up, _⟩ <;> omega

theorem magnitudeWord_ofUnits (negative : Bool) (numerator denominator : Nat) :
    (ofUnits negative numerator denominator).magnitudeWord =
      min (shiftOf numerator denominator * fractionCount + roundedSignificand numerator denominator) infinityWord := by
  rw [ofUnits_eq]
  apply magnitudeWord_ofWord negative
  exact lt_of_le_of_lt (Nat.min_le_right _ _) (by decide)

theorem isNegative_ofUnits (negative : Bool) (numerator denominator : Nat) :
    (ofUnits negative numerator denominator).isNegative = negative := by
  rw [ofUnits_eq]
  apply isNegative_ofWord negative
  exact lt_of_le_of_lt (Nat.min_le_right _ _) (by decide)

theorem units_ofUnits (finite : (ofUnits negative numerator denominator).isFinite = true) :
    (ofUnits negative numerator denominator).units =
      roundedSignificand numerator denominator * 2 ^ shiftOf numerator denominator := by
  rw [isFinite_iff, magnitudeWord_ofUnits] at finite
  refine units_of_word ?_ (roundedSignificand_le numerator denominator)
    (roundedSignificand_normal numerator denominator)
  rw [magnitudeWord_ofUnits]
  omega

/-- A value is a multiple of a power of two, or lies below the numbers that are. -/
theorem units_grid (y : Number) (shift : Nat) :
    (∃ k, y.units = k * 2 ^ shift) ∨ shift ≠ 0 ∧ y.units < fractionCount * 2 ^ shift := by
  show (∃ k, y.significand * 2 ^ y.scale = _) ∨ _ ∧ y.significand * 2 ^ y.scale < _
  rcases Nat.lt_or_ge y.scale shift with fine | coarse
  · right
    refine ⟨by omega, ?_⟩
    calc y.significand * 2 ^ y.scale
        < 2 * fractionCount * 2 ^ y.scale := Nat.mul_lt_mul_of_pos_right y.significand_lt (Nat.two_pow_pos _)
      _ = fractionCount * 2 ^ (y.scale + 1) := by rw [pow_succ]; ring
      _ ≤ fractionCount * 2 ^ shift := Nat.mul_le_mul_left _ (Nat.pow_le_pow_right (by decide) fine)
  · left
    refine ⟨y.significand * 2 ^ (y.scale - shift), ?_⟩
    rw [Nat.mul_assoc, ← pow_add, Nat.sub_add_cancel coarse]

/-- No number is nearer to a quotient than the one it is rounded to, and if another one is as near, the word of the
one chosen is even. -/
theorem ofUnits_nearest (positive : 0 < denominator)
    (finite : (ofUnits negative numerator denominator).isFinite = true) (y : Number) :
    Nat.dist numerator ((ofUnits negative numerator denominator).units * denominator) ≤
        Nat.dist numerator (y.units * denominator) ∧
      (Nat.dist numerator ((ofUnits negative numerator denominator).units * denominator) =
          Nat.dist numerator (y.units * denominator) →
        y.units ≠ (ofUnits negative numerator denominator).units →
          (ofUnits negative numerator denominator).bits.toNat % 2 = 0) := by
  have value := units_ofUnits finite
  generalize shifted : shiftOf numerator denominator = shift at value
  have step : 0 < denominator * 2 ^ shift := Nat.mul_pos positive (Nat.two_pow_pos shift)
  have chosen : (ofUnits negative numerator denominator).units * denominator =
      nearestEven numerator (denominator * 2 ^ shift) * (denominator * 2 ^ shift) := by
    rw [value, roundedSignificand, shifted]
    ring
  rw [chosen]
  rcases units_grid y shift with ⟨k, multiple⟩ | ⟨nonzero, below⟩
  · have other : y.units * denominator = k * (denominator * 2 ^ shift) := by
      rw [multiple]
      ring
    rw [other]
    refine ⟨nearestEven_nearest numerator step k, fun tie differs => ?_⟩
    have odd : k ≠ nearestEven numerator (denominator * 2 ^ shift) := by
      rintro rfl
      rw [value, roundedSignificand, shifted] at differs
      exact differs multiple
    have even := nearestEven_tie step odd tie
    rw [isFinite_iff, magnitudeWord_ofUnits] at finite
    have word := magnitudeWord_ofUnits negative numerator denominator
    rw [roundedSignificand, shifted] at finite word
    have small := (min_lt_iff.mp finite).resolve_right (lt_irrefl infinityWord)
    rw [bits_mod_two, word, min_eq_left small.le, Nat.add_mod, even, fractionCount_eq, Nat.mul_mod]
    rfl
  · -- Numbers off the grid lie below the least number on it, which is no further away than they are.
    have least : fractionCount * (denominator * 2 ^ shift) ≤ numerator := by
      have enough : fractionCount * 2 ^ shiftOf numerator denominator ≤ numerator / denominator :=
        le_of_shift (by rwa [shifted])
      rw [shifted, Nat.le_div_iff_mul_le positive] at enough
      calc fractionCount * (denominator * 2 ^ shift)
          = fractionCount * 2 ^ shift * denominator := by ring
        _ ≤ numerator := enough
    have lower : y.units * denominator < fractionCount * (denominator * 2 ^ shift) := by
      calc y.units * denominator
          < fractionCount * 2 ^ shift * denominator := Nat.mul_lt_mul_of_pos_right below positive
        _ = fractionCount * (denominator * 2 ^ shift) := by ring
    have nearest := nearestEven_nearest numerator step fractionCount
    unfold Nat.dist at nearest ⊢
    exact ⟨by omega, fun tie _ => by omega⟩

end Rounding

section Exact

theorem log2_units (x : Number) : x.units.log2 - 52 = x.scale := by
  have small := x.significand_lt
  show (x.significand * 2 ^ x.scale).log2 - 52 = x.scale
  rw [fractionCount_eq] at small
  by_cases zero : x.significand = 0
  · have lowest := x.significand_normal
    rw [zero, Nat.zero_mul, Nat.log2_zero]
    rw [zero, fractionCount_eq] at lowest
    omega
  have nonzero : x.significand * 2 ^ x.scale ≠ 0 := Nat.mul_ne_zero zero (Nat.two_pow_pos _).ne'
  rcases x.significand_normal with lowest | normal
  · rw [lowest, pow_zero, Nat.mul_one]
    have bound := (Nat.log2_lt zero).mpr (show x.significand < 2 ^ 53 by omega)
    omega
  · rw [fractionCount_eq] at normal
    have value : (x.significand * 2 ^ x.scale).log2 = 52 + x.scale := by
      refine (Nat.log2_eq_iff nonzero).mpr ⟨?_, ?_⟩
      · rw [pow_add]
        exact Nat.mul_le_mul_right _ normal
      · rw [show 52 + x.scale + 1 = 53 + x.scale by omega, pow_add]
        exact Nat.mul_lt_mul_of_pos_right (by omega) (Nat.two_pow_pos _)
    rw [value]
    omega

/-- A quotient that a finite number has exactly is rounded to that number. -/
theorem ofUnits_units {x : Number} (finite : x.isFinite = true) {denominator : Nat} (positive : 0 < denominator) :
    ofUnits x.isNegative (x.units * denominator) denominator = x := by
  have shift : shiftOf (x.units * denominator) denominator = x.scale := by
    rw [shiftOf, Nat.mul_div_cancel _ positive, log2_units]
  have significand : roundedSignificand (x.units * denominator) denominator = x.significand := by
    rw [roundedSignificand, shift]
    have value : x.units * denominator = x.significand * (denominator * 2 ^ x.scale) := by
      show x.significand * 2 ^ x.scale * denominator = _
      ring
    rw [value]
    exact nearestEven_mul _ (Nat.mul_pos positive (Nat.two_pow_pos _))
  rw [isFinite_iff] at finite
  rw [ofUnits_eq, shift, significand, ← magnitudeWord_eq, min_eq_left finite.le, ofWord_self]

end Exact

section Whole

/-- The exponent is kept behind an existential, since no proof gains from the digits of this power. -/
theorem one_eq_two_pow : ∃ exponent, exponent = 1074 ∧ one = 2 ^ exponent := by
  unfold one
  refine ⟨1074, rfl, ?_⟩
  generalize 1074 = exponent
  rfl

theorem one_pos : 0 < one := by
  obtain ⟨exponent, _, value⟩ := one_eq_two_pow
  rw [value]
  exact Nat.two_pow_pos exponent

theorem toNat?_eq_some {x : Number} {n : Nat} :
    x.toNat? = some n ↔ x.isFinite = true ∧ (x.isNegative = false ∨ x.isZero = true) ∧ x.units = n * one := by
  have positive := one_pos
  unfold toNat?
  simp only [Option.ite_none_right_eq_some, Bool.and_eq_true, Bool.or_eq_true, Bool.not_eq_true', beq_iff_eq,
    Option.some.injEq]
  constructor
  · rintro ⟨⟨⟨finite, sign⟩, whole⟩, rfl⟩
    exact ⟨finite, sign, (Nat.div_mul_cancel (Nat.dvd_of_mod_eq_zero whole)).symm⟩
  · rintro ⟨finite, sign, value⟩
    rw [value, Nat.mul_mod_left, Nat.mul_div_cancel n positive]
    exact ⟨⟨⟨finite, sign⟩, rfl⟩, rfl⟩

/-- The whole number with fifty-three significant bits that is nearest to a given one, a tie to the even one. -/
def nearestWhole (n : Nat) : Nat := nearestEven n (2 ^ (n.log2 - 52)) * 2 ^ (n.log2 - 52)

theorem log2_mul_two_pow {n : Nat} (nonzero : n ≠ 0) (exponent : Nat) :
    (n * 2 ^ exponent).log2 = n.log2 + exponent := by
  have bounds := (Nat.log2_eq_iff nonzero).mp rfl
  refine (Nat.log2_eq_iff (Nat.mul_ne_zero nonzero (Nat.two_pow_pos _).ne')).mpr ⟨?_, ?_⟩
  · rw [pow_add]
    exact Nat.mul_le_mul_right _ bounds.1
  · rw [show n.log2 + exponent + 1 = n.log2 + 1 + exponent by omega, pow_add]
    exact Nat.mul_lt_mul_of_pos_right bounds.2 (Nat.two_pow_pos _)

/-- Rounding does not depend on the unit in which a whole number is counted, as long as the unit is fine enough. -/
theorem nearestEven_shifted {n exponent : Nat} (nonzero : n ≠ 0) (fine : 52 ≤ exponent) :
    nearestEven (n * 2 ^ exponent) (2 ^ ((n * 2 ^ exponent).log2 - 52)) * 2 ^ ((n * 2 ^ exponent).log2 - 52) =
      nearestWhole n * 2 ^ exponent := by
  rw [log2_mul_two_pow nonzero]
  unfold nearestWhole
  rcases Nat.lt_or_ge n.log2 52 with short | long
  · have same : n * 2 ^ exponent = n * 2 ^ (52 - n.log2) * 2 ^ (n.log2 + exponent - 52) := by
      rw [Nat.mul_assoc, ← pow_add]
      congr 2
      omega
    rw [show n.log2 - 52 = 0 by omega, pow_zero, Nat.mul_one, same, nearestEven_mul _ (Nat.two_pow_pos _)]
    have whole := nearestEven_mul n Nat.one_pos
    rw [Nat.mul_one] at whole
    rw [whole, same]
  · rw [show n.log2 + exponent - 52 = n.log2 - 52 + exponent by omega, pow_add,
      nearestEven_scale _ _ (Nat.two_pow_pos exponent), Nat.mul_assoc]

theorem ofNat_eq (n : Nat) : ofNat n = ofUnits false (n * one) 1 := rfl

theorem nearestWhole_of_le {n : Nat} (small : n ≤ 2 ^ 53) : nearestWhole n = n := by
  have whole : ∀ k shift, nearestEven (k * 2 ^ shift) (2 ^ shift) * 2 ^ shift = k * 2 ^ shift := fun k shift => by
    rw [nearestEven_mul k (Nat.two_pow_pos shift)]
  unfold nearestWhole
  rcases Nat.lt_or_eq_of_le small with short | rfl
  · have shift : n.log2 - 52 = 0 := by
      by_cases zero : n = 0
      · rw [zero, Nat.log2_zero]
      · have bound := (Nat.log2_lt zero).mpr short
        omega
    have kept := whole n 0
    simp only [Nat.pow_zero, Nat.mul_one] at kept
    rw [shift, Nat.pow_zero, Nat.mul_one]
    exact kept
  · rw [Nat.log2_two_pow]
    exact whole (2 ^ 52) 1

/-- Rounding does not lead below `2 ^ 53`, where it begins. -/
theorem le_nearestWhole {n : Nat} (large : 2 ^ 53 ≤ n) : 2 ^ 53 ≤ nearestWhole n := by
  have nonzero : n ≠ 0 := by omega
  have log : 53 ≤ n.log2 := (Nat.le_log2 nonzero).mpr large
  have least : 2 ^ 52 * 2 ^ (n.log2 - 52) ≤ n := by
    rw [← pow_add, show 52 + (n.log2 - 52) = n.log2 by omega]
    exact Nat.log2_self_le nonzero
  have quotient : 2 ^ 52 ≤ n / 2 ^ (n.log2 - 52) := (Nat.le_div_iff_mul_le (Nat.two_pow_pos _)).mpr least
  have rounded : n / 2 ^ (n.log2 - 52) ≤ nearestEven n (2 ^ (n.log2 - 52)) := by
    rcases nearestEven_cases n (2 ^ (n.log2 - 52)) with ⟨down, _⟩ | ⟨up, _⟩ <;> omega
  calc
    2 ^ 53 ≤ 2 ^ 52 * 2 ^ (n.log2 - 52) := by
      rw [← pow_add]
      exact Nat.pow_le_pow_right Nat.two_pos (by omega)
    _ ≤ nearestWhole n := Nat.mul_le_mul_right _ (quotient.trans rounded)

section Small

variable {n : Nat}

theorem shiftOf_ofNat_le (small : n < 2 ^ 64) : shiftOf (n * one) 1 ≤ 1085 := by
  obtain ⟨exponent, known, value⟩ := one_eq_two_pow
  rw [shiftOf, Nat.div_one, value]
  by_cases zero : n = 0
  · rw [zero, Nat.zero_mul, Nat.log2_zero]
    omega
  · have log := log2_mul_two_pow zero exponent
    have bound := (Nat.log2_lt zero).mpr small
    omega

theorem isFinite_ofNat (small : n < 2 ^ 64) : (ofNat n).isFinite = true := by
  have shift := shiftOf_ofNat_le small
  have significand := roundedSignificand_le (n * one) 1
  rw [isFinite_iff, ofNat_eq, magnitudeWord_ofUnits]
  apply lt_of_le_of_lt (Nat.min_le_left _ _)
  rw [infinityWord_eq, fractionCount_eq] at *
  omega

theorem toNat?_ofNat (small : n < 2 ^ 64) : (ofNat n).toNat? = some (nearestWhole n) := by
  have finite := isFinite_ofNat small
  refine toNat?_eq_some.mpr ⟨finite, .inl (isNegative_ofUnits false _ _), ?_⟩
  have rounded : (ofUnits false (n * one) 1).units = roundedSignificand (n * one) 1 * 2 ^ shiftOf (n * one) 1 :=
    units_ofUnits finite
  obtain ⟨exponent, known, value⟩ := one_eq_two_pow
  rw [ofNat_eq, rounded, roundedSignificand, shiftOf, Nat.div_one, Nat.one_mul, value]
  by_cases zero : n = 0
  · subst zero
    simp [nearestWhole, nearestEven]
  · exact nearestEven_shifted zero (by omega)

/-- A whole number is some number exactly when rounding keeps it. -/
theorem exists_toNat?_iff (small : n < 2 ^ 64) : (∃ x : Number, x.toNat? = some n) ↔ nearestWhole n = n := by
  constructor
  · rintro ⟨x, value⟩
    obtain ⟨finite, sign, units⟩ := toNat?_eq_some.mp value
    rcases sign with positive | zero
    · have own := ofUnits_units finite Nat.one_pos
      rw [positive, Nat.mul_one, units, ← ofNat_eq] at own
      have rounded := toNat?_ofNat small
      rw [own, value] at rounded
      exact (Option.some.inj rounded).symm
    · rw [units_eq_zero zero] at units
      have empty : n = 0 := (Nat.mul_eq_zero.mp units.symm).resolve_right one_pos.ne'
      rw [empty]
      exact nearestWhole_of_le (by decide)
  · intro kept
    exact ⟨ofNat n, (toNat?_ofNat small).trans (congrArg some kept)⟩

end Small

/-- The number is the nearest to a whole number, and if another one is as near, its word is even. -/
structure IsNearest (x : Number) (n : Nat) : Prop where
  finite : x.isFinite = true
  closest : ∀ y : Number, y.isFinite = true →
    (x.signedUnits - (n * one : Nat)).natAbs ≤ (y.signedUnits - (n * one : Nat)).natAbs
  even : ∀ y : Number, y.isFinite = true → y.signedUnits ≠ x.signedUnits →
    (x.signedUnits - (n * one : Nat)).natAbs = (y.signedUnits - (n * one : Nat)).natAbs → x.bits.toNat % 2 = 0

theorem isNearest_ofNat {n : Nat} (small : n < 2 ^ 64) : (ofNat n).IsNearest n := by
  have finite := isFinite_ofNat small
  have value : (ofNat n).signedUnits = (ofNat n).units := by
    unfold signedUnits
    rw [if_neg]
    rw [ofNat_eq, isNegative_ofUnits]
    decide
  have nearest := fun y : Number => ofUnits_nearest Nat.one_pos finite y
  simp only [Nat.mul_one, Nat.dist, ← ofNat_eq] at nearest
  have cases : ∀ y : Number, y.signedUnits = y.units ∨ y.signedUnits = -(y.units : Int) := by
    intro y
    unfold signedUnits
    split
    · exact .inr rfl
    · exact .inl rfl
  constructor
  · exact finite
  · intro y _
    have bound := (nearest y).1
    rw [value]
    rcases cases y with same | opposite <;> omega
  · intro y _ differs tie
    obtain ⟨bound, even⟩ := nearest y
    rw [value] at differs tie
    -- Zero is as far away as the whole number is large, so nothing below zero is as near.
    have zero : (Number.zero false).units = 0 := units_eq_zero (by decide)
    have origin := (nearest (.zero false)).1
    rw [zero] at origin
    rcases cases y with same | opposite <;> exact even (by omega) (by omega)

end Whole

end Number

end Dialogue
