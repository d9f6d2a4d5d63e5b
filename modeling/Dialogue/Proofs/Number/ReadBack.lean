import Mathlib.Data.List.TakeWhile
import Dialogue.Number.Shortest
import Dialogue.Proofs.Number.Nearest

/-!
A number reads back from its text. The digits that a number is written with are chosen by what reading them gives, or
are all its digits, which are read without rounding; how they stand around the point does not matter to the reader.
-/

namespace Dialogue

namespace Text

theorem isDigit_of_mem_digits {n : Nat} {c : Char} (member : c ∈ digits n) : c.isDigit = true :=
  Nat.isDigit_of_mem_toDigits (by decide) (by decide) member

theorem digitsValue_digits (n : Nat) : digitsValue (digits n) = n := Nat.ofDigitChars_ten_toDigits

theorem digits_ne_nil (n : Nat) : digits n ≠ [] := Nat.toDigits_ne_nil

end Text

namespace Decimal

/-- The zeros that are taken away come back as a power of ten. -/
theorem strip_value (d : Decimal) :
    ∃ zeros : Nat, d.strip.exponent = d.exponent + zeros ∧ d.coefficient = d.strip.coefficient * 10 ^ zeros := by
  fun_induction strip d with
  | case1 d trailing ih =>
    obtain ⟨zeros, exponent, coefficient⟩ := ih
    dsimp only at exponent coefficient
    refine ⟨zeros + 1, by omega, ?_⟩
    rw [pow_succ, ← Nat.mul_assoc, ← coefficient]
    omega
  | case2 d plain => exact ⟨0, by simp, by simp⟩

section Exact

variable {x : Number}

theorem two_pow_le_ten_pow (k : Nat) : 2 ^ (3 * k) ≤ 10 ^ k := by
  rw [pow_mul]
  exact Nat.pow_le_pow_left (by decide) k

theorem log2_units_le (finite : x.isFinite = true) : x.units.log2 ≤ 2098 := by
  have log := x.log2_units
  have word := x.magnitudeWord_eq
  rw [Number.isFinite_iff, Number.infinityWord_eq] at finite
  rw [Number.fractionCount_eq] at word
  omega

/-- The decimal has just the value of the finite number. -/
def IsValueOf (d : Decimal) (x : Number) : Prop :=
  (∃ power : Nat, d.exponent = power ∧ x.units = d.coefficient * 10 ^ power * Number.one) ∨
  ∃ places : Nat, 0 < places ∧ d.exponent = -places ∧ x.units * 10 ^ places = d.coefficient * Number.one

/-- A power beyond the reach would make a value that no finite number has. -/
theorem power_le_reach (finite : x.isFinite = true) {coefficient power : Nat} (nonzero : coefficient ≠ 0)
    (value : x.units = coefficient * 10 ^ power * Number.one) : power ≤ reach := by
  obtain ⟨log, known, one⟩ := Number.one_eq_two_pow
  have large : 2 ^ (3 * power + log) ≤ x.units := by
    calc 2 ^ (3 * power + log) = 1 * 2 ^ (3 * power) * 2 ^ log := by rw [Nat.one_mul, pow_add]
      _ ≤ coefficient * 10 ^ power * 2 ^ log :=
        Nat.mul_le_mul_right _ (Nat.mul_le_mul (Nat.one_le_iff_ne_zero.mpr nonzero) (two_pow_le_ten_pow power))
      _ = x.units := by rw [value, one]
  have units : x.units ≠ 0 := ((Nat.two_pow_pos _).trans_le large).ne'
  have bound := (Nat.le_log2 units).mpr large
  have most := log2_units_le finite
  unfold reach
  omega

/-- With more places than that the value would lie below one unit. -/
theorem places_le_reach (units : x.units ≠ 0) {coefficient places : Nat}
    (value : x.units * 10 ^ places = coefficient * Number.one) : places ≤ reach + coefficient.log2 := by
  obtain ⟨log, known, one⟩ := Number.one_eq_two_pow
  have large : 2 ^ (3 * places) < 2 ^ (coefficient.log2 + 1 + log) := by
    calc 2 ^ (3 * places) ≤ 1 * 10 ^ places := by rw [Nat.one_mul]; exact two_pow_le_ten_pow places
      _ ≤ x.units * 10 ^ places := Nat.mul_le_mul_right _ (Nat.one_le_iff_ne_zero.mpr units)
      _ = coefficient * 2 ^ log := by rw [value, one]
      _ < 2 ^ (coefficient.log2 + 1) * 2 ^ log :=
        Nat.mul_lt_mul_of_pos_right Nat.lt_log2_self (Nat.two_pow_pos log)
      _ = 2 ^ (coefficient.log2 + 1 + log) := (pow_add 2 _ log).symm
  have bound := (Nat.pow_lt_pow_iff_right (by decide)).mp large
  unfold reach
  omega

/-- A decimal is read without rounding if a finite number has its value. -/
theorem toNumber_of_isValueOf (finite : x.isFinite = true) (units : x.units ≠ 0) {d : Decimal}
    (value : d.IsValueOf x) : d.toNumber x.isNegative = x := by
  have nonzero : d.coefficient ≠ 0 := by
    intro empty
    rcases value with ⟨power, _, value⟩ | ⟨places, _, _, value⟩
    · rw [empty, Nat.zero_mul, Nat.zero_mul] at value
      exact units value
    · rw [empty, Nat.zero_mul] at value
      exact units ((Nat.mul_eq_zero.mp value).resolve_right (Nat.pow_pos (by decide)).ne')
  obtain ⟨coefficient, exponent⟩ := d
  rcases value with ⟨power, rfl, value⟩ | ⟨places, some, rfl, value⟩
  · dsimp only at nonzero value
    have reached := power_le_reach finite nonzero value
    unfold toNumber
    dsimp only
    rw [if_neg nonzero, if_neg (by omega), if_neg (by omega), if_neg (by omega)]
    show Number.ofUnits x.isNegative (coefficient * 10 ^ (power : Int).natAbs * Number.one) 1 = x
    rw [Int.natAbs_natCast, ← value, ← Nat.mul_one x.units]
    exact Number.ofUnits_units finite Nat.one_pos
  · dsimp only at nonzero value
    have reached := places_le_reach units value
    unfold toNumber
    dsimp only
    rw [if_neg nonzero, if_neg (by omega), if_neg (by omega), if_pos (by omega)]
    show Number.ofUnits x.isNegative (coefficient * Number.one) (10 ^ (-(places : Int)).natAbs) = x
    rw [Int.natAbs_neg, Int.natAbs_natCast, ← value]
    exact Number.ofUnits_units finite (Nat.pow_pos (by decide))

/-- All digits of a number are its value, whichever zeros are taken away from their end. -/
theorem strip_isValueOf (d : Decimal) (places : Nat) (exponent : d.exponent = -places)
    (value : x.units * 10 ^ places = d.coefficient * Number.one) : d.strip.IsValueOf x := by
  obtain ⟨zeros, shifted, coefficient⟩ := d.strip_value
  rw [coefficient] at value
  rcases Nat.lt_or_ge zeros places with fewer | enough
  · right
    refine ⟨places - zeros, by omega, by omega, ?_⟩
    apply Nat.eq_of_mul_eq_mul_right (Nat.pow_pos (n := zeros) (show 0 < 10 by decide))
    rw [Nat.mul_assoc, ← pow_add, Nat.sub_add_cancel fewer.le, value]
    ring
  · left
    refine ⟨zeros - places, by omega, ?_⟩
    apply Nat.eq_of_mul_eq_mul_right (Nat.pow_pos (n := places) (show 0 < 10 by decide))
    rw [value, show zeros = zeros - places + places by omega, pow_add, Nat.add_sub_cancel]
    ring

end Exact

section Positional

/-- The digits in front of the point are some, and with those behind it they are the coefficient. -/
theorem positional_cases (d : Decimal) : ∃ whole fraction : List Char, whole ≠ [] ∧
    (∀ c ∈ whole, c.isDigit = true) ∧ (∀ c ∈ fraction, c.isDigit = true) ∧
    ((0 ≤ d.exponent ∧ d.positional = whole ∧ Text.digitsValue whole = d.coefficient * 10 ^ d.exponent.natAbs) ∨
      (d.exponent < 0 ∧ d.positional = whole ++ '.' :: fraction ∧ Text.digitsValue (whole ++ fraction) = d.coefficient ∧
        fraction.length = d.exponent.natAbs)) := by
  have digit : ∀ c ∈ d.digits, c.isDigit = true := fun c => Text.isDigit_of_mem_digits
  have zero : ∀ count : Nat, ∀ c ∈ List.replicate count '0', c.isDigit = true := fun count c member => by
    rw [List.eq_of_mem_replicate member]
    rfl
  have value : Text.digitsValue d.digits = d.coefficient := Text.digitsValue_digits d.coefficient
  by_cases whole : 0 ≤ d.exponent
  · refine ⟨d.digits ++ List.replicate d.exponent.natAbs '0', [], ?_, ?_, by simp, .inl ⟨whole, ?_, ?_⟩⟩
    · exact List.append_ne_nil_of_left_ne_nil (Text.digits_ne_nil d.coefficient) _
    · intro c member
      exact (List.mem_append.mp member).elim (digit c) (zero _ c)
    · unfold positional
      exact if_pos whole
    · unfold Text.digitsValue at value ⊢
      rw [Nat.ofDigitChars_append, value, Nat.ofDigitChars_replicate_zero, Nat.mul_comm]
  · have padded : ∀ c ∈ List.replicate (d.exponent.natAbs + 1 - d.digits.length) '0' ++ d.digits, c.isDigit = true :=
      fun c member => (List.mem_append.mp member).elim (zero _ c) (digit c)
    -- The zeros in front leave at least one digit before the point.
    have length : d.exponent.natAbs <
        (List.replicate (d.exponent.natAbs + 1 - d.digits.length) '0' ++ d.digits).length := by
      rw [List.length_append, List.length_replicate]
      omega
    have padded_value : Text.digitsValue (List.replicate (d.exponent.natAbs + 1 - d.digits.length) '0' ++ d.digits) =
        d.coefficient := by
      unfold Text.digitsValue at value ⊢
      rw [Nat.ofDigitChars_append, Nat.ofDigitChars_replicate_zero, Nat.mul_zero, value]
    have written : d.positional = _ := if_neg whole
    generalize List.replicate (d.exponent.natAbs + 1 - d.digits.length) '0' ++ d.digits = all at *
    refine ⟨all.take (all.length - d.exponent.natAbs), all.drop (all.length - d.exponent.natAbs), ?_, ?_, ?_,
      .inr ⟨by omega, written, ?_, ?_⟩⟩
    · intro empty
      have none := congrArg List.length empty
      rw [List.length_take, List.length_nil] at none
      omega
    · exact fun c member => padded c (List.mem_of_mem_take member)
    · exact fun c member => padded c (List.mem_of_mem_drop member)
    · rw [List.take_append_drop, padded_value]
    · rw [List.length_drop]
      omega

/-- Zeros that are written behind the coefficient stand for its exponent. -/
theorem toNumber_written {d : Decimal} {negative : Bool} (finite : (d.toNumber negative).isFinite = true)
    (whole : 0 ≤ d.exponent) :
    toNumber negative ⟨d.coefficient * 10 ^ d.exponent.natAbs, 0⟩ = d.toNumber negative := by
  unfold toNumber at finite ⊢
  dsimp only
  by_cases zero : d.coefficient = 0
  · rw [zero, Nat.zero_mul, if_pos rfl, if_pos rfl]
  · have nonzero : d.coefficient * 10 ^ d.exponent.natAbs ≠ 0 := Nat.mul_ne_zero zero (Nat.pow_pos (by decide)).ne'
    rw [if_neg zero] at finite ⊢
    have reached : ¬(reach : Int) < d.exponent := by
      intro beyond
      rw [if_pos beyond] at finite
      cases negative <;> exact absurd finite (by decide)
    rw [if_neg nonzero, if_neg (by decide), if_neg (by omega), if_neg (by decide), if_neg reached, if_neg (by omega),
      if_neg (by omega)]
    show Number.ofRatio negative (d.coefficient * 10 ^ d.exponent.natAbs * 1) 1 = _
    rw [Nat.mul_one]
    rfl

end Positional

end Decimal

namespace Number

section Read

theorem readDecimal?_whole {whole : List Char} (some : whole ≠ []) (digits : ∀ c ∈ whole, c.isDigit = true) :
    readDecimal? whole = .some ⟨Text.digitsValue whole, 0⟩ := by
  have taken : whole.takeWhile Char.isDigit = whole := List.takeWhile_eq_self_iff.mpr digits
  have dropped : whole.dropWhile Char.isDigit = [] := List.dropWhile_eq_nil_iff.mpr digits
  unfold readDecimal?
  simp [taken, dropped, some, readExponent?]

theorem readDecimal?_point {whole fraction : List Char} (some : whole ≠ [])
    (digits : ∀ c ∈ whole, c.isDigit = true) (behind : ∀ c ∈ fraction, c.isDigit = true) :
    readDecimal? (whole ++ '.' :: fraction) = .some ⟨Text.digitsValue (whole ++ fraction), -fraction.length⟩ := by
  have point : ('.' : Char).isDigit = false := by decide
  have taken : (whole ++ '.' :: fraction).takeWhile Char.isDigit = whole := by
    rw [List.takeWhile_append_of_pos digits, List.takeWhile_cons_of_neg (by simp [point]), List.append_nil]
  have dropped : (whole ++ '.' :: fraction).dropWhile Char.isDigit = '.' :: fraction := by
    rw [List.dropWhile_append_of_pos digits, List.dropWhile_cons_of_neg (by simp [point])]
  have takenBehind : fraction.takeWhile Char.isDigit = fraction := List.takeWhile_eq_self_iff.mpr behind
  have droppedBehind : fraction.dropWhile Char.isDigit = [] := List.dropWhile_eq_nil_iff.mpr behind
  unfold readDecimal?
  simp [taken, dropped, takenBehind, droppedBehind, some, readExponent?]

theorem splitSign_digits {whole rest : List Char} (some : whole ≠ []) (digits : ∀ c ∈ whole, c.isDigit = true) :
    splitSign (whole ++ rest) = (false, whole ++ rest) := by
  cases whole with
  | nil => exact absurd rfl some
  | cons c others =>
    have digit := digits c List.mem_cons_self
    rw [List.cons_append]
    unfold splitSign
    split
    next minus =>
      cases minus
      exact absurd digit (by decide)
    next plus =>
      cases plus
      exact absurd digit (by decide)
    next => rfl

theorem splitSign_sign {x : Number} {text : List Char} (unsigned : splitSign text = (false, text)) :
    splitSign (x.sign ++ text) = (x.isNegative, text) := by
  unfold sign
  cases x.isNegative with
  | true => rfl
  | false => exact unsigned

end Read

section Text

variable {x : Number}

theorem units_ne_zero (some : x.isZero = false) : x.units ≠ 0 := by
  have word : x.magnitudeWord ≠ 0 := by simpa [isZero] using some
  have own := x.magnitudeWord_eq
  have normal := x.significand_normal
  have significand : x.significand ≠ 0 := by
    intro empty
    rw [empty, fractionCount_eq] at normal
    rw [empty, normal.resolve_right (by decide), Nat.zero_mul] at own
    exact word own
  exact Nat.mul_ne_zero significand (Nat.two_pow_pos x.scale).ne'

theorem exactDecimal_isValueOf (x : Number) : x.exactDecimal.IsValueOf x := by
  obtain ⟨log, known, value⟩ := one_eq_two_pow
  unfold exactDecimal
  rw [← known]
  apply Decimal.strip_isValueOf _ log (by dsimp only; omega)
  rw [value, show (10 : Nat) = 5 * 2 from rfl, Nat.mul_pow, ← Nat.mul_assoc]
  rfl

theorem toNumber_decimalAt? {exponent : Int} {d : Decimal} (found : x.decimalAt? exponent = some d) :
    d.toNumber x.isNegative = x := by
  unfold decimalAt? at found
  dsimp only at found
  exact of_decide_eq_true (List.find?_some (p := fun d : Decimal => decide (d.toNumber x.isNegative = x)) found)

theorem toNumber_shortestDecimal (finite : x.isFinite = true) : x.shortestDecimal.toNumber x.isNegative = x := by
  unfold shortestDecimal
  cases zero : x.isZero with
  | true =>
    have word : x.magnitudeWord = 0 := by simpa [isZero] using zero
    have self := x.ofWord_self
    rw [word] at self
    rw [if_pos rfl]
    exact self
  | false =>
    simp only [Bool.false_eq_true, if_false]
    cases found : (List.range' 1 17).findSome? fun (count : Nat) => x.decimalAt? (x.leadingPower - count) with
    | none =>
      rw [Option.getD_none]
      exact Decimal.toNumber_of_isValueOf finite (units_ne_zero zero) x.exactDecimal_isValueOf
    | some d =>
      rw [Option.getD_some]
      obtain ⟨count, _, chosen⟩ := List.exists_of_findSome?_eq_some found
      exact toNumber_decimalAt? chosen

/-- A number that is not NaN reads back from its text. -/
theorem read?_text (defined : x.isNaN = false) : read? x.text.toList = some x := by
  unfold text
  rw [defined]
  cases infinite : x.isInfinite with
  | true =>
    have word : x.magnitudeWord = infinityWord := by simpa [isInfinite] using infinite
    have self := x.ofWord_self
    rw [word] at self
    have split : splitSign (x.sign ++ ['i', 'n', 'f']) = _ := splitSign_sign rfl
    simp only [Bool.false_eq_true, if_false, if_true, String.toList_ofList]
    unfold read?
    rw [split]
    show readWord? x.isNegative ['i', 'n', 'f'] = _
    refine Eq.trans ?_ (congrArg some self)
    rfl
  | false =>
    have finite : x.isFinite = true := by
      simp only [isNaN, isInfinite, isFinite, decide_eq_false_iff_not, decide_eq_true_eq] at *
      omega
    have own := toNumber_shortestDecimal finite
    simp only [Bool.false_eq_true, if_false, String.toList_ofList]
    unfold read?
    obtain ⟨whole, fraction, some, digits, behind, ⟨natural, written, value⟩ | ⟨broken, written, value, places⟩⟩ :=
      x.shortestDecimal.positional_cases
    · have unsigned : splitSign (whole ++ []) = _ := splitSign_digits some digits
      rw [List.append_nil] at unsigned
      rw [written, splitSign_sign unsigned]
      dsimp only
      rw [readDecimal?_whole some digits, value]
      refine congrArg Option.some ((Decimal.toNumber_written ?_ natural).trans own)
      rw [own]
      exact finite
    · rw [written, splitSign_sign (splitSign_digits some digits)]
      dsimp only
      rw [readDecimal?_point some digits behind, value, places]
      have exponent : -(x.shortestDecimal.exponent.natAbs : Int) = x.shortestDecimal.exponent := by omega
      rw [exponent]
      exact congrArg Option.some own

theorem text_of_isNaN (undefined : x.isNaN = true) : x.text = "NaN" := by
  unfold text
  rw [if_pos undefined]

theorem mem_sign {c : Char} (member : c ∈ x.sign) : c = '-' := by
  unfold sign at member
  split at member
  · exact List.mem_singleton.mp member
  · cases member

/-- The text of a number is made of digits and a few other characters. -/
theorem mem_text {c : Char} (member : c ∈ x.text.toList) : c.isDigit = true ∨ c ∈ "-.infNa".toList := by
  unfold text at member
  split at member
  · right
    simp only [String.reduceToList, List.mem_cons, List.not_mem_nil, or_false] at member
    rcases member with rfl | rfl | rfl <;> decide
  · split at member
    · rw [String.toList_ofList] at member
      rcases List.mem_append.mp member with minus | word
      · rw [mem_sign minus]
        decide
      · right
        simp only [List.mem_cons, List.not_mem_nil, or_false] at word
        rcases word with rfl | rfl | rfl <;> decide
    · rw [String.toList_ofList] at member
      obtain ⟨whole, fraction, _, digits, behind, ⟨_, written, _⟩ | ⟨_, written, _⟩⟩ :=
        x.shortestDecimal.positional_cases
      · rw [written] at member
        rcases List.mem_append.mp member with minus | digit
        · rw [mem_sign minus]
          decide
        · exact .inl (digits c digit)
      · rw [written] at member
        rcases List.mem_append.mp member with minus | positional
        · rw [mem_sign minus]
          decide
        · rcases List.mem_append.mp positional with digit | other
          · exact .inl (digits c digit)
          · rcases List.mem_cons.mp other with rfl | digit
            · decide
            · exact .inl (behind c digit)

theorem text_ne_nil (x : Number) : x.text.toList ≠ [] := by
  unfold text
  split
  · decide
  · split
    · rw [String.toList_ofList]
      exact List.append_ne_nil_of_right_ne_nil _ (by decide)
    · rw [String.toList_ofList]
      apply List.append_ne_nil_of_right_ne_nil _
      obtain ⟨whole, fraction, some, _, _, ⟨_, written, _⟩ | ⟨_, written, _⟩⟩ := x.shortestDecimal.positional_cases
      · rw [written]
        exact some
      · rw [written]
        exact List.append_ne_nil_of_left_ne_nil some _

end Text

end Number

end Dialogue
