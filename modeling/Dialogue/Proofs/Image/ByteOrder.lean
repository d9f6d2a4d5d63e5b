import Mathlib.Data.String.Basic
import Dialogue.Image.Codec

/-!
The order of texts is the order of their bytes. A larger character has larger bytes: they are more, and then the first
one tells, or as many, and then they hold its digits from the highest down.
-/

namespace Dialogue.Image

theorem utf8_eq (text : String) : utf8 text = text.toList.flatMap String.utf8EncodeChar := by
  have bytes : (String.ofList text.toList).toByteArray = text.toList.utf8Encode := String.toByteArray_ofList
  rw [String.ofList_toList] at bytes
  unfold utf8
  show text.toByteArray.data.toList = _
  rw [bytes]
  simp [List.utf8Encode]

theorem toNat_lt_of_valid (c : Char) : c.val.toNat < 0x110000 := by
  have valid := c.valid
  simp only [UInt32.isValidChar, Nat.isValidChar] at valid
  omega

/-- The bytes of characters compare as the characters do, whatever stands behind them. -/
theorem utf8EncodeChar_lt {c d : Char} (lower : c < d) (rest behind : List UInt8) :
    String.utf8EncodeChar c ++ rest < String.utf8EncodeChar d ++ behind := by
  have limit := toNat_lt_of_valid d
  have ordered : c.val.toNat < d.val.toNat := lower
  unfold String.utf8EncodeChar
  generalize c.val.toNat = v at *
  generalize d.val.toNat = w at *
  dsimp only
  by_cases long : 65535 < v
  · -- Four bytes each are compared digit by digit.
    rw [if_neg (by omega), if_neg (by omega), if_neg (by omega), if_neg (by omega), if_neg (by omega),
      if_neg (by omega)]
    simp only [List.cons_append, List.nil_append, List.cons_lt_cons_iff, UInt8.lt_iff_toNat_lt, ← UInt8.toNat_inj,
      UInt8.toNat_ofNat']
    rcases Nat.lt_or_ge (v / 262144) (w / 262144) with below | _
    · exact .inl (by omega)
    refine .inr ⟨by omega, ?_⟩
    rcases Nat.lt_or_ge (v / 4096) (w / 4096) with below | _
    · exact .inl (by omega)
    refine .inr ⟨by omega, ?_⟩
    rcases Nat.lt_or_ge (v / 64) (w / 64) with below | _
    · exact .inl (by omega)
    exact .inr ⟨by omega, .inl (by omega)⟩
  · split_ifs
    all_goals simp only [List.cons_append, List.nil_append, List.cons_lt_cons_iff, UInt8.lt_iff_toNat_lt,
      ← UInt8.toNat_inj, UInt8.toNat_ofNat']
    all_goals omega

theorem flatMap_utf8EncodeChar_lt {first second : List Char} (lower : first < second) :
    first.flatMap String.utf8EncodeChar < second.flatMap String.utf8EncodeChar := by
  induction first generalizing second with
  | nil =>
    cases second with
    | nil => exact absurd lower (List.lt_irrefl [])
    | cons d others =>
      rw [List.flatMap_nil, List.flatMap_cons]
      obtain ⟨byte, bytes, some⟩ := List.exists_cons_of_ne_nil (String.utf8EncodeChar_ne_nil (c := d))
      rw [some]
      exact List.nil_lt_cons byte _
  | cons c chars ih =>
    cases second with
    | nil => exact absurd lower (List.not_lt_nil (c :: chars))
    | cons d others =>
      rw [List.flatMap_cons, List.flatMap_cons]
      rcases List.cons_lt_cons_iff.mp lower with smaller | ⟨rfl, later⟩
      · exact utf8EncodeChar_lt smaller _ _
      · exact List.append_left_lt (ih later)

theorem utf8_lt_of_lt {first second : String} (lower : first < second) : utf8 first < utf8 second := by
  rw [utf8_eq, utf8_eq]
  exact flatMap_utf8EncodeChar_lt (String.lt_iff_toList_lt.mp lower)

/-- Texts are compared as their bytes are. -/
theorem utf8_lt_iff {first second : String} : utf8 first < utf8 second ↔ first < second := by
  constructor
  · intro lower
    by_contra notBelow
    rcases Decidable.em (second < first) with above | notAbove
    · exact List.lt_asymm lower (utf8_lt_of_lt above)
    · have same : first = second := String.le_antisymm (String.not_lt.mp notAbove) (String.not_lt.mp notBelow)
      rw [same] at lower
      exact List.lt_irrefl _ lower
  · exact utf8_lt_of_lt

theorem utf8_le_iff {first second : String} : utf8 first ≤ utf8 second ↔ first ≤ second := by
  rw [← List.not_lt, utf8_lt_iff, String.not_lt]

end Dialogue.Image
