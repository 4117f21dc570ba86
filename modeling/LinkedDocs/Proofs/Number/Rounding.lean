import LinkedDocs.Number.Double
import Mathlib.Tactic.Linarith
import Mathlib.Tactic.Ring

/-!
The double of an integer is the nearest one. Integers of at most 53 significant bits are doubles
themselves; any other integer is rounded to the closest of these, of two equally close ones to the
one with the even last bit. So different integers have one double only if neither is below `2 ^ 53`
in magnitude.
-/

namespace LinkedDocs.Double

/-- An integer that is a double: it has at most 53 significant bits. -/
def IsExact (value : Int) : Prop :=
  ∃ (digits : Int) (bits : Nat), digits.natAbs ≤ 2 ^ 53 ∧ value = digits * 2 ^ bits

/-- No double is closer to an integer. Two equally close ones are apart by twice the distance, and
the nearest is the even multiple of that. -/
structure IsNearest (value kept : Int) : Prop where
  exact : IsExact kept
  le : ∀ other, IsExact other → (value - kept).natAbs ≤ (value - other).natAbs
  even : ∀ other, IsExact other → other ≠ kept → (value - kept).natAbs = (value - other).natAbs →
    4 * ((value - kept).natAbs : Int) ∣ kept

theorem IsExact.neg {value : Int} (h : IsExact value) : IsExact (-value) := by
  obtain ⟨digits, bits, hdigits, rfl⟩ := h
  exact ⟨-digits, bits, by simpa using hdigits, by ring⟩

theorem IsNearest.neg {value kept : Int} (h : IsNearest value kept) :
    IsNearest (-value) (-kept) := by
  have hdistance (other : Int) : (-value - other).natAbs = (value - -other).natAbs := by omega
  refine ⟨h.exact.neg, fun other hother => ?_, fun other hother hne hsame => ?_⟩
  · rw [hdistance, hdistance, neg_neg]
    exact h.le _ hother.neg
  · rw [hdistance, hdistance, neg_neg] at hsame
    rw [hdistance, neg_neg]
    exact Int.dvd_neg.2 (h.even _ hother.neg (fun heq => hne (by omega)) hsame)

/-- An integer has one nearest double. -/
theorem IsNearest.unique {value kept other : Int} (hkept : IsNearest value kept)
    (hother : IsNearest value other) : kept = other := by
  by_contra hne
  have hsame : (value - kept).natAbs = (value - other).natAbs :=
    le_antisymm (hkept.le _ hother.exact) (hother.le _ hkept.exact)
  have hkeptEven := hkept.even _ hother.exact (Ne.symm hne) hsame
  have hotherEven := hother.even _ hkept.exact hne hsame.symm
  rw [← hsame] at hotherEven
  have hapart : 4 * (value - kept).natAbs ∣ (kept - other).natAbs :=
    Int.natCast_dvd.1 (by exact_mod_cast Int.dvd_sub hkeptEven hotherEven)
  have hle := Nat.le_of_dvd (by omega) hapart
  omega

/-- The multiple to which a quotient is rounded is less than half a step away, or half a step and
even. -/
theorem roundDiv_cases (numerator : Nat) {denominator : Nat} (hpositive : 0 < denominator) :
    2 * ((numerator : Int) - roundDiv numerator denominator * denominator).natAbs < denominator ∨
      2 * ((numerator : Int) - roundDiv numerator denominator * denominator).natAbs = denominator ∧
        2 ∣ roundDiv numerator denominator := by
  have hdivide := Nat.div_add_mod numerator denominator
  have hremainder := Nat.mod_lt numerator hpositive
  rw [roundDiv]
  generalize numerator / denominator = quotient at *
  generalize numerator % denominator = remainder at *
  have hnumerator : (numerator : Int) = quotient * denominator + remainder := by
    rw [← hdivide]
    push_cast
    ring
  have hnext : ((quotient + 1 : Nat) : Int) * denominator = quotient * denominator + denominator := by
    push_cast
    ring
  split
  case isTrue => omega
  case isFalse =>
    split
    case isTrue => omega
    case isFalse =>
      rcases Nat.mod_two_eq_zero_or_one quotient with heven | hodd
      · rw [heven, Nat.add_zero]
        omega
      · rw [hodd]
        omega

/-- No multiple is closer than one that is at most half a step away, and another one is as close
only if both are half a step away. -/
theorem natAbs_sub_multiple_le {value kept step : Int}
    (hkept : 2 * ((value - kept * step).natAbs : Int) ≤ step) (other : Int) :
    (value - kept * step).natAbs ≤ (value - other * step).natAbs ∧
      (other ≠ kept → (value - kept * step).natAbs = (value - other * step).natAbs →
        2 * ((value - kept * step).natAbs : Int) = step) := by
  have hstep : 0 ≤ step := by omega
  rcases lt_trichotomy other kept with hlt | rfl | hlt
  · have hapart : other * step + step ≤ kept * step := by nlinarith
    omega
  · exact ⟨le_rfl, fun hne => absurd rfl hne⟩
  · have hapart : kept * step + step ≤ other * step := by nlinarith
    omega

/-- The distance of the doubles around an integer. -/
def spacing (value : Nat) : Nat :=
  2 ^ (value.log2 - 52)

theorem roundUnits_one (value : Nat) :
    roundUnits value 1 = roundDiv value (spacing value) * spacing value := by
  rw [roundUnits, Nat.div_one, Nat.one_mul]
  rfl

theorem spacing_pos (value : Nat) : 0 < spacing value :=
  Nat.two_pow_pos _

theorem lt_mul_spacing (value : Nat) : value < 2 ^ 53 * spacing value := by
  rw [spacing, ← Nat.pow_add]
  refine lt_of_lt_of_le Nat.lt_log2_self (Nat.pow_le_pow_right (by decide) (by omega))

theorem two_mul_natAbs_sub_roundUnits_le (value : Nat) :
    2 * ((value - roundDiv value (spacing value) * spacing value : Int).natAbs : Int) ≤
      spacing value := by
  rcases roundDiv_cases value (spacing_pos value) with hless | ⟨hhalf, -⟩ <;> omega

theorem isExact_roundUnits (value : Nat) : IsExact (roundUnits value 1) := by
  have hnear := two_mul_natAbs_sub_roundUnits_le value
  have hbound := lt_mul_spacing value
  refine ⟨roundDiv value (spacing value), value.log2 - 52, ?_, ?_⟩
  · rw [Int.natAbs_natCast]
    by_contra hlarge
    have hproduct : (2 ^ 53 + 1) * spacing value ≤ roundDiv value (spacing value) * spacing value :=
      Nat.mul_le_mul_right _ (by omega)
    have hsplit := Nat.add_mul (2 ^ 53) 1 (spacing value)
    zify at hproduct hbound hsplit
    omega
  · rw [roundUnits_one]
    push_cast [spacing]
    ring

/-- A double that is no multiple of the spacing around an integer is farther away than a multiple. -/
theorem exists_multiple_natAbs_le (value : Nat) {other : Int} (hother : IsExact other) :
    ∃ multiple : Int, (value - multiple * spacing value : Int).natAbs ≤ (value - other : Int).natAbs ∧
      ((value - multiple * spacing value : Int).natAbs = (value - other : Int).natAbs →
        other = multiple * spacing value) := by
  obtain ⟨digits, bits, hdigits, rfl⟩ := hother
  by_cases hbits : value.log2 - 52 ≤ bits
  · refine ⟨digits * 2 ^ (bits - (value.log2 - 52)), ?_⟩
    have hsame : digits * 2 ^ (bits - (value.log2 - 52)) * spacing value = digits * 2 ^ bits := by
      rw [spacing]
      push_cast
      rw [mul_assoc, ← pow_add, Nat.sub_add_cancel hbits]
    rw [hsame]
    exact ⟨le_rfl, fun _ => rfl⟩
  · have hfirst : 2 ^ 52 * spacing value ≤ value := by
      rw [spacing, ← Nat.pow_add, show 52 + (value.log2 - 52) = value.log2 by omega]
      exact Nat.log2_self_le (by rintro rfl; exact hbits (by simp))
    have hbelow : digits * 2 ^ bits ≤ 2 ^ 52 * spacing value := by
      calc digits * 2 ^ bits ≤ 2 ^ 53 * 2 ^ bits := by gcongr; omega
        _ = 2 ^ 52 * 2 ^ (bits + 1) := by ring
        _ ≤ 2 ^ 52 * 2 ^ (value.log2 - 52) := by gcongr <;> omega
        _ = 2 ^ 52 * spacing value := by push_cast [spacing]; rfl
    refine ⟨2 ^ 52, ?_⟩
    zify at hfirst
    omega

theorem isNearest_roundUnits (value : Nat) : IsNearest value (roundUnits value 1) := by
  have hnear := two_mul_natAbs_sub_roundUnits_le value
  refine ⟨isExact_roundUnits value, fun other hother => ?_, fun other hother hne hsame => ?_⟩
  · obtain ⟨multiple, hle, -⟩ := exists_multiple_natAbs_le value hother
    rw [roundUnits_one, Nat.cast_mul]
    exact (natAbs_sub_multiple_le hnear multiple).1.trans hle
  · obtain ⟨multiple, hle, heq⟩ := exists_multiple_natAbs_le value hother
    rw [roundUnits_one, Nat.cast_mul] at hne hsame ⊢
    obtain ⟨hclosest, htie⟩ := natAbs_sub_multiple_le hnear multiple
    obtain rfl := heq (by omega)
    have hhalf := htie (fun hmultiple => hne (by rw [hmultiple])) hsame
    rcases roundDiv_cases value (spacing_pos value) with hless | ⟨-, heven⟩
    · omega
    · obtain ⟨half, hdigits⟩ := heven
      have hcast : (roundDiv value (spacing value) : Int) = 2 * half := by exact_mod_cast hdigits
      have hfour : 4 * ((value - roundDiv value (spacing value) * spacing value : Int).natAbs : Int) =
          2 * spacing value := by omega
      rw [hfour, hcast]
      exact ⟨half, by ring⟩

/-- The integer that the double of an integer is. -/
def nearestInt (value : Int) : Int :=
  if value < 0 then -(roundUnits value.natAbs 1 : Int) else roundUnits value.natAbs 1

theorem isNearest_nearestInt (value : Int) : IsNearest value (nearestInt value) := by
  have hnearest := isNearest_roundUnits value.natAbs
  rw [nearestInt]
  split
  case isTrue hnegative =>
    have hneg := hnearest.neg
    rwa [show -(value.natAbs : Int) = value by omega] at hneg
  case isFalse hpositive => rwa [show (value.natAbs : Int) = value by omega] at hnearest

theorem multiple_ofInt (value : Int) : (ofInt value).multiple = nearestInt value * unitScale := by
  simp only [multiple, ofInt, nearestInt, decide_eq_true_eq]
  split
  case isTrue => rw [Nat.cast_mul, neg_mul]
  case isFalse => rw [Nat.cast_mul]

/-- Integers have the same double if that is the nearest to both. -/
theorem sameValue_ofInt_iff {left right : Int} :
    (ofInt left).sameValue (ofInt right) ↔ ∃ kept, IsNearest left kept ∧ IsNearest right kept := by
  have hscale : (unitScale : Int) ≠ 0 := Int.natCast_ne_zero.2 (by decide +kernel)
  rw [sameValue, beq_iff_eq, multiple_ofInt, multiple_ofInt, mul_left_inj' hscale]
  constructor
  · intro hsame
    exact ⟨nearestInt left, isNearest_nearestInt left, hsame ▸ isNearest_nearestInt right⟩
  · rintro ⟨kept, hleft, hright⟩
    exact ((isNearest_nearestInt left).unique hleft).trans
      (hright.unique (isNearest_nearestInt right))

theorem isExact_of_natAbs_le {value : Int} (h : value.natAbs ≤ 2 ^ 53) : IsExact value :=
  ⟨value, 0, h, by rw [pow_zero, mul_one]⟩

theorem IsExact.isNearest {value : Int} (h : IsExact value) : IsNearest value value :=
  ⟨h, fun _ _ => by omega, fun _ _ hne hsame => absurd hsame (by omega)⟩

/-- Doubles are the nearest to themselves only, among the doubles. -/
theorem eq_of_isNearest {left right kept : Int} (hleft : IsExact left) (hright : IsExact right)
    (hleftKept : IsNearest left kept) (hrightKept : IsNearest right kept) : left = right :=
  (hleft.isNearest.unique hleftKept).trans (hrightKept.unique hright.isNearest)

/-- A double below `2 ^ 53` in magnitude is the nearest to no other integer. -/
theorem eq_of_isNearest_of_natAbs_lt {value kept : Int} (hsmall : kept.natAbs < 2 ^ 53)
    (h : IsNearest value kept) : value = kept := by
  by_cases hvalue : value.natAbs ≤ 2 ^ 53
  · exact (isExact_of_natAbs_le hvalue).isNearest.unique h
  · have hpositive := h.le (2 ^ 53) (isExact_of_natAbs_le (by decide))
    have hnegative := h.le (-2 ^ 53) (isExact_of_natAbs_le (by decide))
    omega

end LinkedDocs.Double
