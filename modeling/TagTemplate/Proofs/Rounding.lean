import Mathlib.Algebra.Order.Field.Basic
import Mathlib.Algebra.Order.Ring.Rat
import Mathlib.Tactic.Linarith
import Mathlib.Tactic.NormNum
import Mathlib.Tactic.Positivity
import Mathlib.Tactic.Ring
import TagTemplate.Number.Reading

/-!
# Rounding to the nearest number

What it is for a number to be the nearest to a rational value, a tie going to the even significand
(`Binary64.IsNearest`), and that a value has one nearest number. A number is the nearest to the
values of its rounding interval, which reaches half way to either neighbour (`isNearest_iff`).

Rounding a quotient gives the nearest number (`isNearest_nearest`), and so does reading a decimal
(`isNearest_ofDecimal`), the zeros and infinities among the answers.
-/

namespace TagTemplate.Binary64

/-! ## Magnitudes in units -/

/-- The size of a binade, written out. -/
theorem two_pow_52 : Nat.pow 2 52 = 4503599627370496 := rfl

/-- The value of a magnitude in units. That of infinity is the power of two that would come next. -/
def unitsOf (m : Nat) : Nat :=
  if m / Nat.pow 2 52 = 0 then m % Nat.pow 2 52
  else (Nat.pow 2 52 + m % Nat.pow 2 52) * Nat.pow 2 (m / Nat.pow 2 52 - 1)

/-- The units of a number are those of its magnitude. -/
theorem units_eq (x : Binary64) : x.units = unitsOf x.magnitude := by
  have hfield : x.magnitude / Nat.pow 2 52 = x.exponentField := rfl
  have hfraction : x.magnitude % Nat.pow 2 52 = x.fraction := rfl
  rw [units, significand, unitsOf, ulpExponent, hfield, hfraction]
  split
  · next h =>
    rw [h]
    exact Nat.mul_one _
  · rfl

/-- Up to the first binade, a magnitude is its number of units. -/
theorem unitsOf_of_lt {f : Nat} (hf : f < Nat.pow 2 52) : unitsOf f = f := by
  rw [unitsOf, Nat.div_eq_of_lt hf, if_pos rfl, Nat.mod_eq_of_lt hf]

/-- In a later binade, the significand has its leading bit and is scaled. -/
theorem unitsOf_mul_add {f : Nat} (hf : f < Nat.pow 2 52) (e : Nat) :
    unitsOf ((e + 1) * Nat.pow 2 52 + f) = (Nat.pow 2 52 + f) * Nat.pow 2 e := by
  have hdiv : ((e + 1) * Nat.pow 2 52 + f) / Nat.pow 2 52 = e + 1 := by
    rw [two_pow_52] at hf ⊢
    omega
  have hmod : ((e + 1) * Nat.pow 2 52 + f) % Nat.pow 2 52 = f := by
    rw [two_pow_52] at hf ⊢
    omega
  rw [unitsOf, hdiv, hmod, if_neg (Nat.succ_ne_zero e), Nat.add_sub_cancel]

/-- A magnitude is a power of two of units away from the next one. -/
theorem unitsOf_succ (m : Nat) :
    unitsOf (m + 1) = unitsOf m + Nat.pow 2 (m / Nat.pow 2 52 - 1) := by
  have hparts : m = m / Nat.pow 2 52 * Nat.pow 2 52 + m % Nat.pow 2 52 :=
    (Nat.div_add_mod' m _).symm
  have hf : m % Nat.pow 2 52 < Nat.pow 2 52 := Nat.mod_lt m (by decide)
  generalize m / Nat.pow 2 52 = e at *
  generalize m % Nat.pow 2 52 = f at *
  subst hparts
  rcases Nat.lt_or_ge (f + 1) (Nat.pow 2 52) with hnext | hnext
  · cases e with
    | zero =>
      rw [Nat.zero_mul, Nat.zero_add, unitsOf_of_lt hnext, unitsOf_of_lt hf]
    | succ e =>
      rw [Nat.add_assoc, unitsOf_mul_add hnext, unitsOf_mul_add hf, ← Nat.add_assoc, Nat.add_mul,
        Nat.one_mul, Nat.add_sub_cancel]
  · have hcarry : e * Nat.pow 2 52 + f + 1 = (e + 1) * Nat.pow 2 52 + 0 := by
      rw [two_pow_52] at hf hnext ⊢
      omega
    rw [hcarry, unitsOf_mul_add (by decide)]
    cases e with
    | zero =>
      rw [Nat.zero_mul, Nat.zero_add, unitsOf_of_lt hf]
      show _ * 1 = f + 1
      omega
    | succ e =>
      have hpow : Nat.pow 2 (e + 1) = 2 * Nat.pow 2 e := Nat.pow_succ'
      have hlast : f + 1 = Nat.pow 2 52 := Nat.le_antisymm hf hnext
      rw [unitsOf_mul_add hf, Nat.add_sub_cancel, hpow, ← hlast]
      ring

/-- A number with all the places of a significand is many times as great as the distance to the next
one. -/
theorem ulp_le_unitsOf {m : Nat} (hm : Nat.pow 2 52 ≤ m) :
    Nat.pow 2 52 * Nat.pow 2 (m / Nat.pow 2 52 - 1) ≤ unitsOf m := by
  have hexponent : m / Nat.pow 2 52 ≠ 0 := by
    rw [two_pow_52] at *
    omega
  rw [unitsOf, if_neg hexponent]
  exact Nat.mul_le_mul_right _ (Nat.le_add_right ..)

/-- Greater magnitudes have greater values. -/
theorem unitsOf_strictMono : StrictMono unitsOf :=
  strictMono_nat_of_lt_succ fun m => by
    rw [unitsOf_succ]
    exact Nat.lt_add_of_pos_right (Nat.pow_pos (by decide))

/-- Magnitudes of one value are the same. -/
theorem unitsOf_inj {m n : Nat} : unitsOf m = unitsOf n ↔ m = n :=
  unitsOf_strictMono.injective.eq_iff

/-! ## The parts of a word -/

/-- A magnitude has 63 bits. -/
theorem magnitude_lt (x : Binary64) : x.magnitude < Nat.pow 2 63 :=
  Nat.mod_lt _ (by decide)

/-- The magnitude of infinity has 63 bits. -/
theorem infinityMagnitude_lt : infinityMagnitude < Nat.pow 2 63 := by
  decide

/-- The word of a magnitude has the sign in front of it. -/
theorem toNat_ofMagnitude (negative : Bool) {m : Nat} (hm : m < Nat.pow 2 63) :
    (ofMagnitude negative m).bits.toNat = if negative then Nat.pow 2 63 + m else m := by
  have hpow : Nat.pow 2 63 + Nat.pow 2 63 = 2 ^ 64 := by decide
  refine UInt64.toNat_ofNat_of_lt' ?_
  show _ < 2 ^ 64
  split <;> omega

/-- The magnitude of a word is the one it was made of. -/
theorem magnitude_ofMagnitude (negative : Bool) {m : Nat} (hm : m < Nat.pow 2 63) :
    (ofMagnitude negative m).magnitude = m := by
  rw [magnitude, toNat_ofMagnitude negative hm]
  cases negative with
  | false => exact Nat.mod_eq_of_lt hm
  | true => exact (Nat.add_mod_left ..).trans (Nat.mod_eq_of_lt hm)

/-- The sign of a word is the one it was made with. -/
theorem isNegative_ofMagnitude (negative : Bool) {m : Nat} (hm : m < Nat.pow 2 63) :
    (ofMagnitude negative m).isNegative = negative := by
  rw [isNegative, toNat_ofMagnitude negative hm]
  cases negative with
  | false => exact decide_eq_false (Nat.not_le_of_lt hm)
  | true => exact decide_eq_true (Nat.le_add_right ..)

/-- A word is its sign and its magnitude. -/
theorem ofMagnitude_magnitude (x : Binary64) : ofMagnitude x.isNegative x.magnitude = x := by
  have hpow : Nat.pow 2 63 = 9223372036854775808 := rfl
  have hbits : x.bits.toNat < 2 ^ 64 := x.bits.toNat_lt
  obtain ⟨bits⟩ := x
  refine congrArg Binary64.mk (UInt64.toNat_inj.1 ?_)
  refine (toNat_ofMagnitude _ (magnitude_lt _)).trans ?_
  rw [isNegative, magnitude]
  dsimp only at hbits ⊢
  split
  · next h =>
    have h := of_decide_eq_true h
    rw [hpow] at h ⊢
    omega
  · next h =>
    have h := Nat.lt_of_not_le (mt decide_eq_true h)
    exact Nat.mod_eq_of_lt h

/-! ## The nearest number -/

/-- The number of units in one. -/
def perOne : ℚ :=
  (Nat.pow 2 1074 : Nat)

/-- There are units. -/
theorem perOne_pos : 0 < perOne :=
  Nat.cast_pos.2 (by decide +kernel)

/-- The absolute value of a number. That of the infinities counts as the power of two that would
come after the finite numbers. -/
def absValue (x : Binary64) : ℚ :=
  x.units / perOne

/-- No number of the sign is nearer to the value, and of two that are as near the word is the one
with an even significand. -/
structure IsNearest (negative : Bool) (value : ℚ) (x : Binary64) : Prop where
  isNaN : x.isNaN = false
  sign : x.isNegative = negative
  closest : ∀ y : Binary64, y.isNaN = false → |value - x.absValue| ≤ |value - y.absValue|
  even : ∀ y : Binary64, y.isNaN = false → |value - x.absValue| = |value - y.absValue| →
    y.absValue = x.absValue ∨ x.significand % 2 = 0

section
variable {a b v : ℚ}

/-- A value is nearer to the greater of two numbers if it is beyond the middle between them. -/
theorem abs_sub_le_iff_right (hab : a < b) : |v - b| ≤ |v - a| ↔ a + b ≤ 2 * v := by
  rw [← sq_le_sq]
  constructor <;> intro h <;> nlinarith

/-- A value is at least as near to the lower of two numbers if it is at most in the middle. -/
theorem abs_sub_le_iff_left (hab : a < b) : |v - a| ≤ |v - b| ↔ 2 * v ≤ a + b := by
  rw [← sq_le_sq]
  constructor <;> intro h <;> nlinarith

/-- A value is as near to two numbers if it is in the middle. -/
theorem abs_sub_eq_iff (hab : a < b) : |v - a| = |v - b| ↔ 2 * v = a + b := by
  rw [le_antisymm_iff, le_antisymm_iff, abs_sub_le_iff_left hab, abs_sub_le_iff_right hab]

end

/-! ## Rounding intervals

All the values that round to a number lie between the middles to its neighbours, and the middles
themselves belong to the number whose significand is even. A value is given in units here. -/

/-- The value is not too small to round to the magnitude. -/
def ReachesFromBelow (q : ℚ) (m : Nat) : Prop :=
  ∀ n : Nat, n + 1 = m →
    (unitsOf n : ℚ) + unitsOf m ≤ 2 * q ∧ ((unitsOf n : ℚ) + unitsOf m = 2 * q → m % 2 = 0)

/-- The value is not too great to round to the magnitude. -/
def ReachesFromAbove (q : ℚ) (m : Nat) : Prop :=
  2 * q ≤ unitsOf m + unitsOf (m + 1) ∧ (2 * q = unitsOf m + unitsOf (m + 1) → m % 2 = 0)

/-- The order of values is that of magnitudes. -/
theorem unitsOf_cast_lt {m n : Nat} : (unitsOf m : ℚ) < unitsOf n ↔ m < n := by
  rw [Nat.cast_lt]
  exact unitsOf_strictMono.lt_iff_lt

/-- The order of values is that of magnitudes. -/
theorem unitsOf_cast_le {m n : Nat} : (unitsOf m : ℚ) ≤ unitsOf n ↔ m ≤ n := by
  rw [Nat.cast_le]
  exact unitsOf_strictMono.le_iff_le

/-- What is not too small to round to a magnitude is not nearer to any smaller one. -/
theorem ReachesFromBelow.of_lt {q : ℚ} {m n : Nat} (h : ReachesFromBelow q m) (hn : n < m) :
    (unitsOf n : ℚ) + unitsOf m ≤ 2 * q ∧ ((unitsOf n : ℚ) + unitsOf m = 2 * q → m % 2 = 0) := by
  obtain ⟨k, rfl⟩ := Nat.exists_eq_add_one_of_ne_zero (Nat.ne_zero_of_lt hn)
  obtain ⟨hlow, heven⟩ := h k rfl
  have hk : (unitsOf n : ℚ) ≤ unitsOf k := unitsOf_cast_le.2 (Nat.le_of_lt_succ hn)
  exact ⟨by linarith, fun htie => heven (by linarith)⟩

/-- What is not too great to round to a magnitude is not nearer to any greater one. -/
theorem ReachesFromAbove.of_lt {q : ℚ} {m n : Nat} (h : ReachesFromAbove q m) (hn : m < n) :
    2 * q ≤ unitsOf m + unitsOf n ∧ (2 * q = unitsOf m + unitsOf n → m % 2 = 0) := by
  obtain ⟨hhigh, heven⟩ := h
  have hnext : (unitsOf (m + 1) : ℚ) ≤ unitsOf n := unitsOf_cast_le.2 hn
  exact ⟨by linarith, fun htie => heven (by linarith)⟩

/-- A greater value is not too small, either. -/
theorem ReachesFromBelow.mono {q q' : ℚ} {m : Nat} (h : ReachesFromBelow q m) (hq : q ≤ q') :
    ReachesFromBelow q' m := by
  intro n hn
  obtain ⟨hlow, heven⟩ := h n hn
  exact ⟨by linarith, fun htie => heven (by linarith)⟩

/-- A smaller value is not too great, either. -/
theorem ReachesFromAbove.mono {q q' : ℚ} {m : Nat} (h : ReachesFromAbove q' m) (hq : q ≤ q') :
    ReachesFromAbove q m := by
  obtain ⟨hhigh, heven⟩ := h
  exact ⟨by linarith, fun htie => heven (by linarith)⟩

/-- A value rounds to one magnitude only. -/
theorem not_lt_of_reaches {q : ℚ} {m n : Nat} (hm : ReachesFromAbove q m)
    (hn : ReachesFromBelow q n) : ¬m < n := by
  intro hlt
  obtain ⟨hlow, heven⟩ := hn.of_lt hlt
  obtain ⟨hhigh, heven'⟩ := hm.of_lt hlt
  obtain ⟨k, rfl⟩ := Nat.exists_eq_add_one_of_ne_zero (Nat.ne_zero_of_lt hlt)
  obtain ⟨hlow', -⟩ := hn k rfl
  have hk : k ≤ m := unitsOf_cast_le.1 (by linarith)
  have htie : m % 2 = 0 := heven' (by linarith)
  have htie' : (k + 1) % 2 = 0 := heven (by linarith)
  omega

/-- A significand is even if the magnitude is. -/
theorem significand_mod_two (x : Binary64) : x.significand % 2 = x.magnitude % 2 := by
  have hfraction : x.fraction % 2 = x.magnitude % 2 := Nat.mod_mod_of_dvd _ (by decide)
  rw [significand]
  split
  · exact hfraction
  · rw [two_pow_52]
    omega

/-- A word stands for a number or an infinity up to the magnitude of infinity. -/
theorem isNaN_eq_false_iff {x : Binary64} : x.isNaN = false ↔ x.magnitude ≤ infinityMagnitude :=
  decide_eq_false_iff_not.trans Nat.not_lt

/-- The absolute value is the number of units, each of them as small as the least number. -/
theorem absValue_eq (x : Binary64) : x.absValue = unitsOf x.magnitude / perOne := by
  rw [absValue, units_eq]

/-- Numbers of one absolute value have one magnitude. -/
theorem absValue_inj {x y : Binary64} : x.absValue = y.absValue ↔ x.magnitude = y.magnitude := by
  rw [absValue_eq, absValue_eq, div_left_inj' perOne_pos.ne', Nat.cast_inj, unitsOf_inj]

/-- The order of absolute values is that of magnitudes. -/
theorem absValue_lt {x y : Binary64} : x.absValue < y.absValue ↔ x.magnitude < y.magnitude := by
  rw [absValue_eq, absValue_eq, div_lt_div_iff_of_pos_right perOne_pos, unitsOf_cast_lt]

/-- Two absolute values have their middle at or below a value. -/
theorem absValue_add_le_iff {x y : Binary64} {v : ℚ} :
    x.absValue + y.absValue ≤ 2 * v ↔
      (unitsOf x.magnitude : ℚ) + unitsOf y.magnitude ≤ 2 * (v * perOne) := by
  rw [absValue_eq, absValue_eq, ← add_div, div_le_iff₀ perOne_pos, mul_assoc]

/-- A value at most in the middle of two numbers is so in units. -/
theorem le_absValue_add_iff {x y : Binary64} {v : ℚ} :
    2 * v ≤ x.absValue + y.absValue ↔
      2 * (v * perOne) ≤ (unitsOf x.magnitude : ℚ) + unitsOf y.magnitude := by
  rw [absValue_eq, absValue_eq, ← add_div, le_div_iff₀ perOne_pos, mul_assoc]

/-- A value in the middle of two numbers is so in units. -/
theorem absValue_add_eq_iff {x y : Binary64} {v : ℚ} :
    2 * v = x.absValue + y.absValue ↔
      2 * (v * perOne) = (unitsOf x.magnitude : ℚ) + unitsOf y.magnitude := by
  rw [absValue_eq, absValue_eq, ← add_div, eq_div_iff perOne_pos.ne', mul_assoc]

/-- A number is the nearest exactly if the value lies in its rounding interval. No interval ends at
the infinities. -/
theorem isNearest_iff {negative : Bool} {v : ℚ} {x : Binary64} :
    IsNearest negative v x ↔
      x.isNegative = negative ∧ x.magnitude ≤ infinityMagnitude ∧
        ReachesFromBelow (v * perOne) x.magnitude ∧
        (x.magnitude < infinityMagnitude → ReachesFromAbove (v * perOne) x.magnitude) := by
  constructor
  · intro h
    have hx : x.magnitude ≤ infinityMagnitude := isNaN_eq_false_iff.1 h.isNaN
    -- only the two neighbours matter
    have hother : ∀ m : Nat, m ≤ infinityMagnitude →
        ∃ y : Binary64, y.isNaN = false ∧ y.magnitude = m := by
      intro m hm
      have hm' := magnitude_ofMagnitude negative (Nat.lt_of_le_of_lt hm infinityMagnitude_lt)
      exact ⟨ofMagnitude negative m, isNaN_eq_false_iff.2 (hm'.symm ▸ hm), hm'⟩
    refine ⟨h.sign, hx, fun n hn => ?_, fun hfinite => ?_⟩
    · obtain ⟨y, hy, rfl⟩ := hother n (by omega)
      have hlt : y.absValue < x.absValue := absValue_lt.2 (by omega)
      refine ⟨absValue_add_le_iff.1 ((abs_sub_le_iff_right hlt).1 (h.closest y hy)), fun htie => ?_⟩
      have hmiddle := (abs_sub_eq_iff hlt).2 (absValue_add_eq_iff.2 htie.symm)
      rw [← significand_mod_two]
      exact (h.even y hy hmiddle.symm).resolve_left hlt.ne
    · obtain ⟨y, hy, hmag⟩ := hother (x.magnitude + 1) hfinite
      have hlt : x.absValue < y.absValue := absValue_lt.2 (by omega)
      rw [ReachesFromAbove, ← hmag]
      refine ⟨le_absValue_add_iff.1 ((abs_sub_le_iff_left hlt).1 (h.closest y hy)), fun htie => ?_⟩
      have hmiddle := (abs_sub_eq_iff hlt).2 (absValue_add_eq_iff.2 htie)
      rw [← significand_mod_two]
      exact (h.even y hy hmiddle).resolve_left hlt.ne'
  · rintro ⟨hsign, hx, hbelow, habove⟩
    refine ⟨isNaN_eq_false_iff.2 hx, hsign, fun y hy => ?_, fun y hy htie => ?_⟩
    · rcases Nat.lt_trichotomy y.magnitude x.magnitude with hlt | heq | hlt
      · exact (abs_sub_le_iff_right (absValue_lt.2 hlt)).2
          (absValue_add_le_iff.2 (hbelow.of_lt hlt).1)
      · rw [absValue_inj.2 heq]
      · have hy' := isNaN_eq_false_iff.1 hy
        exact (abs_sub_le_iff_left (absValue_lt.2 hlt)).2
          (le_absValue_add_iff.2 ((habove (Nat.lt_of_lt_of_le hlt hy')).of_lt hlt).1)
    · rw [significand_mod_two]
      rcases Nat.lt_trichotomy y.magnitude x.magnitude with hlt | heq | hlt
      · have hmiddle := absValue_add_eq_iff.1 ((abs_sub_eq_iff (absValue_lt.2 hlt)).1 htie.symm)
        exact .inr ((hbelow.of_lt hlt).2 hmiddle.symm)
      · exact .inl (absValue_inj.2 heq)
      · have hy' := isNaN_eq_false_iff.1 hy
        have hmiddle := absValue_add_eq_iff.1 ((abs_sub_eq_iff (absValue_lt.2 hlt)).1 htie)
        exact .inr (((habove (Nat.lt_of_lt_of_le hlt hy')).of_lt hlt).2 hmiddle)

/-- The values that round to a number have no gaps. -/
theorem IsNearest.between {negative : Bool} {u v w : ℚ} {x : Binary64}
    (hu : IsNearest negative u x) (hw : IsNearest negative w x) (huv : u ≤ v) (hvw : v ≤ w) :
    IsNearest negative v x := by
  rw [isNearest_iff] at *
  have hlow : u * perOne ≤ v * perOne := mul_le_mul_of_nonneg_right huv perOne_pos.le
  have hhigh : v * perOne ≤ w * perOne := mul_le_mul_of_nonneg_right hvw perOne_pos.le
  exact ⟨hu.1, hu.2.1, hu.2.2.1.mono hlow, fun hfinite => (hw.2.2.2 hfinite).mono hhigh⟩

/-- A value has one nearest number of a sign. -/
theorem IsNearest.unique {negative : Bool} {v : ℚ} {x y : Binary64} (hx : IsNearest negative v x)
    (hy : IsNearest negative v y) : x = y := by
  obtain ⟨hxsign, hxle, hxbelow, hxabove⟩ := isNearest_iff.1 hx
  obtain ⟨hysign, hyle, hybelow, hyabove⟩ := isNearest_iff.1 hy
  have hmagnitude : x.magnitude = y.magnitude := by
    rcases Nat.lt_trichotomy x.magnitude y.magnitude with hlt | heq | hlt
    · exact absurd hlt (not_lt_of_reaches (hxabove (Nat.lt_of_lt_of_le hlt hyle)) hybelow)
    · exact heq
    · exact absurd hlt (not_lt_of_reaches (hyabove (Nat.lt_of_lt_of_le hlt hxle)) hxbelow)
  rw [← ofMagnitude_magnitude x, ← ofMagnitude_magnitude y, hxsign, hysign, hmagnitude]

/-! ## Rounding a quotient -/

/-- What is rounded is at most a half away, and exactly a half only from an even number. -/
theorem roundHalfEven_spec (num : Nat) {den : Nat} (hden : 0 < den) :
    let r := roundHalfEven num den
    (2 * num ≤ (2 * r + 1) * den ∧ (2 * num = (2 * r + 1) * den → r % 2 = 0)) ∧
      2 * r * den ≤ 2 * num + den ∧ (2 * r * den = 2 * num + den → r % 2 = 0) := by
  intro r
  have hnum : num = num / den * den + num % den := (Nat.div_add_mod' num den).symm
  have hmod : num % den < den := Nat.mod_lt num hden
  have hr : r = num / den ∧ 2 * (num % den) ≤ den ∧ (2 * (num % den) = den → r % 2 = 0) ∨
      r = num / den + 1 ∧ den ≤ 2 * (num % den) ∧ (2 * (num % den) = den → r % 2 = 0) := by
    simp only [r, roundHalfEven]
    split_ifs <;> omega
  generalize num / den = k at *
  generalize num % den = j at *
  rcases hr with ⟨hr, hj, heven⟩ | ⟨hr, hj, heven⟩
  · have hright : (2 * r + 1) * den = 2 * (k * den) + den := by
      rw [hr]
      ring
    have hleft : 2 * r * den = 2 * (k * den) := by
      rw [hr]
      ring
    omega
  · have hright : (2 * r + 1) * den = 2 * (k * den) + 3 * den := by
      rw [hr]
      ring
    have hleft : 2 * r * den = 2 * (k * den) + 2 * den := by
      rw [hr]
      ring
    omega

/-- A whole number of ulps: as many as a significand can count, and one more. -/
theorem unitsOf_ulps {ulp r : Nat} (hlow : ulp = 0 ∨ Nat.pow 2 52 ≤ r) (hr : r ≤ Nat.pow 2 53) :
    unitsOf (ulp * Nat.pow 2 52 + r) = r * Nat.pow 2 ulp := by
  have hpow : Nat.pow 2 53 = 2 * Nat.pow 2 52 := rfl
  rcases Nat.lt_or_ge r (Nat.pow 2 52) with hsmall | hnormal
  · obtain rfl := hlow.resolve_right (Nat.not_le_of_lt hsmall)
    rw [Nat.zero_mul, Nat.zero_add, unitsOf_of_lt hsmall]
    exact (Nat.mul_one r).symm
  · obtain ⟨f, rfl⟩ := Nat.exists_eq_add_of_le hnormal
    have hcarry : ulp * Nat.pow 2 52 + (Nat.pow 2 52 + f) = (ulp + 1) * Nat.pow 2 52 + f := by
      ring
    rw [hcarry]
    rcases Nat.lt_or_ge f (Nat.pow 2 52) with hf | hf
    · exact unitsOf_mul_add hf ulp
    · obtain rfl : f = Nat.pow 2 52 := by omega
      have hdouble : Nat.pow 2 (ulp + 1) = 2 * Nat.pow 2 ulp := Nat.pow_succ'
      have htop : (ulp + 1) * Nat.pow 2 52 + Nat.pow 2 52 = (ulp + 1 + 1) * Nat.pow 2 52 + 0 := by
        ring
      rw [htop, unitsOf_mul_add (by decide), hdouble]
      ring

section
variable {q : ℚ} {ulp r : Nat}

/-- Whole binades do not change whether a magnitude is even. -/
theorem mod_two_ulps (ulp r : Nat) : (ulp * Nat.pow 2 52 + r) % 2 = r % 2 := by
  rw [two_pow_52]
  omega

/-- At most half an ulp above a whole number of ulps. The next number is an ulp away, or further. -/
theorem reachesFromAbove_ulps (hlow : ulp = 0 ∨ Nat.pow 2 52 ≤ r) (hr : r ≤ Nat.pow 2 53)
    (hq : 2 * q ≤ (2 * r + 1) * (Nat.pow 2 ulp : Nat))
    (heven : 2 * q = (2 * r + 1) * (Nat.pow 2 ulp : Nat) → r % 2 = 0) :
    ReachesFromAbove q (ulp * Nat.pow 2 52 + r) := by
  have hexp : ulp ≤ (ulp * Nat.pow 2 52 + r) / Nat.pow 2 52 - 1 := by
    rw [two_pow_52] at hlow ⊢
    omega
  have hgap : ((Nat.pow 2 ulp : Nat) : ℚ) ≤
      (Nat.pow 2 ((ulp * Nat.pow 2 52 + r) / Nat.pow 2 52 - 1) : Nat) :=
    Nat.cast_le.2 (Nat.pow_le_pow_right (by decide) hexp)
  rw [ReachesFromAbove, unitsOf_succ, unitsOf_ulps hlow hr, mod_two_ulps]
  push_cast at hq heven hgap ⊢
  exact ⟨by linarith, fun htie => heven (by linarith)⟩

/-- At most half an ulp below a whole number of ulps. The number before is an ulp away, and only
half as much if a power of two is passed; then the value is not below that power. -/
theorem reachesFromBelow_ulps (hlow : ulp = 0 ∨ Nat.pow 2 52 ≤ r) (hr : r ≤ Nat.pow 2 53)
    (hq : 2 * (r : ℚ) * (Nat.pow 2 ulp : Nat) ≤ 2 * q + (Nat.pow 2 ulp : Nat))
    (heven : 2 * (r : ℚ) * (Nat.pow 2 ulp : Nat) = 2 * q + (Nat.pow 2 ulp : Nat) → r % 2 = 0)
    (hnormal : ulp = 0 ∨ ((Nat.pow 2 52 * Nat.pow 2 ulp : Nat) : ℚ) ≤ q) :
    ReachesFromBelow q (ulp * Nat.pow 2 52 + r) := by
  intro n hn
  have hstep : unitsOf n + Nat.pow 2 (n / Nat.pow 2 52 - 1) = r * Nat.pow 2 ulp := by
    rw [← unitsOf_succ, hn, unitsOf_ulps hlow hr]
  have hstep' : (unitsOf n : ℚ) + (Nat.pow 2 (n / Nat.pow 2 52 - 1) : Nat) =
      r * (Nat.pow 2 ulp : Nat) := by
    rw [← Nat.cast_add, hstep, Nat.cast_mul]
  rw [← hn, hn, unitsOf_ulps hlow hr, mod_two_ulps, Nat.cast_mul]
  by_cases hexp : n / Nat.pow 2 52 - 1 = ulp
  · rw [hexp] at hstep'
    exact ⟨by linarith, fun htie => heven (by linarith)⟩
  · -- the number before is nearer, which happens only below a power of two
    have hpower : ulp ≠ 0 ∧ r = Nat.pow 2 52 := by
      have hpow : Nat.pow 2 53 = 2 * Nat.pow 2 52 := rfl
      rw [hpow] at hr
      rw [two_pow_52] at *
      omega
    have hbeyond := hnormal.resolve_left hpower.1
    rw [← hpower.2, Nat.cast_mul] at hbeyond
    have hpos : (0 : ℚ) < (Nat.pow 2 (n / Nat.pow 2 52 - 1) : Nat) :=
      Nat.cast_pos.2 (Nat.pow_pos (by decide))
    exact ⟨by linarith, fun htie => absurd htie (by linarith)⟩

end

/-- The number of ulps in a value has 53 binary places, and fewer only if an ulp is a unit. -/
theorem ulps_bounds (n : Nat) :
    let ulp := n.log2 - 52
    n < Nat.pow 2 53 * Nat.pow 2 ulp ∧ (ulp = 0 ∨ Nat.pow 2 52 * Nat.pow 2 ulp ≤ n) := by
  intro ulp
  have hlt : n < 2 ^ (n.log2 + 1) := Nat.lt_log2_self
  rcases Nat.lt_or_ge 52 n.log2 with hlog | hlog
  · have hulp : n.log2 = 52 + ulp := by omega
    have hn : n ≠ 0 := by
      rintro rfl
      exact absurd hlog (by decide)
    have hle : 2 ^ n.log2 ≤ n := Nat.log2_self_le hn
    rw [hulp] at hlt hle
    refine ⟨Nat.lt_of_lt_of_eq hlt ?_, .inr (Nat.le_trans (Nat.le_of_eq ?_) hle)⟩
    · rw [Nat.add_right_comm]
      exact Nat.pow_add 2 53 ulp
    · exact (Nat.pow_add 2 52 ulp).symm
  · have hulp : ulp = 0 := Nat.sub_eq_zero_of_le hlog
    rw [hulp]
    have hpow : 2 ^ (n.log2 + 1) ≤ 2 ^ 53 := Nat.pow_le_pow_right (Nat.le_succ 1) (by omega)
    exact ⟨Nat.lt_of_lt_of_le hlt hpow, .inl rfl⟩

/-- The magnitude before the cut at the infinities. -/
theorem reaches_roundHalfEven (scaled : Nat) {den : Nat} (hden : 0 < den) :
    let ulp := (scaled / den).log2 - 52
    let m := ulp * Nat.pow 2 52 + roundHalfEven scaled (den * Nat.pow 2 ulp)
    ReachesFromBelow (scaled / den) m ∧ ReachesFromAbove (scaled / den) m := by
  intro ulp m
  have hstep : 0 < den * Nat.pow 2 ulp := Nat.mul_pos hden (Nat.pow_pos (by decide))
  have hdenq : (0 : ℚ) < den := Nat.cast_pos.2 hden
  obtain ⟨hupper, hlower⟩ := ulps_bounds (scaled / den)
  rw [Nat.div_lt_iff_lt_mul hden] at hupper
  rw [Nat.le_div_iff_mul_le hden] at hlower
  obtain ⟨⟨hright, hrighteven⟩, hleft, hlefteven⟩ := roundHalfEven_spec scaled hstep
  have hm : m = ulp * Nat.pow 2 52 + roundHalfEven scaled (den * Nat.pow 2 ulp) := rfl
  generalize roundHalfEven scaled (den * Nat.pow 2 ulp) = r at *
  have hr : r < Nat.pow 2 53 + 1 :=
    Nat.lt_of_mul_lt_mul_right (a := den * Nat.pow 2 ulp) (by linarith)
  have hlow : ulp = 0 ∨ Nat.pow 2 52 < r + 1 := by
    refine hlower.imp_right fun hbelow => ?_
    exact Nat.lt_of_mul_lt_mul_right (a := den * Nat.pow 2 ulp) (by linarith)
  rw [Nat.lt_succ_iff] at hr hlow
  have hdouble : 2 * ((scaled : ℚ) / den) = 2 * scaled / den := (mul_div_assoc ..).symm
  rw [hm]
  refine ⟨reachesFromBelow_ulps hlow hr ?_ ?_ ?_, reachesFromAbove_ulps hlow hr ?_ ?_⟩
  · rw [hdouble, div_add' _ _ _ hdenq.ne', le_div_iff₀ hdenq]
    exact_mod_cast (by linarith : 2 * r * Nat.pow 2 ulp * den ≤ 2 * scaled + Nat.pow 2 ulp * den)
  · rw [hdouble, div_add' _ _ _ hdenq.ne', eq_div_iff hdenq.ne']
    intro htie
    have htie : 2 * r * Nat.pow 2 ulp * den = 2 * scaled + Nat.pow 2 ulp * den := by
      exact_mod_cast htie
    exact hlefteven (by linarith)
  · rw [le_div_iff₀ hdenq]
    exact hlower.imp_right fun hbelow => by exact_mod_cast hbelow
  · rw [hdouble, div_le_iff₀ hdenq]
    exact_mod_cast (by linarith : 2 * scaled ≤ (2 * r + 1) * Nat.pow 2 ulp * den)
  · rw [hdouble, div_eq_iff hdenq.ne']
    intro htie
    have htie : 2 * scaled = (2 * r + 1) * Nat.pow 2 ulp * den := by
      exact_mod_cast htie
    exact hrighteven (by linarith)

/-- What is beyond the finite numbers is rounded to infinity. -/
theorem ReachesFromBelow.min {q : ℚ} {m : Nat} (h : ReachesFromBelow q m) (n : Nat)
    (heven : n % 2 = 0) : ReachesFromBelow q (min m n) := by
  rcases Nat.lt_or_ge n m with hlt | hle
  · rw [Nat.min_eq_right hlt.le]
    rintro k rfl
    have hmiddle := (h.of_lt hlt).1
    have hk : (unitsOf k : ℚ) < unitsOf m := unitsOf_cast_lt.2 (by omega)
    exact ⟨by linarith, fun _ => heven⟩
  · rwa [Nat.min_eq_left hle]

/-- The number that a quotient is rounded to is the nearest. -/
theorem isNearest_nearest (negative : Bool) (num : Nat) {den : Nat} (hden : 0 < den) :
    IsNearest negative (num / den) (nearest negative num den) := by
  have hscaled : (num : ℚ) / den * perOne = (num * Nat.pow 2 1074 : Nat) / den := by
    rw [div_mul_eq_mul_div, perOne, Nat.cast_mul]
  have hcut : nearestMagnitude num den ≤ infinityMagnitude := Nat.min_le_right ..
  have hword : nearestMagnitude num den < Nat.pow 2 63 :=
    Nat.lt_of_le_of_lt hcut infinityMagnitude_lt
  obtain ⟨hbelow, habove⟩ := reaches_roundHalfEven (num * Nat.pow 2 1074) hden
  rw [isNearest_iff, nearest, isNegative_ofMagnitude negative hword,
    magnitude_ofMagnitude negative hword, hscaled]
  refine ⟨rfl, hcut, hbelow.min _ (by decide), fun hfinite => ?_⟩
  have huncut := Nat.lt_of_not_le fun h => absurd (Nat.min_eq_right h) hfinite.ne
  rwa [nearestMagnitude, Nat.min_eq_left huncut.le]

/-! ## Rounding a decimal -/

/-- A power of ten as a rational number. -/
theorem ten_zpow_natCast (n : Nat) : (10 : ℚ) ^ (n : Int) = (Nat.pow 10 n : Nat) := by
  rw [zpow_natCast, Nat.pow_eq, Nat.cast_pow, Nat.cast_ofNat]

/-- A negative power of ten as a rational number. -/
theorem ten_zpow_neg (n : Nat) : (10 : ℚ) ^ (-n : Int) = ((Nat.pow 10 n : Nat) : ℚ)⁻¹ := by
  rw [zpow_neg, ten_zpow_natCast]

/-- Powers of ten are positive. -/
theorem ten_zpow_pos (e : Int) : (0 : ℚ) < 10 ^ e :=
  zpow_pos (by norm_num) e

/-- Powers of ten grow with the exponent. -/
theorem ten_zpow_le {e e' : Int} (h : e ≤ e') : (10 : ℚ) ^ e ≤ 10 ^ e' :=
  zpow_le_zpow_right₀ (by norm_num) h

section
variable {k : Nat}

/-- A number is below the power of ten that has one digit more. -/
theorem lt_ten_pow_length (k : Nat) : k < 10 ^ (Nat.toDigits 10 k).length :=
  (Nat.length_toDigits_le_iff (by decide) Nat.length_toDigits_pos).1 (Nat.le_refl _)

/-- A number is at least the power of ten that has as many digits. -/
theorem ten_pow_length_le (hk : k ≠ 0) : 10 ^ ((Nat.toDigits 10 k).length - 1) ≤ k := by
  by_contra h
  have hlength : 0 < (Nat.toDigits 10 k).length := Nat.length_toDigits_pos
  rcases Nat.eq_zero_or_pos ((Nat.toDigits 10 k).length - 1) with hone | hmore
  · rw [hone] at h
    exact h (Nat.pos_of_ne_zero hk)
  · have := (Nat.length_toDigits_le_iff (b := 10) (by decide) hmore).2 (Nat.lt_of_not_le h)
    omega

/-- A number with so many digits is below the power of ten that has one more. -/
theorem mul_zpow_lt (k : Nat) (e : Int) :
    (k : ℚ) * 10 ^ e < 10 ^ ((Nat.toDigits 10 k).length + e) := by
  have hk : (k : ℚ) < 10 ^ (Nat.toDigits 10 k).length := by exact_mod_cast lt_ten_pow_length k
  rw [zpow_add₀ (by norm_num), zpow_natCast]
  exact mul_lt_mul_of_pos_right hk (ten_zpow_pos e)

/-- A number is at least the power of ten with as many digits, wherever the decimal point is. -/
theorem le_mul_zpow (hk : k ≠ 0) (e : Int) :
    (10 : ℚ) ^ ((Nat.toDigits 10 k).length - 1 + e) ≤ k * 10 ^ e := by
  have hlength : 1 ≤ (Nat.toDigits 10 k).length := Nat.length_toDigits_pos
  have hk : (10 : ℚ) ^ ((Nat.toDigits 10 k).length - 1) ≤ k := by
    exact_mod_cast ten_pow_length_le hk
  rw [zpow_add₀ (by norm_num), ← Nat.cast_one, ← Nat.cast_sub hlength, zpow_natCast]
  exact mul_le_mul_of_nonneg_right hk (ten_zpow_pos e).le

end

/-- What is less than half a unit is rounded to zero. -/
theorem isNearest_zero (negative : Bool) {v : ℚ} (hv : 2 * (v * perOne) < 1) :
    IsNearest negative v (ofMagnitude negative 0) := by
  have hword : 0 < Nat.pow 2 63 := by decide
  rw [isNearest_iff, isNegative_ofMagnitude negative hword, magnitude_ofMagnitude negative hword]
  refine ⟨rfl, Nat.zero_le _, nofun, fun _ => ⟨?_, fun _ => rfl⟩⟩
  rw [unitsOf_of_lt (by decide), unitsOf_of_lt (by decide)]
  push_cast
  linarith

/-- What has reached the power of two after the finite numbers is rounded to infinity. -/
theorem isNearest_infinity (negative : Bool) {v : ℚ}
    (hv : (unitsOf infinityMagnitude : ℚ) ≤ v * perOne) :
    IsNearest negative v (infinity negative) := by
  rw [infinity, isNearest_iff, isNegative_ofMagnitude negative infinityMagnitude_lt,
    magnitude_ofMagnitude negative infinityMagnitude_lt]
  refine ⟨rfl, Nat.le_refl _, fun n hn => ?_, fun h => absurd h (Nat.lt_irrefl _)⟩
  have hlt : (unitsOf n : ℚ) < unitsOf infinityMagnitude := unitsOf_cast_lt.2 (by omega)
  exact ⟨by linarith, fun _ => by decide⟩

/-- A number divided by a power of ten more than twice as great is less than one half. -/
theorem ten_zpow_neg_mul_lt_one {a n : Nat} (h : 2 * a < Nat.pow 10 n) :
    (10 : ℚ) ^ (-n : Int) * (2 * a) < 1 := by
  rw [ten_zpow_neg, inv_mul_lt_one₀ (Nat.cast_pos.2 (Nat.zero_lt_of_lt h))]
  exact_mod_cast h

/-- A comparison with a power of ten holds of rational numbers as it does of natural ones. -/
theorem le_ten_zpow_mul {a b n : Nat} (h : a ≤ Nat.pow 10 n * b) :
    (a : ℚ) ≤ 10 ^ (n : Int) * b := by
  rw [ten_zpow_natCast]
  exact_mod_cast h

/-- A decimal is read as the nearest number. -/
theorem isNearest_ofDecimal (negative : Bool) (coefficient : Nat) (e : Int) :
    IsNearest negative (coefficient * 10 ^ e) (ofDecimal negative coefficient e) := by
  unfold ofDecimal
  dsimp only
  split
  · next hsmall =>
    refine isNearest_zero negative ?_
    rcases hsmall with rfl | hsmall
    · norm_num
    · have hvalue : (coefficient : ℚ) * 10 ^ e < 10 ^ (-(325 : Nat) : Int) :=
        (mul_zpow_lt coefficient e).trans_le (ten_zpow_le (by omega))
      calc
        2 * (coefficient * 10 ^ e * perOne) = coefficient * 10 ^ e * (2 * perOne) := by ring
        _ < 10 ^ (-(325 : Nat) : Int) * (2 * perOne) :=
          mul_lt_mul_of_pos_right hvalue (mul_pos two_pos perOne_pos)
        _ < 1 := ten_zpow_neg_mul_lt_one (by decide +kernel)
  · next hsmall =>
    obtain ⟨hcoefficient, -⟩ := not_or.1 hsmall
    split_ifs with hlarge hwhole
    · refine isNearest_infinity negative ?_
      have hvalue : (10 : ℚ) ^ ((310 : Nat) : Int) ≤ coefficient * 10 ^ e :=
        (ten_zpow_le (by omega)).trans (le_mul_zpow hcoefficient e)
      calc
        (unitsOf infinityMagnitude : ℚ) ≤ 10 ^ ((310 : Nat) : Int) * perOne :=
          le_ten_zpow_mul (by decide +kernel)
        _ ≤ coefficient * 10 ^ e * perOne := mul_le_mul_of_nonneg_right hvalue perOne_pos.le
    · obtain ⟨n, rfl⟩ := Int.eq_ofNat_of_zero_le hwhole
      have hnearest := isNearest_nearest negative (coefficient * Nat.pow 10 n) Nat.one_pos
      rwa [Nat.cast_one, div_one, Nat.cast_mul, ← ten_zpow_natCast] at hnearest
    · obtain ⟨n, rfl⟩ := Int.exists_eq_neg_ofNat (Int.le_of_not_le hwhole)
      have hpower : 0 < Nat.pow 10 n := Nat.pow_pos (by decide)
      have hnearest := isNearest_nearest negative coefficient hpower
      rw [div_eq_mul_inv, ← ten_zpow_neg] at hnearest
      rwa [Int.natAbs_neg]

end TagTemplate.Binary64
