import Mathlib.Data.Nat.Dist
import Mathlib.Tactic.Linarith
import Mathlib.Tactic.Ring
import TagTemplate.Number.Shortest
import TagTemplate.Proofs.Rounding

/-!
# The shortest decimal

The search of `Binary64.shortest` compares whole numbers on one scale. The points of a grid that it
takes for points of the rounding interval are the multiples of the grid's power of ten that round
to the number (`contains_iff_isNearest`), and it comes to the coarsest grid that has one and to the
nearest of its points (`Interval.search_spec`, `shortest_spec`). So the decimal found rounds to the
number, does not end in a zero, no decimal that rounds to the number has fewer digits, and none with
as many is nearer to it (`isShortest_shortest`).
-/

namespace TagTemplate.Binary64

/-! ## The rounding interval -/

section
variable {x : Binary64}

/-- The middle of the interval is the number. -/
theorem interval_mid (x : Binary64) : x.interval.mid = 4 * unitsOf x.magnitude := by
  rw [interval, units_eq]

/-- The upper end of the interval is in the middle of the number and the next. -/
theorem interval_high (x : Binary64) :
    x.interval.high = 2 * (unitsOf x.magnitude + unitsOf (x.magnitude + 1)) := by
  have hulp : x.magnitude / Nat.pow 2 52 - 1 = x.ulpExponent := rfl
  rw [interval, units_eq, unitsOf_succ, hulp]
  ring

/-- The lower end of the interval is in the middle of the number and the one before. -/
theorem interval_low {n : Nat} (hn : n + 1 = x.magnitude) :
    x.interval.low = 2 * (unitsOf n + unitsOf x.magnitude) := by
  have hexponent : x.exponentField = (n + 1) / Nat.pow 2 52 := by rw [hn]; rfl
  have hfraction : x.fraction = (n + 1) % Nat.pow 2 52 := by rw [hn]; rfl
  rw [interval, units_eq, ulpExponent, hexponent, hfraction, ← hn, unitsOf_succ]
  dsimp only
  split
  · next hpower =>
    have hdouble : (n + 1) / Nat.pow 2 52 - 1 = n / Nat.pow 2 52 - 1 + 1 := by
      rw [two_pow_52] at *
      omega
    have hpow : Nat.pow 2 (n / Nat.pow 2 52 - 1 + 1) = 2 * Nat.pow 2 (n / Nat.pow 2 52 - 1) :=
      Nat.pow_succ'
    rw [hdouble, hpow]
    omega
  · next hpower =>
    have hsame : (n + 1) / Nat.pow 2 52 - 1 = n / Nat.pow 2 52 - 1 := by
      rw [two_pow_52] at *
      omega
    rw [hsame]
    omega

/-- The ends belong to the interval if the significand is even. -/
theorem interval_closed (x : Binary64) : x.interval.closed = true ↔ x.magnitude % 2 = 0 := by
  have hfraction : x.fraction % 2 = x.magnitude % 2 := Nat.mod_mod_of_dvd _ (by decide)
  rw [interval, decide_eq_true_iff, hfraction]

end

/-- A point lies in an interval if it is between the ends, and at an end only of a closed one. -/
theorem Interval.contains_iff {i : Interval} {point : Nat} :
    i.contains point = true ↔
      (i.low * quarterScale ≤ point ∧ (i.low * quarterScale = point → i.closed = true)) ∧
        point ≤ i.high * quarterScale ∧ (point = i.high * quarterScale → i.closed = true) := by
  rw [contains]
  cases i.closed with
  | true => simp
  | false =>
    simp only [Bool.false_eq_true, if_false, Bool.and_eq_true, decide_eq_true_iff, imp_false]
    omega

/-- The points of an interval have no gaps. -/
theorem Interval.contains_between {i : Interval} {a b c : Nat} (ha : i.contains a = true)
    (hc : i.contains c = true) (hab : a ≤ b) (hbc : b ≤ c) : i.contains b = true := by
  rw [contains_iff] at *
  refine ⟨⟨by omega, fun h => ha.1.2 (by omega)⟩, by omega, fun h => hc.2.2 (by omega)⟩

/-- The value of a multiple of a power of ten. -/
def gridValue (place k : Nat) : ℚ :=
  k * 10 ^ ((place : Int) - 1074)

/-- The scale cancels the negative exponent of a power of ten. -/
theorem ten_zpow_sub_mul {n scale : Nat} {e : Int} (hscale : scale = Nat.pow 10 n) (he : e = n)
    (m : Nat) : (10 : ℚ) ^ (m - e) * scale = (Nat.pow 10 m : Nat) := by
  rw [he, hscale, ← ten_zpow_natCast, ← ten_zpow_natCast, ← zpow_add₀ (by norm_num),
    sub_add_cancel]

/-- The scale of the comparisons. -/
theorem gridValue_scaled (place k : Nat) :
    4 * (gridValue place k * perOne) * quarterScale = (k * gridStep place : Nat) := by
  have hpower : (10 : ℚ) ^ ((place : Int) - 1074) * quarterScale = (Nat.pow 10 place : Nat) :=
    ten_zpow_sub_mul (n := 1074) (by decide +kernel) rfl place
  have hquarter : Nat.pow 2 1076 = 4 * Nat.pow 2 1074 := by decide +kernel
  rw [gridValue, perOne, gridStep, hquarter]
  generalize Nat.pow 2 1074 = unit
  push_cast
  rw [← hpower]
  ring

/-- The scale is not zero. -/
theorem quarterScale_pos : 0 < quarterScale := by
  decide +kernel

section
variable {a b place k : Nat}

/-- A point on the scale is at or above the middle of two numbers. -/
theorem le_gridStep_iff :
    2 * (a + b) * quarterScale ≤ k * gridStep place ↔
      (a : ℚ) + b ≤ 2 * (gridValue place k * perOne) := by
  have hscale : (0 : ℚ) < quarterScale := Nat.cast_pos.2 quarterScale_pos
  rw [← Nat.cast_le (α := ℚ), ← gridValue_scaled, Nat.cast_mul, mul_le_mul_iff_left₀ hscale]
  push_cast
  constructor <;> intro h <;> linarith

/-- A point on the scale is at or below the middle of two numbers. -/
theorem gridStep_le_iff :
    k * gridStep place ≤ 2 * (a + b) * quarterScale ↔
      2 * (gridValue place k * perOne) ≤ (a : ℚ) + b := by
  have hscale : (0 : ℚ) < quarterScale := Nat.cast_pos.2 quarterScale_pos
  rw [← Nat.cast_le (α := ℚ), ← gridValue_scaled, Nat.cast_mul, mul_le_mul_iff_left₀ hscale]
  push_cast
  constructor <;> intro h <;> linarith

/-- A point on the scale is in the middle of two numbers. -/
theorem gridStep_eq_iff :
    k * gridStep place = 2 * (a + b) * quarterScale ↔
      2 * (gridValue place k * perOne) = (a : ℚ) + b := by
  rw [le_antisymm_iff, le_antisymm_iff, le_gridStep_iff, gridStep_le_iff]

end

/-- The multiples of a power of ten in the rounding interval are those that round to the number. -/
theorem contains_iff_isNearest {x : Binary64} (hfinite : x.isFinite = true)
    (hzero : x.magnitude ≠ 0) (place k : Nat) :
    x.interval.contains (k * gridStep place) = true ↔
      IsNearest x.isNegative (gridValue place k) x := by
  have hmagnitude : x.magnitude < infinityMagnitude := of_decide_eq_true hfinite
  obtain ⟨n, hn⟩ := Nat.exists_eq_add_one_of_ne_zero hzero
  rw [isNearest_iff, Interval.contains_iff, interval_low hn.symm, interval_high, interval_closed,
    le_gridStep_iff, gridStep_le_iff, gridStep_eq_iff, eq_comm (b := k * gridStep place),
    gridStep_eq_iff]
  refine ⟨fun h => ⟨rfl, hmagnitude.le, fun m hm => ?_, fun _ => h.2⟩,
    fun h => ⟨?_, h.2.2.2 hmagnitude⟩⟩
  · obtain rfl : m = n := by omega
    exact ⟨h.1.1, fun htie => h.1.2 htie.symm⟩
  · obtain ⟨hlow, heven⟩ := h.2.2.1 n hn.symm
    exact ⟨hlow, fun htie => heven htie.symm⟩

/-! ## The search -/

/-- The points of a grid are apart. -/
theorem gridStep_pos (place : Nat) : 0 < gridStep place :=
  Nat.mul_pos (Nat.pow_pos (by decide)) (by decide +kernel)

/-- A grid of a higher place is coarser. -/
theorem gridStep_le {place place' : Nat} (h : place ≤ place') :
    gridStep place ≤ gridStep place' :=
  Nat.mul_le_mul_right _ (Nat.pow_le_pow_right (by decide) h)

/-- The finest grid has the whole numbers of units. -/
theorem gridStep_zero_dvd {m : Nat} (hm : 4 ∣ m) : gridStep 0 ∣ m * quarterScale := by
  have hstep : gridStep 0 = 4 * Nat.pow 2 1074 := by decide +kernel
  have hscale : Nat.pow 2 1074 ∣ quarterScale := by decide +kernel
  generalize Nat.pow 2 1074 = unit at *
  rw [hstep]
  exact Nat.mul_dvd_mul hm hscale

namespace Interval

variable {i : Interval} {place k : Nat}

/-- The point that is found lies in the interval. -/
theorem contains_of_nearestOn? (h : i.nearestOn? place = some k) :
    i.contains (k * gridStep place) = true := by
  rw [nearestOn?] at h
  split at h
  · next hbelow habove =>
    obtain rfl := Option.some.inj h
    split
    · exact hbelow
    · exact habove
  · next hbelow habove =>
    obtain rfl := Option.some.inj h
    exact hbelow
  · next hbelow habove =>
    obtain rfl := Option.some.inj h
    exact habove
  · cases h

/-- The last point of the grid up to the middle is not above it. -/
theorem multiple_below_le (i : Interval) (place : Nat) :
    i.mid * quarterScale / gridStep place * gridStep place ≤ i.mid * quarterScale :=
  Nat.div_mul_le_self ..

/-- The point of the grid after that is not below the middle. -/
theorem le_multiple_above (i : Interval) (place : Nat) :
    i.mid * quarterScale ≤ (i.mid * quarterScale / gridStep place + 1) * gridStep place := by
  rw [Nat.mul_comm _ (gridStep place)]
  exact (Nat.lt_mul_div_succ _ (gridStep_pos place)).le

/-- If a multiple lies in the interval, so does the one next to the middle on its side. -/
theorem contains_around (hmid : i.contains (i.mid * quarterScale) = true)
    (hk : i.contains (k * gridStep place) = true) :
    let below := i.mid * quarterScale / gridStep place
    (k ≤ below ∧ i.contains (below * gridStep place) = true) ∨
      (below + 1 ≤ k ∧ i.contains ((below + 1) * gridStep place) = true) := by
  intro below
  rcases Nat.lt_or_ge below k with hlt | hge
  · refine .inr ⟨hlt, ?_⟩
    exact contains_between hmid hk (le_multiple_above i place) (Nat.mul_le_mul_right _ hlt)
  · refine .inl ⟨hge, ?_⟩
    exact contains_between hk hmid (Nat.mul_le_mul_right _ hge) (multiple_below_le i place)

/-- If neither of the multiples around the middle lies in the interval, none does. -/
theorem not_contains_of_nearestOn? (hmid : i.contains (i.mid * quarterScale) = true)
    (h : i.nearestOn? place = none) (k : Nat) : i.contains (k * gridStep place) = false := by
  by_contra hk
  rw [Bool.not_eq_false] at hk
  have haround := contains_around hmid hk
  rw [nearestOn?] at h
  split at h
  · cases h
  · cases h
  · cases h
  · next hnotbelow hnotabove =>
    rcases haround with ⟨-, hbelow⟩ | ⟨-, habove⟩
    · exact Bool.false_ne_true (hnotbelow.symm.trans hbelow)
    · exact Bool.false_ne_true (hnotabove.symm.trans habove)

/-- No multiple in the interval is nearer to the middle than the one found. -/
theorem dist_le_of_nearestOn? (hmid : i.contains (i.mid * quarterScale) = true)
    (h : i.nearestOn? place = some k) {j : Nat} (hj : i.contains (j * gridStep place) = true) :
    Nat.dist (i.mid * quarterScale) (k * gridStep place) ≤
      Nat.dist (i.mid * quarterScale) (j * gridStep place) := by
  have hbelow := multiple_below_le i place
  have habove := le_multiple_above i place
  -- a multiple is at least as far from the middle as the one next to the middle on its side
  have hside : ∀ {a b : Nat}, a ≤ b → a * gridStep place ≤ b * gridStep place :=
    fun hab => Nat.mul_le_mul_right _ hab
  have haround := contains_around hmid hj
  rw [nearestOn?] at h
  simp only [Nat.dist]
  split at h
  · obtain rfl := Option.some.inj h
    rcases haround with ⟨hle, -⟩ | ⟨hle, -⟩ <;> have := hside hle <;> split <;> omega
  · next hnotabove =>
    obtain rfl := Option.some.inj h
    rcases haround with ⟨hle, -⟩ | ⟨-, hnext⟩
    · have := hside hle
      omega
    · exact absurd (hnotabove.symm.trans hnext) Bool.false_ne_true
  · next hnotbelow _ =>
    obtain rfl := Option.some.inj h
    rcases haround with ⟨-, hnext⟩ | ⟨hle, -⟩
    · exact absurd (hnotbelow.symm.trans hnext) Bool.false_ne_true
    · have := hside hle
      omega
  · cases h

/-- The search comes to a decimal in the interval that is on the coarsest of the grids that have
one, and the nearest to the middle of those on this grid. -/
theorem search_spec (hmid : i.contains (i.mid * quarterScale) = true) (hquarters : 4 ∣ i.mid)
    (top : Nat) :
    ∃ place k : Nat, i.search top = ⟨k, (place : Int) - 1074⟩ ∧ place ≤ top ∧
      i.contains (k * gridStep place) = true ∧
      (∀ j, i.contains (j * gridStep place) = true →
        Nat.dist (i.mid * quarterScale) (k * gridStep place) ≤
          Nat.dist (i.mid * quarterScale) (j * gridStep place)) ∧
      ∀ coarser, place < coarser → coarser ≤ top →
        ∀ j, i.contains (j * gridStep coarser) = false := by
  induction top with
  | zero =>
    have hwhole := gridStep_zero_dvd hquarters
    refine ⟨0, _, rfl, Nat.le_refl 0, ?_, fun j _ => ?_, fun coarser hlt hle => by omega⟩
    · rwa [Nat.div_mul_cancel hwhole]
    · rw [Nat.div_mul_cancel hwhole, Nat.dist_self]
      exact Nat.zero_le _
  | succ top ih =>
    rw [search]
    split
    · next k hfound =>
      refine ⟨top + 1, k, rfl, Nat.le_refl _, contains_of_nearestOn? hfound,
        fun j hj => dist_le_of_nearestOn? hmid hfound hj, ?_⟩
      exact fun coarser hlt hle => absurd hle (Nat.not_le_of_lt hlt)
    · next hnone =>
      obtain ⟨place, k, hsearch, hplace, hcontains, hnearest, hcoarser⟩ := ih
      refine ⟨place, k, hsearch, Nat.le_succ_of_le hplace, hcontains, hnearest, ?_⟩
      intro coarser hlt hle
      rcases Nat.le_succ_iff.1 hle with hle | rfl
      · exact hcoarser coarser hlt hle
      · exact not_contains_of_nearestOn? hmid hnone

end Interval

section
variable {x : Binary64}

/-- A number rounds to itself. -/
theorem contains_mid (hzero : x.magnitude ≠ 0) :
    x.interval.contains (x.interval.mid * quarterScale) = true := by
  obtain ⟨n, hn⟩ := Nat.exists_eq_add_one_of_ne_zero hzero
  have hlow : unitsOf n < unitsOf x.magnitude := unitsOf_strictMono (by omega)
  have hhigh : unitsOf x.magnitude < unitsOf (x.magnitude + 1) := unitsOf_strictMono (by omega)
  have hbelow : x.interval.low * quarterScale < x.interval.mid * quarterScale := by
    rw [interval_low hn.symm, interval_mid, Nat.mul_lt_mul_right quarterScale_pos]
    omega
  have habove : x.interval.mid * quarterScale < x.interval.high * quarterScale := by
    rw [interval_high, interval_mid, Nat.mul_lt_mul_right quarterScale_pos]
    omega
  rw [Interval.contains_iff]
  exact ⟨⟨hbelow.le, fun h => absurd h hbelow.ne⟩, habove.le, fun h => absurd h habove.ne⟩

/-- Zero is in the interval of no other number. -/
theorem not_contains_zero (hzero : x.magnitude ≠ 0) : x.interval.contains 0 = false := by
  obtain ⟨n, hn⟩ := Nat.exists_eq_add_one_of_ne_zero hzero
  have hpos : unitsOf n < unitsOf x.magnitude := unitsOf_strictMono (by omega)
  by_contra h
  rw [Bool.not_eq_false, Interval.contains_iff, interval_low hn.symm] at h
  have hle := h.1.1
  have := Nat.mul_pos (by omega : 0 < 2 * (unitsOf n + unitsOf x.magnitude)) quarterScale_pos
  omega

/-- No finite number reaches the first grid that is not searched. -/
theorem not_contains_of_large (hfinite : x.isFinite = true) {place : Nat} (hplace : 1383 ≤ place)
    {k : Nat} (hk : k ≠ 0) : x.interval.contains (k * gridStep place) = false := by
  have hmagnitude : x.magnitude < infinityMagnitude := of_decide_eq_true hfinite
  have htop : 4 * unitsOf infinityMagnitude * quarterScale < gridStep 1383 := by decide +kernel
  have hhigh : x.interval.high ≤ 4 * unitsOf infinityMagnitude := by
    have hfirst := unitsOf_strictMono.monotone hmagnitude.le
    have hsecond : unitsOf (x.magnitude + 1) ≤ unitsOf infinityMagnitude :=
      unitsOf_strictMono.monotone hmagnitude
    rw [interval_high]
    omega
  have hbeyond : x.interval.high * quarterScale < k * gridStep place :=
    calc
      x.interval.high * quarterScale
      _ ≤ 4 * unitsOf infinityMagnitude * quarterScale := Nat.mul_le_mul_right _ hhigh
      _ < gridStep 1383 := htop
      _ ≤ gridStep place := gridStep_le hplace
      _ ≤ k * gridStep place := Nat.le_mul_of_pos_left _ (Nat.pos_of_ne_zero hk)
  by_contra h
  rw [Bool.not_eq_false, Interval.contains_iff] at h
  exact absurd hbeyond (Nat.not_lt_of_le h.2.1)

end

/-! ## Distances -/

/-- The distance of natural numbers is that of rational ones. -/
theorem cast_dist (a b : Nat) : (Nat.dist a b : ℚ) = |(a : ℚ) - b| := by
  rcases Nat.le_total a b with hle | hle
  · have hle' : (a : ℚ) ≤ b := Nat.cast_le.2 hle
    rw [Nat.dist_eq_sub_of_le hle, Nat.cast_sub hle, abs_of_nonpos (by linarith), neg_sub]
  · have hle' : (b : ℚ) ≤ a := Nat.cast_le.2 hle
    rw [Nat.dist_eq_sub_of_le_right hle, Nat.cast_sub hle, abs_of_nonneg (by linarith)]

/-- The scale of the comparisons is positive. -/
theorem scale_pos : (0 : ℚ) < 4 * perOne * quarterScale :=
  mul_pos (mul_pos four_pos perOne_pos) (Nat.cast_pos.2 quarterScale_pos)

/-- The units of a number are its absolute value in units. -/
theorem unitsOf_magnitude (x : Binary64) : (unitsOf x.magnitude : ℚ) = x.absValue * perOne := by
  rw [absValue_eq, div_mul_cancel₀ _ perOne_pos.ne']

/-- Distances on the scale of the comparisons. -/
theorem dist_gridStep (x : Binary64) (place k : Nat) :
    (Nat.dist (x.interval.mid * quarterScale) (k * gridStep place) : ℚ) =
      |x.absValue - gridValue place k| * (4 * perOne * quarterScale) := by
  rw [cast_dist, ← gridValue_scaled, interval_mid, ← abs_of_pos scale_pos, ← abs_mul]
  push_cast
  rw [unitsOf_magnitude]
  congr 1
  ring

/-- The least numbers are a unit apart, and the first of them that a power of ten is close to is
two units. -/
theorem gridStep_le_of_least {m : Nat} (hzero : m ≠ 0) (hm : m < 10) {place : Nat}
    (hhigh : gridStep place ≤ (4 * m + 2) * quarterScale) :
    19 * gridStep place ≤ 80 * m * quarterScale := by
  have hone : quarterScale ≤ m * quarterScale :=
    Nat.le_mul_of_pos_left _ (Nat.pos_of_ne_zero hzero)
  have hnine : m * quarterScale ≤ 9 * quarterScale := Nat.mul_le_mul_right _ (by omega)
  have hshape : (4 * m + 2) * quarterScale = 4 * (m * quarterScale) + 2 * quarterScale := by ring
  have hshape' : 80 * m * quarterScale = 80 * (m * quarterScale) := by ring
  rw [hshape] at hhigh
  rw [hshape']
  rcases Nat.lt_trichotomy place 751 with hlt | rfl | hlt
  · have hstep : gridStep place ≤ gridStep 750 := gridStep_le (by omega)
    have hsmall : 19 * gridStep 750 ≤ 80 * quarterScale := by decide +kernel
    omega
  · have hstep : 8 * quarterScale < gridStep 751 := by decide +kernel
    have hsmall : 19 * gridStep 751 ≤ 160 * quarterScale := by decide +kernel
    have htwo : 2 * quarterScale ≤ m * quarterScale := by
      refine Nat.mul_le_mul_right _ ?_
      by_contra hless
      obtain rfl : m = 1 := by omega
      omega
    omega
  · have hstep : gridStep 752 ≤ gridStep place := gridStep_le (by omega)
    have hlarge : 38 * quarterScale < gridStep 752 := by decide +kernel
    omega

/-- A power of ten that rounds to a number is not much greater, since the neighbours of a number are
near to it unless it is one of the least. -/
theorem gridStep_le_of_contains {x : Binary64} (hzero : x.magnitude ≠ 0) {place : Nat}
    (h : x.interval.contains (1 * gridStep place) = true) :
    19 * gridStep place ≤ 80 * unitsOf x.magnitude * quarterScale := by
  rw [Interval.contains_iff, interval_high, Nat.one_mul] at h
  have hhigh := h.2.1
  rw [unitsOf_succ] at hhigh
  by_contra hfar
  have hclose : 80 * unitsOf x.magnitude <
      38 * (2 * unitsOf x.magnitude + Nat.pow 2 (x.magnitude / Nat.pow 2 52 - 1)) :=
    Nat.lt_of_mul_lt_mul_right (a := quarterScale) (by linarith)
  have hleast : x.magnitude < Nat.pow 2 52 := by
    by_contra hnormal
    have hulp := ulp_le_unitsOf (Nat.le_of_not_lt hnormal)
    have hmany := Nat.mul_le_mul_right (Nat.pow 2 (x.magnitude / Nat.pow 2 52 - 1))
      (by decide : 10 ≤ Nat.pow 2 52)
    omega
  have hulp : Nat.pow 2 (0 - 1) = 1 := rfl
  rw [Nat.div_eq_of_lt hleast, unitsOf_of_lt hleast, hulp] at hclose hhigh
  rw [unitsOf_of_lt hleast] at hfar
  exact hfar (gridStep_le_of_least hzero (by omega) (by linarith))

/-- A number is not much less than a power of ten that rounds to it. -/
theorem le_absValue_of_isNearest {x : Binary64} (hfinite : x.isFinite = true)
    (hzero : x.magnitude ≠ 0) {place : Nat} (h : IsNearest x.isNegative (gridValue place 1) x) :
    19 * gridValue place 1 ≤ 20 * x.absValue := by
  have hle := gridStep_le_of_contains hzero ((contains_iff_isNearest hfinite hzero place 1).2 h)
  have hstep := gridValue_scaled place 1
  rw [Nat.one_mul] at hstep
  rw [← Nat.cast_le (α := ℚ)] at hle
  push_cast at hle
  rw [← hstep, unitsOf_magnitude] at hle
  refine le_of_mul_le_mul_right ?_ scale_pos
  linarith

/-- Of the decimals that round to a finite number other than zero, none is on a coarser grid than
the one found, and none on its grid is nearer to the number. -/
theorem shortest_spec {x : Binary64} (hfinite : x.isFinite = true) (hzero : x.magnitude ≠ 0) :
    ∃ place k : Nat, x.shortest = ⟨k, (place : Int) - 1074⟩ ∧
      IsNearest x.isNegative (gridValue place k) x ∧
      (∀ j, IsNearest x.isNegative (gridValue place j) x →
        |x.absValue - gridValue place k| ≤ |x.absValue - gridValue place j|) ∧
      ∀ coarser, place < coarser → ∀ j, ¬IsNearest x.isNegative (gridValue coarser j) x := by
  have hquarters : 4 ∣ x.interval.mid := ⟨x.units, rfl⟩
  obtain ⟨place, k, hsearch, hplace, hcontains, hnearest, hcoarser⟩ :=
    Interval.search_spec (contains_mid hzero) hquarters (308 + 1074)
  refine ⟨place, k, ?_, ?_, fun j hj => ?_, fun coarser hlt j => ?_⟩
  · rw [shortest, if_neg hzero, hsearch]
  · exact (contains_iff_isNearest hfinite hzero place k).1 hcontains
  · have hle := hnearest j ((contains_iff_isNearest hfinite hzero place j).2 hj)
    rwa [← Nat.cast_le (α := ℚ), dist_gridStep, dist_gridStep,
      mul_le_mul_iff_left₀ scale_pos] at hle
  · rw [← contains_iff_isNearest hfinite hzero, Bool.not_eq_true]
    rcases Nat.lt_or_ge coarser 1383 with hlow | hhigh
    · exact hcoarser coarser hlt (by omega) j
    · by_cases hj : j = 0
      · rw [hj, Nat.zero_mul]
        exact not_contains_zero hzero
      · exact not_contains_of_large hfinite hhigh hj

/-! ## Other decimals -/

section
variable {x : Binary64} {place k j : Nat} {e : Int}

/-- Nothing rounds to a number other than zero from zero. -/
theorem ne_zero_of_isNearest (hfinite : x.isFinite = true) (hzero : x.magnitude ≠ 0)
    (hj : IsNearest x.isNegative (j * 10 ^ e) x) : j ≠ 0 := by
  rintro rfl
  have hgrid : ((0 : Nat) : ℚ) * 10 ^ e = gridValue 0 0 := by
    rw [gridValue, Nat.cast_zero, zero_mul, zero_mul]
  rw [hgrid, ← contains_iff_isNearest hfinite hzero, Nat.zero_mul, not_contains_zero hzero] at hj
  exact Bool.false_ne_true hj

/-- A decimal with a greater exponent is on a coarser grid. -/
theorem exponent_le (hcoarser : ∀ coarser, place < coarser →
      ∀ j, ¬IsNearest x.isNegative (gridValue coarser j) x)
    (hj : IsNearest x.isNegative (j * 10 ^ e) x) : e ≤ (place : Int) - 1074 := by
  by_contra hlt
  obtain ⟨coarser, hcoarse⟩ := Int.eq_ofNat_of_zero_le (by omega : 0 ≤ e + 1074)
  refine hcoarser coarser (by omega) j ?_
  rwa [gridValue, ← hcoarse, add_sub_cancel_right]

/-- Between a decimal and a lesser one that ends before its first digit there is a power of ten. It
rounds to the number as both do, and as it is on no coarser grid, the decimal has one digit. -/
theorem power_between (hcoarser : ∀ coarser, place < coarser →
      ∀ j, ¬IsNearest x.isNegative (gridValue coarser j) x) (hk : k ≠ 0)
    (hnearest : IsNearest x.isNegative (gridValue place k) x)
    (hj : IsNearest x.isNegative (j * 10 ^ e) x)
    (hbefore : (Nat.toDigits 10 j).length + e ≤
      (Nat.toDigits 10 k).length - 1 + ((place : Int) - 1074)) :
    (Nat.toDigits 10 k).length = 1 ∧ IsNearest x.isNegative (gridValue place 1) x := by
  have hlength : 1 ≤ (Nat.toDigits 10 k).length := Nat.length_toDigits_pos
  have hvalue : gridValue (place + ((Nat.toDigits 10 k).length - 1)) 1 =
      10 ^ (((Nat.toDigits 10 k).length : Int) - 1 + ((place : Int) - 1074)) := by
    rw [gridValue, Nat.cast_one, one_mul]
    congr 1
    omega
  have hbelow : (j : ℚ) * 10 ^ e ≤ gridValue (place + ((Nat.toDigits 10 k).length - 1)) 1 :=
    hvalue ▸ (mul_zpow_lt j e).le.trans (ten_zpow_le hbefore)
  have habove : gridValue (place + ((Nat.toDigits 10 k).length - 1)) 1 ≤ gridValue place k :=
    hvalue ▸ le_mul_zpow hk _
  have hpower := hj.between hnearest hbelow habove
  have hone : (Nat.toDigits 10 k).length - 1 = 0 := by
    by_contra hmore
    exact hcoarser _ (by omega) 1 hpower
  rw [hone, Nat.add_zero] at hpower
  exact ⟨by omega, hpower⟩

end

/-- The decimal rounds to the number and does not end in a zero. No decimal that rounds to the
number has fewer digits, and none with as many is nearer to it. -/
structure IsShortest (x : Binary64) (d : Decimal) : Prop where
  nearest : IsNearest x.isNegative (d.coefficient * 10 ^ d.exponent) x
  last : d.coefficient % 10 ≠ 0
  length_le : ∀ (j : Nat) (e : Int), IsNearest x.isNegative (j * 10 ^ e) x →
    (Nat.toDigits 10 d.coefficient).length ≤ (Nat.toDigits 10 j).length
  closest : ∀ (j : Nat) (e : Int), IsNearest x.isNegative (j * 10 ^ e) x →
    (Nat.toDigits 10 j).length ≤ (Nat.toDigits 10 d.coefficient).length →
    |x.absValue - d.coefficient * 10 ^ d.exponent| ≤ |x.absValue - j * 10 ^ e|

/-- Another decimal with as few digits is on the grid of the one found, or both have one digit and a
power of ten lies between them, which is nearer to the number than the other. -/
theorem isShortest_shortest {x : Binary64} (hfinite : x.isFinite = true)
    (hzero : x.magnitude ≠ 0) : IsShortest x x.shortest := by
  obtain ⟨place, k, hshortest, hnearest, hclosest, hcoarser⟩ := shortest_spec hfinite hzero
  have hk := ne_zero_of_isNearest hfinite hzero hnearest
  rw [hshortest]
  refine ⟨hnearest, fun hend => ?_, fun j e hj => ?_, fun j e hj hlength => ?_⟩
  · obtain ⟨k', rfl⟩ := Nat.dvd_of_mod_eq_zero hend
    have hmove : gridValue place (10 * k') = gridValue (place + 1) k' := by
      rw [gridValue, gridValue, Nat.cast_succ, add_sub_right_comm, zpow_add_one₀ (by norm_num)]
      push_cast
      ring
    exact hcoarser (place + 1) (Nat.lt_succ_self place) k' (hmove ▸ hnearest)
  · have hlength : 0 < (Nat.toDigits 10 j).length := Nat.length_toDigits_pos
    have hexponent := exponent_le hcoarser hj
    by_contra hshorter
    dsimp only at hshorter
    have hone := (power_between hcoarser hk hnearest hj (by omega)).1
    omega
  · dsimp only at hlength
    rcases (exponent_le hcoarser hj).eq_or_lt with rfl | hfiner
    · exact hclosest j hj
    · obtain ⟨hone, hpower⟩ := power_between hcoarser hk hnearest hj (by omega)
      refine (hclosest 1 hpower).trans ?_
      have hdigit : (j : ℚ) * 10 ^ e ≤ 9 * 10 ^ ((place : Int) - 1074 - 1) := by
        have hj10 : j < 10 ^ 1 :=
          (Nat.length_toDigits_le_iff (by decide) Nat.one_pos).1 (hlength.trans hone.le)
        have hj9 : (j : ℚ) ≤ 9 := by exact_mod_cast Nat.le_of_lt_succ hj10
        exact mul_le_mul hj9 (ten_zpow_le (by omega)) (ten_zpow_pos e).le (by norm_num)
      have hten : gridValue place 1 = 10 * 10 ^ ((place : Int) - 1074 - 1) := by
        rw [gridValue, Nat.cast_one, one_mul, zpow_sub_one₀ (by norm_num)]
        ring
      have hpos := ten_zpow_pos ((place : Int) - 1074 - 1)
      have hle := le_absValue_of_isNearest hfinite hzero hpower
      exact (abs_sub_le_iff_right (by linarith)).2 (by linarith)

end TagTemplate.Binary64
