import TagTemplate.Number.Reading
import TagTemplate.Proofs.IntegerText
import TagTemplate.Proofs.ShortestDecimal

/-!
# Decimal texts

The texts of finite numbers are decimals without superfluous zeros (`IsPlainDecimal`) after a minus
sign if the sign bit is set. Written by position, the shortest decimal of a number is one of them,
with as many significant digits as its coefficient has (`Decimal.positional_spec`), and such a
decimal is read as the number nearest to its value (`Binary64.read_plainText`). So the text of a
number rounds to the number, no decimal with fewer significant digits does, and none with as many
is nearer to it (`Binary64.decimalText_spec`).
-/

namespace TagTemplate

/-! ## Numerals -/

/-- A single digit is a numeral. -/
theorem isNumeral_singleton {c : Char} (hc : c.isDigit = true) : IsNumeral [c] :=
  ⟨List.cons_ne_nil c [], List.forall_mem_singleton.2 hc⟩

/-- The value of a numeral in two parts is that of the first, moved to the left, and that of the
second. -/
theorem numeralValue_append (xs ys : List Char) :
    numeralValue (xs ++ ys) = numeralValue xs * 10 ^ ys.length + numeralValue ys := by
  rw [numeralValue, Nat.ofDigitChars_append, Nat.ofDigitChars_eq_ofDigitChars_zero, Nat.mul_comm]
  rfl

/-- A numeral of zeros has the value zero. -/
theorem numeralValue_zeros (n : Nat) : numeralValue (List.replicate n '0') = 0 :=
  Nat.ofDigitChars_replicate_zero

/-- A digit is worth less than ten. -/
theorem numeralValue_lt {ds : List Char} (hds : ∀ c ∈ ds, c.isDigit = true) :
    numeralValue ds < 10 ^ ds.length := by
  induction ds with
  | nil => exact Nat.one_pos
  | cons d ds ih =>
    obtain ⟨hd, hds⟩ := List.forall_mem_cons.1 hds
    have hdigit : numeralValue [d] < 10 := by
      have hrange : 48 ≤ d.toNat ∧ d.toNat ≤ 57 := Char.isDigit_iff_toNat.1 hd
      show 10 * 0 + (d.toNat - 48) < 10
      omega
    have hrest := ih hds
    rw [← List.singleton_append, numeralValue_append, List.length_append, List.length_singleton,
      Nat.add_comm 1, Nat.pow_succ]
    nlinarith

/-- The digits of a number do not start with a zero, zero's own digit apart. -/
theorem head?_toDigits_ne {n : Nat} (hn : n ≠ 0) : (Nat.toDigits 10 n).head? ≠ some '0' := by
  intro h
  obtain ⟨ds, hds⟩ : ∃ ds, Nat.toDigits 10 n = '0' :: ds := List.head?_eq_some_iff.1 h
  have hdigits : ∀ c ∈ ds, c.isDigit = true := fun c hc =>
    (isNumeral_toDigits n).2 c (hds ▸ List.mem_cons_of_mem _ hc)
  have hlow := Binary64.ten_pow_length_le hn
  have hvalue : numeralValue ds = n := by
    rw [← numeralValue_toDigits n, hds]
    rfl
  have hhigh := numeralValue_lt hdigits
  rw [hds, List.length_cons, Nat.add_sub_cancel] at hlow
  omega

/-- No digit but zero is written as zero. -/
theorem digitChar_ne_zero : ∀ d < 10, d ≠ 0 → Nat.digitChar d ≠ '0' := by
  decide

/-- The numeral of a number that ten does not divide does not end in a zero. -/
theorem getLast?_toDigits_ne {n : Nat} (hn : n % 10 ≠ 0) :
    (Nat.toDigits 10 n).getLast? ≠ some '0' := by
  have hlast := digitChar_ne_zero (n % 10) (Nat.mod_lt n (by decide)) hn
  rw [Nat.toDigits_eq_if (by decide)]
  split
  · next hsmall =>
    rw [Nat.mod_eq_of_lt hsmall] at hlast
    rw [List.getLast?_singleton]
    exact fun h => hlast (Option.some.inj h)
  · rw [List.getLast?_append, List.getLast?_singleton]
    exact fun h => hlast (Option.some.inj h)

/-! ## Significant digits -/

/-- A numeral without the zeros at its start. -/
def dropZeros (ds : List Char) : List Char :=
  ds.dropWhile (· == '0')

/-- The number of digits of a numeral between the zeros at its start and those at its end. -/
def significantDigits (ds : List Char) : Nat :=
  (dropZeros (dropZeros ds).reverse).length

/-- Digits are zeros and then the digits without the zeros in front. -/
theorem exists_dropZeros (ds : List Char) :
    ∃ n, ds = List.replicate n '0' ++ dropZeros ds := by
  have hzeros : ∀ c ∈ ds.takeWhile (· == '0'), c = '0' := by
    intro c hc
    have hzero : (c == '0') = true := List.mem_takeWhile_imp (p := (· == '0')) hc
    exact eq_of_beq hzero
  refine ⟨(ds.takeWhile (· == '0')).length, ?_⟩
  rw [← List.eq_replicate_of_mem hzeros]
  exact List.takeWhile_append_dropWhile.symm

/-- Without zeros in front, digits that do not begin with one are left. -/
theorem dropZeros_append {ds : List Char} (hds : ds.head? ≠ some '0') (n : Nat) :
    dropZeros (List.replicate n '0' ++ ds) = ds := by
  refine dropWhile_append_of_head? (fun c hc => beq_iff_eq.2 (List.eq_of_mem_replicate hc)) ?_
  exact fun c hc => beq_false_of_ne fun hzero => hds (hzero ▸ hc)

/-- A numeral is its significant digits between zeros. -/
theorem exists_significantDigits (ds : List Char) :
    ∃ (m n : Nat) (core : List Char),
      ds = List.replicate m '0' ++ core ++ List.replicate n '0' ∧
        core.length = significantDigits ds := by
  obtain ⟨m, hm⟩ := exists_dropZeros ds
  obtain ⟨n, hn⟩ := exists_dropZeros (dropZeros ds).reverse
  refine ⟨m, n, (dropZeros (dropZeros ds).reverse).reverse, ?_, List.length_reverse⟩
  have hend : (dropZeros (dropZeros ds).reverse).reverse ++ List.replicate n '0' =
      dropZeros ds := by
    rw [← List.reverse_inj, List.reverse_append, List.reverse_reverse, List.reverse_replicate, ← hn]
  rw [List.append_assoc, hend]
  exact hm

/-- The significant digits are those between the first and the last that are not zero. -/
theorem significantDigits_of_core {ds : List Char} (hne : ds ≠ []) (hhead : ds.head? ≠ some '0')
    (hlast : ds.getLast? ≠ some '0') (m n : Nat) :
    significantDigits (List.replicate m '0' ++ ds ++ List.replicate n '0') = ds.length := by
  have hstart : (ds ++ List.replicate n '0').head? ≠ some '0' := by
    rwa [List.head?_append_of_ne_nil _ hne]
  rw [← List.head?_reverse] at hlast
  rw [significantDigits, List.append_assoc, dropZeros_append hstart, List.reverse_append,
    List.reverse_replicate, dropZeros_append hlast, List.length_reverse]

/-- The zeros at the end of a numeral make it greater by a power of ten, and those at its start make
no difference. -/
theorem numeralValue_of_core (ds : List Char) (m n : Nat) :
    numeralValue (List.replicate m '0' ++ ds ++ List.replicate n '0') =
      numeralValue ds * 10 ^ n := by
  rw [numeralValue_append, numeralValue_append, numeralValue_zeros, numeralValue_zeros,
    List.length_replicate, Nat.zero_mul, Nat.zero_add, Nat.add_zero]

/-! ## Decimals by position -/

/-- Digits before a point and digits after it, without superfluous zeros: no zero before other
digits of the whole part, and none at the end of the fraction. -/
structure IsPlainDecimal (whole part : List Char) : Prop where
  numeral : IsNumeral whole
  start : whole = ['0'] ∨ whole.head? ≠ some '0'
  digits : ∀ c ∈ part, c.isDigit = true
  last : part.getLast? ≠ some '0'

/-- The text of a decimal. The point stands only if there are digits after it. -/
def plainText (whole part : List Char) : List Char :=
  whole ++ if part = [] then [] else '.' :: part

/-- The value of a decimal. -/
def plainValue (whole part : List Char) : ℚ :=
  numeralValue (whole ++ part) * 10 ^ (-part.length : Int)

/-- Without decimals the text is the whole part. -/
theorem plainText_nil (whole : List Char) : plainText whole [] = whole :=
  List.append_nil whole

/-- With decimals there is a point between the two parts. -/
theorem plainText_of_ne_nil {whole part : List Char} (hpart : part ≠ []) :
    plainText whole part = whole ++ '.' :: part := by
  rw [plainText, if_neg hpart]

section
variable {digits : List Char} {n : Nat}

/-- Zeros are digits. -/
theorem isDigit_of_mem_zeros : ∀ c ∈ List.replicate n '0', c.isDigit = true :=
  fun _ hc => List.eq_of_mem_replicate hc ▸ by decide

/-- Zeros after the digits. -/
theorem isPlainDecimal_large (hdigits : IsNumeral digits) (hhead : digits.head? ≠ some '0')
    (n : Nat) : IsPlainDecimal (digits ++ List.replicate n '0') [] where
  numeral := ⟨List.append_ne_nil_of_left_ne_nil hdigits.1 _,
    List.forall_mem_append.2 ⟨hdigits.2, isDigit_of_mem_zeros⟩⟩
  start := by
    rw [List.head?_append_of_ne_nil _ hdigits.1]
    exact .inr hhead
  digits := List.forall_mem_nil _
  last := nofun

/-- A point among the digits. -/
theorem isPlainDecimal_among (hdigits : IsNumeral digits) (hhead : digits.head? ≠ some '0')
    (hlast : digits.getLast? ≠ some '0') (hn : n ≠ 0) (hlt : n < digits.length) :
    IsPlainDecimal (digits.take (digits.length - n)) (digits.drop (digits.length - n)) where
  numeral := by
    refine ⟨List.ne_nil_of_length_pos ?_, fun c hc => hdigits.2 c (List.mem_of_mem_take hc)⟩
    rw [List.length_take]
    omega
  start := by
    rw [List.head?_take, if_neg (by omega)]
    exact .inr hhead
  digits := fun c hc => hdigits.2 c (List.mem_of_mem_drop hc)
  last := by
    rw [List.getLast?_drop, if_neg (by omega)]
    exact hlast

/-- Zeros between the point and the digits. -/
theorem isPlainDecimal_small (hdigits : IsNumeral digits) (hlast : digits.getLast? ≠ some '0')
    (n : Nat) : IsPlainDecimal ['0'] (List.replicate n '0' ++ digits) where
  numeral := isNumeral_singleton rfl
  start := .inl rfl
  digits := List.forall_mem_append.2 ⟨isDigit_of_mem_zeros, hdigits.2⟩
  last := by rwa [List.getLast?_append_of_ne_nil _ hdigits.1]

end

/-- A decimal by position has no superfluous zeros if its coefficient does not end in one, the value
of the decimal, and as many significant digits as the coefficient has. -/
theorem Decimal.positional_spec {d : Decimal} (hd : d.coefficient % 10 ≠ 0) :
    ∃ whole part, d.positional = plainText whole part ∧ IsPlainDecimal whole part ∧
      plainValue whole part = d.coefficient * 10 ^ d.exponent ∧
      significantDigits (whole ++ part) = (Nat.toDigits 10 d.coefficient).length := by
  obtain ⟨k, e⟩ := d
  have hk : k ≠ 0 := by
    rintro rfl
    exact hd rfl
  have hdigits := isNumeral_toDigits k
  have hhead := head?_toDigits_ne hk
  have hlast := getLast?_toDigits_ne hd
  have hcore := significantDigits_of_core hdigits.1 hhead hlast
  have hvalue := numeralValue_of_core (Nat.toDigits 10 k)
  simp only [plainValue]
  rw [numeralValue_toDigits] at hvalue
  rw [Decimal.positional]
  dsimp only
  generalize Nat.toDigits 10 k = digits at *
  split
  · next hwhole =>
    obtain ⟨n, rfl⟩ := Int.eq_ofNat_of_zero_le hwhole
    refine ⟨_, [], (plainText_nil _).symm, isPlainDecimal_large hdigits hhead n, ?_, ?_⟩
    · have hshift : numeralValue (digits ++ List.replicate n '0') = k * 10 ^ n := hvalue 0 n
      rw [List.append_nil, Int.natAbs_natCast, hshift, List.length_nil]
      push_cast
      rw [mul_one, zpow_natCast]
    · rw [List.append_nil]
      exact hcore 0 n
  · next hpart =>
    obtain ⟨n, rfl⟩ := Int.exists_eq_neg_ofNat (Int.le_of_not_le hpart)
    rw [Int.natAbs_neg, Int.natAbs_natCast]
    have hn : n ≠ 0 := by
      rintro rfl
      exact hpart (Int.le_refl 0)
    split
    · next hinside =>
      have hlength : (digits.drop (digits.length - n)).length = n := by
        rw [List.length_drop]
        omega
      have hpart : digits.drop (digits.length - n) ≠ [] := List.ne_nil_of_length_pos (by omega)
      have hsame := hvalue 0 0
      have hcount := hcore 0 0
      rw [List.replicate_zero, List.append_nil, List.nil_append] at hsame hcount
      refine ⟨_, _, (plainText_of_ne_nil hpart).symm,
        isPlainDecimal_among hdigits hhead hlast hn hinside, ?_, ?_⟩
      · rw [List.take_append_drop, hlength, hsame, Nat.pow_zero, Nat.mul_one]
      · rw [List.take_append_drop, hcount]
    · next houtside =>
      have hlength : (List.replicate (n - digits.length) '0' ++ digits).length = n := by
        rw [List.length_append, List.length_replicate]
        omega
      have hpart : List.replicate (n - digits.length) '0' ++ digits ≠ [] :=
        List.append_ne_nil_of_right_ne_nil _ hdigits.1
      have hsame := hvalue (n - digits.length + 1) 0
      have hcount := hcore (n - digits.length + 1) 0
      rw [List.replicate_zero, List.append_nil, List.replicate_succ, List.cons_append]
        at hsame hcount
      refine ⟨['0'], _, ?_, isPlainDecimal_small hdigits hlast _, ?_, hcount⟩
      · rw [plainText_of_ne_nil hpart, List.singleton_append]
      · rw [hlength, List.singleton_append, hsame, Nat.pow_zero, Nat.mul_one]

example : Decimal.positional ⟨15, 2⟩ = "1500".toList ∧
    Decimal.positional ⟨15, -1⟩ = "1.5".toList ∧
    Decimal.positional ⟨15, -4⟩ = "0.0015".toList := by
  decide

/-! ## Reading -/

/-- A minus sign, if it is negative. -/
def signText (negative : Bool) : List Char :=
  if negative then ['-'] else []

namespace Binary64

section
variable {whole part : List Char}

/-- A plain decimal is taken apart into its whole part and its decimals, and nothing is left. -/
theorem splitMantissa_plainText (h : IsPlainDecimal whole part) :
    splitMantissa (plainText whole part) = (whole, part, []) := by
  rw [splitMantissa]
  by_cases hpart : part = []
  · subst hpart
    rw [plainText_nil, List.takeWhile_eq_self_iff.2 h.numeral.2,
      List.dropWhile_eq_nil_iff.2 h.numeral.2]
  · have hpoint : ∀ c ∈ ('.' :: part).head?, c.isDigit = false := by
      rintro _ ⟨⟩
      rfl
    rw [plainText_of_ne_nil hpart, takeWhile_append_of_head? h.numeral.2 hpoint,
      dropWhile_append_of_head? h.numeral.2 hpoint]
    show (whole, part.takeWhile Char.isDigit, part.dropWhile Char.isDigit) = _
    rw [List.takeWhile_eq_self_iff.2 h.digits, List.dropWhile_eq_nil_iff.2 h.digits]

/-- A decimal without a sign is read. -/
theorem readUnsigned_plainText (h : IsPlainDecimal whole part) (negative : Bool) :
    readUnsigned negative (plainText whole part) =
      some (ofDecimal negative (numeralValue (whole ++ part)) (-part.length)) := by
  rw [readUnsigned, readDecimal, splitMantissa_plainText h]
  dsimp only
  rw [if_neg fun hempty => h.numeral.1 hempty.1, readExponent, Option.map_some, zero_sub]
  rfl

/-- What starts with a digit has no sign. -/
theorem read_cons_digit {c : Char} (hc : c.isDigit = true) (cs : List Char) :
    read (c :: cs) = readUnsigned false (c :: cs) := by
  unfold read
  split
  · next hplus =>
    obtain ⟨rfl, -⟩ := List.cons.inj hplus
    exact absurd hc (by decide)
  · next hminus =>
    obtain ⟨rfl, -⟩ := List.cons.inj hminus
    exact absurd hc (by decide)
  · rfl

/-- A decimal is read as the number nearest to its value. -/
theorem read_plainText (h : IsPlainDecimal whole part) (negative : Bool) :
    ∃ x, read (signText negative ++ plainText whole part) = some x ∧
      IsNearest negative (plainValue whole part) x := by
  refine ⟨_, ?_, isNearest_ofDecimal negative (numeralValue (whole ++ part)) (-part.length)⟩
  rw [← readUnsigned_plainText h]
  cases negative with
  | true => rfl
  | false =>
    cases hwhole : whole with
    | nil => exact absurd hwhole h.numeral.1
    | cons d ds => exact read_cons_digit (h.numeral.2 d (hwhole ▸ List.mem_cons_self)) _

end

/-! ## The text of a number -/

/-- A numeral's significant digits are enough to write its number. -/
theorem length_toDigits_le {core : List Char} (hcore : ∀ c ∈ core, c.isDigit = true)
    (hne : numeralValue core ≠ 0) :
    (Nat.toDigits 10 (numeralValue core)).length ≤ core.length := by
  have hlength : 0 < core.length := by
    refine List.length_pos_of_ne_nil ?_
    rintro rfl
    exact hne rfl
  exact (Nat.length_toDigits_le_iff (by decide) hlength).2 (numeralValue_lt hcore)

/-- A decimal in digits has the value of its significant digits at some power of ten. -/
theorem exists_core {ds : List Char} (hds : IsNumeral ds) (e : Int) :
    ∃ (core : List Char) (e' : Int), core.length = significantDigits ds ∧
      (∀ c ∈ core, c.isDigit = true) ∧
      (numeralValue ds : ℚ) * 10 ^ e = numeralValue core * 10 ^ e' := by
  obtain ⟨m, n, core, hcore, hlength⟩ := exists_significantDigits ds
  refine ⟨core, n + e, hlength, fun c hc => hds.2 c ?_, ?_⟩
  · rw [hcore]
    exact List.mem_append_left _ (List.mem_append_right _ hc)
  · rw [hcore, numeralValue_of_core, zpow_add₀ (by norm_num)]
    push_cast
    rw [zpow_natCast, mul_assoc]

/-- The text of a finite number is a decimal that rounds to it. No decimal that does has fewer
significant digits, and none with as many is nearer to the number. -/
theorem decimalText_spec {x : Binary64} (hfinite : x.isFinite = true) :
    ∃ whole part, IsPlainDecimal whole part ∧
      x.decimalText = .ofList (signText x.isNegative ++ plainText whole part) ∧
      IsNearest x.isNegative (plainValue whole part) x ∧
      ∀ (negative : Bool) (ds : List Char) (e : Int), IsNumeral ds →
        IsNearest negative (numeralValue ds * 10 ^ e) x →
        significantDigits (whole ++ part) ≤ significantDigits ds ∧
          (significantDigits ds ≤ significantDigits (whole ++ part) →
            |x.absValue - plainValue whole part| ≤ |x.absValue - numeralValue ds * 10 ^ e|) := by
  by_cases hzero : x.magnitude = 0
  · have hx : x = ofMagnitude x.isNegative 0 := by
      rw [← hzero, ofMagnitude_magnitude]
    have hvalue : plainValue ['0'] [] = 0 := zero_mul _
    refine ⟨['0'], [], ⟨isNumeral_singleton rfl, .inl rfl, List.forall_mem_nil _, nofun⟩, ?_, ?_,
      fun negative ds e _ _ => ⟨Nat.zero_le _, fun _ => ?_⟩⟩
    · rw [decimalText, shortest, if_pos hzero]
      rfl
    · have hnearest : IsNearest x.isNegative 0 (ofMagnitude x.isNegative 0) :=
        isNearest_zero x.isNegative (by norm_num)
      rw [← hx] at hnearest
      rwa [hvalue]
    · have hnothing : x.absValue = 0 := by
        rw [absValue_eq, hzero, unitsOf_of_lt (by decide), Nat.cast_zero, zero_div]
      rw [hvalue, hnothing, sub_zero, abs_zero]
      exact abs_nonneg _
  · have hshortest := isShortest_shortest hfinite hzero
    obtain ⟨whole, part, htext, hplain, hvalue, hcount⟩ := Decimal.positional_spec hshortest.last
    refine ⟨whole, part, hplain, ?_, ?_, fun negative ds e hds hother => ?_⟩
    · rw [decimalText, htext]
      rfl
    · rw [hvalue]
      exact hshortest.nearest
    · obtain rfl := hother.sign
      obtain ⟨core, e', hlength, hdigits, hsame⟩ := exists_core hds e
      rw [hsame] at hother
      have hne := ne_zero_of_isNearest hfinite hzero hother
      have hle := length_toDigits_le hdigits hne
      rw [hcount, hvalue, hsame, ← hlength]
      exact ⟨Nat.le_trans (hshortest.length_le _ e' hother) hle,
        fun hfew => hshortest.closest _ e' hother (Nat.le_trans hle hfew)⟩

end Binary64

end TagTemplate
