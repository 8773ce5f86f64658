import Mathlib.Data.List.TakeWhile
import TagTemplate.Number.Decimal
import TagTemplate.Number.Integer
import TagTemplate.Text.Blank

/-!
# Integers as text

What trimming leaves of a text (`Text.Trims`), and which texts are integers (`SpellsInteger`), both
stated without the loops that compute them. Reading accepts exactly the notations of the numbers in
the 64-bit range and gives the number (`readInteger_eq_ok_iff`). On the way from the first digit to
the last a number only grows away from zero, so it leaves the range on the way exactly if it is out
of range at the end (`foldlM_appendDigit`). The decimal notation that is written is one of those
that are read (`spellsInteger_intChars`).
-/

namespace TagTemplate

/-! ## The start of a list -/

section
variable {α : Type} {p : α → Bool} {xs rest : List α}

/-- What the test holds of is dropped, up to the first element of which it does not hold. -/
theorem dropWhile_append_of_head? (hxs : ∀ x ∈ xs, p x = true)
    (hrest : ∀ x ∈ rest.head?, p x = false) : (xs ++ rest).dropWhile p = rest := by
  rw [List.dropWhile_append_of_pos hxs]
  cases rest with
  | nil => rfl
  | cons x rest => exact List.dropWhile_cons_of_neg (Bool.eq_false_iff.1 (hrest x rfl))

/-- What the test holds of is taken, up to the first element of which it does not hold. -/
theorem takeWhile_append_of_head? (hxs : ∀ x ∈ xs, p x = true)
    (hrest : ∀ x ∈ rest.head?, p x = false) : (xs ++ rest).takeWhile p = xs := by
  rw [List.takeWhile_append_of_pos hxs]
  cases rest with
  | nil => exact List.append_nil xs
  | cons x rest =>
    rw [List.takeWhile_cons_of_neg (Bool.eq_false_iff.1 (hrest x rfl)), List.append_nil]

end

/-! ## Trimming -/

namespace Text

/-- All characters of the text are blank. -/
def Blank (cs : List Char) : Prop :=
  ∀ c ∈ cs, isBlank c = true

/-- Whether a text is blank is seen from its characters. -/
instance (cs : List Char) : Decidable (Blank cs) :=
  List.decidableBAll (fun c => isBlank c = true) cs

/-- The text is `core` between blanks, and `core` neither begins nor ends with one. -/
def Trims (cs core : List Char) : Prop :=
  ∃ before after, cs = before ++ core ++ after ∧ Blank before ∧ Blank after ∧
    (∀ c ∈ core.head?, isBlank c = false) ∧ ∀ c ∈ core.getLast?, isBlank c = false

/-- The blanks behind a text that does not end with one are dropped from its end, and nothing else
is. -/
theorem dropBlankEnd_append {rest after : List Char} (hafter : Blank after)
    (hrest : ∀ c ∈ rest.getLast?, isBlank c = false) : dropBlankEnd (rest ++ after) = rest := by
  rw [← List.head?_reverse] at hrest
  have hreverse : Blank after.reverse := fun c hc => hafter c (List.mem_reverse.1 hc)
  rw [dropBlankEnd, List.reverse_append, dropWhile_append_of_head? hreverse hrest,
    List.reverse_reverse]

/-- What is left when blanks are dropped from the beginning does not begin with one. -/
theorem isBlank_head?_dropWhile (cs : List Char) :
    ∀ c ∈ (cs.dropWhile isBlank).head?, isBlank c = false := by
  intro c hc
  have h := List.head?_dropWhile_not isBlank cs
  rwa [Option.mem_def.1 hc] at h

/-- What `dropBlankEnd` drops are the blanks at the end, all of them. -/
theorem exists_dropBlankEnd (cs : List Char) :
    (∃ after, cs = dropBlankEnd cs ++ after ∧ Blank after) ∧
      ∀ c ∈ (dropBlankEnd cs).getLast?, isBlank c = false := by
  refine ⟨⟨(cs.reverse.takeWhile isBlank).reverse, ?_, ?_⟩, ?_⟩
  · rw [dropBlankEnd, ← List.reverse_append, List.takeWhile_append_dropWhile, List.reverse_reverse]
  · exact fun c hc => List.mem_takeWhile_imp (List.mem_reverse.1 hc)
  · rw [dropBlankEnd, List.getLast?_reverse]
    exact isBlank_head?_dropWhile cs.reverse

/-- Every text is trimmed to something. -/
theorem trims_trimChars (cs : List Char) : Trims cs (trimChars cs) := by
  obtain ⟨⟨after, hrest, hafter⟩, hlast⟩ := exists_dropBlankEnd (cs.dropWhile isBlank)
  have hbefore : Blank (cs.takeWhile isBlank) := fun c hc => List.mem_takeWhile_imp hc
  have hhead := isBlank_head?_dropWhile cs
  refine ⟨cs.takeWhile isBlank, after, ?_, hbefore, hafter, fun c hc => hhead c ?_, hlast⟩
  · rw [List.append_assoc, trimChars, ← hrest, List.takeWhile_append_dropWhile]
  · rw [hrest, List.head?_append]
    rw [trimChars] at hc
    rw [Option.mem_def.1 hc]
    rfl

/-- Trimming gives what is left without the blanks, and that alone. -/
theorem trimChars_eq_iff {cs core : List Char} : trimChars cs = core ↔ Trims cs core := by
  constructor
  · rintro rfl
    exact trims_trimChars cs
  · rintro ⟨before, after, rfl, hbefore, hafter, hhead, hlast⟩
    rw [trimChars, List.append_assoc]
    cases core with
    | nil =>
      rw [List.nil_append, List.dropWhile_append_of_pos hbefore,
        List.dropWhile_eq_nil_iff.2 hafter]
      rfl
    | cons c cs =>
      have hstart : ∀ d ∈ (c :: cs ++ after).head?, isBlank d = false := hhead
      rw [dropWhile_append_of_head? hbefore hstart, dropBlankEnd_append hafter hlast]

/-- A text without blanks is what is left of it between blanks. -/
theorem trims_between {before after : String} {cs : List Char} (hbefore : Blank before.toList)
    (hafter : Blank after.toList) (hcs : ∀ c ∈ cs, isBlank c = false) :
    Trims (before ++ .ofList cs ++ after).toList cs := by
  refine ⟨before.toList, after.toList, ?_, hbefore, hafter, ?_, ?_⟩
  · rw [String.toList_append, String.toList_append, String.toList_ofList]
  · exact fun c hc => hcs c (List.mem_of_mem_head? hc)
  · exact fun c hc => hcs c (List.mem_of_mem_getLast? hc)

end Text

/-! ## Notations of integers -/

/-- One or more decimal digits. -/
def IsNumeral (ds : List Char) : Prop :=
  ds ≠ [] ∧ ∀ c ∈ ds, c.isDigit = true

/-- The number that a numeral denotes. -/
def numeralValue (ds : List Char) : Nat :=
  Nat.ofDigitChars 10 ds 0

/-- The text is a notation of the number: a numeral, which a sign may precede. -/
inductive SpellsInteger : List Char → Int → Prop
  | unsigned {ds : List Char} (h : IsNumeral ds) : SpellsInteger ds (numeralValue ds)
  | plus {ds : List Char} (h : IsNumeral ds) : SpellsInteger ('+' :: ds) (numeralValue ds)
  | minus {ds : List Char} (h : IsNumeral ds) : SpellsInteger ('-' :: ds) (-numeralValue ds)

/-- The number of the given size on the side of the sign. -/
def signed (negative : Bool) (n : Nat) : Int :=
  if negative then -n else n

/-- Without a minus sign a number is its size. -/
@[simp] theorem signed_false (n : Nat) : signed false n = n := rfl
@[simp] theorem signed_true (n : Nat) : signed true n = -n := rfl

/-- The integers of 64 bits in two's complement. -/
theorem fitsInt64_iff {n : Int} :
    fitsInt64 n = true ↔ -9223372036854775808 ≤ n ∧ n ≤ 9223372036854775807 := by
  have hmin : Int64.minValue.toInt = -9223372036854775808 := by decide
  have hmax : Int64.maxValue.toInt = 9223372036854775807 := by decide
  rw [fitsInt64, Bool.and_eq_true, decide_eq_true_eq, decide_eq_true_eq, hmin, hmax]

/-- What is nearer to zero than a number in range is in range. -/
theorem fitsInt64_signed_of_le {negative : Bool} {m n : Nat} (hmn : m ≤ n)
    (h : fitsInt64 (signed negative n) = true) : fitsInt64 (signed negative m) = true := by
  rw [fitsInt64_iff] at h ⊢
  cases negative <;> simp only [signed_false, signed_true] at h ⊢ <;> omega

/-- An integer of 64 bits fits into 64 bits. -/
theorem fitsInt64_toInt (n : Int64) : fitsInt64 n.toInt = true :=
  fitsInt64_iff.2 ⟨n.le_toInt, Int.le_of_lt_add_one n.toInt_lt⟩

/-- A further digit makes a number ten times as large and adds its own value. -/
theorem appendDigit_signed {negative : Bool} {m : Nat} {c : Char} (hc : c.isDigit = true) :
    let next := signed negative (10 * m + (c.toNat - '0'.toNat))
    appendDigit negative (signed negative m) c =
      if fitsInt64 next then .ok next else .error (.outOfRange negative) := by
  intro next
  have hnext : (if negative then signed negative m * 10 - ((c.toNat - '0'.toNat : Nat) : Int)
      else signed negative m * 10 + ((c.toNat - '0'.toNat : Nat) : Int)) = next := by
    cases negative <;>
      simp only [next, signed_false, signed_true, if_true, Bool.false_eq_true, if_false] <;> omega
  have hshifted : signed negative m * 10 = signed negative (10 * m) := by
    cases negative <;> simp only [signed_false, signed_true] <;> omega
  rw [appendDigit, if_pos hc]
  dsimp only
  rw [hnext, hshifted]
  by_cases hfits : fitsInt64 next = true
  · have hbefore := fitsInt64_signed_of_le (Nat.le_add_right ..) hfits
    rw [hbefore, hfits]
    rfl
  · rw [Bool.eq_false_iff.2 hfits, Bool.and_false]

/-- Digits that are read on do not make a number smaller. -/
theorem le_ofDigitChars (ds : List Char) (m : Nat) : m ≤ Nat.ofDigitChars 10 ds m := by
  induction ds generalizing m with
  | nil => exact Nat.le_refl m
  | cons d ds ih =>
    rw [Nat.ofDigitChars_cons]
    exact Nat.le_trans (by omega) (ih _)

/-- Digits are appended to a number in range if the whole number is in range. -/
theorem foldlM_appendDigit {negative : Bool} {ds : List Char} {m : Nat}
    (hds : ∀ c ∈ ds, c.isDigit = true) (hm : fitsInt64 (signed negative m) = true) :
    let whole := signed negative (Nat.ofDigitChars 10 ds m)
    ds.foldlM (appendDigit negative) (signed negative m) =
      if fitsInt64 whole then .ok whole else .error (.outOfRange negative) := by
  intro whole
  induction ds generalizing m with
  | nil => exact (if_pos hm).symm
  | cons d ds ih =>
    obtain ⟨hd, hds⟩ := List.forall_mem_cons.1 hds
    rw [List.foldlM_cons, appendDigit_signed hd]
    split
    · next hfits => exact ih hds hfits
    · next hfits =>
      have hwhole : fitsInt64 whole ≠ true := fun h =>
        hfits (fitsInt64_signed_of_le (le_ofDigitChars ds _) h)
      rw [if_neg hwhole]
      rfl

/-- Only digits are read. -/
theorem isDigit_of_foldlM {negative : Bool} {ds : List Char} {m n : Int}
    (h : ds.foldlM (appendDigit negative) m = .ok n) : ∀ c ∈ ds, c.isDigit = true := by
  induction ds generalizing m with
  | nil => exact List.forall_mem_nil _
  | cons d ds ih =>
    rw [List.foldlM_cons] at h
    cases hd : d.isDigit with
    | false =>
      rw [appendDigit, if_neg (Bool.eq_false_iff.1 hd)] at h
      cases h
    | true =>
      cases hstep : appendDigit negative m d with
      | error e =>
        rw [hstep] at h
        cases h
      | ok m' =>
        rw [hstep] at h
        exact List.forall_mem_cons.2 ⟨hd, ih h⟩

/-- Digits are read as the number they denote exactly if it fits with its sign. -/
theorem readDigits_eq_ok_iff {negative : Bool} {ds : List Char} {n : Int64} :
    readDigits negative ds = .ok n ↔
      IsNumeral ds ∧ n.toInt = signed negative (numeralValue ds) := by
  cases ds with
  | nil => exact ⟨nofun, fun h => absurd rfl h.1.1⟩
  | cons d ds =>
    have hzero : signed negative 0 = 0 := by cases negative <;> rfl
    have hfold (hds : ∀ c ∈ d :: ds, c.isDigit = true) :=
      foldlM_appendDigit hds (by rw [hzero]; decide)
    rw [hzero] at hfold
    show ((d :: ds).foldlM (appendDigit negative) 0).map Int64.ofInt = .ok n ↔ _
    constructor
    · intro h
      cases hrun : (d :: ds).foldlM (appendDigit negative) 0 with
      | error e =>
        rw [hrun] at h
        cases h
      | ok m =>
        rw [hrun] at h
        have hds := isDigit_of_foldlM hrun
        rw [hfold hds] at hrun
        split at hrun
        · next hfits =>
          obtain rfl := Except.ok.inj hrun
          obtain rfl := Except.ok.inj h
          obtain ⟨hlow, hhigh⟩ := fitsInt64_iff.1 hfits
          exact ⟨⟨List.cons_ne_nil d ds, hds⟩,
            Int64.toInt_ofInt_of_le hlow (Int.lt_add_one_of_le hhigh)⟩
        · cases hrun
    · rintro ⟨⟨-, hds⟩, hn⟩
      have hwhole : signed negative (Nat.ofDigitChars 10 (d :: ds) 0) = n.toInt := hn.symm
      rw [hfold hds, hwhole, if_pos (fitsInt64_toInt n)]
      exact congrArg Except.ok n.ofInt_toInt

/-- Exactly the notations of the numbers in range are read, as the numbers they denote. -/
theorem readInteger_eq_ok_iff {cs : List Char} {n : Int64} :
    readInteger cs = .ok n ↔ SpellsInteger cs n.toInt := by
  constructor
  · intro h
    unfold readInteger at h
    split at h
    · cases h
    · obtain ⟨hds, hn⟩ := readDigits_eq_ok_iff.1 h
      exact hn ▸ .plus hds
    · obtain ⟨hds, hn⟩ := readDigits_eq_ok_iff.1 h
      exact hn ▸ .minus hds
    · obtain ⟨hds, hn⟩ := readDigits_eq_ok_iff.1 h
      exact hn ▸ .unsigned hds
  · intro h
    generalize hn : n.toInt = z at h
    cases h with
    | unsigned hds =>
      have hread : readDigits false cs = .ok n := readDigits_eq_ok_iff.2 ⟨hds, hn⟩
      unfold readInteger
      split
      · exact absurd rfl hds.1
      · exact absurd (hds.2 '+' List.mem_cons_self) (by decide)
      · exact absurd (hds.2 '-' List.mem_cons_self) (by decide)
      · exact hread
    | plus hds => exact readDigits_eq_ok_iff.2 ⟨hds, hn⟩
    | minus hds => exact readDigits_eq_ok_iff.2 ⟨hds, hn⟩

/-- The digits of a number are a numeral. -/
theorem isNumeral_toDigits (n : Nat) : IsNumeral (Nat.toDigits 10 n) :=
  ⟨Nat.toDigits_ne_nil, fun _ hc => Nat.isDigit_of_mem_toDigits (by decide) (by decide) hc⟩

/-- The digits of a number denote it. -/
theorem numeralValue_toDigits (n : Nat) : numeralValue (Nat.toDigits 10 n) = n :=
  Nat.ofDigitChars_ten_toDigits

/-- The decimal notation of a number denotes it. -/
theorem spellsInteger_intChars (n : Int) : SpellsInteger (intChars n) n := by
  have hdigits := isNumeral_toDigits n.natAbs
  have hvalue := numeralValue_toDigits n.natAbs
  unfold intChars
  split
  · next hneg =>
    have h := SpellsInteger.minus hdigits
    rwa [hvalue, Int.ofNat_natAbs_of_nonpos (Int.le_of_lt hneg), Int.neg_neg] at h
  · next hneg =>
    have h := SpellsInteger.unsigned hdigits
    rwa [hvalue, Int.natAbs_of_nonneg (Int.not_lt.1 hneg)] at h

/-! ## Integers between blanks -/

/-- The text, without the blanks around it, is a notation of the number. -/
def IntegerText (s : String) (n : Int) : Prop :=
  ∃ core, Text.Trims s.toList core ∧ SpellsInteger core n

/-- A text stands for the integer exactly if the reader takes it for that, without its blanks. -/
theorem integerText_iff {s : String} {n : Int64} :
    IntegerText s n.toInt ↔ readInteger (Text.trimChars s.toList) = .ok n := by
  rw [readInteger_eq_ok_iff]
  constructor
  · rintro ⟨core, htrims, hspells⟩
    rwa [Text.trimChars_eq_iff.2 htrims]
  · intro hspells
    exact ⟨_, Text.trims_trimChars s.toList, hspells⟩

/-- A digit is not blank. -/
theorem not_isBlank_of_isDigit {c : Char} (hc : c.isDigit = true) : Text.isBlank c = false := by
  have hrange : 48 ≤ c.toNat ∧ c.toNat ≤ 57 := Char.isDigit_iff_toNat.1 hc
  simp only [Text.isBlank, Text.inTable, Text.blankTable, List.any_cons, List.any_nil,
    Bool.or_eq_false_iff, Bool.and_eq_false_iff, decide_eq_false_iff_not, and_true]
  omega

/-- Neither digits nor signs are blank. -/
theorem SpellsInteger.not_isBlank {cs : List Char} {n : Int} (h : SpellsInteger cs n) :
    ∀ c ∈ cs, Text.isBlank c = false := by
  have hdigits : ∀ {ds : List Char}, IsNumeral ds → ∀ c ∈ ds, Text.isBlank c = false :=
    fun hds c hc => not_isBlank_of_isDigit (hds.2 c hc)
  cases h with
  | unsigned hds => exact hdigits hds
  | plus hds | minus hds => exact List.forall_mem_cons.2 ⟨by decide, hdigits hds⟩

/-- Blanks around the decimal text of a number do no harm. -/
theorem integerText_of_blank {before after : String} (hbefore : Text.Blank before.toList)
    (hafter : Text.Blank after.toList) (n : Int) :
    IntegerText (before ++ intText n ++ after) n := by
  have hspells := spellsInteger_intChars n
  exact ⟨intChars n, Text.trims_between hbefore hafter hspells.not_isBlank, hspells⟩

end TagTemplate
