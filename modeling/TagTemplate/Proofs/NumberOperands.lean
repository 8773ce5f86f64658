import TagTemplate.Proofs.DecimalText
import TagTemplate.Proofs.IntegerOperands

/-!
# Numbers pass through text

A finite floating-point number in a field has as its text the shortest decimal that rounds to the
number (`DecimalText`). A function that takes a number gets the text of an operand, whatever blanks
stand around the field there, and reads back every bit of the number: the sign of a zero, the least
numbers, and those that a decimal meets only as a tie (`Value.numbers_pass_through`).
-/

namespace TagTemplate

/-! ## Decimals between blanks -/

/-- Neither signs nor points nor digits are blank. -/
theorem not_isBlank_plainText {whole part : List Char} (h : IsPlainDecimal whole part)
    (negative : Bool) :
    ∀ c ∈ signText negative ++ plainText whole part, Text.isBlank c = false := by
  have hdigits : ∀ {ds : List Char}, (∀ c ∈ ds, c.isDigit = true) →
      ∀ c ∈ ds, Text.isBlank c = false :=
    fun hds c hc => not_isBlank_of_isDigit (hds c hc)
  refine List.forall_mem_append.2 ⟨?_, List.forall_mem_append.2 ⟨hdigits h.numeral.2, ?_⟩⟩
  · cases negative with
    | false => exact List.forall_mem_nil _
    | true => exact List.forall_mem_singleton.2 (by decide)
  · split
    · exact List.forall_mem_nil _
    · exact List.forall_mem_cons.2 ⟨by decide, hdigits h.digits⟩

/-! ## Fields between blanks -/

/-- A field that holds a finite number, with blanks around it, is that number to the accessor. -/
theorem Node.result_ofBody_number {ctx : EvalContext} {args : List (List Node)} {levels i : Nat}
    {before after : List Node} {field : String} {span : Span} {x : Binary64} {s t : String}
    (harg : args[i]? = some (before ++ .field field span :: after))
    (hfield : ctx.record field = some (.number x)) (hfinite : x.isFinite = true)
    (hs : (Node.evalSeq ctx before levels).result = .ok s) (hsblank : Text.Blank s.toList)
    (ht : (Node.evalSeq ctx after levels).result = .ok t) (htblank : Text.Blank t.toList)
    (start : Event) :
    (Run.ofBody (Node.evalArgs ctx args levels) start (Body.number i)).result = .ok x := by
  obtain ⟨whole, part, hplain, hdecimal, hnearest, -⟩ := Binary64.decimalText_spec hfinite
  obtain ⟨y, hread, hy⟩ := Binary64.read_plainText hplain x.isNegative
  obtain rfl := hnearest.unique hy
  have htext : (Value.number x).text? = some x.decimalText := if_pos hfinite
  have hoperand := Node.result_evalArgs_field harg hfield htext hs ht
  have htrims := Text.trims_between hsblank htblank (not_isBlank_plainText hplain x.isNegative)
  rw [Run.ofBody_number, Run.result_bind_of_ok hoperand, ParamType.ofText, hdecimal,
    Text.trimChars_eq_iff.2 htrims, hread]
  rfl

/-! ## The round trip -/

/-- Finite numbers pass through text. The text of a finite number is a minus sign, exactly if its
sign bit is set, and a decimal without superfluous zeros or an exponent. The number is the one
nearest to the decimal, ties to even, so an operand that has the field between blanks gives back
every bit. No decimal with fewer significant digits rounds to the number, and of those with as many
none is nearer to it. The infinities and NaNs have no text. -/
theorem Value.numbers_pass_through (x : Binary64) :
    (x.isFinite = false → (Value.number x).text? = none) ∧
    (x.isFinite = true → ∃ whole part, IsPlainDecimal whole part ∧
      (Value.number x).text? = some (.ofList (signText x.isNegative ++ plainText whole part)) ∧
      (∀ y, Binary64.IsNearest x.isNegative (plainValue whole part) y ↔ y = x) ∧
      (∀ (ctx : EvalContext) (args : List (List Node)) (levels i : Nat) (start : Event)
        (before after : List Node) (field : String) (span : Span) (s t : String),
        args[i]? = some (before ++ .field field span :: after) →
        ctx.record field = some (.number x) →
        (Node.evalSeq ctx before levels).result = .ok s → Text.Blank s.toList →
        (Node.evalSeq ctx after levels).result = .ok t → Text.Blank t.toList →
        (Run.ofBody (Node.evalArgs ctx args levels) start (Body.number i)).result = .ok x) ∧
      ∀ (negative : Bool) (ds : List Char) (e : Int), IsNumeral ds →
        Binary64.IsNearest negative (numeralValue ds * 10 ^ e) x →
        significantDigits (whole ++ part) ≤ significantDigits ds ∧
          (significantDigits ds ≤ significantDigits (whole ++ part) →
            |x.absValue - plainValue whole part| ≤ |x.absValue - numeralValue ds * 10 ^ e|)) := by
  refine ⟨fun hinfinite => if_neg (Bool.eq_false_iff.1 hinfinite), fun hfinite => ?_⟩
  obtain ⟨whole, part, hplain, hdecimal, hnearest, hshortest⟩ := Binary64.decimalText_spec hfinite
  refine ⟨whole, part, hplain, ?_, fun y => ⟨fun hy => hy.unique hnearest, ?_⟩, ?_, hshortest⟩
  · rw [Value.text?, if_pos hfinite, hdecimal]
  · rintro rfl
    exact hnearest
  · intro ctx args levels i start before after field span s t harg hfield hs hsblank ht htblank
    exact Node.result_ofBody_number harg hfield hfinite hs hsblank ht htblank start

/-- The power of ten that lies in the middle between two numbers and rounds to the lesser one, and
zero with a sign. -/
theorem Value.numbers_pass_through_tie :
    let x : Binary64 := ⟨0x44B52D02C7E14AF6⟩
    let zero : Binary64 := ⟨0x8000000000000000⟩
    let ctx : EvalContext := {
      record := fun name =>
        if name = "x" then some (.number x)
        else if name = "zero" then some (.number zero)
        else none }
    let numberOf (argument : List Node) :=
      (Run.ofBody (Node.evalArgs ctx [argument] 0) (.call "f" 1) (Body.number 0)).result
    (∃ whole part, (Value.number x).text? = some (.ofList (plainText whole part)) ∧
      significantDigits (whole ++ part) ≤ 1) ∧
      (Value.number x).text? = some "100000000000000000000000" ∧
      numberOf [.literal " " ⟨3, 4⟩, .field "x" ⟨4, 7⟩] = .ok x ∧
      (Value.number zero).text? = some "-0" ∧
      numberOf [.field "zero" ⟨3, 9⟩] = .ok zero ∧
      (Value.number Binary64.nan).text? = none := by
  intro x zero ctx numberOf
  have hblank : Text.Blank "".toList := List.forall_mem_nil _
  obtain ⟨whole, part, -, htext, -, hback, hshortest⟩ :=
    (Value.numbers_pass_through x).2 (by decide +kernel)
  obtain ⟨-, -, -, -, -, hzero, -⟩ := (Value.numbers_pass_through zero).2 (by decide +kernel)
  have hnearest : Binary64.IsNearest false (numeralValue ['1'] * 10 ^ (23 : Int)) x := by
    have hread : Binary64.ofDecimal false (numeralValue ['1']) 23 = x := by decide +kernel
    exact hread ▸ Binary64.isNearest_ofDecimal false (numeralValue ['1']) 23
  refine ⟨⟨whole, part, htext, ?_⟩, by decide +kernel, ?_, by decide +kernel, ?_,
    (Value.numbers_pass_through Binary64.nan).1 (by decide +kernel)⟩
  · exact (hshortest false ['1'] 23 (isNumeral_singleton rfl) hnearest).1
  · exact hback ctx [_] 0 0 (.call "f" 1) [.literal " " ⟨3, 4⟩] [] "x" ⟨4, 7⟩ " " "" rfl rfl rfl
      (by decide) rfl hblank
  · exact hzero ctx [_] 0 0 (.call "f" 1) [] [] "zero" ⟨3, 9⟩ "" "" rfl rfl rfl hblank rfl hblank

end TagTemplate
