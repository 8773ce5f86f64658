import TagTemplate.Proofs.ArgumentText
import TagTemplate.Proofs.IntegerText
import TagTemplate.Proofs.Selection
import TagTemplate.Proofs.Substitution

/-!
# Integers pass through text

A function that takes an integer gets the text of an operand and reads it. The accessor succeeds
exactly where the text is an integer between blanks (`IntegerText`), so an integer in a field comes
back from its decimal text as it was, whatever blanks the operand has around the field. What `left`
makes of such a count is told from the source text to the run
(`EvalContext.integers_pass_through`).
-/

namespace TagTemplate

open Piece (Spells quoted nodes nodesArgs charsSeq sizeSeq groupsSeq)

/-! ## The accessor -/

/-- After a run that comes to a value the result is that of what follows. -/
theorem Run.result_bind_of_ok {α β : Type} {x : Run α} {a : α} (h : x.result = .ok a)
    (f : α → Run β) : (x >>= f).result = (f a).result := by
  obtain ⟨events, result⟩ := x
  obtain rfl : result = .ok a := h
  rfl

/-- A run that has come to a value goes on with that value, after its events. -/
theorem Run.bind_mk {α β : Type} (events : List Event) (a : α) (f : α → Run β) :
    (⟨events, .ok a⟩ : Run α) >>= f = ⟨events ++ (f a).events, (f a).result⟩ :=
  rfl

/-- The accessor gives the integer that the text of the operand is between blanks, and if it is
none, an error that quotes the text as it is. -/
theorem Run.result_ofBody_integer {operand : Nat → Run String} {i : Nat} {s : String}
    (h : (operand i).result = .ok s) (start : Event) :
    let given := (Run.ofBody operand start (Body.integer i)).result
    let e : EvalError := { anomaly := .typeMismatch "integer" s }
    (∀ n : Int64, given = .ok n ↔ IntegerText s n.toInt) ∧
      ((∀ n : Int64, ¬IntegerText s n.toInt) → given = .error e ∧ e.kind = .typeMismatch ∧
        e.message = "expected integer, got " ++ Text.quoted s) := by
  intro given e
  have hgiven : given = (ofResult (ParamType.integer.ofText s)).result := by
    show (ofBody operand start (Body.integer i)).result = _
    rw [ofBody_integer, result_bind_of_ok h]
  simp only [integerText_iff]
  rw [hgiven, ParamType.ofText]
  cases readInteger (Text.trimChars s.toList) with
  | ok k =>
    refine ⟨fun n => ⟨fun h => ?_, fun h => ?_⟩, fun h => absurd rfl (h k)⟩
    · exact congrArg Except.ok (Except.ok.inj h)
    · exact congrArg Except.ok (Except.ok.inj h)
  | error e =>
    refine ⟨fun n => ⟨fun h => ?_, fun h => ?_⟩, fun _ => ⟨rfl, rfl, rfl⟩⟩
    · cases h
    · cases h

/-! ## Fields between blanks -/

section
variable {ctx : EvalContext}

/-- An operand that is a field between nodes has the text of the field between those of the
nodes. -/
theorem Node.result_evalArgs_field {args : List (List Node)} {levels i : Nat}
    {before after : List Node} {field : String} {span : Span} {value : Value} {s text t : String}
    (harg : args[i]? = some (before ++ .field field span :: after))
    (hfield : ctx.record field = some value) (htext : value.text? = some text)
    (hs : (Node.evalSeq ctx before levels).result = .ok s)
    (ht : (Node.evalSeq ctx after levels).result = .ok t) :
    (Node.evalArgs ctx args levels i).result = .ok (s ++ text ++ t) := by
  rw [Node.evalArgs_eq, harg]
  dsimp only
  rw [Node.evalSeq_append, Run.result_bind_of_ok hs, Node.evalSeq, Node.eval,
    EvalContext.fieldText_of_text hfield htext]
  simp only [bind_assoc, pure_bind]
  rw [Run.result_bind_of_ok rfl, Run.result_bind_of_ok ht, String.append_assoc]
  rfl

/-- A field that holds an integer, with blanks around it, is an integer to the accessor. -/
theorem Node.result_ofBody_integer {args : List (List Node)} {levels i : Nat}
    {before after : List Node} {field : String} {span : Span} {n : Int64} {s t : String}
    (harg : args[i]? = some (before ++ .field field span :: after))
    (hfield : ctx.record field = some (.integer n))
    (hs : (Node.evalSeq ctx before levels).result = .ok s) (hsblank : Text.Blank s.toList)
    (ht : (Node.evalSeq ctx after levels).result = .ok t) (htblank : Text.Blank t.toList)
    (start : Event) :
    (Run.ofBody (Node.evalArgs ctx args levels) start (Body.integer i)).result = .ok n := by
  have htext := Node.result_evalArgs_field harg hfield rfl hs ht
  exact ((Run.result_ofBody_integer htext start).1 n).2 (integerText_of_blank hsblank htblank _)

/-! ## Left -/

/-- The source text of a field. -/
def fieldSource (name : String) : String :=
  "%" ++ name ++ "%"

/-- The pieces of a field between texts. -/
def Piece.fieldBetween (before name after : String) : List Piece :=
  quoted before ++ .field name :: quoted after

/-- Blanks have no meaning of their own in a template. -/
theorem escape_of_blank {s : String} (h : Text.Blank s.toList) : escape s = s := by
  refine escape_eq_self fun c hc => ?_
  have hblank := h c hc
  by_contra hescapable
  rw [Bool.not_eq_false, Reader.isEscapable] at hescapable
  simp only [Bool.or_eq_true, beq_iff_eq] at hescapable
  rcases hescapable with ((((rfl | rfl) | rfl) | rfl) | rfl) | rfl <;>
    exact absurd hblank (by decide)

namespace Piece

/-- The source text of a field between blanks is just that: blanks need no escapes. -/
theorem charsSeq_fieldBetween {before after : String} (hbefore : Text.Blank before.toList)
    (hafter : Text.Blank after.toList) (name : String) :
    charsSeq (fieldBetween before name after) = (before ++ fieldSource name ++ after).toList := by
  rw [fieldBetween, charsSeq_append, charsSeq, charsSeq_quoted, charsSeq_quoted,
    escape_of_blank hbefore, escape_of_blank hafter]
  simp [fieldSource, chars]

/-- The language has a field between any texts. -/
theorem valid_fieldBetween {name : String} (hname : IsName name) (before after : String) :
    ValidSeq (fieldBetween before name after) :=
  (validSeq_append _ _).2 ⟨valid_quoted before, hname, valid_quoted after⟩

/-- A field between texts is balanced, since the parentheses of the texts are escaped. -/
theorem balanced_fieldBetween (before name after : String) :
    Balanced (fieldBetween before name after) := by
  rw [Balanced, fieldBetween, groupsSeq_append, groupsSeq_quoted, Option.bind_some, groupsSeq,
    List.foldlM_cons, groups_field]
  exact groupsSeq_quoted 0 after

/-- A field between texts has no calls in it. -/
theorem depthSeq_fieldBetween (before name after : String) :
    depthSeq (fieldBetween before name after) = 0 := by
  rw [fieldBetween, depthSeq_append, depthSeq_quoted, depthSeq, depthSeq_quoted]
  rfl

/-- The tree of a quoted text gives the text. -/
theorem evalSeq_nodes_quoted (ctx : EvalContext) (pos : Nat) (s : String) (levels : Nat) :
    Node.evalSeq ctx (nodes pos (quoted s)) levels = pure s := by
  by_cases hs : s = ""
  · subst hs
    rfl
  · rw [nodes_quoted pos hs, Node.evalSeq, Node.eval, Node.evalSeq]
    simp only [pure_bind, String.append_empty]

/-- A field between texts looks up the field once and gives the texts around that of the field. -/
theorem evalSeq_nodes_fieldBetween {name text : String} {value : Value}
    (hfield : ctx.record name = some value) (htext : value.text? = some text)
    (before after : String) (pos levels : Nat) :
    Node.evalSeq ctx (nodes pos (fieldBetween before name after)) levels =
      ⟨[.lookup name], .ok (before ++ text ++ after)⟩ := by
  have hname : ∀ pos, (Piece.field name).node pos =
      .field name ⟨pos, pos + (Piece.field name).size⟩ :=
    fun pos => by rw [node, size_field]
  rw [fieldBetween, nodes_append, Node.evalSeq_joinSeq, evalSeq_nodes_quoted, nodes, hname,
    Node.join_field, Node.evalSeq, Node.eval, EvalContext.fieldText_of_text hfield htext,
    evalSeq_nodes_quoted]
  simp only [bind_assoc, pure_bind]
  rw [String.append_assoc]
  rfl

end Piece

/-- The source text of a call of `left` on two fields, with blanks around the second. -/
def leftSource (t before n after : String) : String :=
  callSource "left" [fieldSource t, before ++ fieldSource n ++ after]

/-- The pieces of such a call. -/
def Piece.leftCall (t before n after : String) : Piece :=
  .call "left" [fieldBetween "" t "", fieldBetween before n after]

section
variable {t n before after : String}

/-- The source text of the call is spelt by its pieces. -/
theorem spells_leftCall (ht : IsName t) (hn : IsName n) (hbefore : Text.Blank before.toList)
    (hafter : Text.Blank after.toList) :
    Spells [Piece.leftCall t before n after] (leftSource t before n after) := by
  have hempty : Text.Blank "".toList := List.forall_mem_nil _
  have htexts : [Piece.fieldBetween "" t "", Piece.fieldBetween before n after].map Piece.text =
      [fieldSource t, before ++ fieldSource n ++ after] := by
    simp only [List.map_cons, List.map_nil, Piece.text, Piece.charsSeq_fieldBetween hempty hempty,
      Piece.charsSeq_fieldBetween hbefore hafter, String.ofList_toList, String.empty_append,
      String.append_empty]
  have hchars := toList_callSource "left" [Piece.fieldBetween "" t "",
    Piece.fieldBetween before n after]
  rw [htexts] at hchars
  refine ⟨⟨⟨by decide, by simp,
    ⟨Piece.valid_fieldBetween ht _ _, Piece.balanced_fieldBetween _ _ _⟩,
    ⟨Piece.valid_fieldBetween hn _ _, Piece.balanced_fieldBetween _ _ _⟩, trivial⟩, trivial⟩, ?_⟩
  rw [leftSource, hchars, charsSeq, charsSeq, List.append_nil, Piece.leftCall]

/-- The source text of the call is a template, whose one node is the call. -/
theorem compile_leftSource (ht : IsName t) (hn : IsName n) (hbefore : Text.Blank before.toList)
    (hafter : Text.Blank after.toList) {maxDepth : Nat} (hdepth : 1 ≤ maxDepth)
    (hsize : (leftSource t before n after).utf8ByteSize ≤ 2 ^ 32 - 1) :
    compile (leftSource t before n after) maxDepth =
      .ok (Template.ofNodes (nodes 0 [Piece.leftCall t before n after])) := by
  have hnested : Piece.depthSeq [Piece.leftCall t before n after] = 1 := by
    simp only [Piece.leftCall, Piece.depthSeq, Piece.depth, Piece.depthArgs,
      Piece.depthSeq_fieldBetween, Nat.max_self]
    rfl
  exact compile_of_spells (spells_leftCall ht hn hbefore hafter) (hnested ▸ hdepth) hsize

/-- The call looks up the count and then, unless that is negative, the text. -/
theorem evalSeq_leftCall {ctx : EvalContext} {s : String} {k : Int64}
    (hresolve : ctx.registry.resolve "left" 2 = .ok .left)
    (ht : ctx.record t = some (.text s)) (hn : ctx.record n = some (.integer k))
    (hbefore : Text.Blank before.toList) (hafter : Text.Blank after.toList) (levels : Nat) :
    let anomaly : Anomaly := .typeMismatch "non-negative integer" (intText k.toInt)
    let span : Span := ⟨0, (Piece.leftCall t before n after).size⟩
    Node.evalSeq ctx (nodes 0 [Piece.leftCall t before n after]) (levels + 1) =
      ctx.callText "left"
        (if k.toInt < 0 then ⟨[.lookup n], .error { anomaly, span }⟩
        else ⟨[.lookup n, .lookup t], .ok (.ofList (s.toList.take k.toInt.toNat))⟩) := by
  intro anomaly span
  have hcount : ParamType.integer.ofText (before ++ intText k.toInt ++ after) = .ok k := by
    rw [ParamType.ofText, integerText_iff.1 (integerText_of_blank hbefore hafter _)]
  have hzero : (⟨0, 0 + (Piece.leftCall t before n after).size⟩ : Span) = span := by
    rw [Nat.zero_add]
  rw [Piece.nodes_singleton, Node.evalSeq, Node.evalSeq]
  simp only [pure_bind, String.append_empty, bind_pure]
  rw [Piece.leftCall, Piece.node, nodesArgs, nodesArgs, nodesArgs, ← Piece.leftCall, hzero,
    Node.eval_left_of_resolve hresolve, Piece.evalSeq_nodes_fieldBetween hn rfl, Run.bind_mk,
    hcount]
  dsimp only
  split
  · rfl
  · rw [Piece.evalSeq_nodes_fieldBetween ht rfl, Run.bind_mk, String.empty_append,
      String.append_empty]
    rfl

end

end

/-- Integers pass through the text of an operand. The accessor succeeds exactly on the notations of
the 64-bit integers, with any blanks around them, and quotes every other text as it is; a field that
holds an integer, with any blanks around it, gives that integer. So a call of `left` with the count
in a field gives as many characters of the text as there are and no more than the count says, and
refuses a negative count. -/
theorem EvalContext.integers_pass_through (ctx : EvalContext) :
    (∀ (operand : Nat → Run String) (start : Event) (i : Nat) (s : String),
      (operand i).result = .ok s →
      let given := (Run.ofBody operand start (Body.integer i)).result
      let e : EvalError := { anomaly := .typeMismatch "integer" s }
      (∀ n : Int64, given = .ok n ↔ IntegerText s n.toInt) ∧
        ((∀ n : Int64, ¬IntegerText s n.toInt) → given = .error e ∧ e.kind = .typeMismatch ∧
          e.message = "expected integer, got " ++ Text.quoted s)) ∧
    (∀ (args : List (List Node)) (levels i : Nat) (start : Event) (before after : List Node)
      (field : String) (span : Span) (n : Int64) (s t : String),
      args[i]? = some (before ++ .field field span :: after) →
      ctx.record field = some (.integer n) →
      (Node.evalSeq ctx before levels).result = .ok s → Text.Blank s.toList →
      (Node.evalSeq ctx after levels).result = .ok t → Text.Blank t.toList →
      (Run.ofBody (Node.evalArgs ctx args levels) start (Body.integer i)).result = .ok n) ∧
    ∀ (t n before after s : String) (k : Int64) (maxDepth : Nat),
      let source := leftSource t before n after
      IsName t → IsName n → Text.Blank before.toList → Text.Blank after.toList →
      ctx.record t = some (.text s) → ctx.record n = some (.integer k) →
      ctx.registry.resolve "left" 2 = .ok .left →
      1 ≤ ctx.options.maxDepth → 1 ≤ maxDepth → source.utf8ByteSize ≤ 2 ^ 32 - 1 →
      ∃ template, compile source maxDepth = .ok template ∧
        (0 ≤ k.toInt → template.evaluate ctx =
          ⟨[.lookup n, .lookup t], .ok (.ofList (s.toList.take (min k.toInt.toNat s.length)))⟩) ∧
        (k.toInt < 0 →
          let anomaly : Anomaly := .typeMismatch "non-negative integer" (intText k.toInt)
          let e : EvalError := { anomaly, span := some ⟨0, source.utf8ByteSize⟩ }
          (e.kind = .typeMismatch ∧
            e.message = "expected non-negative integer, got " ++ Text.quoted (intText k.toInt)) ∧
          template.evaluate ctx =
            if ctx.options.strict then ⟨[.lookup n], .error e⟩
            else ⟨[.lookup n, .callDegraded "left" e.message], .ok ""⟩) := by
  refine ⟨fun operand start i s hs => Run.result_ofBody_integer hs start, ?_, ?_⟩
  · intro args levels i start before after field span n s t harg hfield hs hsblank ht htblank
    exact Node.result_ofBody_integer harg hfield hs hsblank ht htblank start
  · intro t n before after s k maxDepth source ht hn hbefore hafter htext hcount hresolve hlevels
      hdepth hsize
    have hcompile := compile_leftSource ht hn hbefore hafter hdepth hsize
    obtain ⟨levels, hlevels⟩ := Nat.exists_eq_add_of_le' hlevels
    have heval := evalSeq_leftCall hresolve htext hcount hbefore hafter levels
    have hlength := (spells_leftCall ht hn hbefore hafter).sizeSeq_eq
    rw [Piece.sizeSeq_cons, Piece.sizeSeq_nil, Nat.add_zero] at hlength
    rw [hlength] at heval
    refine ⟨_, hcompile, fun hk => ?_, fun hk => ?_⟩
    · rw [Template.evaluate_of_compileWithin hcompile, Template.toNodes_ofNodes, hlevels, heval,
        if_neg (Int.not_lt.2 hk), ← String.length_toList, ← List.take_eq_take_min]
      rfl
    · intro anomaly e
      refine ⟨⟨rfl, rfl⟩, ?_⟩
      rw [Template.evaluate_of_compileWithin hcompile, Template.toNodes_ofNodes, hlevels, heval,
        if_pos hk]
      rfl

/-- Signs, zeros and blanks around a number, the first number out of range, and the two ends of the
range in a field. -/
theorem EvalContext.integers_pass_through_extremes :
    let ctx (k : Int64) : EvalContext := {
      record := fun name =>
        if name = "t" then some (.text "añb") else if name = "n" then some (.integer k) else none
      options := { strict := true } }
    let argument : List Node := [.literal "\t" ⟨3, 4⟩, .field "n" ⟨4, 7⟩]
    let integerOf (operand : Nat → Run String) :=
      (Run.ofBody operand (.call "f" 1) (Body.integer 0)).result
    let tooLarge : EvalError := { anomaly := .typeMismatch "integer" " 9223372036854775808" }
    let negative : EvalError := {
      anomaly := .typeMismatch "non-negative integer" "-9223372036854775808"
      span := some ⟨0, 14⟩ }
    integerOf (fun _ => pure "\u00a0+007\n") = .ok 7 ∧
      (integerOf (fun _ => pure " 9223372036854775808") = .error tooLarge ∧
        tooLarge.message = "expected integer, got \" 9223372036854775808\"") ∧
      integerOf (Node.evalArgs (ctx Int64.minValue) [argument] 0) = .ok Int64.minValue ∧
      ∃ template, compile "$left(%t%,%n%)" = .ok template ∧
        template.evaluate (ctx Int64.maxValue) = ⟨[.lookup "n", .lookup "t"], .ok "añb"⟩ ∧
        template.evaluate (ctx Int64.minValue) = ⟨[.lookup "n"], .error negative⟩ ∧
        negative.message = "expected non-negative integer, got \"-9223372036854775808\"" := by
  intro ctx argument integerOf tooLarge negative
  obtain ⟨hreads, hfield, hleft⟩ := EvalContext.integers_pass_through (ctx Int64.minValue)
  obtain ⟨-, -, hleft'⟩ := EvalContext.integers_pass_through (ctx Int64.maxValue)
  have hresolve : Registry.builtins.resolve "left" 2 = .ok .left :=
    Registry.keeps_builtins.resolve_eq (f := .left) (by simp [Function.conditionals]) rfl
  have hblank : Text.Blank "".toList := List.forall_mem_nil _
  obtain ⟨template, hcompile, -, hmin⟩ := hleft "t" "n" "" "" "añb" Int64.minValue defaultMaxDepth
    (by decide) (by decide) hblank hblank rfl rfl hresolve (by decide) (by decide) (by decide)
  obtain ⟨template', hcompile', hmax, -⟩ := hleft' "t" "n" "" "" "añb" Int64.maxValue
    defaultMaxDepth (by decide) (by decide) hblank hblank rfl rfl hresolve (by decide) (by decide)
    (by decide)
  obtain rfl : template = template' := Except.ok.inj (hcompile.symm.trans hcompile')
  obtain ⟨⟨-, hnegative⟩, hmin⟩ := hmin (by decide)
  have hlarge : ∀ n : Int64, ¬IntegerText " 9223372036854775808" n.toInt := by
    intro n hn
    have hread : readInteger (Text.trimChars " 9223372036854775808".toList) = .error .tooLarge := by
      decide
    cases hread.symm.trans (integerText_iff.1 hn)
  obtain ⟨hgiven, -, hmessage⟩ := (hreads (fun _ => pure " 9223372036854775808") (.call "f" 1) 0
    " 9223372036854775808" rfl).2 hlarge
  refine ⟨?_, ⟨hgiven, hmessage.trans (by decide +kernel)⟩, ?_, template, hcompile,
    hmax (by decide), hmin, hnegative.trans (by decide +kernel)⟩
  · exact ((hreads _ (.call "f" 1) 0 "\u00a0+007\n" rfl).1 7).2 (integerText_iff.2 (by decide))
  · exact hfield [argument] 0 0 (.call "f" 1) [.literal "\t" ⟨3, 4⟩] [] "n" ⟨4, 7⟩ Int64.minValue
      "\t" "" rfl rfl rfl (by decide) rfl hblank

end TagTemplate
