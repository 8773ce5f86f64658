import TagTemplate.Proofs.OperandRuns

/-!
# The operands that conditional functions select

A conditional function looks at the text of one operand and then evaluates at most one more, the one
that this text selects. `EvalContext.conditionals_select` says so of all five: a call is the run of
the operand looked at, continued by the run of the operand selected. An operand that is not selected
may be any template whatever, and the call comes to the same (`Node.Skips`).
-/

namespace TagTemplate

/-- The functions that evaluate only the operands they select. -/
def Function.conditionals : List Function :=
  [ifThenElse, both, either, orDefault, left]

/-- The registry has the functions under their own names. -/
def Registry.Keeps (r : Registry) (fs : List Function) : Prop :=
  ∀ f ∈ fs, r.get? f.name = some f

/-- A call of a function that the registry keeps reaches it. -/
theorem Registry.Keeps.resolve_eq {r : Registry} {fs : List Function} (h : r.Keeps fs)
    {f : Function} (hf : f ∈ fs) {count : Nat} (hcount : f.arity.accepts count = true) :
    r.resolve f.name count = .ok f := by
  rw [Registry.resolve, h f hf]
  exact if_pos hcount

/-- A registry that is extended keeps the functions of other names. -/
theorem Registry.Keeps.register {r : Registry} {fs : List Function} (h : r.Keeps fs)
    {f : Function} (hf : f.name ∉ fs.map Function.name) : (r.register f).Keeps fs := by
  intro g hg
  have hne : f.name ≠ g.name := fun heq => hf (heq ▸ List.mem_map_of_mem hg)
  rw [get?_register, if_neg hne]
  exact h g hg

/-- The builtin functions are kept. -/
theorem Registry.keeps_builtins : builtins.Keeps Function.conditionals := by
  intro f hf
  simp only [Function.conditionals, List.mem_cons, List.not_mem_nil, or_false] at hf
  obtain rfl | rfl | rfl | rfl | rfl := hf <;> rfl

/-! ## The functions on runs of their operands -/

namespace Run

/-- A choice by the truth of a text is a choice by whether the text is empty. -/
theorem truth_bind {α : Type} (t : String) (f : Bool → Run α) :
    (pure (t != "") >>= f) = if t = "" then f false else f true := by
  rw [pure_bind]
  split
  · next h => rw [h]; rfl
  · next h => rw [bne_iff_ne.2 h]

variable (operand : Nat → Run String) (start : Event) (count : Nat)

/-- `if` evaluates its first operand and then the second or the third. -/
theorem ofBody_ifThenElse :
    ofBody operand start (Function.ifThenElse.body count) =
      operand 0 >>= fun t => if t = "" then operand 2 else operand 1 := by
  show ofBody operand start (Body.truth 0 >>= fun b => if b then Body.text 1 else Body.text 2) = _
  rw [ofBody_bind, ofBody_truth, bind_assoc]
  congr 1
  funext t
  rw [truth_bind, if_neg Bool.false_ne_true, if_pos rfl, ofBody_text, ofBody_text]

/-- The text of an operand's truth. -/
theorem ofBody_truth_marker (i : Nat) :
    ofBody operand start (Body.truth i >>= fun b => pure (Function.marker b)) =
      operand i >>= fun t => pure (if t = "" then "" else "1") := by
  rw [ofBody_bind, ofBody_truth, bind_assoc]
  congr 1
  funext t
  rw [truth_bind]
  split <;> rfl

/-- `and` evaluates its second operand only if the first has a text. -/
theorem ofBody_both :
    ofBody operand start (Function.both.body count) =
      operand 0 >>= fun s =>
        if s = "" then pure ""
        else operand 1 >>= fun t => pure (if t = "" then "" else "1") := by
  show ofBody operand start (Body.truth 0 >>= fun b =>
    if b then Body.truth 1 >>= fun b => pure (Function.marker b)
    else pure (Function.marker false)) = _
  rw [ofBody_bind, ofBody_truth, bind_assoc]
  congr 1
  funext t
  rw [truth_bind, if_neg Bool.false_ne_true, if_pos rfl, ofBody_truth_marker]
  rfl

/-- `or` evaluates its second operand only if the first has no text. -/
theorem ofBody_either :
    ofBody operand start (Function.either.body count) =
      operand 0 >>= fun s =>
        if s = "" then operand 1 >>= fun t => pure (if t = "" then "" else "1")
        else pure "1" := by
  show ofBody operand start (Body.truth 0 >>= fun b =>
    if b then pure (Function.marker true)
    else Body.truth 1 >>= fun b => pure (Function.marker b)) = _
  rw [ofBody_bind, ofBody_truth, bind_assoc]
  congr 1
  funext t
  rw [truth_bind, if_neg Bool.false_ne_true, if_pos rfl, ofBody_truth_marker]
  rfl

/-- `default` evaluates its second operand only if the first has no text. -/
theorem ofBody_orDefault :
    ofBody operand start (Function.orDefault.body count) =
      operand 0 >>= fun s => if s = "" then operand 1 else pure s := by
  show ofBody operand start (Body.text 0 >>= fun t => if t = "" then Body.text 1 else pure t) = _
  rw [ofBody_bind, ofBody_text]
  congr 1
  funext t
  split
  · exact ofBody_text operand start 1
  · rfl

/-- `left` evaluates the number, and the text only if the number is one and not negative. -/
theorem ofBody_left :
    ofBody operand start (Function.left.body count) =
      operand 1 >>= fun s => ofResult (ParamType.integer.ofText s) >>= fun n =>
        if n.toInt < 0 then
          fail { anomaly := .typeMismatch "non-negative integer" (intText n.toInt) }
        else operand 0 >>= fun t => pure (.ofList (t.toList.take n.toInt.toNat)) := by
  show ofBody operand start (Body.integer 1 >>= fun n =>
    if n.toInt < 0 then Body.fail (.typeMismatch "non-negative integer" (intText n.toInt))
    else Body.text 0 >>= fun t => pure (String.ofList (t.toList.take n.toInt.toNat))) = _
  rw [ofBody_bind, ofBody_integer, bind_assoc]
  congr 1
  funext s
  congr 1
  funext n
  split
  · rfl
  · rw [ofBody_bind, ofBody_text]
    rfl

/-- What follows a run matters only for the value that the run comes to. -/
theorem bind_congr_result {α β : Type} {x : Run α} {f g : α → Run β}
    (h : ∀ a, x.result = .ok a → f a = g a) : x >>= f = x >>= g := by
  show x.bind f = x.bind g
  obtain ⟨events, result⟩ := x
  cases result with
  | error e => rfl
  | ok a => simp only [bind, h a rfl]

end Run

/-! ## Calls of the functions -/

namespace Node

/-- The call comes to the same whatever stands as its operand. -/
def Skips (ctx : EvalContext) (levels : Nat) (name : String) (args : List (List Node))
    (span : Span) (i : Nat) : Prop :=
  ∀ a, (call name (args.set i a) span).eval ctx levels = (call name args span).eval ctx levels

/-- A call that goes on from the run of another operand skips an operand if the value of that run
does not lead to it. -/
theorem Skips.of_bind {ctx : EvalContext} {levels : Nat} {name : String} {args : List (List Node)}
    {span : Span} {i : Nat} {x : Run String} {f : List Node → String → Run String} {a : List Node}
    (ha : args[i]? = some a)
    (heval : ∀ b, (call name (args.set i b) span).eval ctx levels = x >>= f b)
    (hf : ∀ b s, x.result = .ok s → f b s = f a s) : Skips ctx levels name args span i := by
  intro b
  have hargs : args.set i a = args := by
    obtain ⟨hi, rfl⟩ := List.getElem?_eq_some_iff.1 ha
    exact List.set_getElem_self hi
  calc (call name (args.set i b) span).eval ctx levels
    _ = x >>= f b := heval b
    _ = x >>= f a := Run.bind_congr_result (hf b)
    _ = (call name args span).eval ctx levels := by rw [← heval a, hargs]

/-- The count may be refused, and then the call fails itself. -/
theorem eval_left_of_resolve {ctx : EvalContext}
    (hresolve : ctx.registry.resolve "left" 2 = .ok .left) (span : Span) (levels : Nat)
    (t n : List Node) :
    (call "left" [t, n] span).eval ctx (levels + 1) =
      ctx.callText "left" (evalSeq ctx n levels >>= fun s =>
        match ParamType.integer.ofText s with
        | .error anomaly => Run.fail { anomaly, span }
        | .ok k =>
          if k.toInt < 0 then
            Run.fail { anomaly := .typeMismatch "non-negative integer" (intText k.toInt), span }
          else
            evalSeq ctx t levels >>= fun text =>
              pure (.ofList (text.toList.take k.toInt.toNat))) := by
  rw [@eval_call_of_resolve ctx "left" [t, n] _ hresolve, Run.ofBody_left,
    (settled_evalArgs [t, n] levels 1).locate_bind]
  refine congrArg (ctx.callText "left") (congrArg (evalSeq ctx n levels >>= ·) (funext fun s => ?_))
  cases ParamType.integer.ofText s with
  | error anomaly => rfl
  | ok k =>
    by_cases hk : k.toInt < 0
    · simp only [Run.ofResult, pure_bind, if_pos hk]
      rfl
    · have htext : ctx.Settled (evalSeq ctx t levels >>= fun text =>
          pure (String.ofList (text.toList.take k.toInt.toNat))) :=
        (settled_evalSeq t levels).bind fun _ => EvalContext.settled_pure _
      simp only [Run.ofResult, pure_bind, if_neg hk]
      exact htext.locate_eq span

variable {ctx : EvalContext} (hreg : ctx.registry.Keeps Function.conditionals) (span : Span)
  (levels : Nat)
include hreg

/-- A call of a conditional function is what the function makes of the operands, if that is
settled. -/
theorem eval_conditional {f : Function} (hf : f ∈ Function.conditionals) {args : List (List Node)}
    (hcount : f.arity.accepts args.length = true) {x : Run String} (hx : ctx.Settled x)
    (hbody : Run.ofBody (evalArgs ctx args levels) (.call f.name args.length)
      (f.body args.length) = x) :
    (call f.name args span).eval ctx (levels + 1) = x := by
  rw [eval_call_of_resolve (hreg.resolve_eq hf hcount), hbody, hx.locate_eq, hx.callText_eq]

/-- A call of `if` in terms of its arguments. -/
theorem eval_if (c a b : List Node) :
    (call "if" [c, a, b] span).eval ctx (levels + 1) =
      evalSeq ctx c levels >>= fun s =>
        if s = "" then evalSeq ctx b levels else evalSeq ctx a levels := by
  refine eval_conditional hreg span levels (f := .ifThenElse) (by simp [Function.conditionals]) rfl
    ((settled_evalSeq c levels).bind fun s => ?_) (Run.ofBody_ifThenElse ..)
  split
  · exact settled_evalSeq b levels
  · exact settled_evalSeq a levels

/-- A call of `and` in terms of its arguments. -/
theorem eval_and (a b : List Node) :
    (call "and" [a, b] span).eval ctx (levels + 1) =
      evalSeq ctx a levels >>= fun s =>
        if s = "" then pure ""
        else evalSeq ctx b levels >>= fun t => pure (if t = "" then "" else "1") := by
  refine eval_conditional hreg span levels (f := .both) (by simp [Function.conditionals]) rfl
    ((settled_evalSeq a levels).bind fun s => ?_) (Run.ofBody_both ..)
  split
  · exact EvalContext.settled_pure ""
  · exact (settled_evalSeq b levels).bind fun _ => EvalContext.settled_pure _

/-- A call of `or` in terms of its arguments. -/
theorem eval_or (a b : List Node) :
    (call "or" [a, b] span).eval ctx (levels + 1) =
      evalSeq ctx a levels >>= fun s =>
        if s = "" then evalSeq ctx b levels >>= fun t => pure (if t = "" then "" else "1")
        else pure "1" := by
  refine eval_conditional hreg span levels (f := .either) (by simp [Function.conditionals]) rfl
    ((settled_evalSeq a levels).bind fun s => ?_) (Run.ofBody_either ..)
  split
  · exact (settled_evalSeq b levels).bind fun _ => EvalContext.settled_pure _
  · exact EvalContext.settled_pure "1"

/-- A call of `default` in terms of its arguments. -/
theorem eval_default (a b : List Node) :
    (call "default" [a, b] span).eval ctx (levels + 1) =
      evalSeq ctx a levels >>= fun s => if s = "" then evalSeq ctx b levels else pure s := by
  refine eval_conditional hreg span levels (f := .orDefault) (by simp [Function.conditionals]) rfl
    ((settled_evalSeq a levels).bind fun s => ?_) (Run.ofBody_orDefault ..)
  split
  · exact settled_evalSeq b levels
  · exact EvalContext.settled_pure s

/-- A call of `left` in terms of its arguments. -/
theorem eval_left (t n : List Node) :
    (call "left" [t, n] span).eval ctx (levels + 1) =
      ctx.callText "left" (evalSeq ctx n levels >>= fun s =>
        match ParamType.integer.ofText s with
        | .error anomaly => Run.fail { anomaly, span }
        | .ok k =>
          if k.toInt < 0 then
            Run.fail { anomaly := .typeMismatch "non-negative integer" (intText k.toInt), span }
          else
            evalSeq ctx t levels >>= fun text =>
              pure (.ofList (text.toList.take k.toInt.toNat))) :=
  eval_left_of_resolve (hreg.resolve_eq (f := .left) (by simp [Function.conditionals]) rfl) span
    levels t n

/-! ## Operands that are not selected -/

/-- A condition without text skips the second operand. -/
theorem skips_if_then {c : List Node} (a b : List Node)
    (hc : ∀ s, (evalSeq ctx c levels).result = .ok s → s = "") :
    Skips ctx (levels + 1) "if" [c, a, b] span 1 := by
  refine .of_bind rfl (fun x => eval_if hreg span levels c x b) fun x s hs => ?_
  rw [if_pos (hc s hs), if_pos (hc s hs)]

/-- A condition with text, or one that fails, skips the third operand. -/
theorem skips_if_else {c : List Node} (a b : List Node)
    (hc : (evalSeq ctx c levels).result ≠ .ok "") :
    Skips ctx (levels + 1) "if" [c, a, b] span 2 := by
  refine .of_bind rfl (fun x => eval_if hreg span levels c a x) fun x s hs => ?_
  have hne : s ≠ "" := fun h => hc (h ▸ hs)
  rw [if_neg hne, if_neg hne]

/-- A first operand of `and` without text skips the second. -/
theorem skips_and {a : List Node} (b : List Node)
    (ha : ∀ s, (evalSeq ctx a levels).result = .ok s → s = "") :
    Skips ctx (levels + 1) "and" [a, b] span 1 := by
  refine .of_bind rfl (fun x => eval_and hreg span levels a x) fun x s hs => ?_
  rw [if_pos (ha s hs), if_pos (ha s hs)]

/-- A first operand of `or` with text, or one that fails, skips the second. -/
theorem skips_or {a : List Node} (b : List Node)
    (ha : (evalSeq ctx a levels).result ≠ .ok "") :
    Skips ctx (levels + 1) "or" [a, b] span 1 := by
  refine .of_bind rfl (fun x => eval_or hreg span levels a x) fun x s hs => ?_
  have hne : s ≠ "" := fun h => ha (h ▸ hs)
  rw [if_neg hne, if_neg hne]

/-- A first operand of `default` with text, or one that fails, skips the second. -/
theorem skips_default {a : List Node} (b : List Node)
    (ha : (evalSeq ctx a levels).result ≠ .ok "") :
    Skips ctx (levels + 1) "default" [a, b] span 1 := by
  refine .of_bind rfl (fun x => eval_default hreg span levels a x)
    fun x s hs => ?_
  have hne : s ≠ "" := fun h => ha (h ▸ hs)
  rw [if_neg hne, if_neg hne]

/-- What is skipped is the text; a call that fails is passed over as any other. -/
theorem skips_left (t : List Node) {n : List Node}
    (hn : ∀ s k, (evalSeq ctx n levels).result = .ok s → ParamType.integer.ofText s = .ok k →
      k.toInt < 0) :
    Skips ctx (levels + 1) "left" [t, n] span 0 := by
  intro x
  refine (eval_left hreg span levels x n).trans (.trans ?_ (eval_left hreg span levels t n).symm)
  refine congrArg (ctx.callText "left") (Run.bind_congr_result fun s hs => ?_)
  cases hk : ParamType.integer.ofText s with
  | error anomaly => rfl
  | ok k =>
    have hneg : k.toInt < 0 := hn s k hs hk
    simp only [if_pos hneg]

end Node

/-- The conditional functions evaluate exactly the operands they select. A template is evaluated as
its tree, and in a tree a call within the limit is the run of the operand that decides, followed by
the run of the operand selected. The result is the text of the selected operand, or tells whether
the operands are empty; for `left` it is a part of the text, and a count that is refused is an error
of the call. An operand that is not selected contributes nothing, whatever it is. -/
theorem EvalContext.conditionals_select {ctx : EvalContext}
    (hreg : ctx.registry.Keeps Function.conditionals) :
    (∀ limits source t, compileWithin limits source = .ok t →
      t.evaluate ctx = Node.evalSeq ctx t.toNodes ctx.options.maxDepth) ∧
    ∀ (span : Span) (levels : Nat),
      let run (a : List Node) := Node.evalSeq ctx a levels
      let call (name : String) (args : List (List Node)) :=
        (Node.call name args span).eval ctx (levels + 1)
      let skips (name : String) (args : List (List Node)) :=
        Node.Skips ctx (levels + 1) name args span
      (∀ c a b,
        call "if" [c, a, b] = (run c >>= fun s => if s = "" then run b else run a) ∧
        ((∀ s, (run c).result = .ok s → s = "") → skips "if" [c, a, b] 1) ∧
        ((run c).result ≠ .ok "" → skips "if" [c, a, b] 2)) ∧
      (∀ a b,
        call "and" [a, b] = (run a >>= fun s =>
          if s = "" then pure "" else run b >>= fun t => pure (if t = "" then "" else "1")) ∧
        ((∀ s, (run a).result = .ok s → s = "") → skips "and" [a, b] 1)) ∧
      (∀ a b,
        call "or" [a, b] = (run a >>= fun s =>
          if s = "" then run b >>= fun t => pure (if t = "" then "" else "1") else pure "1") ∧
        ((run a).result ≠ .ok "" → skips "or" [a, b] 1)) ∧
      (∀ a b,
        call "default" [a, b] = (run a >>= fun s => if s = "" then run b else pure s) ∧
        ((run a).result ≠ .ok "" → skips "default" [a, b] 1)) ∧
      (∀ t n,
        call "left" [t, n] = ctx.callText "left" (run n >>= fun s =>
          match ParamType.integer.ofText s with
          | .error anomaly => Run.fail { anomaly, span }
          | .ok k =>
            if k.toInt < 0 then
              Run.fail { anomaly := .typeMismatch "non-negative integer" (intText k.toInt), span }
            else
              run t >>= fun text => pure (.ofList (text.toList.take k.toInt.toNat))) ∧
        ((∀ s k, (run n).result = .ok s → ParamType.integer.ofText s = .ok k → k.toInt < 0) →
          skips "left" [t, n] 0)) := by
  refine ⟨fun limits source t h => Template.evaluate_of_compileWithin h ctx,
    fun span levels => ?_⟩
  intro run call skips
  refine ⟨fun c a b => ⟨?_, ?_, ?_⟩, fun a b => ⟨?_, ?_⟩, fun a b => ⟨?_, ?_⟩,
    fun a b => ⟨?_, ?_⟩, fun t n => ⟨?_, ?_⟩⟩
  · exact Node.eval_if hreg span levels c a b
  · exact Node.skips_if_then hreg span levels a b
  · exact Node.skips_if_else hreg span levels a b
  · exact Node.eval_and hreg span levels a b
  · exact Node.skips_and hreg span levels b
  · exact Node.eval_or hreg span levels a b
  · exact Node.skips_or hreg span levels b
  · exact Node.eval_default hreg span levels a b
  · exact Node.skips_default hreg span levels b
  · exact Node.eval_left hreg span levels t n
  · exact Node.skips_left hreg span levels t

/-- A strict evaluation that skips a call of an unknown function and a call that would look up a
field. -/
theorem EvalContext.conditionals_select_strict :
    let ctx : EvalContext := {
      record := fun _ => none
      registry := Registry.builtins.register (Function.scripted "s" (.exactly 1) [.text 0])
      options := { strict := true } }
    ctx.registry.Keeps Function.conditionals ∧
      ∃ t, compile "$if(%x%,$nosuch(),$left(abc,2))$or($s(1),%y%)" = .ok t ∧
        (t.evaluate ctx).events = [.lookup "x", .call "s" 1] ∧
        (t.evaluate ctx).result = .ok "ab1" ∧
        ∀ c a, (Node.evalSeq ctx c 3).result = .ok "" →
          Node.Skips ctx 4 "if" [c, a, [.literal "t" ⟨0, 1⟩]] ⟨0, 9⟩ 1 := by
  intro ctx
  have hreg : ctx.registry.Keeps Function.conditionals :=
    Registry.keeps_builtins.register (by decide)
  let ps : List Piece :=
    [.call "if" [[.field "x"], [.call "nosuch" []],
      [.call "left" [[.plain 'a', .plain 'b', .plain 'c'], [.plain '2']]]],
      .call "or" [[.call "s" [[.plain '1']]], [.field "y"]]]
  have ht := (compileWithin_eq_ok_iff {} "$if(%x%,$nosuch(),$left(abc,2))$or($s(1),%y%)" _).2
    ⟨ps, ⟨⟨by decide, by decide⟩, by decide, ⟨by decide, by decide, by decide⟩⟩, rfl⟩
  obtain ⟨heval, hselect⟩ := EvalContext.conditionals_select hreg
  obtain ⟨hif, -⟩ := hselect ⟨0, 9⟩ 3
  refine ⟨hreg, _, ht, ?_, ?_, fun c a hc => ?_⟩
  · rw [heval _ _ _ ht, Template.toNodes_ofNodes]
    decide
  · rw [heval _ _ _ ht, Template.toNodes_ofNodes]
    decide
  · exact (hif c a _).2.1 fun s hs => Except.ok.inj (hs.symm.trans hc)

end TagTemplate
