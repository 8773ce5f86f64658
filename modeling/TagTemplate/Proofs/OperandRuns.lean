import TagTemplate.Proofs.Propagation
import TagTemplate.Proofs.Refinement
import TagTemplate.Proofs.Visiting

/-!
# Runs of operands

What a body does is put together from the runs of the operands that it asks for. The accessors run
one operand each and then convert its text, and `ParamType.ofText` says how.

An operand has been settled before the function sees it: in the lenient mode it does not fail, and
in the strict mode its error points at a node inside it (`Node.settled_evalArgs`). So a call that
adds no failure of its own is nothing but a run put together from those of its operands
(`EvalContext.Settled.locate_eq`, `EvalContext.Settled.callText_eq`).
-/

namespace TagTemplate

/-! ## Converting texts -/

/-- What a parameter of the type makes of the text of its operand. -/
def ParamType.ofText : (p : ParamType) → String → Except Anomaly p.Argument
  | .text, t => .ok t
  | .integer, t =>
    match readInteger (Text.trimChars t.toList) with
    | .ok n => .ok n
    | .error _ => .error (.typeMismatch "integer" t)
  | .number, t =>
    match Binary64.read (Text.trimChars t.toList) with
    | some x => .ok x
    | none => .error (.typeMismatch "number" t)
  | .truth, t => .ok (t != "")

namespace Run

variable {α β : Type}

/-- The run that does nothing but to come to the result. An anomaly points nowhere. -/
def ofResult : Except Anomaly α → Run α
  | .ok a => pure a
  | .error anomaly => fail { anomaly }

section
variable (operand : Nat → Run String) (start : Event)

/-- To ask for the text of an operand is to run it. -/
theorem ofBody_text (i : Nat) : ofBody operand start (Body.text i) = operand i := by
  simp [ofBody, Body.text]

/-- The truth of an operand is that of its text. -/
theorem ofBody_truth (i : Nat) :
    ofBody operand start (Body.truth i) = operand i >>= fun t => pure (t != "") := by
  rw [Body.truth, ofBody_bind, ofBody_text]
  rfl

/-- The integer of an operand is that of its text. -/
theorem ofBody_integer (i : Nat) :
    ofBody operand start (Body.integer i) =
      operand i >>= fun t => ofResult (ParamType.integer.ofText t) := by
  rw [Body.integer, ofBody_bind, ofBody_text]
  congr 1
  funext t
  rw [ParamType.ofText]
  cases readInteger (Text.trimChars t.toList) <;> rfl

/-- The number of an operand is that of its text. -/
theorem ofBody_number (i : Nat) :
    ofBody operand start (Body.number i) =
      operand i >>= fun t => ofResult (ParamType.number.ofText t) := by
  rw [Body.number, ofBody_bind, ofBody_text]
  congr 1
  funext t
  rw [ParamType.ofText]
  cases Binary64.read (Text.trimChars t.toList) <;> rfl

/-- A parameter runs its operand once and then converts the text. -/
theorem ofBody_convert (p : ParamType) (i : Nat) :
    ofBody operand start (p.convert i) = operand i >>= fun t => ofResult (p.ofText t) := by
  cases p with
  | text =>
    rw [ParamType.convert, ofBody_text]
    exact (bind_pure (operand i)).symm
  | integer => exact ofBody_integer operand start i
  | number => exact ofBody_number operand start i
  | truth => exact ofBody_truth operand start i

end

end Run

/-! ## Settled runs -/

namespace EvalContext

variable {α β : Type} {ctx : EvalContext}

/-- The run fails in the strict mode only, and then its error points at a node. -/
def Settled (ctx : EvalContext) (x : Run α) : Prop :=
  ∀ e, x.result = .error e → ctx.options.strict = true ∧ ∃ span, e.span = some span

/-- A value at once has no error in it. -/
theorem settled_pure (a : α) : ctx.Settled (pure a : Run α) :=
  fun _ h => nomatch h

/-- Settled runs after each other are settled. -/
theorem Settled.bind {x : Run α} {f : α → Run β} (hx : ctx.Settled x)
    (hf : ∀ a, ctx.Settled (f a)) : ctx.Settled (x >>= f) := by
  intro e h
  rcases Run.result_bind_eq_error h with h | ⟨a, -, h⟩
  · exact hx e h
  · exact hf a e h

/-- The error of a field points at it. -/
theorem settled_fieldText (name : String) (span : Span) :
    ctx.Settled (ctx.fieldText name span) := by
  unfold fieldText
  refine Settled.bind (fun _ h => nomatch h) fun _ => ?_
  split
  · exact settled_pure ""
  split
  · exact settled_pure _
  split
  · next hstrict =>
    intro e h
    cases h
    exact ⟨hstrict, span, rfl⟩
  · exact Settled.bind (fun _ h => nomatch h) fun _ => settled_pure ""

/-- A call is settled if its outcome points somewhere: it has failed for the last time. -/
theorem settled_callText (name : String) {x : Run String}
    (hx : ∀ e, x.result = .error e → ∃ span, e.span = some span) :
    ctx.Settled (ctx.callText name x) := by
  intro e h
  refine ⟨?_, hx e (result_of_callText h)⟩
  unfold callText at h
  split at h
  · next hok =>
    rw [hok] at h
    cases h
  · split at h
    · next hstrict => exact hstrict
    · cases h

/-- The error of a call's outcome points at the call if it points nowhere else. -/
theorem span_of_dispatch {name : String} {span : Span} {count : Nat} {operand : Nat → Run String}
    {e : EvalError} (h : (ctx.dispatch name span count operand).result = .error e) :
    ∃ span, e.span = some span := by
  unfold dispatch at h
  split at h
  · cases h
    exact ⟨span, rfl⟩
  · next f hf =>
    generalize Run.ofBody operand (.call f.name count) (f.body count) = x at h
    obtain ⟨events, result⟩ := x
    cases result with
    | ok text => cases h
    | error e' =>
      cases h
      exact ⟨_, rfl⟩

/-- The error of a settled run points where it did. -/
theorem Settled.locate_eq {x : Run α} (hx : ctx.Settled x) (span : Span) : x.locate span = x := by
  obtain ⟨events, result⟩ := x
  cases result with
  | ok a => rfl
  | error e =>
    obtain ⟨-, there, hspan⟩ := hx e rfl
    have hsame : e.locate span = e := by
      rw [EvalError.locate, hspan, Option.getD_some, ← hspan]
    show (⟨events, .error (e.locate span)⟩ : Run α) = _
    rw [hsame]

/-- What follows a settled run may be pointed at a node by itself. -/
theorem Settled.locate_bind {x : Run α} (hx : ctx.Settled x) (f : α → Run β) (span : Span) :
    (x >>= f).locate span = x >>= fun a => (f a).locate span := by
  have hlocate := hx.locate_eq span
  show (x.bind f).locate span = x.bind _
  obtain ⟨events, result⟩ := x
  cases result with
  | ok a => rfl
  | error e =>
    have hsame : e.locate span = e := Except.error.inj (congrArg Run.result hlocate)
    show (⟨events, .error (e.locate span)⟩ : Run β) = ⟨events, .error e⟩
    rw [hsame]

/-- A settled run is no reason to pass a call over. -/
theorem Settled.callText_eq {x : Run String} (hx : ctx.Settled x) (name : String) :
    ctx.callText name x = x := by
  unfold callText
  split
  · rfl
  · next e he => rw [if_pos (hx e he).1]

end EvalContext

namespace Node

variable {ctx : EvalContext}

/-- The error of a node points at a node. -/
theorem settled_eval (n : Node) (levels : Nat) : ctx.Settled (n.eval ctx levels) := by
  cases n with
  | literal text span => exact EvalContext.settled_pure text
  | field name span => exact EvalContext.settled_fieldText name span
  | call name args span =>
    cases levels with
    | zero =>
      refine EvalContext.settled_callText name fun e h => ?_
      cases h
      exact ⟨span, rfl⟩
    | succ levels => exact EvalContext.settled_callText name fun e => EvalContext.span_of_dispatch

/-- A sequence is settled once it is evaluated. -/
theorem settled_evalSeq (ns : List Node) (levels : Nat) : ctx.Settled (evalSeq ctx ns levels) := by
  induction ns with
  | nil => exact EvalContext.settled_pure ""
  | cons n ns ih =>
    exact (settled_eval n levels).bind fun _ => ih.bind fun _ => EvalContext.settled_pure _

/-- The error of an operand points at a node in it. -/
theorem settled_evalArgs (args : List (List Node)) (levels i : Nat) :
    ctx.Settled (evalArgs ctx args levels i) := by
  rw [evalArgs_eq]
  split
  · exact settled_evalSeq _ levels
  · exact EvalContext.settled_pure ""

/-- A call that reaches a function comes to what its body comes to on the runs of the operands. -/
theorem eval_call_of_resolve {name : String} {args : List (List Node)} {f : Function}
    (hf : ctx.registry.resolve name args.length = .ok f) (span : Span) (levels : Nat) :
    (call name args span).eval ctx (levels + 1) =
      ctx.callText name ((Run.ofBody (evalArgs ctx args levels) (.call f.name args.length)
        (f.body args.length)).locate span) := by
  rw [eval, EvalContext.dispatch, hf]

end Node

/-- A template that was compiled is evaluated as its tree is. -/
theorem Template.evaluate_of_compileWithin {limits : Reader.Limits} {source : String}
    {t : Template} (h : compileWithin limits source = .ok t) (ctx : EvalContext) :
    t.evaluate ctx = Node.evalSeq ctx t.toNodes ctx.options.maxDepth := by
  have heval := evaluate_ofNodes t.toNodes ctx
  rwa [ofNodes_toNodes_of_compileWithin h] at heval

end TagTemplate
