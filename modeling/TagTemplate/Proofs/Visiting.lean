import TagTemplate.Proofs.TreeEvaluation

/-!
# The calls that an evaluation comes to

An evaluation comes to a call when it has got through everything before it in its sequence, and to
the calls inside an operand when a function asks for the operand, perhaps more than once.
`Node.Visits` says which calls an evaluation comes to, and `Visit.outcome` what comes of such a
call. A degraded call is one that was visited and failed with the message reported
(`Node.visits_of_degraded`).
-/

namespace TagTemplate

/-! ## Operands that are asked for -/

/-- The body asks for an operand, where `answer` is what the operands come to. -/
inductive Body.Asks {α : Type} (answer : Nat → Except EvalError String) : Body α → Nat → Prop
  | here {i : Nat} {next : Except EvalError String → Body α} : Asks answer (.request i next) i
  | later {i j : Nat} {next : Except EvalError String → Body α}
      (h : Asks answer (next (answer i)) j) : Asks answer (.request i next) j
  | announce {next : Body α} {i : Nat} (h : Asks answer next i) : Asks answer (.announce next) i

namespace Run

variable {α β : Type} {x : Run α} {f : α → Run β} {ev : Event} {e : EvalError}

/-- What happens in a run that goes on happens before or after. -/
theorem mem_events_bind (h : ev ∈ (x >>= f).events) :
    ev ∈ x.events ∨ ∃ a, x.result = .ok a ∧ ev ∈ (f a).events := by
  obtain ⟨events, result⟩ := x
  cases result with
  | error e => exact .inl h
  | ok a => exact (List.mem_append.1 h).imp_right fun h => ⟨a, rfl, h⟩

/-- A run that goes on fails before or after. -/
theorem result_bind_eq_error (h : (x >>= f).result = .error e) :
    x.result = .error e ∨ ∃ a, x.result = .ok a ∧ (f a).result = .error e := by
  obtain ⟨events, result⟩ := x
  cases result with
  | error e' =>
    cases h
    exact .inl rfl
  | ok a => exact .inr ⟨a, rfl, h⟩

/-- What happens while a body runs is its start, or happens in an operand that it asks for. -/
theorem mem_events_ofBody {operand : Nat → Run String} {start : Event} {body : Body α}
    (h : ev ∈ (ofBody operand start body).events) :
    ev = start ∨ ∃ i, body.Asks (fun i => (operand i).result) i ∧ ev ∈ (operand i).events := by
  induction body with
  | done result => cases h
  | request i next ih =>
    rcases List.mem_append.1 h with h | h
    · exact .inr ⟨i, .here, h⟩
    · exact (ih _ h).imp_right fun ⟨j, hasks, hj⟩ => ⟨j, .later hasks, hj⟩
  | announce next ih =>
    rcases List.mem_cons.1 h with h | h
    · exact .inl h
    · exact (ih h).imp_right fun ⟨j, hasks, hj⟩ => ⟨j, .announce hasks, hj⟩

end Run

/-! ## Visits -/

/-- A call where an evaluation comes to it. -/
structure Visit where
  name : String
  args : List (List Node)
  span : Span
  /-- The number of calls that may stand around each other from here on, this one included. -/
  levels : Nat

/-- What comes of the call. -/
def Visit.outcome (ctx : EvalContext) (v : Visit) : Run String :=
  match v.levels with
  | 0 => ctx.tooDeep v.span
  | levels + 1 => ctx.dispatch v.name v.span v.args.length (Node.evalArgs ctx v.args levels)

namespace Node

variable {ctx : EvalContext}

/-- A call is evaluated by its outcome, which may be passed over. -/
theorem eval_call (ctx : EvalContext) (name : String) (args : List (List Node)) (span : Span)
    (levels : Nat) : (call name args span).eval ctx levels =
      ctx.callText name (Visit.outcome ctx ⟨name, args, span, levels⟩) := by
  cases levels <;> rfl

/-- The evaluation of a sequence, where at most `levels` more calls may stand around each other,
comes to the call. -/
inductive Visits (ctx : EvalContext) : List Node → Nat → Visit → Prop
  | call {name : String} {args : List (List Node)} {span : Span} {ns : List Node} {levels : Nat} :
      Visits ctx (.call name args span :: ns) levels ⟨name, args, span, levels⟩
  | operand {name : String} {args : List (List Node)} {span : Span} {ns a : List Node}
      {levels i : Nat} {f : Function} {v : Visit}
      (hf : ctx.registry.resolve name args.length = .ok f)
      (hasks : (f.body args.length).Asks (fun i => (evalArgs ctx args levels i).result) i)
      (ha : args[i]? = some a) (h : Visits ctx a levels v) :
      Visits ctx (.call name args span :: ns) (levels + 1) v
  | rest {n : Node} {ns : List Node} {levels : Nat} {text : String} {v : Visit}
      (hn : (n.eval ctx levels).result = .ok text) (h : Visits ctx ns levels v) :
      Visits ctx (n :: ns) levels v

/-- What happens in a sequence happens in its first node, or in the rest once that has a text. -/
theorem mem_events_evalSeq_cons {n : Node} {ns : List Node} {levels : Nat} {ev : Event}
    (h : ev ∈ (evalSeq ctx (n :: ns) levels).events) :
    ev ∈ (n.eval ctx levels).events ∨
      ∃ text, (n.eval ctx levels).result = .ok text ∧ ev ∈ (evalSeq ctx ns levels).events := by
  refine (Run.mem_events_bind h).imp_right fun ⟨text, htext, h⟩ => ⟨text, htext, ?_⟩
  rcases Run.mem_events_bind h with h | ⟨_, _, h⟩
  · exact h
  · cases h

/-- A sequence fails in its first node, or in the rest once that has a text. -/
theorem result_evalSeq_cons {n : Node} {ns : List Node} {levels : Nat} {e : EvalError}
    (h : (evalSeq ctx (n :: ns) levels).result = .error e) :
    (n.eval ctx levels).result = .error e ∨
      ∃ text, (n.eval ctx levels).result = .ok text ∧
        (evalSeq ctx ns levels).result = .error e := by
  refine (Run.result_bind_eq_error h).imp_right fun ⟨text, htext, h⟩ => ⟨text, htext, ?_⟩
  rcases Run.result_bind_eq_error h with h | ⟨_, _, h⟩
  · exact h
  · cases h

/-- What happens in an operand happens in an argument. -/
theorem mem_events_evalArgs {args : List (List Node)} {levels i : Nat} {ev : Event}
    (h : ev ∈ (evalArgs ctx args levels i).events) :
    ∃ a, args[i]? = some a ∧ ev ∈ (evalSeq ctx a levels).events := by
  rw [evalArgs_eq] at h
  split at h
  · next a ha => exact ⟨a, ha, h⟩
  · cases h

end Node

namespace EvalContext

variable {ctx : EvalContext} {name : String} {span : Span} {ev : Event} {e : EvalError}

/-- A field is looked up, and perhaps passed over. -/
theorem mem_events_fieldText (h : ev ∈ (ctx.fieldText name span).events) :
    ev = .lookup name ∨ ev = .fieldDegraded name := by
  rcases Run.mem_events_bind h with h | ⟨_, _, h⟩
  · exact .inl (List.mem_singleton.1 h)
  · split at h
    · cases h
    · split at h
      · cases h
      · split at h
        · cases h
        · rcases Run.mem_events_bind h with h | ⟨_, _, h⟩
          · exact .inr (List.mem_singleton.1 h)
          · cases h

/-- A field fails only for want of a text form. -/
theorem anomaly_of_fieldText (h : (ctx.fieldText name span).result = .error e) :
    ∃ typeName, e.anomaly = .fieldWithoutText name typeName := by
  rcases Run.result_bind_eq_error h with h | ⟨_, _, h⟩
  · cases h
  · split at h
    · cases h
    · split at h
      · cases h
      · split at h
        · cases h
          exact ⟨_, rfl⟩
        · cases h

/-- What happens in a call happens while its function runs. -/
theorem mem_events_dispatch {count : Nat} {operand : Nat → Run String}
    (h : ev ∈ (ctx.dispatch name span count operand).events) :
    ∃ f, ctx.registry.resolve name count = .ok f ∧
      (ev = .call f.name count ∨
        ∃ i, (f.body count).Asks (fun i => (operand i).result) i ∧ ev ∈ (operand i).events) := by
  unfold dispatch at h
  split at h
  · cases h
  · next f hf => exact ⟨f, hf, Run.mem_events_ofBody h⟩

/-- A call is passed over if it fails, with the message of its error. -/
theorem mem_events_callText {x : Run String} (h : ev ∈ (ctx.callText name x).events) :
    ev ∈ x.events ∨ ∃ e, x.result = .error e ∧ ev = .callDegraded name e.message := by
  unfold callText at h
  split at h
  · exact .inl h
  · next e he =>
    split at h
    · exact .inl h
    · rcases List.mem_append.1 h with h | h
      · exact .inl h
      · exact .inr ⟨e, he, List.mem_singleton.1 h⟩

/-- A call that ends the evaluation does so with its own error. -/
theorem result_of_callText {x : Run String} (h : (ctx.callText name x).result = .error e) :
    x.result = .error e := by
  unfold callText at h
  split at h
  · exact h
  · split at h
    · exact h
    · cases h

end EvalContext

namespace Node

variable {ctx : EvalContext}

/-- What happens in the outcome of a call happens in an operand that its function asks for. -/
theorem mem_events_outcome {v : Visit} {ev : Event} (h : ev ∈ (v.outcome ctx).events)
    (hev : ∀ name count, ev ≠ .call name count) :
    ∃ levels f i a, v.levels = levels + 1 ∧ ctx.registry.resolve v.name v.args.length = .ok f ∧
      (f.body v.args.length).Asks (fun i => (evalArgs ctx v.args levels i).result) i ∧
      v.args[i]? = some a ∧ ev ∈ (evalSeq ctx a levels).events := by
  unfold Visit.outcome at h
  split at h
  · cases h
  · next levels hlevels =>
    obtain ⟨f, hf, hstart | ⟨i, hasks, hi⟩⟩ := EvalContext.mem_events_dispatch h
    · exact absurd hstart (hev _ _)
    · obtain ⟨a, ha, h⟩ := mem_events_evalArgs hi
      exact ⟨levels, f, i, a, hlevels, hf, hasks, ha, h⟩

/-- A degraded call is a call that was visited and failed with the message. -/
theorem visits_of_degraded {ns : List Node} {levels : Nat} {name message : String}
    (h : .callDegraded name message ∈ (evalSeq ctx ns levels).events) :
    ∃ v e, Visits ctx ns levels v ∧ v.name = name ∧ (v.outcome ctx).result = .error e ∧
      e.message = message := by
  induction ns using seqInduction generalizing levels with
  | nil => cases h
  | literal text span ns ih =>
    rcases mem_events_evalSeq_cons h with h | ⟨text, htext, h⟩
    · cases h
    · obtain ⟨v, e, hv, he⟩ := ih h
      exact ⟨v, e, .rest htext hv, he⟩
  | field name span ns ih =>
    rcases mem_events_evalSeq_cons h with h | ⟨text, htext, h⟩
    · rcases EvalContext.mem_events_fieldText h with h | h <;> cases h
    · obtain ⟨v, e, hv, he⟩ := ih h
      exact ⟨v, e, .rest htext hv, he⟩
  | call f args span ns iha ih =>
    rcases mem_events_evalSeq_cons h with h | ⟨text, htext, h⟩
    · rw [eval_call] at h
      rcases EvalContext.mem_events_callText h with h | ⟨e, he, h⟩
      · obtain ⟨levels, g, i, a, rfl, hg, hasks, ha, h⟩ :=
          mem_events_outcome h fun _ _ => Event.noConfusion
        obtain ⟨v, e, hv, he⟩ := iha a (List.mem_of_getElem? ha) h
        exact ⟨v, e, .operand hg hasks ha hv, he⟩
      · cases h
        exact ⟨_, e, .call, rfl, he, rfl⟩
    · obtain ⟨v, e, hv, he⟩ := ih h
      exact ⟨v, e, .rest htext hv, he⟩

end Node

end TagTemplate
