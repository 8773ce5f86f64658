import TagTemplate.Proofs.Accountability
import TagTemplate.Proofs.Occurrence
import TagTemplate.Proofs.Pruning

/-!
# The node at fault

A strict evaluation that ends with an error ends with the error of one node: a field without text
form, a call that cannot be dispatched, or a call whose own function fails of its own accord
(`Node.Faults`). The error gets the span of this node, unless the function pointed it somewhere
else, and it comes through all calls around the node as it is (`Node.faults_of_evalSeq`). The
induction is on the tree: what a call ends with is its own error or that of an operand, and that one
points somewhere already.

`compileWithin_blames` reads off what the kind of the error says of the node.
-/

namespace TagTemplate

namespace Node

/-! ## Errors of single nodes -/

/-- What the operands of a call come to, where `around` calls are around it. Other nodes have none.
-/
def answers (ctx : EvalContext) (around : Nat) : Node → Nat → Except EvalError String
  | .literal _ _ | .field _ _ => fun _ => .ok ""
  | .call _ args _ => fun i => (evalArgs ctx args (ctx.options.maxDepth - (around + 1)) i).result

/-- The node is a call inside `around` others whose own function fails of its own accord. -/
def Threw (ctx : EvalContext) (around : Nat) (n : Node) (e : EvalError) : Prop :=
  ∃ name args span f, n = .call name args span ∧ around < ctx.options.maxDepth ∧
    ctx.registry.resolve name args.length = .ok f ∧
    (f.body args.length).Throws (n.answers ctx around) e

/-- The node, inside `around` calls, ends a strict evaluation with the error. -/
inductive Faults (ctx : EvalContext) (around : Nat) : Node → EvalError → Prop
  | field {name : String} {span : Span} {v : Value} (hv : ctx.record name = some v)
      (htext : v.text? = none) :
      Faults ctx around (.field name span) { anomaly := .fieldWithoutText name v.typeName, span }
  | tooDeep {name : String} {args : List (List Node)} {span : Span}
      (h : around = ctx.options.maxDepth) :
      Faults ctx around (.call name args span)
        { anomaly := .callsTooDeep ctx.options.maxDepth, span }
  | unresolved {name : String} {args : List (List Node)} {span : Span} {anomaly : Anomaly}
      (h : ctx.registry.resolve name args.length = .error anomaly) :
      Faults ctx around (.call name args span) { anomaly, span }
  | thrown {n : Node} {e : EvalError} (h : n.Threw ctx around e) :
      Faults ctx around n (e.locate n.span)

variable {ctx : EvalContext} {around levels : Nat} {n : Node} {e : EvalError}

/-- An error that a node ends with points somewhere, and is pointed nowhere else by the calls around
the node. -/
theorem Faults.locate_eq (h : n.Faults ctx around e) (span : Span) : e.locate span = e := by
  cases h with
  | field | tooDeep | unresolved | thrown => rfl

/-- No literal is at fault. -/
theorem Faults.not_literal (h : n.Faults ctx around e) : n.isLiteral = false := by
  cases h with
  | field | tooDeep | unresolved => rfl
  | thrown h =>
    obtain ⟨name, args, span, f, rfl, -⟩ := h
    rfl

/-- A field is at fault if it fails. -/
theorem faults_of_fieldText {name : String} {span : Span}
    (h : (ctx.fieldText name span).result = .error e) :
    Faults ctx around (.field name span) e := by
  rcases Run.result_bind_eq_error h with h | ⟨_, _, h⟩
  · cases h
  · split at h
    · cases h
    · next value hvalue =>
      split at h
      · cases h
      · next htext =>
        split at h
        · cases h
          exact .field hvalue htext
        · cases h

/-! ## The node at fault -/

/-- An error of a call is its own, or the error of an operand. -/
theorem faults_of_call (hreg : ctx.registry.Propagates)
    (hlevels : around + levels = ctx.options.maxDepth) {name : String} {args : List (List Node)}
    {span : Span} (h : ((call name args span).eval ctx levels).result = .error e) :
    Faults ctx around (.call name args span) e ∨
      ∃ k a e', levels = k + 1 ∧ a ∈ args ∧ (evalSeq ctx a k).result = .error e' ∧
        e = e'.locate span := by
  rw [eval_call] at h
  replace h := EvalContext.result_of_callText h
  cases levels with
  | zero =>
    cases h
    exact .inl (.tooDeep hlevels)
  | succ k =>
    cases hf : ctx.registry.resolve name args.length with
    | error anomaly =>
      simp only [Visit.outcome, EvalContext.dispatch, hf] at h
      cases h
      exact .inl (.unresolved hf)
    | ok f =>
      simp only [Visit.outcome, EvalContext.dispatch, hf] at h
      obtain ⟨e', he, rfl⟩ := Run.exists_of_locate_eq_error h
      rw [Run.result_ofBody] at he
      have hbody := hreg name f (Registry.get?_of_resolve hf) args.length
      rcases hbody.error_cases he with ⟨i, -, hi⟩ | hthrows
      · rw [evalArgs_eq] at hi
        split at hi
        · next a ha => exact .inr ⟨k, a, e', rfl, List.mem_of_getElem? ha, hi, rfl⟩
        · cases hi
      · refine .inl (.thrown ⟨name, args, span, f, rfl, by omega, hf, ?_⟩)
        have hk : ctx.options.maxDepth - (around + 1) = k := by omega
        rw [answers, hk]
        exact hthrows

/-- An error that ends the evaluation of a sequence is the error of a node in it. -/
theorem faults_of_evalSeq (hreg : ctx.registry.Propagates) {ns : List Node}
    (hlevels : around + levels = ctx.options.maxDepth)
    (h : (evalSeq ctx ns levels).result = .error e) :
    ∃ n k, Occurs n k ns ∧ n.Faults ctx (around + k) e := by
  induction ns using seqInduction generalizing around levels e with
  | nil => cases h
  | literal text span ns ih =>
    rcases result_evalSeq_cons h with h | ⟨_, -, h⟩
    · cases h
    · obtain ⟨n, k, hn, hfault⟩ := ih hlevels h
      exact ⟨n, k, hn.cons, hfault⟩
  | field name span ns ih =>
    rcases result_evalSeq_cons h with h | ⟨_, -, h⟩
    · exact ⟨_, 0, .here List.mem_cons_self, faults_of_fieldText h⟩
    · obtain ⟨n, k, hn, hfault⟩ := ih hlevels h
      exact ⟨n, k, hn.cons, hfault⟩
  | call name args span ns iha ih =>
    rcases result_evalSeq_cons h with h | ⟨_, -, h⟩
    · rcases faults_of_call hreg hlevels h with hown | ⟨k, a, e', rfl, ha, he', rfl⟩
      · exact ⟨_, 0, .here List.mem_cons_self, hown⟩
      · -- The error of the operand comes through the call as it is.
        have hinner : around + 1 + k = ctx.options.maxDepth := by omega
        obtain ⟨n, j, hn, hfault⟩ := iha a ha hinner he'
        refine ⟨n, j + 1, .inside List.mem_cons_self ha hn, ?_⟩
        have hdepth : around + (j + 1) = around + 1 + j := by omega
        rw [hfault.locate_eq, hdepth]
        exact hfault
    · obtain ⟨n, k, hn, hfault⟩ := ih hlevels h
      exact ⟨n, k, hn.cons, hfault⟩

/-! ## What the kind of an error says -/

/-- What an error whose function pointed it nowhere says of the node, inside `around` calls, that it
points at: the function that the call names is not there, or does not accept that many operands; the
call has as many others around it as the limit says; its own function failed; a field holds a number
that is not finite, or the function of the call did not take the text of an operand. -/
def AtFault (ctx : EvalContext) (Unfit : String → Anomaly → Prop) (around : Nat) (n : Node)
    (e : EvalError) : Prop :=
  match e.kind with
  | .unknownFunction => ∃ name args span, n = .call name args span ∧ ctx.registry.get? name = none
  | .arityMismatch => ∃ name args span f, n = .call name args span ∧
      ctx.registry.get? name = some f ∧ f.arity.accepts args.length = false
  | .recursionLimit => (∃ name args span, n = .call name args span) ∧
      around = ctx.options.maxDepth
  | .functionError => n.Threw ctx around { e with span := none }
  | .typeMismatch =>
      (∃ name span x, n = .field name span ∧ ctx.record name = some (.number x) ∧
        x.isFinite = false) ∨
      n.Threw ctx around { e with span := none } ∧
        ∃ i t, n.answers ctx around i = .ok t ∧ Unfit t e.anomaly

/-- A call without a function to reach is at fault for its name or the number of its operands. -/
theorem atFault_of_resolve {Unfit : String → Anomaly → Prop} {name : String}
    {args : List (List Node)} {span : Span} {anomaly : Anomaly}
    (h : ctx.registry.resolve name args.length = .error anomaly) :
    (call name args span).AtFault ctx Unfit around { anomaly, span } := by
  unfold Registry.resolve at h
  split at h
  · next hnone =>
    cases h
    exact ⟨name, args, span, rfl, hnone⟩
  · next f hf =>
    split at h
    · cases h
    · next hcount =>
      cases h
      exact ⟨name, args, span, f, rfl, hf, Bool.eq_false_iff.2 hcount⟩

/-- A field without text form holds a number that is not finite. -/
theorem atFault_of_text?_eq_none {Unfit : String → Anomaly → Prop} {name : String} {span : Span}
    {v : Value} (hv : ctx.record name = some v) (htext : v.text? = none) :
    (field name span).AtFault ctx Unfit around
      { anomaly := .fieldWithoutText name v.typeName, span } := by
  cases v with
  | text | integer => cases htext
  | number x =>
    refine .inl ⟨name, span, x, rfl, hv, ?_⟩
    rw [Value.text?] at htext
    split at htext
    · cases htext
    · next hfinite => exact Bool.eq_false_iff.2 hfinite

/-- A call whose own function fails is at fault for that, if the function accounts for its
errors. -/
theorem atFault_of_threw {Unfit : String → Anomaly → Prop} (hreg : ctx.registry.Accountable Unfit)
    (h : n.Threw ctx around e) (hspan : e.span = none) :
    n.AtFault ctx Unfit around (e.locate n.span) := by
  have hown : { e.locate n.span with span := none } = e := by
    rw [EvalError.locate, ← hspan]
  obtain ⟨name, args, span, f, hn, -, hf, hthrows⟩ := id h
  have hfunction := hreg name f (Registry.get?_of_resolve hf)
  rcases hfunction.own _ _ e hthrows with hkind | ⟨hkind, hunfit⟩
  · have hkind' : (e.locate n.span).kind = .functionError := hkind
    rw [AtFault, hkind']
    exact hown.symm ▸ h
  · have hkind' : (e.locate n.span).kind = .typeMismatch := hkind
    rw [AtFault, hkind']
    exact .inr ⟨hown.symm ▸ h, hunfit⟩

/-- The error of a node is at it and says what is wrong with it, unless the function of the node
pointed the error somewhere. -/
theorem Faults.blames {Unfit : String → Anomaly → Prop} (hreg : ctx.registry.Accountable Unfit)
    (h : n.Faults ctx around e) :
    (∃ span, e.span = some span ∧ n.Threw ctx around e) ∨
      e.span = some n.span ∧ n.AtFault ctx Unfit around e := by
  cases h with
  | field hv htext => exact .inr ⟨rfl, atFault_of_text?_eq_none hv htext⟩
  | tooDeep h => exact .inr ⟨rfl, ⟨_, _, _, rfl⟩, h⟩
  | unresolved h => exact .inr ⟨rfl, atFault_of_resolve h⟩
  | @thrown _ e h =>
    cases hspan : e.span with
    | none =>
      refine .inr ⟨?_, atFault_of_threw hreg h hspan⟩
      rw [EvalError.locate, hspan]
      rfl
    | some span =>
      have hsame : e.locate n.span = e := by
        rw [EvalError.locate, hspan, Option.getD_some, ← hspan]
      exact .inl ⟨span, hsame ▸ hspan, hsame.symm ▸ h⟩

end Node

/-- An evaluation that ends with an error, as only a strict one does, names the innermost node at
fault. If the function of the node pointed the error somewhere itself, the error comes through all
calls around the node as the function gave it, with its cause. Otherwise it points at the node, and
its kind says what is wrong there. No call around the node has its span. -/
theorem compileWithin_blames {limits : Reader.Limits} {source : String} {t : Template}
    (h : compileWithin limits source = .ok t) {ctx : EvalContext}
    {Unfit : String → Anomaly → Prop} (hreg : ctx.registry.Accountable Unfit) {e : EvalError}
    (he : (t.evaluate ctx).result = .error e) :
    ∃ n around, Node.Occurs n around t.toNodes ∧
      ((∃ span, e.span = some span ∧ n.Threw ctx around e) ∨
        e.span = some n.span ∧ n.AtFault ctx Unfit around e) ∧
      ∀ name args span around', Node.Occurs (.call name args span) around' t.toNodes →
        Node.Encloses args n → span ≠ n.span := by
  obtain ⟨ps, hps, rfl⟩ := (compileWithin_eq_ok_iff limits source t).1 h
  rw [Template.evaluate_ofNodes] at he
  have hpropagates : ctx.registry.Propagates := fun name f hf => (hreg name f hf).propagates
  obtain ⟨n, around, hn, hfault⟩ := Node.faults_of_evalSeq hpropagates (Nat.zero_add _) he
  rw [Nat.zero_add] at hfault
  rw [Template.toNodes_ofNodes]
  refine ⟨n, around, hn, hfault.blames hreg, fun name args span around' hcall hencloses hsame => ?_⟩
  have hlater := Piece.start_lt_of_encloses hps.valid hcall hencloses hfault.not_literal
  rw [hsame] at hlater
  exact Nat.lt_irrefl _ hlater

/-- A count that is no integer, two calls deep, and a function that points elsewhere. -/
theorem compileWithin_blames_left :
    let ctx : EvalContext := {
      record := fun _ => none
      registry := Registry.builtins.register
        (Function.failing "fail" (.atLeast 0) "no" (some ⟨90, 99⟩) none)
      options := { strict := true } }
    let misread : EvalError :=
      { anomaly := .typeMismatch "integer" "b", span := some ⟨7, 18⟩ }
    let own : EvalError := { anomaly := .functionFailed "fail" "no", span := some ⟨90, 99⟩ }
    ctx.registry.Accountable Misread ∧
      (∃ t, compileWithin {} "$upper($left(é,b))" = .ok t ∧
        (t.evaluate ctx).result = .error misread ∧
        ∃ n around, Node.Occurs n around t.toNodes ∧
          ((∃ span, misread.span = some span ∧ n.Threw ctx around misread) ∨
            misread.span = some n.span ∧ n.AtFault ctx Misread around misread)) ∧
      ∃ t, compileWithin {} "$upper($fail())" = .ok t ∧
        (t.evaluate ctx).result = .error own ∧
        ∃ n around, Node.Occurs n around t.toNodes ∧
          ((∃ span, own.span = some span ∧ n.Threw ctx around own) ∨
            own.span = some n.span ∧ n.AtFault ctx Misread around own) := by
  intro ctx misread own
  have hreg : ctx.registry.Accountable Misread := by
    refine Registry.accountable_builtins.register (Function.accountable_announced _ _ ?_)
    intro ts e he
    cases he
    rfl
  let left : List Piece := [.call "upper" [[.call "left" [[.plain 'é'], [.plain 'b']]]]]
  let fail : List Piece := [.call "upper" [[.call "fail" []]]]
  have hleft := (compileWithin_eq_ok_iff {} "$upper($left(é,b))" _).2
    ⟨left, ⟨⟨by decide, by decide⟩, by decide, ⟨by decide, by decide, by decide⟩⟩, rfl⟩
  have hfail := (compileWithin_eq_ok_iff {} "$upper($fail())" _).2
    ⟨fail, ⟨⟨by decide, by decide⟩, by decide, ⟨by decide, by decide, by decide⟩⟩, rfl⟩
  have hmisread : ((Template.ofNodes (Piece.nodes 0 left)).evaluate ctx).result =
      .error misread := by
    rw [Template.evaluate_ofNodes]
    rfl
  have hown : ((Template.ofNodes (Piece.nodes 0 fail)).evaluate ctx).result = .error own := by
    rw [Template.evaluate_ofNodes]
    rfl
  obtain ⟨n, around, hn, hblame, -⟩ := compileWithin_blames hleft hreg hmisread
  obtain ⟨m, around', hm, hblame', -⟩ := compileWithin_blames hfail hreg hown
  exact ⟨hreg, ⟨_, hleft, hmisread, n, around, hn, hblame⟩, _, hfail, hown, m, around', hm, hblame'⟩

end TagTemplate
