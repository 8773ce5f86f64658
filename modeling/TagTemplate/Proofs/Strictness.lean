import TagTemplate.Evaluate.Template
import TagTemplate.Proofs.Compile
import TagTemplate.Proofs.Propagation

/-!
# Strict and lenient evaluation

A strict evaluation is the lenient one stopped at its first anomaly. `Run.Follows` relates the two
runs: they are the same and pass over nothing, or the strict run ends with an error and the lenient
one goes on with the event that reports that very error. The relation is kept by everything an
evaluation is put together from, provided that functions pass errors of their operands on
(`Registry.Propagates`): then an error that unwinds through the calls around it is the error that
the lenient run passed over first. `Template.strict_stops_at_first_anomaly` reads the relation off
for whole templates.
-/

namespace TagTemplate

/-! ## Degradations -/

/-- Does the event pass over an anomaly? -/
def Event.degrades : Event → Bool
  | .callDegraded _ _ | .fieldDegraded _ => true
  | .lookup _ | .call _ _ => false

/-- None of the events passes over an anomaly. -/
def Quiet (events : List Event) : Prop :=
  ∀ ev ∈ events, ev.degrades = false

/-- Where there are no events, none passes anything over. -/
theorem quiet_nil : Quiet [] :=
  fun _ h => nomatch h

/-- Quiet events after each other are quiet. -/
theorem Quiet.append {es fs : List Event} (he : Quiet es) (hf : Quiet fs) : Quiet (es ++ fs) :=
  List.forall_mem_append.2 ⟨he, hf⟩

/-- One more quiet event leaves the events quiet. -/
theorem Quiet.cons {ev : Event} {es : List Event} (hev : ev.degrades = false) (he : Quiet es) :
    Quiet (ev :: es) :=
  List.forall_mem_cons.2 ⟨hev, he⟩

/-- Where nothing is passed over, there are no degradations. -/
theorem Quiet.filter_eq_nil {es : List Event} (h : Quiet es) : es.filter Event.degrades = [] :=
  List.filter_eq_nil_iff.2 fun ev hev => by rw [h ev hev]; exact Bool.false_ne_true

/-- The event passes over the error: as a call that failed with its message, or as the field without
text form that the error is about, by its anomaly and so by its kind and its message. -/
inductive Reports (record : Record) : Event → EvalError → Prop
  | call (function : String) (e : EvalError) : Reports record (.callDegraded function e.message) e
  | field {name : String} {value : Value} {e : EvalError} (hvalue : record name = some value)
      (htext : value.text? = none) (he : e.anomaly = .fieldWithoutText name value.typeName)
      (hkind : e.kind = .typeMismatch)
      (hmessage : e.message =
        "field " ++ name ++ " holds a " ++ value.typeName ++ " with no text form") :
      Reports record (.fieldDegraded name) e

/-- An event that reports an error passes it over. -/
theorem Reports.degrades {record : Record} {ev : Event} {e : EvalError}
    (h : Reports record ev e) : ev.degrades = true := by
  cases h with
  | call | field => rfl

/-- Where an error points does not matter for its report. -/
theorem Reports.locate {record : Record} {ev : Event} {e : EvalError} (h : Reports record ev e)
    (span : Span) : Reports record ev (e.locate span) := by
  cases h with
  | call function => exact .call function (e.locate span)
  | field hvalue htext he hkind hmessage => exact .field hvalue htext he hkind hmessage

namespace Run

variable {α β : Type} {record : Record}

/-- The degradations are the events that pass an anomaly over. -/
theorem degradations_eq (x : Run α) : x.degradations = x.events.filter Event.degrades := by
  unfold degradations
  congr 1
  funext ev
  cases ev <;> rfl

/-! ## Runs that follow each other -/

/-- The strict run `x` is the lenient run `y` up to the first anomaly. -/
inductive Follows (record : Record) : Run α → Run α → Prop
  | same {x : Run α} (quiet : Quiet x.events) : Follows record x x
  | stopped {events rest : List Event} {ev : Event} {e : EvalError} {result : Except EvalError α}
      (quiet : Quiet events) (reports : Reports record ev e) :
      Follows record ⟨events, .error e⟩ ⟨events ++ ev :: rest, result⟩

/-- A value at once is the same in both modes. -/
theorem follows_pure (a : α) : Follows record (pure a : Run α) (pure a) :=
  .same quiet_nil

/-- A failure is the same in both modes. -/
theorem follows_fail (e : EvalError) : Follows record (fail e : Run α) (fail e) :=
  .same quiet_nil

/-- A lookup is the same in both modes. -/
theorem follows_lookup (field : String) :
    Follows record (emit (.lookup field)) (emit (.lookup field)) :=
  .same (quiet_nil.cons rfl)

/-- Runs that are continued alike follow each other if they did and their continuations do. -/
theorem Follows.bind {x y : Run α} {f g : α → Run β} (h : Follows record x y)
    (hfg : ∀ a, Follows record (f a) (g a)) : Follows record (x >>= f) (y >>= g) := by
  show Follows record (x.bind f) (y.bind g)
  cases h with
  | same quiet =>
    obtain ⟨events, result⟩ := x
    cases result with
    | error e => exact .same quiet
    | ok a =>
      have ha := hfg a
      simp only [Run.bind]
      generalize f a = fa at ha ⊢
      generalize g a = ga at ha ⊢
      cases ha with
      | same quiet' => exact .same (quiet.append quiet')
      | stopped quiet' reports =>
        rw [← List.append_assoc]
        exact .stopped (quiet.append quiet') reports
  | @stopped events rest ev e result quiet reports =>
    cases result with
    | error e' => exact .stopped quiet reports
    | ok a =>
      simp only [Run.bind, List.append_assoc, List.cons_append]
      exact .stopped quiet reports

/-- Pointing errors at a node keeps what the runs have in common. -/
theorem Follows.locate {x y : Run α} (h : Follows record x y) (span : Span) :
    Follows record (x.locate span) (y.locate span) := by
  cases h with
  | same quiet => exact .same quiet
  | stopped quiet reports => exact .stopped quiet (reports.locate span)

/-- A body that passes errors on runs alike on operands that follow each other. -/
theorem Follows.ofBody {operand operand' : Nat → Run String} {start : Event}
    (hop : ∀ i, Follows record (operand i) (operand' i)) (hstart : start.degrades = false)
    {body : Body α} (hbody : body.Propagates) :
    Follows record (ofBody operand start body) (ofBody operand' start body) := by
  induction hbody with
  | done result => exact .same quiet_nil
  | announce h ih =>
    simp only [Run.ofBody]
    generalize Run.ofBody operand start _ = x at ih ⊢
    generalize Run.ofBody operand' start _ = y at ih ⊢
    cases ih with
    | same quiet => exact .same (quiet.cons hstart)
    | stopped quiet reports => exact .stopped (quiet.cons hstart) reports
  | @request i next error ok ih =>
    have hi := hop i
    simp only [Run.ofBody]
    generalize operand i = x at hi ⊢
    generalize operand' i = y at hi ⊢
    cases hi with
    | same quiet =>
      cases hr : x.result with
      | error e =>
        rw [error]
        exact .same (quiet.append quiet_nil)
      | ok t =>
        have ht := ih t
        generalize Run.ofBody operand start (next (.ok t)) = x' at ht ⊢
        generalize Run.ofBody operand' start (next (.ok t)) = y' at ht ⊢
        cases ht with
        | same quiet' => exact .same (quiet.append quiet')
        | stopped quiet' reports =>
          rw [← List.append_assoc]
          exact .stopped (quiet.append quiet') reports
    | stopped quiet reports =>
      -- The error of the operand ends the body in the strict run; the lenient one goes on somehow.
      simp only [error, Run.ofBody, List.append_nil, List.append_assoc, List.cons_append]
      exact .stopped quiet reports

end Run

/-! ## The two modes -/

namespace EvalContext

/-- The context in the strict or in the lenient mode, whatever its own is. -/
def inMode (ctx : EvalContext) (strict : Bool) : EvalContext :=
  { ctx with options := { ctx.options with strict } }

variable {ctx : EvalContext}

/-- The text of a field in the strict mode is that in the lenient mode up to the first anomaly. -/
theorem follows_fieldText (name : String) (span : Span) :
    Run.Follows ctx.record ((ctx.inMode true).fieldText name span)
      ((ctx.inMode false).fieldText name span) := by
  refine (Run.follows_lookup name).bind fun _ => ?_
  cases hvalue : ctx.record name with
  | none =>
    simp only [inMode, hvalue]
    exact Run.follows_pure ""
  | some value =>
    cases htext : value.text? with
    | some text =>
      simp only [inMode, hvalue, htext]
      exact Run.follows_pure text
    | none =>
      simp only [inMode, hvalue, htext, if_true]
      exact .stopped quiet_nil (.field hvalue htext rfl rfl rfl)

/-- A call that fails in both modes fails for the reason that the lenient run reports. -/
theorem follows_callText (name : String) {x y : Run String} (h : Run.Follows ctx.record x y) :
    Run.Follows ctx.record ((ctx.inMode true).callText name x)
      ((ctx.inMode false).callText name y) := by
  cases h with
  | same quiet =>
    obtain ⟨events, result⟩ := x
    cases result with
    | ok text => exact .same quiet
    | error e => exact .stopped quiet (.call name e)
  | @stopped events rest ev e result quiet reports =>
    cases result with
    | ok text => exact .stopped quiet reports
    | error e' =>
      simp only [callText, inMode, List.append_assoc, List.cons_append]
      exact .stopped quiet reports

/-- A call in the strict mode does what it does in the lenient mode up to the first anomaly. -/
theorem follows_dispatch (hreg : ctx.registry.Propagates) (name : String) (span : Span)
    (count : Nat) {operand operand' : Nat → Run String}
    (hop : ∀ i, Run.Follows ctx.record (operand i) (operand' i)) :
    Run.Follows ctx.record ((ctx.inMode true).dispatch name span count operand)
      ((ctx.inMode false).dispatch name span count operand') := by
  unfold dispatch
  cases hf : ctx.registry.resolve name count with
  | error anomaly =>
    simp only [inMode, hf]
    exact Run.follows_fail _
  | ok f =>
    simp only [inMode, hf]
    have hbody := hreg name f (Registry.get?_of_resolve hf) count
    exact (Run.Follows.ofBody hop rfl hbody).locate span

/-- A call that is too deep fails in both modes. -/
theorem follows_tooDeep (span : Span) :
    Run.Follows ctx.record ((ctx.inMode true).tooDeep span) ((ctx.inMode false).tooDeep span) :=
  Run.follows_fail _

end EvalContext

namespace Arena

variable {ctx : EvalContext}

/-- Sequences follow each other if the outcomes of their calls do. -/
theorem follows_evalCells (a : Arena) {call call' : String → Range → Span → Run String}
    (hcall : ∀ name args span,
      Run.Follows ctx.record (call name args span) (call' name args span))
    (cells : List Cell) :
    Run.Follows ctx.record (a.evalCells (ctx.inMode true) call cells)
      (a.evalCells (ctx.inMode false) call' cells) := by
  induction cells with
  | nil => exact Run.follows_pure ""
  | cons cell cells ih =>
    have hrest : ∀ text, Run.Follows ctx.record
        (a.evalCells (ctx.inMode true) call cells >>= fun rest => pure (text ++ rest))
        (a.evalCells (ctx.inMode false) call' cells >>= fun rest => pure (text ++ rest)) :=
      fun text => ih.bind fun rest => Run.follows_pure (text ++ rest)
    cases cell with
    | literal text span => exact (Run.follows_pure _).bind hrest
    | field name span => exact (EvalContext.follows_fieldText _ span).bind hrest
    | call name args span => exact (EvalContext.follows_callText _ (hcall _ args span)).bind hrest

/-- The two evaluations of a sequence follow each other. -/
theorem follows_evalSeq (a : Arena) (hreg : ctx.registry.Propagates) (levels : Nat) (seq : Range) :
    Run.Follows ctx.record (a.evalSeq (ctx.inMode true) levels seq)
      (a.evalSeq (ctx.inMode false) levels seq) := by
  induction levels generalizing seq with
  | zero => exact a.follows_evalCells (fun _ _ span => EvalContext.follows_tooDeep span) _
  | succ levels ih =>
    refine a.follows_evalCells (fun name args span => ?_) _
    refine EvalContext.follows_dispatch hreg name span _ fun i => ?_
    cases (a.argsOf args)[i]? with
    | none => exact Run.follows_pure ""
    | some operand => exact ih operand

end Arena

/-! ## Lenient evaluation always succeeds -/

namespace Run

/-- The run ends with a value. -/
def Succeeds {α : Type} (x : Run α) : Prop :=
  ∃ a, x.result = .ok a

/-- Runs after each other succeed if both do. -/
theorem Succeeds.bind {α β : Type} {x : Run α} {f : α → Run β} (hx : x.Succeeds)
    (hf : ∀ a, (f a).Succeeds) : (x >>= f).Succeeds := by
  obtain ⟨events, result⟩ := x
  obtain ⟨a, rfl⟩ := hx
  exact hf a

end Run

/-- A lenient evaluation gives every sequence a text, whatever its calls come to. -/
theorem Arena.evalCells_succeeds (a : Arena) (ctx : EvalContext)
    (call : String → Range → Span → Run String) (cells : List Cell) :
    (a.evalCells (ctx.inMode false) call cells).Succeeds := by
  induction cells with
  | nil => exact ⟨"", rfl⟩
  | cons cell cells ih =>
    have hrest : ∀ text : String, Run.Succeeds
        (a.evalCells (ctx.inMode false) call cells >>= fun rest => pure (text ++ rest)) :=
      fun text => ih.bind fun rest => ⟨text ++ rest, rfl⟩
    cases cell with
    | literal text span => exact hrest _
    | field name span =>
      have hfield : ((ctx.inMode false).fieldText (a.textOf name) span).Succeeds := by
        refine Run.Succeeds.bind ⟨(), rfl⟩ fun _ => ?_
        cases hvalue : (ctx.inMode false).record (a.textOf name) with
        | none => exact ⟨"", rfl⟩
        | some value =>
          cases htext : value.text? with
          | some text => exact ⟨text, by simp only [htext]; rfl⟩
          | none => exact ⟨"", by simp only [htext]; rfl⟩
      exact hfield.bind hrest
    | call name args span =>
      have hcall : ((ctx.inMode false).callText (a.textOf name)
          (call (a.textOf name) args span)).Succeeds := by
        unfold EvalContext.callText
        cases hresult : (call (a.textOf name) args span).result with
        | ok text => exact ⟨text, hresult⟩
        | error e => exact ⟨"", rfl⟩
      exact hcall.bind hrest

/-- A lenient evaluation of a template succeeds. -/
theorem Arena.evalSeq_succeeds (a : Arena) (ctx : EvalContext) (levels : Nat) (seq : Range) :
    (a.evalSeq (ctx.inMode false) levels seq).Succeeds := by
  cases levels with
  | zero => exact a.evalCells_succeeds ctx _ _
  | succ levels => exact a.evalCells_succeeds ctx _ _

/-! ## Templates -/

/-- Strict evaluation is lenient evaluation stopped at its first anomaly. A lenient run always gives
a text. The strict run gives one if and only if the lenient run passes over nothing, and then the
two are alike. If the strict run fails, it has looked up and called what the lenient run looks up
and calls first, and the first thing the lenient run passes over is the error of the strict one. -/
theorem Template.strict_stops_at_first_anomaly (t : Template) (ctx : EvalContext)
    (hreg : ctx.registry.Propagates) :
    let strict := t.evaluate (ctx.inMode true)
    let lenient := t.evaluate (ctx.inMode false)
    (∃ out, lenient.result = .ok out) ∧
      ((∃ out, strict.result = .ok out) ↔ lenient.degradations = []) ∧
      (lenient.degradations = [] → strict.result = lenient.result ∧
        strict.lookups = lenient.lookups ∧ strict.calls = lenient.calls) ∧
      ∀ e, strict.result = .error e →
        strict.lookups <+: lenient.lookups ∧ strict.calls <+: lenient.calls ∧
          ∃ ev, lenient.degradations.head? = some ev ∧ Reports ctx.record ev e := by
  intro strict lenient
  have hlenient : lenient.Succeeds := t.evalSeq_succeeds ctx _ t.root
  have hfollows : Run.Follows ctx.record strict lenient := t.follows_evalSeq hreg _ t.root
  clear_value strict lenient
  refine ⟨hlenient, ?_⟩
  rw [Run.degradations_eq]
  cases hfollows with
  | same quiet =>
    refine ⟨⟨fun _ => quiet.filter_eq_nil, fun _ => hlenient⟩, fun _ => ⟨rfl, rfl, rfl⟩,
      fun e he => ?_⟩
    obtain ⟨out, hout⟩ := hlenient
    rw [hout] at he
    cases he
  | @stopped events rest ev e result quiet reports =>
    have hfirst : (events ++ ev :: rest).filter Event.degrades =
        ev :: rest.filter Event.degrades := by
      rw [List.filter_append, quiet.filter_eq_nil, List.nil_append,
        List.filter_cons_of_pos reports.degrades]
    have hsome : (events ++ ev :: rest).filter Event.degrades ≠ [] := by
      rw [hfirst]
      exact List.cons_ne_nil _ _
    refine ⟨⟨?_, fun h => absurd h hsome⟩, fun h => absurd h hsome, fun e' he => ?_⟩
    · rintro ⟨out, hout⟩
      cases hout
    · cases he
      refine ⟨?_, ?_, ev, ?_, reports⟩
      · simp only [Run.lookups, List.filterMap_append]
        exact List.prefix_append _ _
      · simp only [Run.calls, List.filterMap_append]
        exact List.prefix_append _ _
      · rw [hfirst]
        rfl

/-- A NaN inside a call of a script, after a field that is there. The registry also has a function
with typed parameters. -/
theorem Template.strict_stops_at_nan :
    let ctx : EvalContext := {
      record := fun name =>
        if name = "a" then some (.text "1") else some (.number ⟨0x7ff8000000000000⟩)
      registry := Registry.builtins.registerAll
        [Function.bracket, Function.scripted "s" (.exactly 1) [.text 0]] }
    let e : EvalError := { anomaly := .fieldWithoutText "x" "float", span := some ⟨6, 9⟩ }
    ctx.registry.Propagates ∧
      ∃ t, compile "%a%$s(%x%)" = .ok t ∧
        (t.evaluate (ctx.inMode true)).result = .error e ∧
        (∃ out, (t.evaluate (ctx.inMode false)).result = .ok out) ∧
        (t.evaluate (ctx.inMode true)).lookups <+: (t.evaluate (ctx.inMode false)).lookups ∧
        (t.evaluate (ctx.inMode true)).calls <+: (t.evaluate (ctx.inMode false)).calls ∧
        ∃ ev, (t.evaluate (ctx.inMode false)).degradations.head? = some ev ∧
          Reports ctx.record ev e := by
  intro ctx e
  have hreg : ctx.registry.Propagates := by
    refine Registry.propagates_builtins.registerAll fun f hf => ?_
    rcases List.mem_cons.1 hf with rfl | hf
    · exact Function.propagates_typed _ _ _
    · obtain rfl := List.mem_singleton.1 hf
      exact Function.propagates_scripted _ _ _
  have hspells : Piece.Spells [.field "a", .call "s" [[.field "x"]]] "%a%$s(%x%)" :=
    ⟨by decide, by decide⟩
  have hcompile := compile_of_spells hspells (by decide : _ ≤ defaultMaxDepth) (by decide)
  refine ⟨hreg, _, hcompile, ?_⟩
  generalize ht : Template.ofNodes (Piece.nodes 0 _) = t
  have herror : (t.evaluate (ctx.inMode true)).result = .error e := by
    subst ht
    decide
  obtain ⟨hok, -, -, hstop⟩ := t.strict_stops_at_first_anomaly ctx hreg
  exact ⟨herror, hok, hstop e herror⟩

end TagTemplate
