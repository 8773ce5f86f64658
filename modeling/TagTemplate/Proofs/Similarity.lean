import TagTemplate.Proofs.Strictness
import TagTemplate.Proofs.TreeEvaluation

/-!
# Runs that differ in little

Two evaluations that meet the same texts at different places of a source differ in where their
errors point, and perhaps in some lookups. `Run.Matches` relates such runs, given a relation of
errors that keeps track of where the nodes are (`EvalError.Tracks`). In the strict mode a function
sees the errors of its operands, and one that looks at where they point may tell the runs apart;
`Registry.Preserves` excludes that. For the relation that leaves spans out of account it is
`Registry.IgnoresSpans`, which holds of all functions that pass errors on
(`Registry.Propagates.ignoresSpans`). In the lenient mode no operand fails, and nothing is asked of
the functions (`EvalContext.matches_dispatch`).
-/

namespace TagTemplate

/-- The results are the same value, or errors that `E` relates. -/
inductive SameUpTo {α : Type} (E : EvalError → EvalError → Prop) :
    Except EvalError α → Except EvalError α → Prop
  | ok (a : α) : SameUpTo E (.ok a) (.ok a)
  | error {e e' : EvalError} (h : E e e') : SameUpTo E (.error e) (.error e')

/-- The errors differ at most in where they point. -/
structure EvalError.SameFault (e e' : EvalError) : Prop where
  anomaly : e.anomaly = e'.anomaly
  cause : e.cause = e'.cause

/-- An error has its own fault. -/
theorem EvalError.SameFault.refl (e : EvalError) : e.SameFault e :=
  ⟨rfl, rfl⟩

/-- Errors of one fault have one kind. -/
theorem EvalError.SameFault.kind_eq {e e' : EvalError} (h : e.SameFault e') : e.kind = e'.kind :=
  congrArg Anomaly.kind h.anomaly

/-- Errors of one fault have one message. -/
theorem EvalError.SameFault.message_eq {e e' : EvalError} (h : e.SameFault e') :
    e.message = e'.message :=
  congrArg Anomaly.message h.anomaly

/-- The relation takes account of errors only by their fault and by the places of the nodes where
they arise: errors of one fault at nodes with spans that `S` relates are related. -/
structure EvalError.Tracks (E : EvalError → EvalError → Prop) (S : Span → Span → Prop) : Prop where
  fault : ∀ {e e' : EvalError}, E e e' → e.SameFault e'
  node : ∀ (anomaly : Anomaly) {span span' : Span}, S span span' →
    E { anomaly, span } { anomaly, span := span' }
  locate : ∀ {e e' : EvalError} {span span' : Span}, E e e' → S span span' →
    E (e.locate span) (e'.locate span')

/-- That errors have one fault does not depend on any places. -/
theorem EvalError.tracks_sameFault (S : Span → Span → Prop) :
    EvalError.Tracks EvalError.SameFault S :=
  ⟨id, fun _ _ _ _ => ⟨rfl, rfl⟩, fun h _ => ⟨h.anomaly, h.cause⟩⟩

/-- A result is the same as itself. -/
theorem SameUpTo.refl {α : Type} {E : EvalError → EvalError → Prop} (hrefl : ∀ e, E e e)
    (r : Except EvalError α) : SameUpTo E r r := by
  cases r with
  | ok a => exact .ok a
  | error e => exact .error (hrefl e)

/-- Results that are the same up to nothing are equal. -/
theorem SameUpTo.eq {α : Type} {r r' : Except EvalError α} (h : SameUpTo Eq r r') : r = r' := by
  cases h with
  | ok a => rfl
  | error he => rw [he]

/-- A result that is the same as a value is the value. -/
theorem SameUpTo.eq_ok_iff {α : Type} {E : EvalError → EvalError → Prop} {r r' : Except EvalError α}
    (h : SameUpTo E r r') (a : α) : r = .ok a ↔ r' = .ok a := by
  cases h with
  | ok b => exact Iff.rfl
  | error he => constructor <;> intro h <;> cases h

/-- Results that are the same up to errors of a relation are so for a wider one. -/
theorem SameUpTo.mono {α : Type} {E F : EvalError → EvalError → Prop} {r r' : Except EvalError α}
    (h : SameUpTo E r r') (hEF : ∀ e e', E e e' → F e e') : SameUpTo F r r' := by
  cases h with
  | ok a => exact .ok a
  | error he => exact .error (hEF _ _ he)

/-- A result that is the same as an error is a related error. -/
theorem SameUpTo.exists_error {α : Type} {E : EvalError → EvalError → Prop}
    {r r' : Except EvalError α} (h : SameUpTo E r r') {e : EvalError} (he : r = .error e) :
    ∃ e', r' = .error e' ∧ E e e' := by
  cases h with
  | ok b => cases he
  | error hE =>
    cases he
    exact ⟨_, rfl, hE⟩

/-! ## Bodies -/

namespace Body

variable {α : Type} {E : EvalError → EvalError → Prop}

/-- The bodies do the same and come to the same as long as their answers are the same, up to errors
that `E` relates. -/
inductive Similar (E : EvalError → EvalError → Prop) : Body α → Body α → Prop
  | done {r r' : Except EvalError α} (h : SameUpTo E r r') : Similar E (.done r) (.done r')
  | request {i : Nat} {next next' : Except EvalError String → Body α}
      (h : ∀ r r', SameUpTo E r r' → Similar E (next r) (next' r')) :
      Similar E (.request i next) (.request i next')
  | announce {next next' : Body α} (h : Similar E next next') :
      Similar E (.announce next) (.announce next')

/-- A body that passes errors on does nothing else with them, so it keeps errors related. -/
theorem Propagates.similar {x : Body α} (h : x.Propagates) (hrefl : ∀ e, E e e) :
    x.Similar E x := by
  induction h with
  | done result => exact .done (.refl hrefl result)
  | announce h ih => exact .announce ih
  | @request i next error ok ih =>
    refine .request fun r r' hr => ?_
    cases hr with
    | ok t => exact ih t
    | @error e e' he =>
      rw [error, error]
      exact .done (.error he)

end Body

/-- Whatever errors operands have, the functions of the registry do the same and come to the same on
errors that `E` relates. -/
def Registry.Preserves (r : Registry) (E : EvalError → EvalError → Prop) : Prop :=
  ∀ name f, r.get? name = some f → ∀ count, (f.body count).Similar E (f.body count)

/-- No function of the registry looks at where the error of an operand points. -/
def Registry.IgnoresSpans (r : Registry) : Prop :=
  ∀ name f, r.get? name = some f →
    ∀ count, (f.body count).Similar EvalError.SameFault (f.body count)

/-- Functions that pass errors on do not look at where they point. -/
theorem Registry.Propagates.ignoresSpans {r : Registry} (h : r.Propagates) : r.IgnoresSpans :=
  fun name f hf count => (h name f hf count).similar .refl

/-! ## Runs -/

namespace Run

variable {α β : Type} {keep : Event → Bool} {E : EvalError → EvalError → Prop}

/-- The run `y` does what `x` does, except for events that are not kept, and comes to the same, up
to errors that `E` relates. -/
structure Matches (keep : Event → Bool) (E : EvalError → EvalError → Prop) (x y : Run α) :
    Prop where
  events : y.events = x.events.filter keep
  result : SameUpTo E x.result y.result

/-- What is read off events that are kept does not depend on the others. -/
theorem filterMap_filter_of_none {read : Event → Option β}
    (h : ∀ ev, keep ev = false → read ev = none) (events : List Event) :
    (events.filter keep).filterMap read = events.filterMap read := by
  rw [List.filterMap_filter]
  refine List.filterMap_congr fun ev _ => ?_
  split
  · rfl
  · next hkeep => exact (h ev (Bool.eq_false_iff.2 hkeep)).symm

/-- Values at once match. -/
theorem matches_pure (a : α) : Matches keep E (pure a : Run α) (pure a) :=
  ⟨rfl, .ok a⟩

/-- Events that are kept match. -/
theorem matches_emit {event : Event} (h : keep event = true) :
    Matches keep E (emit event) (emit event) :=
  ⟨(List.filter_cons_of_pos (l := []) h).symm, .ok ()⟩

/-- Related errors match. -/
theorem matches_fail {e e' : EvalError} (h : E e e') :
    Matches keep E (fail e : Run α) (fail e') :=
  ⟨rfl, .error h⟩

/-- An event in front that is not kept makes no difference. -/
theorem Matches.skip {event : Event} {x y : Run α} (h : Matches keep E x y)
    (hevent : keep event = false) : Matches keep E (emit event >>= fun _ => x) y := by
  refine ⟨?_, h.result⟩
  rw [h.events]
  exact (List.filter_cons_of_neg (by rw [hevent]; exact Bool.false_ne_true)).symm

/-- Runs that match are continued by runs that match, for errors that are related after the first
run too. -/
theorem Matches.bind_of_result {F : EvalError → EvalError → Prop} {x y : Run α} {f g : α → Run β}
    (h : Matches keep E x y) (hEF : ∀ e, x.result = .error e → ∀ e', E e e' → F e e')
    (hfg : ∀ a, x.result = .ok a → Matches keep F (f a) (g a)) :
    Matches keep F (x >>= f) (y >>= g) := by
  show Matches keep F (x.bind f) (y.bind g)
  obtain ⟨xs, xr⟩ := x
  obtain ⟨ys, yr⟩ := y
  obtain ⟨hevents, hresult⟩ := h
  dsimp only at hevents
  subst hevents
  cases hresult with
  | ok a =>
    have ha := hfg a rfl
    refine ⟨?_, ha.result⟩
    simp only [Run.bind, ha.events, List.filter_append]
  | error h => exact ⟨rfl, .error (hEF _ rfl _ h)⟩

/-- Runs that match are continued by runs that match. -/
theorem Matches.bind {x y : Run α} {f g : α → Run β} (h : Matches keep E x y)
    (hfg : ∀ a, Matches keep E (f a) (g a)) : Matches keep E (x >>= f) (y >>= g) :=
  h.bind_of_result (fun _ _ _ he => he) fun a _ => hfg a

/-- Bodies that are similar run alike on operands that match. -/
theorem Matches.ofBody {operand operand' : Nat → Run String} {start : Event}
    (hop : ∀ i, Matches keep E (operand i) (operand' i)) (hstart : keep start = true)
    {body body' : Body α} (hbody : body.Similar E body') :
    Matches keep E (ofBody operand start body) (ofBody operand' start body') := by
  induction hbody with
  | done h => exact ⟨rfl, h⟩
  | announce h ih =>
    refine ⟨?_, ih.result⟩
    simp only [Run.ofBody, ih.events]
    exact (List.filter_cons_of_pos hstart).symm
  | @request i next next' h ih =>
    have hrest := ih _ _ (hop i).result
    refine ⟨?_, hrest.result⟩
    simp only [Run.ofBody, (hop i).events, hrest.events, List.filter_append]

/-- Any body runs alike on operands that match and do not fail. -/
theorem Matches.ofBody_of_succeeds {operand operand' : Nat → Run String} {start : Event}
    (hrefl : ∀ e, E e e) (hop : ∀ i, Matches keep E (operand i) (operand' i))
    (hok : ∀ i, (operand i).Succeeds) (hstart : keep start = true) (body : Body α) :
    Matches keep E (Run.ofBody operand start body) (Run.ofBody operand' start body) := by
  induction body with
  | done result => exact ⟨rfl, .refl hrefl result⟩
  | announce next ih =>
    refine ⟨?_, ih.result⟩
    simp only [Run.ofBody, ih.events]
    exact (List.filter_cons_of_pos hstart).symm
  | request i next ih =>
    have hsame : (operand' i).result = (operand i).result := by
      obtain ⟨t, ht⟩ := hok i
      rw [ht, ((hop i).result.eq_ok_iff t).1 ht]
    have hrest := ih (operand i).result
    refine ⟨?_, ?_⟩
    · simp only [Run.ofBody, hsame, (hop i).events, hrest.events, List.filter_append]
    · simp only [Run.ofBody, hsame]
      exact hrest.result

/-- Runs that match still do so when their errors are pointed at nodes that correspond. -/
theorem Matches.locate {S : Span → Span → Prop} (hE : EvalError.Tracks E S) {x y : Run α}
    (h : Matches keep E x y) {span span' : Span} (hspan : S span span') :
    Matches keep E (x.locate span) (y.locate span') := by
  obtain ⟨xs, xr⟩ := x
  obtain ⟨ys, yr⟩ := y
  obtain ⟨hevents, hresult⟩ := h
  cases hresult with
  | ok a => exact ⟨hevents, .ok a⟩
  | error h => exact ⟨hevents, .error (hE.locate h hspan)⟩

end Run

/-! ## Single nodes -/

namespace EvalContext

/-- The evaluation keeps errors related: in the strict mode the functions do, and in the lenient
mode, where errors end no evaluation, the relation is reflexive. -/
structure Respects (ctx : EvalContext) (E : EvalError → EvalError → Prop) : Prop where
  strict : ctx.options.strict = true → ctx.registry.Preserves E
  lenient : ctx.options.strict = false → ∀ e, E e e

variable {keep : Event → Bool} {ctx : EvalContext} {E : EvalError → EvalError → Prop}
  {S : Span → Span → Prop} {span span' : Span}

/-- The text of a field depends on where the field stands at most in its error. -/
theorem matches_fieldText (hE : EvalError.Tracks E S) {name : String}
    (hlookup : keep (.lookup name) = true) (hfield : keep (.fieldDegraded name) = true)
    (hspan : S span span') :
    Run.Matches keep E (ctx.fieldText name span) (ctx.fieldText name span') := by
  refine (Run.matches_emit hlookup).bind fun _ => ?_
  cases ctx.record name with
  | none => exact Run.matches_pure ""
  | some value =>
    cases htext : value.text? with
    | some text =>
      simp only [htext]
      exact Run.matches_pure text
    | none =>
      simp only [htext]
      split
      · exact Run.matches_fail (hE.node _ hspan)
      · exact (Run.matches_emit hfield).bind fun _ => Run.matches_pure ""

/-- The text of a call does not depend on where its error points. -/
theorem matches_callText (hE : EvalError.Tracks E S) {name : String}
    (hcall : ∀ message, keep (.callDegraded name message) = true) {x y : Run String}
    (h : Run.Matches keep E x y) :
    Run.Matches keep E (ctx.callText name x) (ctx.callText name y) := by
  obtain ⟨xs, xr⟩ := x
  obtain ⟨ys, yr⟩ := y
  obtain ⟨hevents, hresult⟩ := h
  cases hresult with
  | ok text => exact ⟨hevents, .ok text⟩
  | @error e e' he =>
    unfold callText
    dsimp only
    split
    · exact ⟨hevents, .error he⟩
    · refine ⟨?_, .ok ""⟩
      have hlast : [Event.callDegraded name e'.message] =
          [Event.callDegraded name e.message].filter keep := by
        rw [List.filter_cons_of_pos (hcall _), List.filter_nil, (hE.fault he).message_eq]
      rw [List.filter_append, ← hevents, ← hlast]

/-- The outcome of a call depends on where it stands, and on where the errors of its operands point,
at most in its error, unless the function looks there. -/
theorem matches_dispatch (hE : EvalError.Tracks E S) (hctx : ctx.Respects E) {name : String}
    (hcall : ∀ name count, keep (.call name count) = true) (hspan : S span span') (count : Nat)
    {operand operand' : Nat → Run String}
    (hop : ∀ i, Run.Matches keep E (operand i) (operand' i))
    (hok : ctx.options.strict = false → ∀ i, (operand i).Succeeds) :
    Run.Matches keep E (ctx.dispatch name span count operand)
      (ctx.dispatch name span' count operand') := by
  unfold dispatch
  cases hf : ctx.registry.resolve name count with
  | error anomaly => exact Run.matches_fail (hE.node anomaly hspan)
  | ok f =>
    dsimp only
    refine Run.Matches.locate hE ?_ hspan
    cases hstrict : ctx.options.strict with
    | false => exact .ofBody_of_succeeds (hctx.lenient hstrict) hop (hok hstrict) (hcall _ _) _
    | true =>
      have hget := Registry.get?_of_resolve hf
      exact .ofBody hop (hcall _ _) (hctx.strict hstrict name f hget count)

end EvalContext

/-- Sequences match if their first nodes do, and the rests. -/
theorem Node.matches_cons {keep : Event → Bool} {ctx ctx' : EvalContext}
    {E : EvalError → EvalError → Prop} {n m : Node} {ns ms : List Node} {levels : Nat}
    (hn : Run.Matches keep E (n.eval ctx levels) (m.eval ctx' levels))
    (hns : Run.Matches keep E (evalSeq ctx ns levels) (evalSeq ctx' ms levels)) :
    Run.Matches keep E (evalSeq ctx (n :: ns) levels) (evalSeq ctx' (m :: ms) levels) :=
  hn.bind fun text => hns.bind fun rest => Run.matches_pure (text ++ rest)

/-- A lenient evaluation gives every sequence a text. -/
theorem Node.evalSeq_succeeds {ctx : EvalContext} (hlenient : ctx.options.strict = false)
    (ns : List Node) (levels : Nat) : (Node.evalSeq ctx ns levels).Succeeds := by
  obtain ⟨cells, hcells, hstored⟩ := Template.stored_ofNodes ns
  have hctx : ctx.inMode false = ctx := by
    rw [EvalContext.inMode, ← hlenient]
  have h := (Template.ofNodes ns).evalSeq_succeeds ctx levels (Template.ofNodes ns).root
  rwa [hctx, Arena.evalSeq_eq hcells hstored] at h

/-- In a lenient evaluation no operand fails. -/
theorem Node.evalArgs_succeeds {ctx : EvalContext} (hlenient : ctx.options.strict = false)
    (args : List (List Node)) (levels i : Nat) : (Node.evalArgs ctx args levels i).Succeeds := by
  rw [evalArgs_eq]
  split
  · next a _ => exact evalSeq_succeeds hlenient a levels
  · exact ⟨"", rfl⟩

end TagTemplate
