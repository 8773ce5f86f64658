import TagTemplate.Proofs.OperandRuns
import TagTemplate.Proofs.PassedErrors
import TagTemplate.Proofs.Printing
import TagTemplate.Proofs.Reading.Later
import TagTemplate.Proofs.Refinement

/-!
# Templates after each other

A source that goes on after a template is compiled and evaluated as its two parts are
(`compile_append`). Its nodes are those of the first part and then those of the second, moved, and
only two literals that meet become one (`Node.concat`); its evaluation is the one evaluation and
then the other (`Run.Then`); and if the second part is no template, its error is the error of the
whole, moved.

The second part stands later in the whole source than it stands alone, so its errors point there
(`EvalError.Moved`), except those that a function has pointed somewhere itself. In the strict mode
the functions of the registry are to make nothing of where the errors of their operands point, but
to pass it on (`Registry.PassesSpans`), as all functions that pass errors on do;
`compile_append_needs_passesSpans` shows why.
-/

namespace TagTemplate

open Piece (nodes Spells)

namespace Node

/-! ## Trees -/

/-- One sequence after another. Where they meet, two literals become one. -/
def concat : List Node → List Node → List Node
  | [], ms => ms
  | [n], ms => join n ms
  | n :: m :: ns, ms => n :: concat (m :: ns) ms

/-- A sequence that follows does not change the kind of the first node. -/
theorem Apart.concat {n m : Node} {ns : List Node} (h : n.Apart (m :: ns)) (ms : List Node) :
    n.Apart (concat (m :: ns) ms) := by
  cases ns with
  | cons k ns => exact h
  | nil =>
    cases m with
    | field | call => exact h
    | literal s i =>
      rcases ms with _ | ⟨k, ms⟩
      · exact h
      · cases k <;> exact h

/-- Literals meet only where the sequences do. -/
theorem joinSeq_eq_concat {ns : List Node} (h : CanonicalSeq ns) (ms : List Node) :
    joinSeq ns ms = concat ns ms := by
  induction ns with
  | nil => rfl
  | cons n ns ih =>
    obtain ⟨-, hapart, hns⟩ := h
    cases ns with
    | nil => rfl
    | cons m ns => rw [joinSeq_cons, ih hns, concat, join_of_apart (hapart.concat ms)]

end Node

/-! ## Errors of a part that stands later -/

/-- The errors have one fault, and the second points `n` bytes after the first; but if a function
has pointed the first somewhere, both point there. -/
structure EvalError.Moved (n : Nat) (pointed : Prop) (e e' : EvalError) : Prop
    extends EvalError.SameFault e e' where
  stays : pointed → e'.span = e.span
  moves : ¬pointed → e'.span = e.span.map (Span.move n)

namespace EvalError

variable {n : Nat} {pointed : Prop} {e e' : EvalError}

/-- Errors that no function has pointed anywhere move with the nodes where they arise. -/
theorem tracks_moved (n : Nat) :
    EvalError.Tracks (EvalError.Moved n False) fun span span' => span' = span.move n := by
  refine ⟨fun h => h.toSameFault, fun anomaly span span' hspan => ?_, ?_⟩
  · refine ⟨⟨rfl, rfl⟩, False.elim, fun _ => ?_⟩
    rw [hspan]
    rfl
  · rintro e e' span _ h rfl
    refine ⟨⟨h.anomaly, h.cause⟩, False.elim, fun hnot => ?_⟩
    show some (e'.span.getD (span.move n)) = (some (e.span.getD span)).map (Span.move n)
    rw [h.moves hnot]
    cases e.span <;> rfl

/-- An error that points nowhere is pointed at the node, wherever that stands. -/
theorem moved_locate (hpointed : pointed ↔ e.span ≠ none) (span : Span) :
    EvalError.Moved n pointed (e.locate span) (e.locate (span.move n)) := by
  refine ⟨⟨rfl, rfl⟩, fun h => ?_, fun h => ?_⟩
  · obtain ⟨there, hthere⟩ := Option.ne_none_iff_exists'.1 (hpointed.1 h)
    rw [locate, locate, hthere]
    rfl
  · have hnone : e.span = none := by
      by_contra hsome
      exact h (hpointed.2 hsome)
    rw [locate, locate, hnone]
    rfl

/-- Errors that point somewhere are not pointed anywhere else. -/
theorem Moved.locate (h : EvalError.Moved n pointed e e') {there : Span}
    (hthere : e.span = some there) (span span' : Span) :
    EvalError.Moved n pointed (e.locate span) (e'.locate span') := by
  refine ⟨⟨h.anomaly, h.cause⟩, fun hp => ?_, fun hp => ?_⟩
  · rw [EvalError.locate, EvalError.locate, h.stays hp, hthere]
    rfl
  · rw [EvalError.locate, EvalError.locate, h.moves hp, hthere]
    rfl

end EvalError

/-! ## Evaluation -/

section
variable {ctx : EvalContext} {n : Nat}

/-- The operands of a call that stands later give the texts they gave before, if the arguments do.
-/
theorem Node.matches_moveArgs {E : Nat → EvalError → EvalError → Prop} {args : List (List Node)}
    {levels : Nat} (h : ∀ i a, args[i]? = some a →
      Run.Matches (fun _ => true) (E i) (evalSeq ctx a levels) (evalSeq ctx (moveSeq n a) levels))
    (i : Nat) :
    Run.Matches (fun _ => true) (E i) (evalArgs ctx args levels i)
      (evalArgs ctx (moveArgs n args) levels i) := by
  induction args generalizing i E with
  | nil => exact Run.matches_pure ""
  | cons a as ih =>
    cases i with
    | zero => exact h 0 a rfl
    | succ i => exact ih (fun j b hb => h (j + 1) b hb) i

/-- In a lenient evaluation a sequence that stands later gives the text it gave before. -/
theorem Node.matches_moveSeq_of_lenient (hlenient : ctx.options.strict = false) (ns : List Node)
    (levels : Nat) :
    Run.Matches (fun _ => true) EvalError.SameFault (evalSeq ctx ns levels)
      (evalSeq ctx (moveSeq n ns) levels) := by
  have htracks := EvalError.tracks_sameFault fun span span' => span' = span.move n
  have hctx : ctx.Respects EvalError.SameFault :=
    ⟨fun hstrict => absurd (hlenient.symm.trans hstrict) Bool.noConfusion, fun _ => .refl⟩
  induction ns using seqInduction generalizing levels with
  | nil => exact Run.matches_pure ""
  | literal text span ns ih => exact matches_cons (Run.matches_pure text) (ih levels)
  | field name span ns ih =>
    exact matches_cons (EvalContext.matches_fieldText htracks rfl rfl rfl) (ih levels)
  | call name args span ns iha ih =>
    refine matches_cons ?_ (ih levels)
    cases levels with
    | zero =>
      exact EvalContext.matches_callText htracks (fun _ => rfl)
        (Run.matches_fail (htracks.node _ rfl))
    | succ levels =>
      rw [move, eval, eval, length_moveArgs]
      refine EvalContext.matches_callText htracks (fun _ => rfl) ?_
      refine EvalContext.matches_dispatch htracks hctx (fun _ _ => rfl) rfl _
        (matches_moveArgs fun i a ha => iha a (List.mem_of_getElem? ha) levels) fun _ i => ?_
      exact evalArgs_succeeds hlenient args levels i

/-- A strict evaluation does not pass over the outcome of a call. -/
theorem EvalContext.callText_of_strict (hstrict : ctx.options.strict = true) (name : String)
    (x : Run String) : ctx.callText name x = x := by
  unfold callText
  split
  · rfl
  · rw [if_pos hstrict]

/-- Sequences match up to errors that move if their first nodes do, and the rests. -/
theorem Node.matches_moveSeq_cons {m m' : Node} {ns ns' : List Node} {levels : Nat}
    (hm : Run.Matches (fun _ => true) (EvalError.Moved n (m.Pointed ctx levels))
      (m.eval ctx levels) (m'.eval ctx levels))
    (hns : Run.Matches (fun _ => true) (EvalError.Moved n (PointedSeq ctx ns levels))
      (evalSeq ctx ns levels) (evalSeq ctx ns' levels)) :
    Run.Matches (fun _ => true) (EvalError.Moved n (PointedSeq ctx (m :: ns) levels))
      (evalSeq ctx (m :: ns) levels) (evalSeq ctx (m' :: ns') levels) := by
  rw [evalSeq, evalSeq, PointedSeq]
  refine hm.bind_of_result (fun e he e' h => ?_) fun text htext => ?_
  · rwa [he]
  · rw [htext]
    exact hns.bind fun rest => Run.matches_pure (text ++ rest)

/-- A body that passes spans on, on operands that stand later, does what it did before and comes to
the same text, or to an error that points later, unless a function has pointed it somewhere. -/
theorem Run.matches_ofBody_move {body : Body String} (hbody : body.PassesSpans)
    {operand operand' : Nat → Run String} {pointed : Nat → Prop}
    (hop : ∀ i, Matches (fun _ => true) (EvalError.Moved n (pointed i)) (operand i) (operand' i))
    (hsettled : ∀ i, ctx.Settled (operand i)) (start : Event) (span : Span) :
    Matches (fun _ => true)
      (EvalError.Moved n (body.Points (fun i => (operand i).result) pointed))
      ((ofBody operand start body).locate span)
      ((ofBody operand' start body).locate (span.move n)) := by
  have hsame : SameAnswers (fun i => (operand i).result) fun i => (operand' i).result :=
    fun i => (hop i).result.mono fun _ _ h => h.toSameFault
  constructor
  · show (ofBody operand' start body).events = (ofBody operand start body).events.filter _
    have hevents : (fun i => (operand' i).events) = fun i => (operand i).events :=
      funext fun i => (hop i).events.trans (List.filter_true _)
    rw [List.filter_true, events_ofBody, events_ofBody, hbody.moves hsame, hevents]
  · show SameUpTo _ ((ofBody operand start body).result.mapError _)
      ((ofBody operand' start body).result.mapError _)
    rw [result_ofBody, result_ofBody]
    rcases hbody.run fun i => (operand i).result with ⟨a, ha⟩ | ⟨e, he⟩ | ⟨i, hi⟩
    · rw [ha _ (.refl _), ha _ hsame]
      exact .ok a
    · rw [he _ (.refl _), he _ hsame]
      exact .error (EvalError.moved_locate (he.points_iff pointed) span)
    · rw [hi.points_iff pointed]
      obtain ⟨anomaly, cause, hi⟩ := hi
      obtain ⟨e, he, hrun⟩ := hi _ (.refl _)
      obtain ⟨e', he', hrun'⟩ := hi _ hsame
      obtain ⟨-, there, hthere⟩ := hsettled i e he
      have hmoved := (hop i).result
      rw [he, he'] at hmoved
      rw [hrun, hrun']
      cases hmoved with
      | error hmoved =>
        have hrelayed : EvalError.Moved n (pointed i) { anomaly, cause, span := e.span }
            { anomaly, cause, span := e'.span } :=
          ⟨⟨rfl, rfl⟩, hmoved.stays, hmoved.moves⟩
        exact .error (hrelayed.locate hthere span (span.move n))

/-- A strict evaluation of a sequence that stands later gives the text it gave before, or an error
that points later, unless a function has pointed it somewhere. -/
theorem Node.matches_moveSeq_of_passesSpans (hstrict : ctx.options.strict = true)
    (hreg : ctx.registry.PassesSpans) (ns : List Node) (levels : Nat) :
    Run.Matches (fun _ => true) (EvalError.Moved n (PointedSeq ctx ns levels))
      (evalSeq ctx ns levels) (evalSeq ctx (moveSeq n ns) levels) := by
  have htracks := EvalError.tracks_moved n
  induction ns using seqInduction generalizing levels with
  | nil => exact Run.matches_pure ""
  | literal text span ns ih => exact matches_moveSeq_cons (Run.matches_pure text) (ih levels)
  | field name span ns ih =>
    exact matches_moveSeq_cons (EvalContext.matches_fieldText htracks rfl rfl rfl) (ih levels)
  | call name args span ns iha ih =>
    refine matches_moveSeq_cons ?_ (ih levels)
    cases levels with
    | zero =>
      rw [move, eval, eval, ctx.callText_of_strict hstrict, ctx.callText_of_strict hstrict]
      exact Run.matches_fail (htracks.node _ rfl)
    | succ levels =>
      rw [move, eval, eval, length_moveArgs, ctx.callText_of_strict hstrict,
        ctx.callText_of_strict hstrict, EvalContext.dispatch, EvalContext.dispatch, Pointed]
      cases hf : ctx.registry.resolve name args.length with
      | error anomaly => exact Run.matches_fail (htracks.node anomaly rfl)
      | ok f =>
        have hbody := hreg name f (Registry.get?_of_resolve hf) args.length
        exact Run.matches_ofBody_move hbody
          (matches_moveArgs fun i a ha => PointedArgs_eq ha levels ▸
            iha a (List.mem_of_getElem? ha) levels)
          (settled_evalArgs args levels) _ span

end

/-- The run `z` is the run `x` and then, if that gives a text, the run `y`. Both texts make up its
text; an error of `x` is its error, and an error of `y` is its error but for what `E` admits. -/
inductive Run.Then (E : EvalError → EvalError → Prop) (x y : Run String) : Run String → Prop
  | fails {e : EvalError} (hx : x.result = .error e) : Run.Then E x y x
  | ok {s t : String} (hx : x.result = .ok s) (hy : y.result = .ok t) :
      Run.Then E x y ⟨x.events ++ y.events, .ok (s ++ t)⟩
  | error {s : String} {e e' : EvalError} (hx : x.result = .ok s) (hy : y.result = .error e)
      (h : E e e') : Run.Then E x y ⟨x.events ++ y.events, .error e'⟩

namespace Run

variable {E F : EvalError → EvalError → Prop} {x y z : Run String}

/-- What is observed of both runs is observed one after the other. -/
theorem Then.events_eq (h : Then E x y z) (hx : x.Succeeds) : z.events = x.events ++ y.events := by
  cases h with
  | fails he =>
    obtain ⟨s, hs⟩ := hx
    rw [hs] at he
    cases he
  | ok | error => rfl

/-- A run is followed by one that matches another. -/
theorem then_of_matches {y' : Run String} (h : Matches (fun _ => true) F y y')
    (hEF : ∀ e, y.result = .error e → ∀ e', F e e' → E e e') :
    Then E x y (x >>= fun s => y' >>= fun t => pure (s ++ t)) := by
  obtain ⟨xs, xr⟩ := x
  obtain ⟨ys, yr⟩ := y
  obtain ⟨ys', yr'⟩ := y'
  obtain ⟨hevents, hresult⟩ := h
  obtain rfl : ys' = ys := hevents.trans (List.filter_true ys)
  cases xr with
  | error e => exact .fails rfl
  | ok s =>
    cases hresult with
    | ok t =>
      show Then E _ _ ⟨xs ++ (ys' ++ []), .ok (s ++ t)⟩
      rw [List.append_nil]
      exact .ok rfl rfl
    | error h => exact .error rfl rfl (hEF _ rfl _ h)

end Run

/-- A sequence and a further one that stands later are evaluated one after the other. -/
theorem Node.then_joinSeq {ctx : EvalContext}
    (hreg : ctx.options.strict = true → ctx.registry.PassesSpans) (ns ms : List Node)
    (n levels : Nat) :
    Run.Then (EvalError.Moved n (PointedSeq ctx ms levels)) (evalSeq ctx ns levels)
      (evalSeq ctx ms levels) (evalSeq ctx (joinSeq ns (moveSeq n ms)) levels) := by
  rw [evalSeq_joinSeq]
  cases hstrict : ctx.options.strict with
  | true =>
    exact Run.then_of_matches (matches_moveSeq_of_passesSpans hstrict (hreg hstrict) ms levels)
      fun _ _ _ h => h
  | false =>
    -- No functions are asked for anything here, and there is no error to point anywhere.
    refine Run.then_of_matches (matches_moveSeq_of_lenient hstrict ms levels) fun e he => ?_
    obtain ⟨text, htext⟩ := evalSeq_succeeds hstrict ms levels
    rw [htext] at he
    cases he

/-! ## Sources -/

/-- A source that goes on after a template is compiled and evaluated part by part. If the second
part is a template, too, the whole is one; its nodes are those of the parts, and it is evaluated as
the one part and then the other are. If the second part is none, its error is the error of the
whole, moved. -/
theorem compile_append {a b : String} {maxDepth : Nat} {ta : Template}
    (ha : compile a maxDepth = .ok ta)
    (hsize : a.utf8ByteSize + b.utf8ByteSize ≤ 2 ^ 32 - 1) :
    (∀ tb, compile b maxDepth = .ok tb → ∃ t, compile (a ++ b) maxDepth = .ok t ∧
      t.toNodes = Node.concat ta.toNodes (Node.moveSeq a.utf8ByteSize tb.toNodes) ∧
      t.depth = max ta.depth tb.depth ∧
      ∀ ctx, (ctx.options.strict = true → ctx.registry.PassesSpans) →
        let x := ta.evaluate ctx
        let y := tb.evaluate ctx
        let z := t.evaluate ctx
        let pointed := Node.PointedSeq ctx tb.toNodes ctx.options.maxDepth
        Run.Then (EvalError.Moved a.utf8ByteSize pointed) x y z ∧
          (x.Succeeds → z.lookups = x.lookups ++ y.lookups ∧ z.calls = x.calls ++ y.calls)) ∧
      ∀ e, compile b maxDepth = .error e →
        compile (a ++ b) maxDepth = .error (e.move a.utf8ByteSize) := by
  obtain ⟨ps, hps, rfl⟩ := (compile_eq_ok_iff a maxDepth ta).1 ha
  constructor
  · intro tb hb
    obtain ⟨qs, hqs, rfl⟩ := (compile_eq_ok_iff b maxDepth tb).1 hb
    have hspells : Spells (ps ++ qs) (a ++ b) := by
      refine ⟨(Piece.validSeq_append ps qs).2 ⟨hps.valid, hqs.valid⟩, ?_⟩
      rw [Piece.charsSeq_append, hps.chars, hqs.chars, String.toList_append]
    have hdepth : Piece.depthSeq (ps ++ qs) ≤ maxDepth := by
      rw [Piece.depthSeq_append]
      exact Nat.max_le.2 ⟨hps.depth, hqs.depth⟩
    have htree : nodes 0 (ps ++ qs) =
        Node.joinSeq (nodes 0 ps) (Node.moveSeq a.utf8ByteSize (nodes 0 qs)) := by
      rw [Piece.nodes_append, Piece.nodes_add, hps.sizeSeq_eq]
    refine ⟨_, compile_of_spells hspells hdepth (by rwa [String.utf8ByteSize_append]), ?_, ?_,
      fun ctx hreg => ?_⟩
    · simp only [Template.toNodes_ofNodes]
      rw [htree, Node.joinSeq_eq_concat (Piece.canonicalSeq_nodes 0 hps.valid)]
    · simp only [Template.depth_ofNodes, Piece.depthSeq_nodes, Piece.depthSeq_append]
    · have hthen := Node.then_joinSeq hreg (nodes 0 ps) (nodes 0 qs) a.utf8ByteSize
        ctx.options.maxDepth
      rw [← htree] at hthen
      simp only [Template.evaluate_ofNodes, Template.toNodes_ofNodes]
      refine ⟨hthen, fun hx => ?_⟩
      rw [Run.lookups, Run.calls, hthen.events_eq hx, List.filterMap_append, List.filterMap_append]
      exact ⟨rfl, rfl⟩
  · intro e hb
    have hread : Reader.read { maxDepth } a = .ok (nodes 0 ps) :=
      (Reader.read_eq_ok_iff _ a _).2 ⟨ps, hps, rfl⟩
    rw [compile, compileWithin_eq_error_iff] at hb ⊢
    exact Reader.read_append_error hread hb hsize

/-- Two literals that meet in front of a call that fails, and a field that never ends. -/
theorem compile_append_literals :
    let ctx : EvalContext := { record := fun _ => none, options := { strict := true } }
    ctx.registry.PassesSpans ∧ ∃ ta tb t,
      compile "%x%a" = .ok ta ∧ compile "b$gone()" = .ok tb ∧ compile "%x%ab$gone()" = .ok t ∧
        t.toNodes = [.field "x" ⟨0, 3⟩, .literal "ab" ⟨3, 5⟩, .call "gone" [] ⟨5, 12⟩] ∧
        Run.Then (EvalError.Moved 4 (Node.PointedSeq ctx tb.toNodes 64)) (ta.evaluate ctx)
          (tb.evaluate ctx) (t.evaluate ctx) ∧
        compile "b%y" = .error (.unterminatedField 1) ∧
        compile "%x%ab%y" = .error (.unterminatedField 5) := by
  intro ctx
  have hreg : ctx.registry.PassesSpans := Registry.propagates_builtins.passesSpans
  have hspells : Spells [.field "x", .plain 'a'] "%x%a" := ⟨by decide, by decide⟩
  have hspells' : Spells [.plain 'b', .call "gone" []] "b$gone()" := ⟨by decide, by decide⟩
  have ha := compile_of_spells hspells (by decide : _ ≤ defaultMaxDepth) (by decide)
  have hb := compile_of_spells hspells' (by decide : _ ≤ defaultMaxDepth) (by decide)
  have hb' : compile "b%y" = .error (.unterminatedField 1) := by rfl
  obtain ⟨t, ht, hnodes, -, hthen⟩ := (compile_append ha (by decide)).1 _ hb
  refine ⟨hreg, _, _, t, ha, hb, ht, ?_, (hthen ctx fun _ => hreg).1, hb', ?_⟩
  · rw [hnodes, Template.toNodes_ofNodes, Template.toNodes_ofNodes]
    rfl
  · exact (compile_append ha (by decide)).2 _ hb'

/-- A function that answers an error of its operand with the place where it points gives something
else when it stands later. And an error that its function has pointed somewhere stays there, even if
that is the place of the call. -/
theorem compile_append_needs_passesSpans :
    let place : Function := {
      name := "place"
      arity := .exactly 1
      body := fun _ => .request 0 fun
        | .ok text => .done (.ok text)
        | .error e => .done (.ok (e.span.elim "" fun span => span.start.repr)) }
    let ctx : EvalContext := {
      record := fun _ => none
      registry := Registry.empty.registerAll
        [place, .failing "f" (.exactly 0) "m" (some ⟨0, 4⟩) none]
      options := { strict := true } }
    let own : EvalError := { anomaly := .functionFailed "f" "m", span := some ⟨0, 4⟩ }
    ∃ ta, compile "x" = .ok ta ∧ (ta.evaluate ctx).result = .ok "x" ∧
      (∃ tb t, compile "$place($gone())" = .ok tb ∧ compile "x$place($gone())" = .ok t ∧
        (tb.evaluate ctx).result = .ok "7" ∧ (t.evaluate ctx).result = .ok "x8") ∧
      ∃ tb t, compile "$f()" = .ok tb ∧ compile "x$f()" = .ok t ∧
        tb.toNodes = [.call "f" [] ⟨0, 4⟩] ∧ (tb.evaluate ctx).result = .error own ∧
        (t.evaluate ctx).result = .error own := by
  intro place ctx own
  have hx : Spells [.plain 'x'] "x" := ⟨by decide, by decide⟩
  have hplace : Spells [.call "place" [[.call "gone" []]]] "$place($gone())" :=
    ⟨by decide, by decide⟩
  have hplace' : Spells [.plain 'x', .call "place" [[.call "gone" []]]] "x$place($gone())" :=
    ⟨by decide, by decide⟩
  have hf : Spells [.call "f" []] "$f()" := ⟨by decide, by decide⟩
  have hf' : Spells [.plain 'x', .call "f" []] "x$f()" := ⟨by decide, by decide⟩
  refine ⟨_, compile_of_spells hx (by decide) (by decide), by decide,
    ⟨_, _, compile_of_spells hplace (by decide) (by decide),
      compile_of_spells hplace' (by decide) (by decide), by decide, by decide⟩,
    _, _, compile_of_spells hf (by decide) (by decide),
    compile_of_spells hf' (by decide) (by decide), ?_, by decide, by decide⟩
  rw [Template.toNodes_ofNodes]
  rfl

end TagTemplate
