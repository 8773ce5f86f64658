import TagTemplate.Proofs.Refinement
import TagTemplate.Proofs.Similarity
import TagTemplate.Proofs.Visiting

/-!
# Lenient evaluation as deletion

A call may fail before its function starts: it stands inside too many others, no function has its
name, or the function does not accept that many operands. All three are checked before any operand
is evaluated, so in a lenient evaluation such a call does nothing at all. `Node.pruneSeq` deletes
these calls from a tree. The evaluation of the pruned tree does what that of the whole tree does
(`Node.sameActs_prune`), and all the calls it comes to start their functions
(`Node.starts_of_visits_prune`).
-/

namespace TagTemplate

/-- The body ends with the error of its own accord, although no operand fails. -/
inductive Body.Raises {α : Type} : Body α → EvalError → Prop
  | done (e : EvalError) : Body.Raises (.done (.error e)) e
  | request {i : Nat} {next : Except EvalError String → Body α} {t : String} {e : EvalError}
      (h : Body.Raises (next (.ok t)) e) : Body.Raises (.request i next) e
  | announce {next : Body α} {e : EvalError} (h : Body.Raises next e) :
      Body.Raises (.announce next) e

/-! ## Runs that do the same -/

/-- Is the event that a call was passed over? -/
def Event.isCallDegraded : Event → Bool
  | .callDegraded _ _ => true
  | .lookup _ | .call _ _ | .fieldDegraded _ => false

namespace Run

variable {α β : Type}

/-- The runs do the same and come to the same; they may pass over different calls. -/
structure SameActs (x y : Run α) : Prop where
  events : x.events.filter (!·.isCallDegraded) = y.events.filter (!·.isCallDegraded)
  result : x.result = y.result

/-- A run does the same as itself. -/
theorem SameActs.refl (x : Run α) : x.SameActs x :=
  ⟨rfl, rfl⟩

/-- Runs that do the same as one run do the same as each other. -/
theorem SameActs.trans {x y z : Run α} (hxy : x.SameActs y) (hyz : y.SameActs z) : x.SameActs z :=
  ⟨hxy.events.trans hyz.events, hxy.result.trans hyz.result⟩

/-- Runs that do the same are continued by runs that do the same. -/
theorem SameActs.bind {x y : Run α} {f g : α → Run β} (h : x.SameActs y)
    (hfg : ∀ a, (f a).SameActs (g a)) : (x >>= f).SameActs (y >>= g) := by
  show (x.bind f).SameActs (y.bind g)
  obtain ⟨xs, result⟩ := x
  obtain ⟨ys, result'⟩ := y
  obtain ⟨hevents, hresult⟩ := h
  dsimp only at hevents hresult
  subst hresult
  cases result with
  | error e => exact ⟨hevents, rfl⟩
  | ok a =>
    refine ⟨?_, (hfg a).result⟩
    simp only [Run.bind, List.filter_append, hevents, (hfg a).events]

/-- Any body does the same on operands that do the same. -/
theorem SameActs.ofBody {operand operand' : Nat → Run String}
    (hop : ∀ i, (operand i).SameActs (operand' i)) (start : Event) (body : Body α) :
    (ofBody operand start body).SameActs (Run.ofBody operand' start body) := by
  induction body with
  | done result => exact .refl _
  | announce next ih =>
    refine ⟨?_, ih.result⟩
    simp only [Run.ofBody, List.filter_cons, ih.events]
  | request i next ih =>
    have hrest := ih (operand i).result
    refine ⟨?_, ?_⟩
    · simp only [Run.ofBody, ← (hop i).result, List.filter_append, (hop i).events, hrest.events]
    · simp only [Run.ofBody, ← (hop i).result]
      exact hrest.result

/-- Runs that do the same do so wherever their errors point. -/
theorem SameActs.locate {x y : Run α} (h : x.SameActs y) (span : Span) :
    (x.locate span).SameActs (y.locate span) :=
  ⟨h.events, congrArg (·.mapError (·.locate span)) h.result⟩

/-- A call that is passed over at once leaves nothing but the note of that. -/
theorem sameActs_callDegraded (name message : String) (x : Run String) :
    ((⟨[.callDegraded name message], .ok ""⟩ : Run String) >>= fun text =>
      x >>= fun rest => pure (text ++ rest)).SameActs x := by
  show SameActs (Run.bind _ fun text => x.bind fun rest => ⟨[], .ok (text ++ rest)⟩) x
  obtain ⟨events, result⟩ := x
  cases result with
  | error e => exact ⟨rfl, rfl⟩
  | ok text =>
    simp only [Run.bind, String.empty_append, List.append_nil]
    exact ⟨rfl, rfl⟩

/-- What is read off events other than degraded calls is the same. -/
theorem SameActs.filterMap_eq {x y : Run α} (h : x.SameActs y) {read : Event → Option β}
    (hread : ∀ name message, read (.callDegraded name message) = none) :
    x.events.filterMap read = y.events.filterMap read := by
  have hnone : ∀ ev : Event, (!ev.isCallDegraded) = false → read ev = none := by
    intro ev hev
    cases ev with
    | callDegraded name message => exact hread name message
    | lookup | call | fieldDegraded => cases hev
  rw [← filterMap_filter_of_none hnone, h.events, filterMap_filter_of_none hnone]

/-- Runs that do the same have the same lookups. -/
theorem SameActs.lookups_eq {x y : Run α} (h : x.SameActs y) : x.lookups = y.lookups :=
  h.filterMap_eq fun _ _ => rfl

/-- Runs that do the same have the same calls. -/
theorem SameActs.calls_eq {x y : Run α} (h : x.SameActs y) : x.calls = y.calls :=
  h.filterMap_eq fun _ _ => rfl

/-- Pointing an error at a node changes nothing else. -/
theorem exists_of_locate_eq_error {x : Run α} {span : Span} {e : EvalError}
    (h : (x.locate span).result = .error e) :
    ∃ e', x.result = .error e' ∧ e = e'.locate span := by
  obtain ⟨events, result⟩ := x
  cases result with
  | ok a => cases h
  | error e' =>
    cases h
    exact ⟨e', rfl, rfl⟩

/-- A body whose operands all have a text fails of its own accord. -/
theorem raises_of_ofBody {operand : Nat → Run String} {start : Event} {body : Body α}
    {e : EvalError} (hop : ∀ i, (operand i).Succeeds)
    (h : (Run.ofBody operand start body).result = .error e) : body.Raises e := by
  induction body with
  | done result =>
    cases (h : result = .error e)
    exact .done e
  | announce next ih => exact .announce (ih h)
  | request i next ih =>
    obtain ⟨t, ht⟩ := hop i
    refine .request (t := t) (ih _ ?_)
    rw [← ht]
    exact h

end Run

namespace EvalContext

/-- Does a call with `around` others around it and `count` operands start its function? -/
def starts (ctx : EvalContext) (around : Nat) (name : String) (count : Nat) : Bool :=
  decide (around < ctx.options.maxDepth) && (ctx.registry.get? name).any (·.arity.accepts count)

variable {ctx : EvalContext}

/-- A call starts its function if it is not too deep and the registry has one for it. -/
theorem starts_eq_true_iff {around : Nat} {name : String} {count : Nat} :
    ctx.starts around name count = true ↔
      around < ctx.options.maxDepth ∧ ∃ f, ctx.registry.resolve name count = .ok f := by
  rw [starts, Bool.and_eq_true, decide_eq_true_iff]
  refine and_congr_right fun _ => ?_
  rw [Registry.resolve]
  cases ctx.registry.get? name with
  | none => simp
  | some f =>
    dsimp only [Option.any_some]
    split
    · next h => simp [h]
    · next h => simp [h]

/-- A call that does not start its function does nothing but to be passed over. -/
theorem callText_of_not_starts (hlenient : ctx.options.strict = false) {around : Nat}
    {v : Visit} (haround : around + v.levels = ctx.options.maxDepth)
    (h : ctx.starts around v.name v.args.length = false) :
    ∃ message, ctx.callText v.name (v.outcome ctx) =
      ⟨[.callDegraded v.name message], .ok ""⟩ := by
  have hfail : ∃ e, v.outcome ctx = Run.fail e := by
    unfold Visit.outcome
    split
    · exact ⟨_, rfl⟩
    · next levels hlevels =>
      unfold dispatch
      cases hf : ctx.registry.resolve v.name v.args.length with
      | error anomaly => exact ⟨_, rfl⟩
      | ok f =>
        have hstarts : ctx.starts around v.name v.args.length = true :=
          starts_eq_true_iff.2 ⟨by omega, f, hf⟩
        rw [hstarts] at h
        cases h
  obtain ⟨e, he⟩ := hfail
  rw [he, callText, hlenient]
  exact ⟨e.message, rfl⟩

/-- Runs that do the same do so as calls. -/
theorem sameActs_callText (name : String) {x y : Run String} (h : x.SameActs y) :
    (ctx.callText name x).SameActs (ctx.callText name y) := by
  obtain ⟨hevents, hresult⟩ := h
  unfold callText
  rw [← hresult]
  split
  · exact ⟨hevents, hresult⟩
  · split
    · exact ⟨hevents, hresult⟩
    · refine ⟨?_, rfl⟩
      simp only [List.filter_append, hevents]

/-- Calls of one function do the same if their operands do. -/
theorem sameActs_dispatch {operand operand' : Nat → Run String} (name : String) (span : Span)
    (count : Nat) (hop : ∀ i, (operand i).SameActs (operand' i)) :
    (ctx.dispatch name span count operand).SameActs (ctx.dispatch name span count operand') := by
  unfold dispatch
  cases ctx.registry.resolve name count with
  | error anomaly => exact .refl _
  | ok f => exact (Run.SameActs.ofBody hop _ _).locate span

end EvalContext

namespace Node

/-! ## The pruned tree -/

mutual

/-- The node without the calls that fail before their functions start, where `around` calls are
around the node; nothing if it is such a call itself. -/
def prune (ctx : EvalContext) (around : Nat) : Node → Option Node
  | .literal text span => some (.literal text span)
  | .field name span => some (.field name span)
  | .call name args span =>
    if ctx.starts around name args.length then
      some (.call name (pruneArgs ctx (around + 1) args) span)
    else none

/-- The sequence without the calls that fail before their functions start. -/
def pruneSeq (ctx : EvalContext) (around : Nat) : List Node → List Node
  | [] => []
  | n :: ns => (n.prune ctx around).toList ++ pruneSeq ctx around ns

/-- `pruneSeq` over the arguments of a call. None of them goes, even if nothing is left in it. -/
def pruneArgs (ctx : EvalContext) (around : Nat) : List (List Node) → List (List Node)
  | [] => []
  | a :: as => pruneSeq ctx around a :: pruneArgs ctx around as

end

variable {ctx : EvalContext} {around : Nat}

/-- `pruneArgs` in the natural per-element form. -/
theorem pruneArgs_eq_map (args : List (List Node)) :
    pruneArgs ctx around args = args.map (pruneSeq ctx around) := by
  induction args with
  | nil => rfl
  | cons a as ih => rw [pruneArgs, ih, List.map_cons]

/-- A call that starts its function stays, with its arguments pruned. -/
theorem pruneSeq_call_of_starts {name : String} {args : List (List Node)} {span : Span}
    (h : ctx.starts around name args.length = true) (ns : List Node) :
    pruneSeq ctx around (.call name args span :: ns) =
      .call name (pruneArgs ctx (around + 1) args) span :: pruneSeq ctx around ns := by
  rw [pruneSeq, prune, if_pos h]
  rfl

/-- A call that does not start its function goes. -/
theorem pruneSeq_call_of_not_starts {name : String} {args : List (List Node)} {span : Span}
    (h : ctx.starts around name args.length = false) (ns : List Node) :
    pruneSeq ctx around (.call name args span :: ns) = pruneSeq ctx around ns := by
  rw [pruneSeq, prune, h]
  rfl

/-- An argument of a call is pruned by itself. -/
theorem evalArgs_pruneArgs (args : List (List Node)) (levels i : Nat) :
    evalArgs ctx (pruneArgs ctx around args) levels i =
      match args[i]? with
      | some a => evalSeq ctx (pruneSeq ctx around a) levels
      | none => pure "" := by
  rw [evalArgs_eq, pruneArgs_eq_map, List.getElem?_map]
  cases args[i]? <;> rfl

/-- Sequences do the same if their first nodes do, and the rests. -/
theorem sameActs_cons {n m : Node} {ns ms : List Node} {levels : Nat}
    (hn : (n.eval ctx levels).SameActs (m.eval ctx levels))
    (hns : (evalSeq ctx ns levels).SameActs (evalSeq ctx ms levels)) :
    (evalSeq ctx (n :: ns) levels).SameActs (evalSeq ctx (m :: ms) levels) :=
  hn.bind fun _ => hns.bind fun _ => .refl _

/-- A lenient evaluation of the pruned tree does what that of the whole tree does. -/
theorem sameActs_prune (hlenient : ctx.options.strict = false) {ns : List Node} {levels : Nat}
    (haround : around + levels = ctx.options.maxDepth) :
    (evalSeq ctx ns levels).SameActs (evalSeq ctx (pruneSeq ctx around ns) levels) := by
  induction ns using seqInduction generalizing around levels with
  | nil => exact .refl _
  | literal text span ns ih => exact sameActs_cons (.refl _) (ih haround)
  | field name span ns ih => exact sameActs_cons (.refl _) (ih haround)
  | call name args span ns iha ih =>
    cases hstarts : ctx.starts around name args.length with
    | false =>
      rw [pruneSeq_call_of_not_starts hstarts]
      obtain ⟨message, hcall⟩ := EvalContext.callText_of_not_starts hlenient
        (v := ⟨name, args, span, levels⟩) haround hstarts
      rw [evalSeq, eval_call, hcall]
      exact (Run.sameActs_callDegraded name message _).trans (ih haround)
    | true =>
      rw [pruneSeq_call_of_starts hstarts]
      obtain ⟨hlt, -⟩ := EvalContext.starts_eq_true_iff.1 hstarts
      obtain ⟨k, rfl⟩ : ∃ k, levels = k + 1 := ⟨levels - 1, by omega⟩
      refine sameActs_cons ?_ (ih haround)
      have hlength : (pruneArgs ctx (around + 1) args).length = args.length := by
        rw [pruneArgs_eq_map, List.length_map]
      rw [eval, eval, hlength]
      refine EvalContext.sameActs_callText name ?_
      refine EvalContext.sameActs_dispatch name span _ fun i => ?_
      rw [evalArgs_eq, evalArgs_pruneArgs]
      cases ha : args[i]? with
      | none => exact .refl _
      | some a => exact iha a (List.mem_of_getElem? ha) (by omega)

/-- Every call that the evaluation of the pruned tree comes to starts its function. -/
theorem starts_of_visits_prune {ns : List Node} {levels : Nat} {v : Visit}
    (haround : around + levels = ctx.options.maxDepth)
    (hv : Visits ctx (pruneSeq ctx around ns) levels v) :
    0 < v.levels ∧ ∃ f, ctx.registry.resolve v.name v.args.length = .ok f := by
  induction ns using seqInduction generalizing around levels with
  | nil => cases hv
  | literal text span ns ih =>
    cases hv with
    | rest _ hv => exact ih haround hv
  | field name span ns ih =>
    cases hv with
    | rest _ hv => exact ih haround hv
  | call name args span ns iha ih =>
    cases hstarts : ctx.starts around name args.length with
    | false =>
      rw [pruneSeq_call_of_not_starts hstarts] at hv
      exact ih haround hv
    | true =>
      rw [pruneSeq_call_of_starts hstarts] at hv
      obtain ⟨hlt, hresolve⟩ := EvalContext.starts_eq_true_iff.1 hstarts
      cases hv with
      | call =>
        have hlevels : 0 < levels := by omega
        rw [pruneArgs_eq_map, List.length_map]
        exact ⟨hlevels, hresolve⟩
      | operand _ _ ha hv =>
        rw [pruneArgs_eq_map, List.getElem?_map, Option.map_eq_some_iff] at ha
        obtain ⟨a, ha, rfl⟩ := ha
        exact iha a (List.mem_of_getElem? ha) (by omega) hv
      | rest _ hv => exact ih haround hv

/-- A call that starts its function and fails in a lenient evaluation fails with an error of the
function's own. -/
theorem raises_of_outcome (hlenient : ctx.options.strict = false) {v : Visit} {f : Function}
    {e : EvalError} (hlevels : 0 < v.levels)
    (hf : ctx.registry.resolve v.name v.args.length = .ok f)
    (he : (v.outcome ctx).result = .error e) :
    ∃ e', (f.body v.args.length).Raises e' ∧ e = e'.locate v.span := by
  obtain ⟨name, args, span, levels⟩ := v
  obtain ⟨k, rfl⟩ := Nat.exists_eq_add_one.2 hlevels
  simp only [Visit.outcome, EvalContext.dispatch, hf] at he
  obtain ⟨e', he', hlocate⟩ := Run.exists_of_locate_eq_error he
  have hraises := Run.raises_of_ofBody (evalArgs_succeeds hlenient args k) he'
  exact ⟨e', hraises, hlocate⟩

end Node

/-- Lenient evaluation is deletion of what fails. Delete from the tree of a template, wherever they
stand, the calls that have as many others around them as the limit says, that no function has the
name of, or whose function does not accept their number of operands. The evaluation of the pruned
tree gives the same text, after the same lookups and the same calls. Every call it comes to has a
level left and reaches a function that accepts its operands; so where a call is passed over, its
function has failed of its own accord, and with the message reported. -/
theorem compileWithin_prune {limits : Reader.Limits} {source : String} {t : Template}
    (h : compileWithin limits source = .ok t) (ctx : EvalContext)
    (hlenient : ctx.options.strict = false) :
    let pruned := Node.pruneSeq ctx 0 t.toNodes
    let x := t.evaluate ctx
    let y := (Template.ofNodes pruned).evaluate ctx
    (∃ out, x.result = .ok out ∧ y.result = .ok out) ∧ y.lookups = x.lookups ∧ y.calls = x.calls ∧
      (∀ v, Node.Visits ctx pruned ctx.options.maxDepth v →
        0 < v.levels ∧ ∃ f, ctx.registry.resolve v.name v.args.length = .ok f) ∧
      ∀ name message, .callDegraded name message ∈ y.events →
        ∃ v f e, Node.Visits ctx pruned ctx.options.maxDepth v ∧ v.name = name ∧
          ctx.registry.resolve v.name v.args.length = .ok f ∧
          (f.body v.args.length).Raises e ∧ e.message = message := by
  intro pruned x y
  have hx : x = Node.evalSeq ctx t.toNodes ctx.options.maxDepth := by
    rw [← Template.evaluate_ofNodes, ofNodes_toNodes_of_compileWithin h]
  have hy : y = Node.evalSeq ctx pruned ctx.options.maxDepth := Template.evaluate_ofNodes _ _
  have hsame : x.SameActs y := by
    rw [hx, hy]
    exact Node.sameActs_prune hlenient (Nat.zero_add _)
  have hstarts := fun v (hv : Node.Visits ctx pruned ctx.options.maxDepth v) =>
    Node.starts_of_visits_prune (Nat.zero_add _) hv
  obtain ⟨out, hout⟩ := Node.evalSeq_succeeds hlenient t.toNodes ctx.options.maxDepth
  rw [← hx] at hout
  refine ⟨⟨out, hout, hsame.result ▸ hout⟩, hsame.lookups_eq.symm, hsame.calls_eq.symm, hstarts,
    fun name message hev => ?_⟩
  rw [hy] at hev
  obtain ⟨v, e, hv, hname, he, hmessage⟩ := Node.visits_of_degraded hev
  obtain ⟨hlevels, f, hf⟩ := hstarts v hv
  obtain ⟨e', hraises, rfl⟩ := Node.raises_of_outcome hlenient hlevels hf he
  exact ⟨v, f, e', hv, hname, hf, hraises, hmessage⟩

/-- A call without a function, one inside as many others as the limit says, and one with an operand
too few. The calls around the first two keep their empty operands. -/
theorem compileWithin_prune_causes :
    let ctx : EvalContext := {
      record := fun _ => some (.text "1")
      registry := Registry.empty.register
        (Function.scripted "s" (.exactly 2) [.text 1, .text 0, .count])
      options := { maxDepth := 2 } }
    let pruned : List Node :=
      [.call "s" [[], [.call "s" [[], [.field "x" ⟨19, 22⟩]] ⟨8, 23⟩]] ⟨0, 24⟩]
    ctx.options.strict = false ∧
      ∃ t, compileWithin { maxDepth := 3 } "$s($g(),$s($s(a,b),%x%))$s(c)" = .ok t ∧
        Node.pruneSeq ctx 0 t.toNodes = pruned ∧
        (t.evaluate ctx).result = .ok "1||2||2" ∧
        ((Template.ofNodes pruned).evaluate ctx).result = .ok "1||2||2" ∧
        ((Template.ofNodes pruned).evaluate ctx).calls = (t.evaluate ctx).calls := by
  intro ctx pruned
  let ps : List Piece :=
    [.call "s" [[.call "g" []],
      [.call "s" [[.call "s" [[.plain 'a'], [.plain 'b']]], [.field "x"]]]],
      .call "s" [[.plain 'c']]]
  have ht := (compileWithin_eq_ok_iff { maxDepth := 3 } "$s($g(),$s($s(a,b),%x%))$s(c)" _).2
    ⟨ps, ⟨⟨by decide, by decide⟩, by decide, ⟨by decide, by decide, by decide⟩⟩, rfl⟩
  have hpruned : Node.pruneSeq ctx 0 (Template.ofNodes (Piece.nodes 0 ps)).toNodes = pruned := by
    rw [Template.toNodes_ofNodes]
    rfl
  obtain ⟨⟨out, hx, hy⟩, -, hcalls, -⟩ := compileWithin_prune ht ctx rfl
  rw [hpruned] at hy hcalls
  have hout : out = "1||2||2" := by
    rw [Template.evaluate_ofNodes] at hy
    exact Except.ok.inj (hy.symm.trans rfl)
  subst hout
  exact ⟨rfl, _, ht, hpruned, hx, hy, hcalls⟩

end TagTemplate
