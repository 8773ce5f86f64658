import TagTemplate.Proofs.OwnErrors
import TagTemplate.Proofs.Propagation
import TagTemplate.Proofs.Refinement
import TagTemplate.Proofs.Visiting

/-!
# The limit on nesting in an evaluation

A template that nests no deeper than the limit of an evaluation is evaluated as if there were no
limit (`compileWithin_evaluates_within`). Every call that an evaluation comes to has as many levels
left as calls nest in its arguments and one more (`Node.Visits.depthArgs_lt`), whichever operands
functions ask for, in which order and how often; so the compile-time depth and the evaluation's own
count of levels agree.
-/

namespace TagTemplate

/-- The context with another limit on calls around each other. -/
def EvalContext.within (ctx : EvalContext) (maxDepth : Nat) : EvalContext :=
  { ctx with options := { ctx.options with maxDepth } }

namespace Node

variable {ctx : EvalContext}

/-- The calls of a node nest within `levels` if it is no call, or a call with a level of its own and
with arguments that nest within the levels below. -/
theorem depthSeq_call_cons_le {name : String} {args : List (List Node)} {span : Span}
    {ns : List Node} {levels : Nat} (h : depthSeq (.call name args span :: ns) ≤ levels) :
    depthArgs args < levels ∧ depthSeq ns ≤ levels :=
  Nat.max_le.1 h

/-- The argument of a call nests no deeper than all of them do. -/
theorem depthSeq_le_of_getElem? {args : List (List Node)} {a : List Node} {levels i : Nat}
    (h : depthArgs args < levels + 1) (ha : args[i]? = some a) : depthSeq a ≤ levels :=
  (depthArgs_le_iff args levels).1 (Nat.le_of_lt_succ h) a (List.mem_of_getElem? ha)

/-- An evaluation with levels enough does not depend on how many they are. -/
theorem evalSeq_within {ns : List Node} {levels levels' : Nat} (m m' : Nat)
    (h : depthSeq ns ≤ levels) (h' : depthSeq ns ≤ levels') :
    evalSeq (ctx.within m) ns levels = evalSeq (ctx.within m') ns levels' := by
  induction ns using seqInduction generalizing levels levels' with
  | nil => rfl
  | literal text span ns ih =>
    rw [evalSeq, evalSeq, ih (Nat.max_le.1 h).2 (Nat.max_le.1 h').2]
    rfl
  | field name span ns ih =>
    rw [evalSeq, evalSeq, ih (Nat.max_le.1 h).2 (Nat.max_le.1 h').2]
    rfl
  | call name args span ns iha ih =>
    obtain ⟨hargs, hns⟩ := depthSeq_call_cons_le h
    obtain ⟨hargs', hns'⟩ := depthSeq_call_cons_le h'
    obtain ⟨k, rfl⟩ := Nat.exists_eq_add_one.2 (Nat.zero_lt_of_lt hargs)
    obtain ⟨k', rfl⟩ := Nat.exists_eq_add_one.2 (Nat.zero_lt_of_lt hargs')
    have hoperand : evalArgs (ctx.within m) args k = evalArgs (ctx.within m') args k' := by
      funext i
      rw [evalArgs_eq, evalArgs_eq]
      split
      · next a ha =>
        exact iha a (List.mem_of_getElem? ha) (depthSeq_le_of_getElem? hargs ha)
          (depthSeq_le_of_getElem? hargs' ha)
      · rfl
    rw [evalSeq, evalSeq, ih hns hns', eval, eval, hoperand]
    rfl

/-- A call that an evaluation with levels enough comes to has levels enough. -/
theorem Visits.depthArgs_lt {ns : List Node} {levels : Nat} {v : Visit}
    (hv : Visits ctx ns levels v) (h : depthSeq ns ≤ levels) : depthArgs v.args < v.levels := by
  induction hv with
  | call => exact (depthSeq_call_cons_le h).1
  | @operand name args span ns a levels i f v hf hasks ha hv ih =>
    exact ih (depthSeq_le_of_getElem? (depthSeq_call_cons_le h).1 ha)
  | rest hn hv ih => exact ih (Nat.max_le.1 h).2

/-! ## The error of the limit -/

/-- A call with levels enough does not fail for the limit if its operands do not. -/
theorem lacks_outcome (hreg : ctx.registry.Avoids .recursionLimit) {v : Visit}
    (hv : depthArgs v.args < v.levels)
    (hargs : ∀ a ∈ v.args, ∀ levels, depthSeq a ≤ levels →
      Lacks .recursionLimit (evalSeq ctx a levels).result) :
    Lacks .recursionLimit (v.outcome ctx).result := by
  obtain ⟨name, args, span, levels⟩ := v
  obtain ⟨k, rfl⟩ := Nat.exists_eq_add_one.2 (Nat.zero_lt_of_lt hv)
  simp only [Visit.outcome, EvalContext.dispatch]
  cases hf : ctx.registry.resolve name args.length with
  | error anomaly =>
    refine lacks_error fun (h : anomaly.kind = .recursionLimit) => ?_
    rcases Registry.kind_of_resolve hf with hkind | hkind <;> rw [h] at hkind <;> cases hkind
  | ok f =>
    have hoperand : ∀ i, Lacks .recursionLimit (evalArgs ctx args k i).result := by
      intro i
      rw [evalArgs_eq]
      split
      · next a ha =>
        exact hargs a (List.mem_of_getElem? ha) k (depthSeq_le_of_getElem? hv ha)
      · exact lacks_ok ""
    have hbody := hreg name f (Registry.get?_of_resolve hf) args.length
    exact Run.lacks_locate (Run.lacks_ofBody hbody hoperand) span

/-- A sequence fails for the limit only if its first node does, or the rest. -/
theorem lacks_cons {n : Node} {ns : List Node} {levels : Nat}
    (hn : Lacks .recursionLimit (n.eval ctx levels).result)
    (hns : Lacks .recursionLimit (evalSeq ctx ns levels).result) :
    Lacks .recursionLimit (evalSeq ctx (n :: ns) levels).result := by
  intro e he
  rcases result_evalSeq_cons he with he | ⟨text, -, he⟩
  · exact hn e he
  · exact hns e he

/-- An evaluation with levels enough does not fail for the limit. -/
theorem lacks_evalSeq (hreg : ctx.registry.Avoids .recursionLimit) {ns : List Node} {levels : Nat}
    (h : depthSeq ns ≤ levels) : Lacks .recursionLimit (evalSeq ctx ns levels).result := by
  induction ns using seqInduction generalizing levels with
  | nil => exact lacks_ok ""
  | literal text span ns ih => exact lacks_cons (lacks_ok text) (ih (Nat.max_le.1 h).2)
  | field name span ns ih =>
    refine lacks_cons (fun e he => ?_) (ih (Nat.max_le.1 h).2)
    obtain ⟨typeName, hanomaly⟩ := EvalContext.anomaly_of_fieldText he
    rw [EvalError.kind, hanomaly]
    exact AnomalyKind.noConfusion
  | call name args span ns iha ih =>
    obtain ⟨hargs, hns⟩ := depthSeq_call_cons_le h
    refine lacks_cons (fun e he => ?_) (ih hns)
    rw [eval_call] at he
    have hcall := lacks_outcome hreg (v := ⟨name, args, span, levels⟩) hargs
      fun a ha levels => iha a ha
    exact hcall e (EvalContext.result_of_callText he)

end Node

/-- The limit on nesting of an evaluation never touches a template that fits it. A template nests no
deeper than the limit it was compiled within. For all limits of an evaluation within which it nests,
the events and the result are the same, and every call that the evaluation comes to has a level
left. If no function makes up an error for the limit, no call that the evaluation comes to fails
with one, no call is passed over for one, and the evaluation does not end with one. -/
theorem compileWithin_evaluates_within {limits : Reader.Limits} {source : String} {t : Template}
    (h : compileWithin limits source = .ok t) (ctx : EvalContext) :
    t.depth ≤ limits.maxDepth ∧
    ∀ m, t.depth ≤ m →
      (∀ m', t.depth ≤ m' → t.evaluate (ctx.within m) = t.evaluate (ctx.within m')) ∧
      (∀ v, Node.Visits (ctx.within m) t.toNodes m v → 0 < v.levels) ∧
      (ctx.registry.Avoids .recursionLimit →
        (∀ v, Node.Visits (ctx.within m) t.toNodes m v →
          Lacks .recursionLimit (v.outcome (ctx.within m)).result) ∧
        (∀ name message, .callDegraded name message ∈ (t.evaluate (ctx.within m)).events →
          ∃ v e, Node.Visits (ctx.within m) t.toNodes m v ∧ v.name = name ∧
            (v.outcome (ctx.within m)).result = .error e ∧ e.message = message ∧
            e.kind ≠ .recursionLimit) ∧
        Lacks .recursionLimit (t.evaluate (ctx.within m)).result) := by
  refine ⟨depth_le_of_compileWithin h, ?_⟩
  generalize hns : t.toNodes = ns
  obtain rfl : t = Template.ofNodes ns := by
    rw [← hns, ofNodes_toNodes_of_compileWithin h]
  have heval : ∀ m, (Template.ofNodes ns).evaluate (ctx.within m) =
      Node.evalSeq (ctx.within m) ns m := fun m => Template.evaluate_ofNodes ns _
  rw [Template.depth_ofNodes]
  simp only [heval]
  intro m hm
  refine ⟨fun m' hm' => Node.evalSeq_within m m' hm hm',
    fun v hv => Nat.zero_lt_of_lt (hv.depthArgs_lt hm),
    fun (hreg : (ctx.within m).registry.Avoids .recursionLimit) => ?_⟩
  have hvisit : ∀ v, Node.Visits (ctx.within m) ns m v →
      Lacks .recursionLimit (v.outcome (ctx.within m)).result := fun v hv =>
    Node.lacks_outcome hreg (hv.depthArgs_lt hm) fun a _ levels => Node.lacks_evalSeq hreg
  refine ⟨hvisit, fun name message hev => ?_, Node.lacks_evalSeq hreg hm⟩
  obtain ⟨v, e, hv, hname, he, hmessage⟩ := Node.visits_of_degraded hev
  exact ⟨v, e, hv, hname, he, hmessage, hvisit v hv e he⟩

/-- A script that asks for a call twice, and a call that is passed over, for another reason. -/
theorem compileWithin_evaluates_within_script :
    let ctx : EvalContext := {
      record := fun _ => none
      registry := Registry.builtins.registerAll
        [Function.scripted "s" (.exactly 2) [.text 1, .text 0, .text 1]] }
    ctx.registry.Avoids .recursionLimit ∧
      ∃ t, compileWithin { maxDepth := 2 } "$s($g(),$if(x,ab,c))" = .ok t ∧ t.depth ≤ 2 ∧
        (t.evaluate (ctx.within 2)).result = .ok "ab||ab" ∧
        (t.evaluate (ctx.within 2)).degradations = [.callDegraded "g" "unknown function: g"] ∧
        t.evaluate (ctx.within 2) = t.evaluate (ctx.within 3) ∧
        Lacks .recursionLimit (t.evaluate (ctx.within 2)).result := by
  intro ctx
  have hkind : AnomalyKind.recursionLimit ≠ .typeMismatch := AnomalyKind.noConfusion
  have hreg : ctx.registry.Avoids .recursionLimit := by
    refine (Registry.avoids_builtins hkind).registerAll fun f hf => ?_
    obtain rfl := List.mem_singleton.1 hf
    exact (Body.closed_avoids hkind).scripted _ _ _
  let ps : List Piece :=
    [.call "s" [[.call "g" []],
      [.call "if" [[.plain 'x'], [.plain 'a', .plain 'b'], [.plain 'c']]]]]
  have ht := (compileWithin_eq_ok_iff { maxDepth := 2 } "$s($g(),$if(x,ab,c))" _).2
    ⟨ps, ⟨⟨by decide, by decide⟩, by decide, ⟨by decide, by decide, by decide⟩⟩, rfl⟩
  obtain ⟨hdepth, hwithin⟩ := compileWithin_evaluates_within ht ctx
  obtain ⟨hsame, -, hlimit⟩ := hwithin 2 hdepth
  obtain ⟨-, -, hlacks⟩ := hlimit hreg
  have hrun := Template.evaluate_ofNodes (Piece.nodes 0 ps) (ctx.within 2)
  refine ⟨hreg, _, ht, hdepth, ?_, ?_, hsame 3 (Nat.le_succ_of_le hdepth), hlacks⟩
  · rw [hrun]
    decide
  · rw [hrun]
    decide

end TagTemplate
