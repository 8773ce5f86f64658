import TagTemplate.Compile
import TagTemplate.Proofs.Descent.Outcomes

/-!
# The contract of the parser of sequences

With the induction over the steps done (`outcomes`), what is said of the functions holds of them
from every place on. So the parser compiles what is compiled otherwise (`parseTemplate_eq`), and its
function for sequences keeps a contract with its callers: where it stops, that its counts are right,
and that what has been written into the tables stays there (`parseSequence_contract`).
-/

namespace TagTemplate

namespace Descent

open Reader (Limits State)
open String (utf8Len)

/-! ## Whole runs -/

/-- With enough steps every function does what is said of it: none needs more than two for each
character that is left, and a few. -/
theorem outcomes (limits : Limits) (steps : Nat) :
    (∀ context p v, 2 * p.rest.length + 1 ≤ steps →
      SequenceOutcome limits context p v (sequence limits context steps p v)) ∧
    (∀ p rest, p.rest = '$' :: rest → 2 * p.rest.length ≤ steps →
      NodeOutcome limits p '$' rest (call limits steps p rest)) ∧
    (∀ start p, 2 * p.rest.length + 3 ≤ steps →
      ArgumentsOutcome limits start p (arguments limits steps start p)) ∧
    ∀ start p args, 2 * p.rest.length + 2 ≤ steps →
      ArgumentsFromOutcome limits start p args (argumentsFrom limits steps start p args) := by
  induction steps with
  | zero =>
    refine ⟨fun _ _ _ h => ?_, fun p rest hrest h => ?_, fun _ _ h => ?_, fun _ _ _ h => ?_⟩
    · omega
    · rw [hrest, List.length_cons] at h
      omega
    · omega
    · omega
  | succ steps ih =>
    obtain ⟨hseq, hcall, hargs, hmore⟩ := ih
    refine ⟨fun context => ?_, fun p rest => ?_, fun start => ?_, fun start => ?_⟩
    · exact sequence_outcome_succ (hseq context) hcall
    · exact call_outcome_succ hargs p
    · exact arguments_outcome_succ (hmore start)
    · exact argumentsFrom_outcome_succ (hseq .argument) (hmore start)

/-- The sequence that begins where the parser stands. -/
theorem parseSequence_outcome (limits : Limits) (context : Context) (p : Parser) :
    SequenceOutcome limits context p { start := p.pos } (parseSequence limits context p) :=
  (outcomes limits p.steps).1 context p _ (Nat.le_refl _)

/-- The parser of templates reads what the machine reads, and lays it out. -/
theorem parseTemplate_outcome (limits : Limits) (source : String) :
    Outcome (fun t => ∃ nodes, Reader.read limits source = .ok nodes ∧ t = Template.ofNodes nodes)
      (fun e => Reader.read limits source = .error e) (parseTemplate limits source) := by
  have hstands : Context.topLevel.Stands (.ofSource source) [] :=
    ⟨rfl, fun h => (by cases h), fun h => absurd rfl h⟩
  refine (parseSequence_outcome limits .topLevel (.ofSource source)).bind
    (fun e he => he [] [] hstands) ?_
  rintro ⟨cells, q⟩ ⟨nodes, _, hlayout, rfl, -, hends, -, w, hw, -, hrun⟩
  have hlayout : Node.layoutSeq {} nodes = (cells, q.arena) := hlayout
  have hread : Reader.read limits source =
      limits.reserve q.arena.usage.nodes cells.length q.pos >>= fun _ => .ok nodes := by
    have hends : q.rest = [] := hends
    refine (hrun [] [] hstands).trans ?_
    dsimp only
    rw [hends, State.complete_nil, List.nil_append, Node.length_of_layoutSeq hlayout]
    show (State.endLiteral .. >>= _) = _
    rw [State.endLiteral_of_empty hw]
    rfl
  refine Outcome.bind (q.store_outcome _ _ _) (fun e he => ?_) ?_
  · rw [hread, he]
    rfl
  · rintro r ⟨rfl, hroom⟩
    refine ⟨nodes, ?_, ?_⟩
    · rw [hread, hroom]
      rfl
    · rw [Template.ofNodes, hlayout]

/-- The parser compiles what the machine compiles, and refuses what it refuses. -/
theorem parseTemplate_eq (limits : Limits) (source : String) :
    parseTemplate limits source = (compileWithin limits source).mapError .refused := by
  have hout := parseTemplate_outcome limits source
  rw [compileWithin]
  match hparse : parseTemplate limits source with
  | .ok t =>
    rw [hparse] at hout
    obtain ⟨nodes, hread, rfl⟩ := hout
    rw [hread]
    rfl
  | .error (.refused e) =>
    rw [hparse] at hout
    have hread : Reader.read limits source = .error e := hout
    rw [hread]
    rfl
  | .error .underflow | .error .exhausted =>
    rw [hparse] at hout
    exact hout.elim

/-- The contract of the parser of sequences, from every place on and with anything in the tables. It
never stops for a reason of its own, so no count of groups or of open calls goes below zero. If it
succeeds, it has moved over the characters of the sequence, up to the end of the source or, for an
argument, to a comma or a closing parenthesis; as many calls are open as before; and it has done
nothing to the tables but to add to them. So what a range of a table held before is what it holds
now, and the nodes that are returned are the same trees in all tables that begin with these.

The whole parser compiles what is compiled otherwise, within any limits. -/
theorem parseSequence_contract :
    (∀ limits source,
      parseTemplate limits source = (compileWithin limits source).mapError .refused) ∧
    ∀ (limits : Limits) (context : Context) (p : Parser),
      parseSequence limits context p ≠ .error .underflow ∧
      parseSequence limits context p ≠ .error .exhausted ∧
      ∀ cells q, parseSequence limits context p = .ok (cells, q) →
        (∃ cs, p.rest = cs ++ q.rest ∧ q.pos = p.pos + utf8Len cs) ∧
        (context = .topLevel → q.rest = []) ∧
        (∀ c rest, q.rest = c :: rest → c = ',' ∨ c = ')') ∧
        q.depth = p.depth ∧
        p.arena.Extends q.arena ∧
        (∀ r m, r.Cuts p.arena.cells.toList m → p.arena.cellsOf r = m ∧ q.arena.cellsOf r = m) ∧
        (∀ r m, r.Cuts p.arena.args.toList m → p.arena.argsOf r = m ∧ q.arena.argsOf r = m) ∧
        (∀ r m, r.CutsText p.arena.text m → p.arena.textOf r = m ∧ q.arena.textOf r = m) ∧
        ∃ nodes, ∀ b : Arena, q.arena.Extends b →
          ∀ levels, Node.depthSeq nodes ≤ levels → cells.map (b.unfoldCell levels) = nodes := by
  refine ⟨parseTemplate_eq, fun limits context p => ?_⟩
  have hout := parseSequence_outcome limits context p
  refine ⟨fun h => ?_, fun h => ?_, fun cells q h => ?_⟩
  · rw [h] at hout
    exact hout
  · rw [h] at hout
    exact hout
  rw [h] at hout
  obtain ⟨nodes, _, hlayout, rfl, hreads, hends, -, -⟩ := hout
  obtain ⟨hext, hstored⟩ := Node.layoutSeq_stored p.arena nodes
  rw [hlayout] at hext hstored
  refine ⟨hreads.consumed, ?_, ?_, hreads.depth, hext, ?_, ?_, ?_, nodes, fun b hb levels hlevels =>
    (hstored.mono hb).unfold_eq hlevels⟩
  · rintro rfl
    exact hends
  · intro c rest hrest
    cases context with
    | topLevel => cases hrest.symm.trans hends
    | argument => exact hends c rest hrest
  · intro r m hr
    obtain ⟨more, hmore⟩ := hext.cells
    exact ⟨hr.extract_eq, (hmore ▸ hr.append more).extract_eq⟩
  · intro r m hr
    obtain ⟨more, hmore⟩ := hext.args
    exact ⟨hr.extract_eq, (hmore ▸ hr.append more).extract_eq⟩
  · intro r m hr
    obtain ⟨more, hmore⟩ := hext.text
    exact ⟨hr.extract_eq, (hmore ▸ hr.append more).extract_eq⟩

/-- An argument with a group, a call and an escaped comma, read with a name in the tables. -/
theorem parseSequence_contract_argument :
    let p : Parser := {
      rest := "a(,)$f(%b%,)\\,)c".toList, pos := 3, arena := { text := "if" }, depth := 1 }
    ∃ cells q, parseSequence {} .argument p = .ok (cells, q) ∧ q.rest = [')', 'c'] ∧ q.depth = 1 ∧
      p.arena.Extends q.arena ∧ q.arena.textOf ⟨0, 2⟩ = "if" := by
  intro p
  have hrest : (parseSequence {} .argument p).toOption.map (·.2.rest) = some [')', 'c'] := by
    decide +kernel
  cases hparse : parseSequence {} .argument p with
  | error e =>
    rw [hparse] at hrest
    cases hrest
  | ok r =>
    obtain ⟨cells, q⟩ := r
    rw [hparse] at hrest
    obtain ⟨-, -, -, hdepth, hext, -, -, htext, -⟩ :=
      (parseSequence_contract.2 {} .argument p).2.2 cells q hparse
    exact ⟨cells, q, rfl, Option.some.inj hrest, hdepth, hext,
      (htext ⟨0, 2⟩ "if" ⟨"", "", rfl, rfl⟩).2⟩

end Descent

end TagTemplate
