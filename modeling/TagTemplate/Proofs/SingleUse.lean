import Mathlib.Data.List.Flatten
import Mathlib.Data.List.Nodup
import TagTemplate.Proofs.EvaluationDepth
import TagTemplate.Proofs.Moves
import TagTemplate.Proofs.OperandRuns
import TagTemplate.Proofs.Preorder
import TagTemplate.Proofs.Similarity
import TagTemplate.Proofs.Watching

/-!
# No node is used twice

`Node.usesSeq` lists the nodes that an evaluation uses, as often as it does: the fields that it
looks up, and the calls whose function it starts. What can be observed of an evaluation is told by
this list: the fields are looked up in its order, and so do functions start that announce it first
of all (`Node.tells_lookups`, `Node.tells_calls`). Any functions can be made to announce their
starts, and nothing else changes; then the starts that are observed are those of the calls in the
list (`Node.calls_map_herald`).

If the functions are frugal, an evaluation uses a node once at most (`Node.nodup_usesSeq`), and the
nodes of a template that was compiled are all different. So what an evaluation does is bounded by
what the template holds (`compileWithin_uses_once`). A lenient evaluation in which all functions are
eager uses every field and every call (`Node.usesSeq_of_eager`).
-/

namespace TagTemplate

namespace Node

variable {ctx : EvalContext}

/-! ## The nodes that are used -/

mutual

/-- The fields that an evaluation of the node looks up and the calls whose functions it starts,
where at most `levels` more calls may stand around each other. -/
def uses (ctx : EvalContext) : Node → Nat → List Node
  | .literal _ _, _ => []
  | .field name span, _ => [.field name span]
  | .call _ _ _, 0 => []
  | .call name args span, levels + 1 =>
    match ctx.registry.resolve name args.length with
    | .error _ => []
    | .ok f => .call name args span ::
      ((f.body args.length).moves fun i => (evalArgs ctx args levels i).result).flatMap
        (Body.Move.brings [] (usesArgs ctx args levels))

/-- `uses` over a sequence, which ends with the first node that fails. -/
def usesSeq (ctx : EvalContext) : List Node → Nat → List Node
  | [], _ => []
  | n :: ns, levels => n.uses ctx levels ++
    match (n.eval ctx levels).result with
    | .ok _ => usesSeq ctx ns levels
    | .error _ => []

/-- `uses` over an operand. -/
def usesArgs (ctx : EvalContext) : List (List Node) → Nat → Nat → List Node
  | [], _, _ => []
  | a :: _, levels, 0 => usesSeq ctx a levels
  | _ :: as, levels, i + 1 => usesArgs ctx as levels i

end

/-- The nodes of an operand are those of its argument. -/
theorem usesArgs_eq (ctx : EvalContext) (args : List (List Node)) (levels i : Nat) :
    usesArgs ctx args levels i =
      match args[i]? with
      | some a => usesSeq ctx a levels
      | none => [] := by
  induction args generalizing i with
  | nil => rfl
  | cons a as ih =>
    cases i with
    | zero => rfl
    | succ i => exact ih i

end Node

/-! ## What is observed of the nodes that are used -/

namespace Run

variable {α β γ : Type}

/-- What follows is observed if the run before it succeeds. -/
theorem events_bind (x : Run α) (f : α → Run β) :
    (x >>= f).events = x.events ++
      match x.result with
      | .ok a => (f a).events
      | .error _ => [] := by
  show (x.bind f).events = _
  obtain ⟨events, result⟩ := x
  cases result with
  | ok a => rfl
  | error e => exact (List.append_nil events).symm

end Run

/-- A field is looked up, and then it may be passed over. -/
theorem EvalContext.events_fieldText (ctx : EvalContext) (name : String) (span : Span) :
    (ctx.fieldText name span).events = [.lookup name] ∨
      (ctx.fieldText name span).events = [.lookup name, .fieldDegraded name] := by
  unfold fieldText
  rw [Run.events_bind]
  cases ctx.record name with
  | none => exact .inl rfl
  | some value =>
    cases htext : value.text? with
    | some text => exact .inl (by simp [htext]; rfl)
    | none =>
      cases hstrict : ctx.options.strict with
      | true => exact .inl (by simp [htext]; rfl)
      | false => exact .inr (by simp [htext]; rfl)

namespace Node

variable {γ : Type}

/-- The observation `see` of an evaluation is told by what `tell` says of the nodes that it uses, as
the relation `R` of lists has it: `see` passes over degradations, a field is told by its lookup, and
a call by the moves of its function. -/
structure Tells (ctx : EvalContext) (see : Event → Option γ) (tell : Node → Option γ)
    (R : List γ → List γ → Prop) : Prop where
  nil : R [] []
  append : ∀ {as bs cs ds}, R as bs → R cs ds → R (as ++ cs) (bs ++ ds)
  callDegraded : ∀ name message, see (.callDegraded name message) = none
  fieldDegraded : ∀ name, see (.fieldDegraded name) = none
  field : ∀ name span,
    R ([Event.lookup name].filterMap see) ([Node.field name span].filterMap tell)
  call : ∀ {name args span f}, ctx.registry.resolve name args.length = .ok f →
    ∀ answer {us vs : Nat → List γ}, (∀ i, R (us i) (vs i)) →
      R (((f.body args.length).moves answer).flatMap
          (Body.Move.brings ([Event.call f.name args.length].filterMap see) us))
        ([Node.call name args span].filterMap tell ++
          ((f.body args.length).moves answer).flatMap (Body.Move.brings [] vs))

variable {ctx : EvalContext} {see : Event → Option γ} {tell : Node → Option γ}
  {R : List γ → List γ → Prop} (h : Tells ctx see tell R)
include h

/-- Passing a call over is not observed. -/
theorem Tells.callText (name : String) (x : Run String) :
    (ctx.callText name x).events.filterMap see = x.events.filterMap see := by
  unfold EvalContext.callText
  split
  · rfl
  · split
    · rfl
    · rw [List.filterMap_append, List.filterMap_cons_none (h.callDegraded _ _),
        List.filterMap_nil, List.append_nil]

/-- Of a field its lookup is observed. -/
theorem Tells.fieldText (name : String) (span : Span) :
    (ctx.fieldText name span).events.filterMap see = [Event.lookup name].filterMap see := by
  rcases ctx.events_fieldText name span with hevents | hevents
  · rw [hevents]
  · rw [hevents, ← List.singleton_append, List.filterMap_append,
      List.filterMap_cons_none (h.fieldDegraded name), List.filterMap_nil, List.append_nil]

/-- A call is told if its operands are. -/
theorem Tells.eval_call {name : String} {args : List (List Node)} (span : Span)
    (hargs : ∀ a ∈ args, ∀ levels, R ((Node.evalSeq ctx a levels).events.filterMap see)
      ((usesSeq ctx a levels).filterMap tell)) (levels : Nat) :
    R (((Node.call name args span).eval ctx levels).events.filterMap see)
      (((Node.call name args span).uses ctx levels).filterMap tell) := by
  rw [Node.eval_call, h.callText]
  cases levels with
  | zero => exact h.nil
  | succ levels =>
    show R ((ctx.dispatch name span args.length (evalArgs ctx args levels)).events.filterMap see) _
    rw [EvalContext.dispatch, uses]
    cases hf : ctx.registry.resolve name args.length with
    | error anomaly => exact h.nil
    | ok f =>
      have hoperand : ∀ i, R ((evalArgs ctx args levels i).events.filterMap see)
          ((usesArgs ctx args levels i).filterMap tell) := by
        intro i
        rw [evalArgs_eq, usesArgs_eq]
        cases ha : args[i]? with
        | none => exact h.nil
        | some a => exact hargs a (List.mem_of_getElem? ha) levels
      -- the moves of the body bring the events on the one side, the nodes on the other
      have hcall := @h.call name args span f hf (fun i => (evalArgs ctx args levels i).result) _ _
        hoperand
      refine Eq.mp (congrArg₂ R ?_ ?_) hcall
      · show _ = (Run.ofBody (evalArgs ctx args levels) (.call f.name args.length)
          (f.body args.length)).events.filterMap see
        rw [Run.events_ofBody, Body.Move.filterMap_flatMap_brings]
      · have hbrings := Body.Move.filterMap_flatMap_brings tell [] (usesArgs ctx args levels)
          ((f.body args.length).moves fun i => (evalArgs ctx args levels i).result)
        rw [List.filterMap_nil] at hbrings
        rw [← hbrings, ← List.filterMap_append]
        rfl

/-- A sequence is told if its first node is and the rest is. -/
theorem Tells.evalSeq_cons {n : Node} {ns : List Node} {levels : Nat}
    (hn : R ((n.eval ctx levels).events.filterMap see) ((n.uses ctx levels).filterMap tell))
    (hns : R ((Node.evalSeq ctx ns levels).events.filterMap see)
      ((usesSeq ctx ns levels).filterMap tell)) :
    R ((Node.evalSeq ctx (n :: ns) levels).events.filterMap see)
      ((usesSeq ctx (n :: ns) levels).filterMap tell) := by
  rw [Node.evalSeq, usesSeq, Run.events_bind, List.filterMap_append, List.filterMap_append]
  refine h.append hn ?_
  cases (n.eval ctx levels).result with
  | error e => exact h.nil
  | ok text =>
    dsimp only
    rw [Run.events_bind]
    cases (Node.evalSeq ctx ns levels).result with
    | error e => rwa [List.append_nil]
    | ok rest =>
      show R ((_ ++ []).filterMap see) _
      rwa [List.append_nil]

/-- An evaluation is told by the nodes it uses. -/
theorem Tells.evalSeq (ns : List Node) (levels : Nat) :
    R ((Node.evalSeq ctx ns levels).events.filterMap see)
      ((usesSeq ctx ns levels).filterMap tell) := by
  induction ns using seqInduction generalizing levels with
  | nil => exact h.nil
  | literal text span ns ih => exact h.evalSeq_cons h.nil (ih levels)
  | field name span ns ih =>
    refine h.evalSeq_cons ?_ (ih levels)
    rw [Node.eval, h.fieldText, uses]
    exact h.field name span
  | call name args span ns iha ih =>
    exact h.evalSeq_cons (h.eval_call span iha levels) (ih levels)

omit h

/-! ## Lookups and calls -/

/-- The name of a field. -/
def fieldName? : Node → Option String
  | .field name _ => some name
  | _ => none

/-- What a call announces if its function does: the name of the function, which has the name of the
call in the registry, and the number of operands. -/
def started? (r : Registry) : Node → Option (String × Nat)
  | .call name args _ => (r.get? name).map fun f => (f.name, args.length)
  | _ => none

end Node

/-- What is looked up. -/
def Event.field? : Event → Option String
  | .lookup field => some field
  | _ => none

/-- What is announced. -/
def Event.started? : Event → Option (String × Nat)
  | .call function count => some (function, count)
  | _ => none

/-- The lookups are read off the events. -/
theorem Run.lookups_eq {α : Type} (x : Run α) : x.lookups = x.events.filterMap Event.field? := rfl

/-- The calls are read off the events. -/
theorem Run.calls_eq {α : Type} (x : Run α) : x.calls = x.events.filterMap Event.started? := rfl

namespace Node

variable {ctx : EvalContext}

/-- The fields that an evaluation uses are those that it looks up. -/
theorem tells_lookups (ctx : EvalContext) : Tells ctx Event.field? fieldName? Eq where
  nil := rfl
  append h h' := h ▸ h' ▸ rfl
  callDegraded _ _ := rfl
  fieldDegraded _ := rfl
  field _ _ := rfl
  call _ _ us vs h := by
    obtain rfl := funext h
    rfl

/-- A call of a function of the registry announces it. -/
theorem filterMap_started?_of_resolve {r : Registry} {name : String} {args : List (List Node)}
    {f : Function} (hf : r.resolve name args.length = .ok f) (span : Span) :
    [Node.call name args span].filterMap (started? r) = [(f.name, args.length)] := by
  simp [started?, Registry.get?_of_resolve hf]

/-- The calls that an evaluation uses are those whose function announces its start, if all functions
do so first of all and not again. -/
theorem tells_calls (hreg : ctx.registry.All Function.Heralded) :
    Tells ctx Event.started? (started? ctx.registry) Eq where
  nil := rfl
  append h h' := h ▸ h' ▸ rfl
  callDegraded _ _ := rfl
  fieldDegraded _ := rfl
  field _ _ := rfl
  call {name args span f} hf answer us vs h := by
    obtain rfl := funext h
    obtain ⟨l, hl, hannounce⟩ := hreg name f (Registry.get?_of_resolve hf) args.length answer
    rw [hl, filterMap_started?_of_resolve hf span, List.flatMap_cons, List.flatMap_cons]
    exact congrArg ([(f.name, args.length)] ++ ·) (Body.Move.flatMap_brings_congr hannounce _ _ us)

/-- Frugal functions announce no more starts than there are calls that an evaluation uses. -/
theorem tells_calls_of_frugal (hreg : ctx.registry.All Function.Frugal) :
    Tells ctx Event.started? (started? ctx.registry) List.Subperm where
  nil := .refl _
  append := .append
  callDegraded _ _ := rfl
  fieldDegraded _ := rfl
  field _ _ := .refl _
  call {name args span f} hf answer us vs h := by
    obtain ⟨l, hl, hfollows⟩ := hreg name f (Registry.get?_of_resolve hf) args.length
    rw [filterMap_started?_of_resolve hf span]
    exact Body.Move.subperm_flatMap_brings (hl.sublist (hfollows answer)) _ h

end Node

/-! ## Making functions announce themselves -/

/-- Without its announcements a body brings the same of its operands. -/
theorem Body.Move.flatMap_brings_mute {α γ : Type} (x : Body α)
    (answer : Nat → Except EvalError String) (us : Nat → List γ) :
    (x.mute.moves answer).flatMap (brings [] us) = (x.moves answer).flatMap (brings [] us) := by
  induction x with
  | done result => rfl
  | request i next ih => exact congrArg (us i ++ ·) (ih (answer i))
  | announce next ih => exact ih

namespace Node

/-- Trees come to what they came to before if all functions announce their starts, and what happens
is the same but for the announcements. -/
theorem evalSeq_map_herald (ctx : EvalContext) (ns : List Node) (levels : Nat) :
    let x := evalSeq ctx ns levels
    let y := evalSeq { ctx with registry := ctx.registry.map .herald } ns levels
    y.result = x.result ∧ y.events.filter (!·.isStart) = x.events.filter (!·.isStart) := by
  obtain ⟨cells, hcells, hstored⟩ := Template.stored_ofNodes ns
  have h := Registry.evalSeq_map_herald ctx (Template.ofNodes ns).toArena levels
    (Template.ofNodes ns).root
  rwa [Arena.evalSeq_eq hcells hstored, Arena.evalSeq_eq hcells hstored] at h

/-- Functions that announce themselves give a node the text it has. -/
theorem result_eval_map_herald (ctx : EvalContext) (n : Node) (levels : Nat) :
    (n.eval { ctx with registry := ctx.registry.map .herald } levels).result =
      (n.eval ctx levels).result := by
  have hsingle : ∀ ctx : EvalContext, evalSeq ctx [n] levels = n.eval ctx levels := by
    intro ctx
    rw [evalSeq, evalSeq]
    simp only [pure_bind, String.append_empty, bind_pure]
  rw [← hsingle, ← hsingle]
  exact (evalSeq_map_herald ctx [n] levels).1

/-- Functions that announce themselves give an operand the text it has. -/
theorem result_evalArgs_map_herald (ctx : EvalContext) (args : List (List Node)) (levels i : Nat) :
    (evalArgs { ctx with registry := ctx.registry.map .herald } args levels i).result =
      (evalArgs ctx args levels i).result := by
  rw [evalArgs_eq, evalArgs_eq]
  split
  · exact (evalSeq_map_herald ctx _ levels).1
  · rfl

/-- An evaluation uses the same nodes if all functions announce their starts. -/
theorem usesSeq_map_herald (ctx : EvalContext) (ns : List Node) (levels : Nat) :
    usesSeq { ctx with registry := ctx.registry.map .herald } ns levels =
      usesSeq ctx ns levels := by
  have hcons : ∀ {n : Node} {ns : List Node} {levels : Nat},
      n.uses { ctx with registry := ctx.registry.map .herald } levels = n.uses ctx levels →
      usesSeq { ctx with registry := ctx.registry.map .herald } ns levels = usesSeq ctx ns levels →
      usesSeq { ctx with registry := ctx.registry.map .herald } (n :: ns) levels =
        usesSeq ctx (n :: ns) levels := by
    intro n ns levels hn hns
    rw [usesSeq, usesSeq, hn, hns, result_eval_map_herald]
  induction ns using seqInduction generalizing levels with
  | nil => rfl
  | literal text span ns ih => exact hcons rfl (ih levels)
  | field name span ns ih => exact hcons rfl (ih levels)
  | call name args span ns iha ih =>
    refine hcons ?_ (ih levels)
    cases levels with
    | zero => rfl
    | succ levels =>
      have huses : usesArgs { ctx with registry := ctx.registry.map .herald } args levels =
          usesArgs ctx args levels := by
        funext i
        rw [usesArgs_eq, usesArgs_eq]
        split
        · next a ha => exact iha a (List.mem_of_getElem? ha) levels
        · rfl
      rw [uses, uses, huses, Registry.resolve_map_herald]
      simp only [result_evalArgs_map_herald]
      cases ctx.registry.resolve name args.length with
      | error anomaly => rfl
      | ok f => exact congrArg (call name args span :: ·) (Body.Move.flatMap_brings_mute _ _ _)

/-- Announcements have the names of the functions, also where these were made to announce. -/
theorem started?_map_herald (r : Registry) : started? (r.map .herald) = started? r := by
  funext n
  cases n with
  | literal | field => rfl
  | call name args span =>
    rw [started?, started?, Registry.get?_map, Option.map_map]
    rfl

/-- The same fields are looked up if all functions announce their starts. -/
theorem lookups_map_herald (ctx : EvalContext) (ns : List Node) (levels : Nat) :
    (evalSeq { ctx with registry := ctx.registry.map .herald } ns levels).lookups =
      (evalSeq ctx ns levels).lookups := by
  rw [Run.lookups_eq, Run.lookups_eq, (tells_lookups _).evalSeq, (tells_lookups ctx).evalSeq,
    usesSeq_map_herald]

/-- If all functions are made to announce their starts, those of the calls that an evaluation uses
are observed, and no others. -/
theorem calls_map_herald (ctx : EvalContext) (ns : List Node) (levels : Nat) :
    (evalSeq { ctx with registry := ctx.registry.map .herald } ns levels).calls =
      (usesSeq ctx ns levels).filterMap (started? ctx.registry) := by
  rw [Run.calls_eq, ← usesSeq_map_herald, ← started?_map_herald]
  exact (tells_calls ctx.registry.heralded_map_herald).evalSeq ns levels

end Node

/-! ## Uses and the tree -/

namespace Node

variable {ctx : EvalContext}

/-- What is used of a sequence is used of its first node or of the rest. -/
theorem mem_usesSeq_cons {n m : Node} {ns : List Node} {levels : Nat}
    (h : m ∈ usesSeq ctx (n :: ns) levels) :
    m ∈ n.uses ctx levels ∨ m ∈ usesSeq ctx ns levels := by
  rw [usesSeq] at h
  refine (List.mem_append.1 h).imp_right fun h => ?_
  split at h
  · exact h
  · cases h

/-- What moves bring of the operands is what some operand uses. -/
theorem mem_flatMap_usesArgs {args : List (List Node)} {levels : Nat} {moves : List Body.Move}
    {m : Node} (h : m ∈ moves.flatMap (Body.Move.brings [] (usesArgs ctx args levels))) :
    ∃ (i : Nat) (a : List Node), args[i]? = some a ∧ m ∈ usesSeq ctx a levels := by
  obtain ⟨move, -, h⟩ := List.mem_flatMap.1 h
  cases move with
  | announce => cases h
  | ask i =>
    rw [Body.Move.brings, usesArgs_eq] at h
    split at h
    · next a ha => exact ⟨i, a, ha, h⟩
    · cases h

/-- A call uses itself and what its operands use. -/
theorem mem_uses_call {name : String} {args : List (List Node)} {span : Span} {m : Node}
    {levels : Nat} (h : m ∈ (call name args span).uses ctx levels) :
    m = call name args span ∨ ∃ a ∈ args, ∃ levels, m ∈ usesSeq ctx a levels := by
  cases levels with
  | zero => cases h
  | succ levels =>
    rw [uses] at h
    split at h
    · cases h
    · refine (List.mem_cons.1 h).imp_right fun h => ?_
      obtain ⟨i, a, ha, h⟩ := mem_flatMap_usesArgs h
      exact ⟨a, List.mem_of_getElem? ha, levels, h⟩

/-- An evaluation uses nodes of the tree only. -/
theorem usesSeq_subset (ns : List Node) (levels : Nat) :
    usesSeq ctx ns levels ⊆ preorderSeq ns := by
  induction ns using seqInduction generalizing levels with
  | nil => exact List.Subset.refl _
  | literal text span ns ih =>
    intro m hm
    rcases mem_usesSeq_cons hm with hm | hm
    · cases hm
    · exact List.mem_append_right _ (ih levels hm)
  | field name span ns ih =>
    intro m hm
    rcases mem_usesSeq_cons hm with hm | hm
    · exact List.mem_append_left _ hm
    · exact List.mem_append_right _ (ih levels hm)
  | call name args span ns iha ih =>
    intro m hm
    rcases mem_usesSeq_cons hm with hm | hm
    · refine List.mem_append_left _ ?_
      rcases mem_uses_call hm with rfl | ⟨a, ha, levels, hm⟩
      · exact List.mem_cons_self
      · exact List.mem_cons_of_mem _ (mem_preorderArgs ha (iha a ha levels hm))
    · exact List.mem_append_right _ (ih levels hm)

/-- Only nodes in a node are used of it. -/
theorem uses_subset (n : Node) (levels : Nat) : n.uses ctx levels ⊆ n.preorder := by
  intro m hm
  have h : m ∈ preorderSeq [n] := usesSeq_subset [n] levels (List.mem_append_left _ hm)
  rwa [preorderSeq, preorderSeq, List.append_nil] at h

/-- What an operand uses stands in its argument. -/
theorem mem_argument_of_mem_usesArgs {args : List (List Node)} {levels i : Nat} {m : Node}
    (h : m ∈ usesArgs ctx args levels i) : ∃ a, args[i]? = some a ∧ m ∈ preorderSeq a := by
  rw [usesArgs_eq] at h
  split at h
  · next a ha => exact ⟨a, ha, usesSeq_subset a levels h⟩
  · cases h

/-- If the nodes of the arguments are all different, a node stands in one of them only. -/
theorem index_eq_of_mem_preorderSeq {args : List (List Node)}
    (hargs : args.Pairwise (Function.onFun List.Disjoint preorderSeq)) {i j : Nat}
    {a b : List Node} (ha : args[i]? = some a) (hb : args[j]? = some b) {m : Node}
    (hma : m ∈ preorderSeq a) (hmb : m ∈ preorderSeq b) : i = j := by
  obtain ⟨hi, rfl⟩ := List.getElem?_eq_some_iff.1 ha
  obtain ⟨hj, rfl⟩ := List.getElem?_eq_some_iff.1 hb
  have hdisjoint := List.pairwise_iff_getElem.1 hargs
  rcases Nat.lt_trichotomy i j with hlt | heq | hlt
  · exact absurd hmb (hdisjoint i j hi hj hlt hma)
  · exact heq
  · exact absurd hma (hdisjoint j i hj hi hlt hmb)

/-- Moves that are all different bring different nodes if the nodes of the arguments are. -/
theorem nodup_flatMap_usesArgs {args : List (List Node)} {levels : Nat} {moves : List Body.Move}
    (hmoves : moves.Nodup) (hargs : (preorderArgs args).Nodup)
    (hseq : ∀ a ∈ args, (preorderSeq a).Nodup → (usesSeq ctx a levels).Nodup) :
    (moves.flatMap (Body.Move.brings [] (usesArgs ctx args levels))).Nodup := by
  rw [preorderArgs_eq_flatMap, List.nodup_flatMap] at hargs
  obtain ⟨heach, hpair⟩ := hargs
  refine List.nodup_flatMap.2 ⟨fun move _ => ?_, hmoves.imp fun {move move'} hne m hm hm' => ?_⟩
  · cases move with
    | announce => exact .nil
    | ask i =>
      rw [Body.Move.brings, usesArgs_eq]
      split
      · next a ha =>
        have hmem := List.mem_of_getElem? ha
        exact hseq a hmem (heach a hmem)
      · exact .nil
  · cases move with
    | announce => cases hm
    | ask i =>
      cases move' with
      | announce => cases hm'
      | ask j =>
        obtain ⟨a, ha, hma⟩ := mem_argument_of_mem_usesArgs hm
        obtain ⟨b, hb, hmb⟩ := mem_argument_of_mem_usesArgs hm'
        exact hne (congrArg Body.Move.ask (index_eq_of_mem_preorderSeq hpair ha hb hma hmb))

/-- A sequence uses different nodes if its first node does and the rest does. -/
theorem nodup_usesSeq_cons {n : Node} {ns : List Node} {levels : Nat}
    (hn : (n.uses ctx levels).Nodup) (hns : (usesSeq ctx ns levels).Nodup)
    (hdisjoint : (n.uses ctx levels).Disjoint (usesSeq ctx ns levels)) :
    (usesSeq ctx (n :: ns) levels).Nodup := by
  rw [usesSeq]
  split
  · exact hn.append hns hdisjoint
  · rwa [List.append_nil]

/-- If all functions are frugal and the nodes of the tree are all different, an evaluation uses none
of them twice. -/
theorem nodup_usesSeq (hreg : ctx.registry.All Function.Frugal) {ns : List Node}
    (h : (preorderSeq ns).Nodup) (levels : Nat) : (usesSeq ctx ns levels).Nodup := by
  induction ns using seqInduction generalizing levels with
  | nil => exact .nil
  | literal text span ns ih =>
    exact nodup_usesSeq_cons .nil (ih (List.nodup_append.1 h).2.1 levels) (List.disjoint_nil_left _)
  | field name span ns ih =>
    obtain ⟨hn, hns, hdisjoint⟩ := List.nodup_append'.1 h
    refine nodup_usesSeq_cons hn (ih hns levels) fun m hm hm' => ?_
    exact hdisjoint hm (usesSeq_subset ns levels hm')
  | call name args span ns iha ih =>
    obtain ⟨hn, hns, hdisjoint⟩ := List.nodup_append'.1 h
    obtain ⟨hself, hargs⟩ := List.nodup_cons.1 hn
    -- other nodes stand behind a call than in it, so it is enough to look at the call
    refine nodup_usesSeq_cons ?_ (ih hns levels) fun m hm hm' =>
      hdisjoint (uses_subset _ levels hm) (usesSeq_subset ns levels hm')
    cases levels with
    | zero => exact .nil
    | succ levels =>
      rw [uses]
      split
      · exact .nil
      · next f hf =>
        obtain ⟨l, hl, hfollows⟩ := hreg name f (Registry.get?_of_resolve hf) args.length
        refine List.nodup_cons.2 ⟨fun hmem => hself ?_, nodup_flatMap_usesArgs
          (hl.sublist (hfollows _)) hargs fun a ha hnodup => iha a ha hnodup levels⟩
        obtain ⟨i, a, ha, hmem⟩ := mem_flatMap_usesArgs hmem
        exact mem_preorderArgs (List.mem_of_getElem? ha) (usesSeq_subset a levels hmem)

/-! ## Eager functions -/

/-- The node is a field or a call. -/
def isTag : Node → Bool
  | .literal _ _ => false
  | .field _ _ | .call _ _ _ => true

/-- A lenient evaluation goes through a whole sequence. -/
theorem usesSeq_cons_of_lenient (hlenient : ctx.options.strict = false) (n : Node) (ns : List Node)
    (levels : Nat) : usesSeq ctx (n :: ns) levels = n.uses ctx levels ++ usesSeq ctx ns levels := by
  rw [usesSeq]
  cases hn : (n.eval ctx levels).result with
  | ok text => rfl
  | error e =>
    obtain ⟨hstrict, -⟩ := settled_eval n levels e hn
    rw [hlenient] at hstrict
    cases hstrict

/-- Requests for all operands of a call bring what the arguments use, in order. -/
theorem flatMap_asksFrom {args : List (List Node)} {levels i : Nat} {us : Nat → List Node}
    (h : ∀ j, us (i + j) = usesArgs ctx args levels j) :
    (Body.asksFrom i args.length).flatMap (Body.Move.brings [] us) =
      args.flatMap fun a => usesSeq ctx a levels := by
  induction args generalizing i with
  | nil => rfl
  | cons a as ih =>
    have has : ∀ j, us (i + 1 + j) = usesArgs ctx as levels j := fun j => by
      rw [Nat.add_assoc, Nat.add_comm 1 j]
      exact h (j + 1)
    rw [List.length_cons, Body.asksFrom_succ, List.flatMap_append, List.flatMap_singleton, ih has,
      List.flatMap_cons]
    exact congrArg (· ++ _) (h 0)

/-- A call of an eager function uses itself and all that its arguments use. -/
theorem uses_of_eager (hlenient : ctx.options.strict = false) {name : String}
    {args : List (List Node)} {f : Function}
    (hf : ctx.registry.resolve name args.length = .ok f) (heager : f.Eager) (span : Span)
    (levels : Nat) : (call name args span).uses ctx (levels + 1) =
      call name args span :: args.flatMap fun a => usesSeq ctx a levels := by
  obtain ⟨l, hmoves, hask⟩ := heager.moves (evalArgs_succeeds hlenient args levels) args.length
  have hl : l.flatMap (Body.Move.brings [] (usesArgs ctx args levels)) = [] := by
    refine List.flatMap_eq_nil_iff.2 fun move hmove => ?_
    cases move with
    | ask i => exact absurd hmove (hask i)
    | announce => rfl
  rw [uses, hf]
  dsimp only
  rw [hmoves, List.flatMap_append, hl, List.append_nil]
  exact congrArg (call name args span :: ·) (flatMap_asksFrom fun j => by rw [Nat.zero_add])

/-- If all functions of the calls in a tree are eager and the limit admits them, a lenient
evaluation uses all fields and calls, each once and in their order. -/
theorem usesSeq_of_eager (hlenient : ctx.options.strict = false) {ns : List Node}
    (hcalls : ∀ name args span, call name args span ∈ preorderSeq ns →
      ∃ f, ctx.registry.resolve name args.length = .ok f ∧ f.Eager) {levels : Nat}
    (hlevels : depthSeq ns ≤ levels) : usesSeq ctx ns levels = (preorderSeq ns).filter isTag := by
  induction ns using seqInduction generalizing levels with
  | nil => rfl
  | literal text span ns ih | field name span ns ih =>
    rw [usesSeq_cons_of_lenient hlenient, preorderSeq, List.filter_append,
      ih (fun name args span h => hcalls name args span (List.mem_append_right _ h))
        (Nat.max_le.1 hlevels).2]
    rfl
  | call name args span ns iha ih =>
    obtain ⟨hargs, hns⟩ := depthSeq_call_cons_le hlevels
    obtain ⟨k, rfl⟩ := Nat.exists_eq_add_one.2 (Nat.zero_lt_of_lt hargs)
    obtain ⟨f, hf, heager⟩ := hcalls name args span (List.mem_append_left _ List.mem_cons_self)
    have hrest := ih (fun name args span h => hcalls name args span (List.mem_append_right _ h)) hns
    have hinner : args.flatMap (fun a => usesSeq ctx a k) = (preorderArgs args).filter isTag := by
      rw [preorderArgs_eq_flatMap, List.filter_flatMap]
      refine List.flatMap_congr fun a ha => iha a ha (fun name args span h => ?_)
        ((depthArgs_le_iff args k).1 (Nat.le_of_lt_succ hargs) a ha)
      refine hcalls name args span (List.mem_append_left _ (List.mem_cons_of_mem _ ?_))
      exact mem_preorderArgs ha h
    rw [usesSeq_cons_of_lenient hlenient, uses_of_eager hlenient hf heager, hinner, hrest,
      preorderSeq, List.filter_append, preorder]
    rfl

/-- Literals have no part in the names of fields. -/
theorem filterMap_fieldName?_filter (ns : List Node) :
    (ns.filter isTag).filterMap fieldName? = ns.filterMap fieldName? := by
  rw [List.filterMap_filter]
  congr 1
  funext n
  cases n <;> rfl

end Node

/-- A part of a list, in another order, has parts of the same kind. -/
theorem subperm_filterMap {α β : Type} {as bs : List α} (f : α → Option β) (h : as.Subperm bs) :
    (as.filterMap f).Subperm (bs.filterMap f) := by
  obtain ⟨cs, hperm, hsublist⟩ := h
  exact ⟨cs.filterMap f, hperm.filterMap f, hsublist.filterMap f⟩

/-- No part of a template is evaluated twice. The nodes of a template that was compiled begin at
different places, and `usesSeq` lists those that an evaluation uses: the fields it looks up, and the
calls whose function it starts. Both are observed: the lookups are those of the fields, and if all
functions are made to announce their starts, which changes nothing else, the starts are those of the
calls. If all functions are builtin, eager or have typed parameters, no node is used twice; a field
name is looked up at most as often as fields have it; and there are at most as many lookups, starts
and calls as the template has nodes. If moreover all calls reach eager functions and the limit
admits them, a lenient evaluation looks up all fields, in their order. -/
theorem compileWithin_uses_once {limits : Reader.Limits} {source : String} {t : Template}
    (h : compileWithin limits source = .ok t) (ctx : EvalContext) :
    let nodes := Node.preorderSeq t.toNodes
    let used := Node.usesSeq ctx t.toNodes ctx.options.maxDepth
    let x := t.evaluate ctx
    let heralded := t.evaluate { ctx with registry := ctx.registry.map .herald }
    (nodes.Pairwise (fun m n => m.span.start < n.span.start) ∧ nodes.length = t.nodeCount) ∧
    (x.lookups = used.filterMap Node.fieldName? ∧
      (ctx.registry.All Function.Heralded →
        x.calls = used.filterMap (Node.started? ctx.registry)) ∧
      (heralded.result = x.result ∧ heralded.lookups = x.lookups ∧
        heralded.calls = used.filterMap (Node.started? ctx.registry))) ∧
    (ctx.registry.All Function.Standard →
      (used.Nodup ∧ used ⊆ nodes) ∧
      (∀ name, x.lookups.count name ≤ (nodes.filterMap Node.fieldName?).count name) ∧
      x.calls.Subperm (used.filterMap (Node.started? ctx.registry)) ∧
      used.length ≤ t.nodeCount ∧ x.lookups.length ≤ t.nodeCount ∧
      x.calls.length ≤ t.nodeCount ∧ heralded.calls.length ≤ t.nodeCount) ∧
    (ctx.options.strict = false → t.depth ≤ ctx.options.maxDepth →
      (∀ name args span, Node.call name args span ∈ nodes →
        ∃ f, ctx.registry.resolve name args.length = .ok f ∧ f.Eager) →
      used = nodes.filter Node.isTag ∧ x.lookups = nodes.filterMap Node.fieldName?) := by
  intro nodes used x heralded
  have hx : x = Node.evalSeq ctx t.toNodes ctx.options.maxDepth :=
    Template.evaluate_of_compileWithin h ctx
  have hlookups : x.lookups = used.filterMap Node.fieldName? := by
    rw [hx, Run.lookups_eq]
    exact (Node.tells_lookups ctx).evalSeq t.toNodes _
  have hheralded : heralded = Node.evalSeq { ctx with registry := ctx.registry.map .herald }
      t.toNodes ctx.options.maxDepth := Template.evaluate_of_compileWithin h _
  have hheralds : heralded.calls = used.filterMap (Node.started? ctx.registry) := by
    rw [hheralded]
    exact Node.calls_map_herald ctx t.toNodes _
  obtain ⟨hsorted, hcount⟩ := preorder_of_compileWithin h
  refine ⟨⟨hsorted, hcount⟩, ⟨hlookups, fun hreg => ?_, ?_⟩, fun hreg => ?_,
    fun hlenient hdepth hcalls => ?_⟩
  · rw [hx, Run.calls_eq]
    exact (Node.tells_calls hreg).evalSeq t.toNodes _
  · rw [hx, hheralded]
    exact ⟨(Node.evalSeq_map_herald ctx t.toNodes _).1, Node.lookups_map_herald ctx t.toNodes _,
      Node.calls_map_herald ctx t.toNodes _⟩
  · have hfrugal : ctx.registry.All Function.Frugal := fun name f hf => (hreg name f hf).frugal
    have hnodup : used.Nodup := Node.nodup_usesSeq hfrugal (Node.nodup_of_sorted hsorted) _
    have hsubset : used ⊆ nodes := Node.usesSeq_subset t.toNodes _
    have hsubperm : used.Subperm nodes := hnodup.subperm hsubset
    have hused : used.length ≤ t.nodeCount := hcount ▸ hsubperm.length_le
    have hstarts : x.calls.Subperm (used.filterMap (Node.started? ctx.registry)) := by
      rw [hx, Run.calls_eq]
      exact (Node.tells_calls_of_frugal hfrugal).evalSeq t.toNodes _
    have hlength : (used.filterMap (Node.started? ctx.registry)).length ≤ t.nodeCount :=
      Nat.le_trans (List.length_filterMap_le ..) hused
    refine ⟨⟨hnodup, hsubset⟩, fun name => ?_, hstarts, hused, ?_, ?_, ?_⟩
    · rw [hlookups]
      exact (subperm_filterMap Node.fieldName? hsubperm).count_le name
    · rw [hlookups]
      exact Nat.le_trans (List.length_filterMap_le ..) hused
    · exact Nat.le_trans hstarts.length_le hlength
    · rw [hheralds]
      exact hlength
  · have hall : used = nodes.filter Node.isTag := by
      refine Node.usesSeq_of_eager hlenient hcalls ?_
      obtain ⟨ps, -, rfl⟩ := (compileWithin_eq_ok_iff limits source t).1 h
      rwa [Template.toNodes_ofNodes, ← Template.depth_ofNodes]
    exact ⟨hall, by rw [hlookups, hall, Node.filterMap_fieldName?_filter]⟩

/-- A branch that is not selected, a field that stands twice, and eager functions alone. -/
theorem compileWithin_uses_once_fields :
    let ctx : EvalContext := {
      record := fun name => if name = "a" then some (.text "1") else none
      registry := Registry.builtins.registerAll
        [.joining "j" (.atLeast 1) "-", .typed "pair" [.text, .text] fun s t => .ok (s ++ t)] }
    ctx.registry.All Function.Standard ∧
      (∃ t, compile "$if(%a%,$pair(%a%,$j(%b%)),%c%)" = .ok t ∧ t.nodeCount = 7 ∧
        (t.evaluate ctx).lookups = ["a", "a", "b"] ∧ (t.evaluate ctx).calls = [("j", 1)] ∧
        (Node.usesSeq ctx t.toNodes 64).Nodup ∧ (t.evaluate ctx).lookups.length ≤ t.nodeCount ∧
        (t.evaluate { ctx with registry := ctx.registry.map .herald }).calls =
          [("if", 3), ("pair", 2), ("j", 1)]) ∧
      ∃ t, compile "%c%$j(%a%,x$j(%b%))" = .ok t ∧ (t.evaluate ctx).lookups = ["c", "a", "b"] := by
  intro ctx
  have hreg : ctx.registry.All Function.Standard := by
    refine (Registry.all_empty.registerAll fun _ => .builtin).registerAll fun f hf => ?_
    simp only [List.mem_cons, List.not_mem_nil, or_false] at hf
    rcases hf with rfl | rfl
    · exact .eager (.announced _ _ _)
    · exact .typed _ _ _
  refine ⟨hreg, ?_, ?_⟩
  · let ps : List Piece :=
      [.call "if" [[.field "a"], [.call "pair" [[.field "a"], [.call "j" [[.field "b"]]]]],
        [.field "c"]]]
    have ht := (compileWithin_eq_ok_iff {} "$if(%a%,$pair(%a%,$j(%b%)),%c%)" _).2
      ⟨ps, ⟨⟨by decide, by decide⟩, by decide, ⟨by decide, by decide, by decide⟩⟩, rfl⟩
    obtain ⟨-, ⟨-, -, -, -, hheralds⟩, hstandard, -⟩ := compileWithin_uses_once ht ctx
    obtain ⟨⟨hnodup, -⟩, -, -, -, hlookups, -⟩ := hstandard hreg
    have hrun := Template.evaluate_of_compileWithin ht ctx
    rw [Template.toNodes_ofNodes] at hrun hheralds
    refine ⟨_, ht, ?_, ?_, ?_, hnodup, hlookups, hheralds.trans ?_⟩
    · rw [Template.nodeCount_ofNodes]
      decide
    · rw [hrun]
      decide
    · rw [hrun]
      decide
    · decide
  · let ps : List Piece :=
      [.field "c", .call "j" [[.field "a"], [.plain 'x', .call "j" [[.field "b"]]]]]
    have ht := (compileWithin_eq_ok_iff {} "%c%$j(%a%,x$j(%b%))" _).2
      ⟨ps, ⟨⟨by decide, by decide⟩, by decide, ⟨by decide, by decide, by decide⟩⟩, rfl⟩
    have hj : ctx.registry.get? "j" = some (.joining "j" (.atLeast 1) "-") :=
      (Registry.get?_register ..).trans ((Registry.get?_register ..).trans (if_pos rfl))
    obtain ⟨-, -, -, heager⟩ := compileWithin_uses_once ht ctx
    rw [Template.toNodes_ofNodes, Template.depth_ofNodes] at heager
    obtain ⟨-, hlookups⟩ := heager rfl (by decide) fun name args span hn => by
      have hcall : name = "j" ∧ 1 ≤ args.length := by
        have hnodes : Node.preorderSeq (Piece.nodes 0 ps) =
            [.field "c" ⟨0, 3⟩,
              .call "j" [[.field "a" ⟨6, 9⟩],
                [.literal "x" ⟨10, 11⟩, .call "j" [[.field "b" ⟨14, 17⟩]] ⟨11, 18⟩]] ⟨3, 19⟩,
              .field "a" ⟨6, 9⟩, .literal "x" ⟨10, 11⟩,
              .call "j" [[.field "b" ⟨14, 17⟩]] ⟨11, 18⟩, .field "b" ⟨14, 17⟩] := rfl
        rw [hnodes] at hn
        simp only [List.mem_cons, List.not_mem_nil, or_false] at hn
        rcases hn with hn | hn | hn | hn | hn | hn <;> cases hn <;> decide
      obtain ⟨rfl, hargs⟩ := hcall
      refine ⟨.joining "j" (.atLeast 1) "-", ?_, .announced _ _ _⟩
      rw [Registry.resolve, hj]
      exact if_pos (decide_eq_true hargs)
    exact ⟨_, ht, hlookups⟩

end TagTemplate
