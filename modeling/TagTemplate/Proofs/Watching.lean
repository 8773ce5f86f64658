import TagTemplate.Proofs.Agreement
import TagTemplate.Proofs.Moves

/-!
# Watching functions start

Which functions start in an evaluation is seen if one of them announces itself first of all and no
other ever does. Muting functions and letting one be heralded changes nothing else: registries whose
functions act alike, apart from announcements, evaluate every template alike
(`Registry.Alike.matches_evaluate`). And an announcement is made only in a call that reaches a
function which is not mute (`Arena.call_of_mem_events_evalSeq`).

The same comparison, with nothing left out of account, says that the body of a function matters only
for the numbers of operands that the function accepts.
-/

namespace TagTemplate

/-! ## Functions that act alike -/

/-- Is the event the start of a function? -/
def Event.isStart : Event → Bool
  | .call _ _ => true
  | .lookup _ | .callDegraded _ _ | .fieldDegraded _ => false

/-- Without the starts all other events are kept. -/
theorem Event.kept_of_isStart (ev : Event) (h : ev.isStart = false) : (!ev.isStart) = true := by
  rw [h]
  rfl

/-- The functions have one name and accept the same numbers of operands; with so many they do the
same, except for events that are not kept, and come to the same. -/
structure Function.Alike (keep : Event → Bool) (f g : Function) : Prop where
  name : f.name = g.name
  arity : f.arity = g.arity
  body : ∀ {count : Nat}, f.arity.accepts count = true → ∀ {operand operand' : Nat → Run String},
    (∀ i, Run.Matches keep Eq (operand i) (operand' i)) →
    Run.Matches keep Eq (Run.ofBody operand (.call f.name count) (f.body count))
      (Run.ofBody operand' (.call g.name count) (g.body count))

/-- The registries have functions that act alike under the same names. -/
def Registry.Alike (keep : Event → Bool) (r s : Registry) : Prop :=
  ∀ name, Option.Rel (Function.Alike keep) (r.get? name) (s.get? name)

section
variable {keep : Event → Bool} {r s : Registry} {f g : Function}

/-- Registries are alike when alike functions are added to them. -/
theorem Registry.Alike.register (h : r.Alike keep s) (hfg : f.Alike keep g) :
    (r.register f).Alike keep (s.register g) := by
  intro name
  rw [Registry.get?_register, Registry.get?_register, ← hfg.name]
  split
  · exact .some hfg
  · exact h name

/-- Registries are alike when histories of alike functions are added to them. -/
theorem Registry.Alike.registerAll {fs gs : List Function} (h : r.Alike keep s)
    (hfs : List.Forall₂ (Function.Alike keep) fs gs) :
    (r.registerAll fs).Alike keep (s.registerAll gs) := by
  induction hfs generalizing r s with
  | nil => exact h
  | cons hfg _ ih => exact ih (h.register hfg)

/-- Registries without functions are alike. -/
theorem Registry.alike_empty : Registry.empty.Alike keep Registry.empty := by
  intro name
  rw [Registry.get?_empty]
  exact .none

/-! ## Evaluations under such functions -/

variable {ctx : EvalContext}

/-- The outcome of a call is alike if its operands are. -/
theorem Registry.Alike.matches_dispatch (h : ctx.registry.Alike keep s) (name : String)
    (span : Span) (count : Nat) {operand operand' : Nat → Run String}
    (hop : ∀ i, Run.Matches keep Eq (operand i) (operand' i)) :
    Run.Matches keep Eq (ctx.dispatch name span count operand)
      ({ ctx with registry := s }.dispatch name span count operand') := by
  unfold EvalContext.dispatch Registry.resolve
  have hname := h name
  dsimp only
  generalize ctx.registry.get? name = here at hname
  generalize s.get? name = there at hname
  cases hname with
  | none => exact Run.matches_fail rfl
  | @some f g hfg =>
    dsimp only
    rw [← hfg.arity]
    cases haccepts : f.arity.accepts count with
    | false => exact Run.matches_fail rfl
    | true => exact (hfg.body haccepts hop).locate EvalError.tracks_eq rfl

variable (hkeep : ∀ ev : Event, ev.isStart = false → keep ev = true)
include hkeep

/-- The text of a sequence is alike if the outcomes of its calls are. -/
theorem Arena.matches_evalCells (a : Arena) {call call' : String → Range → Span → Run String}
    (hcall : ∀ name args span, Run.Matches keep Eq (call name args span) (call' name args span))
    (cells : List Cell) :
    Run.Matches keep Eq (a.evalCells ctx call cells)
      (a.evalCells { ctx with registry := s } call' cells) := by
  induction cells with
  | nil => exact Run.matches_pure ""
  | cons cell cells ih =>
    cases cell with
    | literal text span =>
      rw [evalCells, evalCells]
      exact .bind (Run.matches_pure _) fun text =>
        ih.bind fun rest => Run.matches_pure (text ++ rest)
    | field name span =>
      rw [evalCells, evalCells]
      refine .bind ?_ fun text => ih.bind fun rest => Run.matches_pure (text ++ rest)
      exact EvalContext.matches_fieldText EvalError.tracks_eq (hkeep _ rfl) (hkeep _ rfl) rfl
    | call name args span =>
      rw [evalCells, evalCells]
      refine .bind ?_ fun text => ih.bind fun rest => Run.matches_pure (text ++ rest)
      exact EvalContext.matches_callText EvalError.tracks_eq (fun _ => hkeep _ rfl) (hcall ..)

/-- Sequences of the tables are evaluated alike under functions that act alike. -/
theorem Registry.Alike.matches_evalSeq (h : r.Alike keep s) (ctx : EvalContext) (a : Arena)
    (levels : Nat) (seq : Range) :
    Run.Matches keep Eq (a.evalSeq { ctx with registry := r } levels seq)
      (a.evalSeq { ctx with registry := s } levels seq) := by
  induction levels generalizing seq with
  | zero => exact a.matches_evalCells hkeep (fun _ _ _ => Run.matches_fail rfl) _
  | succ levels ih =>
    refine a.matches_evalCells hkeep (fun name args span => ?_) _
    refine matches_dispatch h name span _ fun i => ?_
    split
    · exact ih _
    · exact Run.matches_pure ""

/-- Templates are evaluated alike under functions that act alike. -/
theorem Registry.Alike.matches_evaluate (h : r.Alike keep s) (ctx : EvalContext) (t : Template) :
    Run.Matches keep Eq (t.evaluate { ctx with registry := r })
      (t.evaluate { ctx with registry := s }) :=
  h.matches_evalSeq hkeep ctx t.toArena _ t.root

end

/-- If all events are kept, runs that match are the same. -/
theorem Run.matches_all_iff {α : Type} {x y : Run α} :
    Matches (fun _ => true) Eq x y ↔ x = y := by
  constructor
  · intro h
    obtain ⟨events, result⟩ := x
    obtain ⟨events', result'⟩ := y
    obtain ⟨hevents, hresult⟩ := h
    rw [List.filter_true] at hevents
    obtain rfl : events' = events := hevents
    obtain rfl : result = result' := hresult.eq
    rfl
  · rintro rfl
    exact ⟨(List.filter_eq_self.2 fun _ _ => rfl).symm, .refl (fun _ => rfl) _⟩

/-- Functions whose bodies are the same for the numbers of operands that they accept. -/
theorem Function.Alike.of_body {f g : Function} (hname : f.name = g.name)
    (harity : f.arity = g.arity)
    (hbody : ∀ count, f.arity.accepts count = true → f.body count = g.body count) :
    f.Alike (fun _ => true) g where
  name := hname
  arity := harity
  body {count} haccepts operand operand' hop := by
    have hsame : operand = operand' := funext fun i => Run.matches_all_iff.1 (hop i)
    rw [hsame, hname, hbody count haccepts]
    exact Run.matches_all_iff.2 rfl

/-- A function acts as itself. -/
theorem Function.alike_self (f : Function) : f.Alike (fun _ => true) f :=
  .of_body rfl rfl fun _ _ => rfl

/-! ## Muting and heralding -/

/-- The body without its announcements. -/
def Body.mute {α : Type} : Body α → Body α
  | .done result => .done result
  | .request i next => .request i fun answer => (next answer).mute
  | .announce next => next.mute

/-- The function never announces itself. -/
def Function.mute (f : Function) : Function :=
  { f with body := fun count => (f.body count).mute }

/-- The function announces itself first of all, and not again. -/
def Function.herald (f : Function) : Function :=
  { f with body := fun count => .announce (f.body count).mute }

/-- To mute a body again changes nothing. -/
theorem Body.mute_mute {α : Type} (x : Body α) : x.mute.mute = x.mute := by
  induction x with
  | done result => rfl
  | request i next ih => simp only [mute, ih]
  | announce next ih => exact ih

/-- A mute body does not announce itself. -/
theorem Body.announce_notMem_moves_mute {α : Type} (answer : Nat → Except EvalError String)
    (x : Body α) : .announce ∉ x.mute.moves answer := by
  induction x with
  | done result => exact List.not_mem_nil
  | request i next ih =>
    refine fun h => ih (answer i) ((List.mem_cons.1 h).resolve_left ?_)
    exact Move.noConfusion
  | announce next ih => exact ih

/-- A body without its announcements does all else and comes to the same. -/
theorem Run.matches_mute {α : Type} {operand operand' : Nat → Run String}
    (hop : ∀ i, Matches (!·.isStart) Eq (operand i) (operand' i)) (name : String) (count : Nat)
    (body : Body α) :
    Matches (!·.isStart) Eq (ofBody operand (.call name count) body)
      (ofBody operand' (.call name count) body.mute) := by
  induction body with
  | done result => exact ⟨rfl, .refl (fun _ => rfl) result⟩
  | request i next ih =>
    have hrest := ih (operand i).result
    rw [Body.mute, ofBody, ofBody, ← (hop i).result.eq]
    refine ⟨?_, hrest.result⟩
    rw [List.filter_append, ← (hop i).events, ← hrest.events]
  | announce next ih => exact ⟨ih.events, ih.result⟩

/-- A function whose mute body is the other's acts as that but for its announcements. -/
theorem Function.alike_mute {f g : Function} (hname : f.name = g.name) (harity : f.arity = g.arity)
    (hbody : ∀ count, (f.body count).mute = g.body count) : f.Alike (!·.isStart) g where
  name := hname
  arity := harity
  body {count} _ _ _ hop := by
    rw [← hname, ← hbody count]
    exact Run.matches_mute hop f.name count (f.body count)

/-- A herald acts as the mute function but for its announcements. -/
theorem Function.alike_herald_mute (f : Function) : f.herald.Alike (!·.isStart) f.mute :=
  alike_mute rfl rfl fun count => (f.body count).mute_mute

/-- A function that is made to announce itself does so first of all, and not again. -/
theorem Function.heralded_herald (f : Function) : f.herald.Heralded :=
  fun count answer => ⟨_, rfl, Body.announce_notMem_moves_mute answer (f.body count)⟩

namespace Registry

/-- The registry with every function changed, under its old name. -/
def map (g : Function → Function) (r : Registry) : Registry :=
  ⟨r.functions.map fun _ f => g f⟩

/-- A registry that is mapped has the images of its functions. -/
theorem get?_map (g : Function → Function) (r : Registry) (name : String) :
    (r.map g).get? name = (r.get? name).map g :=
  Std.TreeMap.getElem?_map

/-- A call reaches the same function as before, which now announces itself. -/
theorem resolve_map_herald (r : Registry) (name : String) (count : Nat) :
    (r.map .herald).resolve name count = (r.resolve name count).map .herald := by
  rw [resolve, resolve, get?_map]
  cases r.get? name with
  | none => rfl
  | some f =>
    simp only [Option.map_some, Function.herald]
    split <;> rfl

/-- In the mapped registry every function announces itself once and at once. -/
theorem heralded_map_herald (r : Registry) : (r.map .herald).All Function.Heralded := by
  intro name f h
  rw [get?_map] at h
  obtain ⟨g, -, rfl⟩ := Option.map_eq_some_iff.1 h
  exact g.heralded_herald

/-- If all functions announce their starts, sequences come to what they came to before, and what
happens is the same but for the announcements. -/
theorem evalSeq_map_herald (ctx : EvalContext) (a : Arena) (levels : Nat) (seq : Range) :
    let x := a.evalSeq ctx levels seq
    let y := a.evalSeq { ctx with registry := ctx.registry.map .herald } levels seq
    y.result = x.result ∧ y.events.filter (!·.isStart) = x.events.filter (!·.isStart) := by
  intro x y
  -- Both are compared with the evaluation in which every function is mute.
  have hplain : ctx.registry.Alike (!·.isStart) (ctx.registry.map .mute) := by
    intro name
    rw [get?_map]
    cases ctx.registry.get? name with
    | none => exact .none
    | some f => exact .some (Function.alike_mute rfl rfl fun _ => rfl)
  have hherald : (ctx.registry.map .herald).Alike (!·.isStart) (ctx.registry.map .mute) := by
    intro name
    rw [get?_map, get?_map]
    cases ctx.registry.get? name with
    | none => exact .none
    | some f => exact .some f.alike_herald_mute
  have hx := hplain.matches_evalSeq Event.kept_of_isStart ctx a levels seq
  have hy := hherald.matches_evalSeq Event.kept_of_isStart ctx a levels seq
  exact ⟨hy.result.eq.trans hx.result.eq.symm, hy.events.symm.trans hx.events⟩

end Registry

/-! ## Who announces a start -/

/-- What happens while a body runs happens in an operand, or is the start if the body announces
it. -/
theorem Run.mem_events_ofBody_cases {α : Type} {operand : Nat → Run String} {start ev : Event}
    {body : Body α} (h : ev ∈ (ofBody operand start body).events) :
    (∃ i, ev ∈ (operand i).events) ∨
      ev = start ∧ .announce ∈ body.moves fun i => (operand i).result := by
  rw [events_ofBody] at h
  obtain ⟨move, hmove, hev⟩ := List.mem_flatMap.1 h
  cases move with
  | ask i => exact .inl ⟨i, hev⟩
  | announce => exact .inr ⟨List.mem_singleton.1 hev, hmove⟩

namespace Arena

variable {ctx : EvalContext} {ev : Event}

/-- A call of the tables, with its name and the number of its operands. -/
def HasCall (a : Arena) (name : String) (count : Nat) : Prop :=
  ∃ n args span, Cell.call n args span ∈ a.cells.toList ∧ a.textOf n = name ∧
    (a.argsOf args).length = count

/-- The cells of a range are cells of the table. -/
theorem cellsOf_subset (a : Arena) (r : Range) : a.cellsOf r ⊆ a.cells.toList := by
  intro cell hcell
  rw [cellsOf, Array.toList_extract] at hcell
  exact List.mem_of_mem_drop (List.mem_of_mem_take hcell)

/-- A start in a sequence is a start in one of its calls. -/
theorem call_of_mem_events_evalCells {a : Arena} {call : String → Range → Span → Run String}
    {cells : List Cell} (hev : ev.isStart = true) (h : ev ∈ (a.evalCells ctx call cells).events) :
    ∃ n args span, Cell.call n args span ∈ cells ∧ ev ∈ (call (a.textOf n) args span).events := by
  have hrest : ∀ {text : String} {rest : Run String},
      ev ∈ (rest >>= fun more => (pure (text ++ more) : Run String)).events → ev ∈ rest.events := by
    intro text rest h
    rcases Run.mem_events_bind h with h | ⟨_, _, h⟩
    · exact h
    · cases h
  induction cells with
  | nil => cases h
  | cons cell cells ih =>
    have htail : ev ∈ (a.evalCells ctx call cells).events → ∃ n args span,
        Cell.call n args span ∈ cell :: cells ∧ ev ∈ (call (a.textOf n) args span).events := by
      intro h
      obtain ⟨n, args, span, hmem, h⟩ := ih h
      exact ⟨n, args, span, List.mem_cons_of_mem cell hmem, h⟩
    cases cell with
    | literal text span =>
      rw [evalCells] at h
      rcases Run.mem_events_bind h with h | ⟨_, _, h⟩
      · cases h
      · exact htail (hrest h)
    | field name span =>
      rw [evalCells] at h
      rcases Run.mem_events_bind h with h | ⟨_, _, h⟩
      · rcases EvalContext.mem_events_fieldText h with rfl | rfl <;> cases hev
      · exact htail (hrest h)
    | call n args span =>
      rw [evalCells] at h
      rcases Run.mem_events_bind h with h | ⟨_, _, h⟩
      · rcases EvalContext.mem_events_callText h with h | ⟨_, _, rfl⟩
        · exact ⟨n, args, span, List.mem_cons_self, h⟩
        · cases hev
      · exact htail (hrest h)

/-- A start is announced by the function that some call of the tables reaches, and by its body. -/
theorem announced_of_mem_events_evalSeq {a : Arena} {levels : Nat} {seq : Range}
    (hev : ev.isStart = true) (h : ev ∈ (a.evalSeq ctx levels seq).events) :
    ∃ name count f, a.HasCall name count ∧ ctx.registry.resolve name count = .ok f ∧
      ev = .call f.name count ∧ ∃ answer, .announce ∈ (f.body count).moves answer := by
  induction levels generalizing seq with
  | zero =>
    rw [evalSeq] at h
    obtain ⟨n, args, span, hmem, h⟩ := call_of_mem_events_evalCells hev h
    cases h
  | succ levels ih =>
    rw [evalSeq] at h
    obtain ⟨n, args, span, hmem, h⟩ := call_of_mem_events_evalCells hev h
    have hcall : a.HasCall (a.textOf n) (a.argsOf args).length :=
      ⟨n, args, span, a.cellsOf_subset seq hmem, rfl, rfl⟩
    dsimp only at h
    unfold EvalContext.dispatch at h
    split at h
    · cases h
    · next f hf =>
      rcases Run.mem_events_ofBody_cases h with ⟨i, h⟩ | ⟨rfl, hannounce⟩
      · split at h
        · exact ih h
        · cases h
      · exact ⟨_, _, f, hcall, hf, rfl, _, hannounce⟩

end Arena

end TagTemplate
