import TagTemplate.Proofs.OperandRuns

/-!
# Parameters that are converted in order

A function with typed parameters evaluates and converts its operands one after the other, and works
on the arguments only once it has all of them. `Function.typed_in_order` says what a call of such a
function does: nothing where the number of operands is wrong; else it runs the operands up to the
first one that fails or whose text does not convert (`ParamType.FailsAt`), and ends with that
failure; or all of them convert (`ParamType.Converts`), and it ends with what the implementation
makes of the arguments (`ParamType.Implementation.apply`).
-/

namespace TagTemplate

namespace ParamType

/-- Arguments for parameters of the given types. -/
def Arguments : List ParamType → Type
  | [] => Unit
  | p :: ps => p.Argument × Arguments ps

/-- The implementation on its arguments. -/
def Implementation.apply :
    (ps : List ParamType) → Implementation ps → Arguments ps → Except EvalError String
  | [], result, _ => result
  | _ :: ps, f, (a, as) => apply ps (f a) as

/-- The operands come to texts that convert to the arguments, one for each parameter. -/
def Converts : (ps : List ParamType) → List (Run String) → Arguments ps → Prop
  | [], [], _ => True
  | p :: ps, x :: xs, (a, as) =>
    (∃ t, x.result = .ok t ∧ p.ofText t = .ok a) ∧ Converts ps xs as
  | _, _, _ => False

/-- A parameter takes its operand for no argument: the operand fails, and the error is that of the
operand, or its text does not convert, and the error points at the call at `span`. -/
inductive Refuses (p : ParamType) (span : Span) : Except EvalError String → EvalError → Prop
  | operand {e : EvalError} : Refuses p span (.error e) e
  | text {t : String} {anomaly : Anomaly} (h : p.ofText t = .error anomaly) :
      Refuses p span (.ok t) { anomaly, span }

/-- The operand of index `k` is the first one that gives no argument, for the error. -/
structure FailsAt (span : Span) (ps : List ParamType) (xs : List (Run String)) (k : Nat)
    (e : EvalError) : Prop where
  earlier : ∃ as, Converts (ps.take k) (xs.take k) as
  refuses : ∃ p x, ps[k]? = some p ∧ xs[k]? = some x ∧ p.Refuses span x.result e

/-- A text is refused for not being of the kind that the parameter needs, by an error that quotes it
as it is. -/
theorem typeMismatch_of_ofText {p : ParamType} {t : String} {anomaly : Anomaly}
    (h : p.ofText t = .error anomaly) (span : Option Span) :
    let e : EvalError := { anomaly, span }
    e.kind = .typeMismatch ∧
      ((p = .integer ∧ anomaly = .typeMismatch "integer" t ∧
          e.message = "expected integer, got " ++ Text.quoted t) ∨
        (p = .number ∧ anomaly = .typeMismatch "number" t ∧
          e.message = "expected number, got " ++ Text.quoted t)) := by
  cases p with
  | text | truth => cases h
  | integer =>
    rw [ofText] at h
    split at h
    · cases h
    · cases h
      exact ⟨rfl, .inl ⟨rfl, rfl, rfl⟩⟩
  | number =>
    rw [ofText] at h
    split at h
    · cases h
    · cases h
      exact ⟨rfl, .inr ⟨rfl, rfl, rfl⟩⟩

/-- Operands that are as many as the parameters all convert, or there is a first that does not. -/
theorem converts_or_failsAt (span : Span) (ps : List ParamType) (xs : List (Run String))
    (h : xs.length = ps.length) :
    (∃ as, Converts ps xs as) ∨ ∃ k e, FailsAt span ps xs k e := by
  induction ps generalizing xs with
  | nil =>
    rw [List.eq_nil_of_length_eq_zero h]
    exact .inl ⟨(), trivial⟩
  | cons p ps ih =>
    obtain ⟨x, xs, rfl⟩ := List.exists_cons_of_length_eq_add_one h
    cases hx : x.result with
    | error e =>
      have hhead : p.Refuses span x.result e := hx ▸ .operand
      exact .inr ⟨0, e, ⟨(), trivial⟩, p, x, rfl, rfl, hhead⟩
    | ok t =>
      cases ht : p.ofText t with
      | error anomaly =>
        have hhead : p.Refuses span x.result { anomaly, span } := hx ▸ .text ht
        exact .inr ⟨0, _, ⟨(), trivial⟩, p, x, rfl, rfl, hhead⟩
      | ok a =>
        rcases ih xs (Nat.succ.inj h) with ⟨as, has⟩ | ⟨k, e, ⟨as, has⟩, hrefuses⟩
        · exact .inl ⟨(a, as), ⟨t, hx, ht⟩, has⟩
        · exact .inr ⟨k + 1, e, ⟨(a, as), ⟨t, hx, ht⟩, has⟩, hrefuses⟩

end ParamType

/-! ## Conversions on runs of the operands -/

namespace Run

open ParamType

variable {ctx : EvalContext} {operand : Nat → Run String} (start : Event) (span : Span)

/-- The body of a function with parameters runs the operand of the first, and goes on with the
others if its text converts. -/
theorem locate_applyFrom_cons (hoperand : ∀ i, ctx.Settled (operand i)) (p : ParamType)
    (ps : List ParamType) (i : Nat) (f : Implementation (p :: ps)) :
    (ofBody operand start (applyFrom (p :: ps) i f)).locate span =
      operand i >>= fun t =>
        match p.ofText t with
        | .ok a => (ofBody operand start (applyFrom ps (i + 1) (f a))).locate span
        | .error anomaly => fail { anomaly, span } := by
  rw [applyFrom, ofBody_bind, ofBody_convert, bind_assoc, (hoperand i).locate_bind]
  congr 1
  funext t
  cases p.ofText t <;> rfl

/-- The operands are those of the indices from `i` on. -/
def Operands (operand : Nat → Run String) (i : Nat) (xs : List (Run String)) : Prop :=
  ∀ j x, xs[j]? = some x → operand (i + j) = x

/-- The first run is that of the operand. -/
theorem Operands.head {i : Nat} {x : Run String} {xs : List (Run String)}
    (h : Operands operand i (x :: xs)) : operand i = x :=
  h 0 x rfl

/-- The other runs are those of the operands that follow. -/
theorem Operands.tail {i : Nat} {x : Run String} {xs : List (Run String)}
    (h : Operands operand i (x :: xs)) : Operands operand (i + 1) xs := by
  intro j y hy
  rw [Nat.add_assoc, Nat.add_comm 1 j]
  exact h (j + 1) y hy

/-- If all operands convert, all are run, and the implementation has the last word. -/
theorem locate_applyFrom_converts (hoperand : ∀ i, ctx.Settled (operand i)) {ps : List ParamType}
    {xs : List (Run String)} {as : Arguments ps} (has : Converts ps xs as) {i : Nat}
    (hxs : Operands operand i xs) (f : Implementation ps) :
    (ofBody operand start (applyFrom ps i f)).locate span =
      ⟨xs.flatMap events, (f.apply ps as).mapError (·.locate span)⟩ := by
  induction ps generalizing xs i with
  | nil =>
    cases xs with
    | nil => rfl
    | cons x xs => cases has
  | cons p ps ih =>
    cases xs with
    | nil => cases has
    | cons x xs =>
      obtain ⟨a, as⟩ := as
      obtain ⟨⟨t, hx, ht⟩, has⟩ := has
      rw [locate_applyFrom_cons start span hoperand, hxs.head]
      show x.bind _ = _
      rw [bind, hx]
      simp only [ht, ih has hxs.tail (f a)]
      rfl

/-- If an operand is the first that does not convert, the operands up to it are run, and it has the
last word. -/
theorem locate_applyFrom_failsAt (hoperand : ∀ i, ctx.Settled (operand i)) {ps : List ParamType}
    {xs : List (Run String)} {k : Nat} {e : EvalError} (h : FailsAt span ps xs k e) {i : Nat}
    (hxs : Operands operand i xs) (f : Implementation ps) :
    (ofBody operand start (applyFrom ps i f)).locate span =
      ⟨(xs.take (k + 1)).flatMap events, .error e⟩ := by
  obtain ⟨⟨as, has⟩, q, y, hq, hy, hrefuses⟩ := h
  induction k generalizing ps xs i with
  | zero =>
    cases ps with
    | nil => cases hq
    | cons p ps =>
      cases xs with
      | nil => cases hy
      | cons x xs =>
        cases hq
        cases hy
        rw [locate_applyFrom_cons start span hoperand, hxs.head]
        show y.bind _ = _
        obtain ⟨evs, result⟩ := y
        cases hrefuses with
        | operand => simp [bind]
        | text ht => simp [bind, ht, fail]
  | succ k ih =>
    cases ps with
    | nil => cases hq
    | cons p ps =>
      cases xs with
      | nil => cases hy
      | cons x xs =>
        obtain ⟨a, as⟩ := as
        obtain ⟨⟨t, hx, ht⟩, has⟩ := has
        rw [locate_applyFrom_cons start span hoperand, hxs.head]
        show x.bind _ = _
        rw [bind, hx]
        simp only [ht, ih hxs.tail (f a) as has hq hy]
        rfl

end Run

/-! ## Calls -/

/-- The operands of a call, by their indices. -/
theorem Node.operands_evalArgs (ctx : EvalContext) (args : List (List Node)) (levels : Nat) :
    Run.Operands (evalArgs ctx args levels) 0 (args.map fun a => evalSeq ctx a levels) := by
  intro j x hx
  rw [List.getElem?_map] at hx
  obtain ⟨a, ha, rfl⟩ := Option.map_eq_some_iff.1 hx
  rw [Nat.zero_add, evalArgs_eq, ha]

/-- A function with typed parameters converts its operands in order and works on the arguments only
if it has all of them. A template is evaluated as its tree, and in a tree a call within the limit
comes to an outcome, which is passed over in the lenient mode if it is an error. With a wrong number
of operands the outcome is an error and none of them is run. With the right number the outcome is
what the implementation makes of the arguments, after all operands were run in order; or an operand
is the first that fails or does not convert, and the outcome is its error, after it and all before
it, and no other, were run. A text that does not convert is of the wrong type, for an integer or for
a number, and is quoted with the blanks around it. -/
theorem Function.typed_in_order {ctx : EvalContext} {name fname : String}
    {params : List ParamType} {f : ParamType.Implementation params}
    (hf : ctx.registry.get? name = some (typed fname params f)) :
    (∀ limits source t, compileWithin limits source = .ok t →
      t.evaluate ctx = Node.evalSeq ctx t.toNodes ctx.options.maxDepth) ∧
    (∀ (args : List (List Node)) (span : Span) (levels : Nat),
      let runs := args.map fun a => Node.evalSeq ctx a levels
      ∃ outcome : Run String,
        (Node.call name args span).eval ctx (levels + 1) = ctx.callText name outcome ∧
        (args.length ≠ params.length → outcome = .fail
          { anomaly := .arityMismatch name (.exactly params.length) args.length, span }) ∧
        (args.length = params.length →
          ((∃ as, ParamType.Converts params runs as) ∨
            ∃ k e, ParamType.FailsAt span params runs k e) ∧
          (∀ as, ParamType.Converts params runs as →
            outcome = ⟨runs.flatMap Run.events, (f.apply params as).mapError (·.locate span)⟩) ∧
          ∀ k e, ParamType.FailsAt span params runs k e →
            outcome = ⟨(runs.take (k + 1)).flatMap Run.events, .error e⟩)) ∧
    ∀ (p : ParamType) (t : String) (anomaly : Anomaly) (span : Option Span),
      p.ofText t = .error anomaly →
      let e : EvalError := { anomaly, span }
      e.kind = .typeMismatch ∧
        ((p = .integer ∧ anomaly = .typeMismatch "integer" t ∧
            e.message = "expected integer, got " ++ Text.quoted t) ∨
          (p = .number ∧ anomaly = .typeMismatch "number" t ∧
            e.message = "expected number, got " ++ Text.quoted t)) := by
  refine ⟨fun limits source t h => Template.evaluate_of_compileWithin h ctx,
    fun args span levels => ?_, fun p t anomaly span h => ParamType.typeMismatch_of_ofText h span⟩
  intro runs
  refine ⟨_, Node.eval_call ctx name args span (levels + 1), fun hne => ?_, fun heq => ?_⟩
  · have hresolve : ctx.registry.resolve name args.length =
        .error (.arityMismatch name (.exactly params.length) args.length) := by
      rw [Registry.resolve, hf]
      exact if_neg fun h => hne (of_decide_eq_true h)
    show ctx.dispatch name span args.length (Node.evalArgs ctx args levels) = _
    rw [EvalContext.dispatch, hresolve]
  · have hresolve : ctx.registry.resolve name args.length = .ok (typed fname params f) := by
      rw [Registry.resolve, hf]
      exact if_pos (decide_eq_true heq)
    have houtcome : Visit.outcome ctx ⟨name, args, span, levels + 1⟩ =
        (Run.ofBody (Node.evalArgs ctx args levels) (.call fname args.length)
          (ParamType.applyFrom params 0 f)).locate span := by
      show ctx.dispatch name span args.length (Node.evalArgs ctx args levels) = _
      rw [EvalContext.dispatch, hresolve]
      rfl
    rw [houtcome]
    have hsettled := @Node.settled_evalArgs ctx args levels
    have hruns := Node.operands_evalArgs ctx args levels
    refine ⟨?_, fun as has => ?_, fun k e h => ?_⟩
    · exact ParamType.converts_or_failsAt span params runs ((List.length_map _).trans heq)
    · exact Run.locate_applyFrom_converts _ span hsettled has hruns f
    · exact Run.locate_applyFrom_failsAt _ span hsettled h hruns f

/-- The text of the second operand is no integer, so the third is not run. A call with an operand
too few runs none. -/
theorem Function.typed_in_order_pick :
    let params : List ParamType := [.text, .integer, .truth]
    let f : ParamType.Implementation params := fun s n b => .ok (if b then s else intText n.toInt)
    let ctx : EvalContext := {
      record := fun _ => none
      registry := Registry.builtins.register (typed "pick" params f)
      options := { strict := true } }
    let e : EvalError := { anomaly := .typeMismatch "integer" "x ", span := some ⟨0, 20⟩ }
    ctx.registry.get? "pick" = some (typed "pick" params f) ∧
      (∃ t, compile "$pick(%a%,%b%x ,%c%)" = .ok t ∧
        t.evaluate ctx = ⟨[.lookup "a", .lookup "b"], .error e⟩) ∧
      ∀ a, ((Node.call "pick" [a, a] ⟨0, 20⟩).eval ctx 4).events = [] := by
  intro params f ctx e
  have hf : ctx.registry.get? "pick" = some (typed "pick" params f) :=
    (Registry.get?_register ..).trans (if_pos rfl)
  let ps : List Piece :=
    [.call "pick" [[.field "a"], [.field "b", .plain 'x', .plain ' '], [.field "c"]]]
  have ht := (compileWithin_eq_ok_iff {} "$pick(%a%,%b%x ,%c%)" _).2
    ⟨ps, ⟨⟨by decide, by decide⟩, by decide, ⟨by decide, by decide, by decide⟩⟩, rfl⟩
  obtain ⟨heval, hcall, -⟩ := Function.typed_in_order hf
  refine ⟨hf, ⟨_, ht, ?_⟩, fun a => ?_⟩
  · let args : List (List Node) :=
      [[.field "a" ⟨6, 9⟩], [.field "b" ⟨10, 13⟩, .literal "x " ⟨13, 15⟩], [.field "c" ⟨16, 19⟩]]
    obtain ⟨outcome, houtcome, -, hsame⟩ := hcall args ⟨0, 20⟩ 63
    obtain ⟨-, -, hfails⟩ := hsame rfl
    have hfailsAt : ParamType.FailsAt ⟨0, 20⟩ params
        (args.map fun a => Node.evalSeq ctx a 63) 1 e :=
      ⟨⟨("", ()), ⟨"", rfl, rfl⟩, trivial⟩, .integer, _, rfl, rfl,
        .text (t := "x ") (by decide)⟩
    rw [heval _ _ _ ht, Template.toNodes_ofNodes]
    show (Node.call "pick" args ⟨0, 20⟩).eval ctx 64 >>= _ = _
    rw [houtcome, hfails 1 e hfailsAt]
    rfl
  · obtain ⟨outcome, houtcome, hother, -⟩ := hcall [a, a] ⟨0, 20⟩ 3
    rw [houtcome, hother (Nat.ne_of_lt (Nat.lt_succ_self 2))]
    rfl

end TagTemplate
