import TagTemplate.Evaluate.Template
import TagTemplate.Proofs.Ownership
import TagTemplate.Proofs.Refinement

/-!
# Nothing is read out of range

The functions that read the tables of a template take a range on trust: what lies beyond a table is
cut off. Here are the same functions with every access checked. They give `none` when a range does
not lie in its table, when a piece of text begins or ends inside a character, and, for the nesting
of calls, when following arguments of arguments does not come to an end. On a well-formed template
no check fails, whatever the record, the functions and the options, so the unchecked functions may
be used (`compileWithin_wellFormed`).
-/

namespace TagTemplate

/-! ## Checked access -/

/-- Whether a range lies on boundaries can be computed. -/
instance (r : Range) (text : String) : Decidable (r.OnBoundaries text) :=
  inferInstanceAs (Decidable (_ ∧ _))

namespace Arena

/-- The nodes of a sequence, if it lies in the table. -/
def cells? (a : Arena) (r : Range) : Option (List Cell) :=
  if r.stop ≤ a.cells.size then some (a.cellsOf r) else none

/-- The argument sequences of a call, if they lie in the table. -/
def args? (a : Arena) (r : Range) : Option (List Range) :=
  if r.stop ≤ a.args.size then some (a.argsOf r) else none

/-- A text or name, if it begins and ends between two characters. -/
def text? (a : Arena) (r : Range) : Option String :=
  if r.OnBoundaries a.text then some (a.textOf r) else none

/-- The number of calls around each other in a sequence, if there are fewer than `levels`. Where
`depthWithin` stops counting, this gives nothing. -/
def depthWithin? (a : Arena) : Nat → Range → Option Nat
  | 0, _ => none
  | levels + 1, r => do
    let cells ← a.cells? r
    let depths ← (cells.filterMap Cell.args?).mapM fun args => do
      let seqs ← a.args? args
      let depths ← seqs.mapM (a.depthWithin? levels)
      some (1 + depths.foldr max 0)
    some (depths.foldr max 0)

end Arena

/-- The number of calls around each other in a template. More of them than there are nodes would
be a call inside itself. -/
def Template.depth? (t : Template) : Option Nat :=
  t.depthWithin? (t.nodeCount + 1) t.root

namespace Run

variable {α β : Type}

/-- Continues a run with what follows its value, as far as it is in range. -/
def bind? (x : Run α) (f : α → Option (Run β)) : Option (Run β) :=
  match x.result with
  | .ok a => (f a).map fun y => ⟨x.events ++ y.events, y.result⟩
  | .error e => some ⟨x.events, .error e⟩

/-- The run of a function's body on operands that may be out of range. Only those that the body
asks for matter. -/
def ofBody? (operand : Nat → Option (Run String)) (start : Event) : Body α → Option (Run α)
  | .done result => some ⟨[], result⟩
  | .request i next => do
    let x ← operand i
    let rest ← ofBody? operand start (next x.result)
    some ⟨x.events ++ rest.events, rest.result⟩
  | .announce next => do
    let rest ← ofBody? operand start next
    some ⟨start :: rest.events, rest.result⟩

end Run

/-- The outcome of a call on operands that may be out of range. -/
def EvalContext.dispatch? (ctx : EvalContext) (name : String) (span : Span) (count : Nat)
    (operand : Nat → Option (Run String)) : Option (Run String) :=
  match ctx.registry.resolve name count with
  | .error anomaly => some (Run.fail { anomaly, span })
  | .ok f => (Run.ofBody? operand (.call f.name count) (f.body count)).map (·.locate span)

namespace Arena

/-- The text of a sequence of cells, every access checked. -/
def evalCells? (a : Arena) (ctx : EvalContext)
    (call : String → Range → Span → Option (Run String)) : List Cell → Option (Run String)
  | [] => some (pure "")
  | cell :: cells => do
    let x ←
      match cell with
      | .literal text _ => (a.text? text).map pure
      | .field name span => (a.text? name).map (ctx.fieldText · span)
      | .call name args span => do
        let name ← a.text? name
        (call name args span).map (ctx.callText name)
    x.bind? fun text => do
      let rest ← a.evalCells? ctx call cells
      rest.bind? fun rest => some (pure (text ++ rest))

/-- The text of a sequence, every access checked. -/
def evalSeq? (a : Arena) (ctx : EvalContext) : Nat → Range → Option (Run String)
  | 0, seq => do
    let cells ← a.cells? seq
    a.evalCells? ctx (fun _ _ span => some (ctx.tooDeep span)) cells
  | levels + 1, seq => do
    let cells ← a.cells? seq
    let call (name : String) (args : Range) (span : Span) : Option (Run String) := do
      let operands ← a.args? args
      ctx.dispatch? name span operands.length fun i =>
        match operands[i]? with
        | some operand => a.evalSeq? ctx levels operand
        | none => some (pure "")
    a.evalCells? ctx call cells

end Arena

/-- Evaluates a template, every access checked. -/
def Template.evaluate? (t : Template) (ctx : EvalContext) : Option (Run String) :=
  t.evalSeq? ctx ctx.options.maxDepth t.root

/-! ## Where checks do not fail -/

namespace Run

variable {α β : Type}

/-- A checked continuation that never fails is the plain one. -/
theorem bind?_eq {x : Run α} {f : α → Option (Run β)} {g : α → Run β}
    (h : ∀ a, f a = some (g a)) : x.bind? f = some (x.bind g) := by
  obtain ⟨events, result⟩ := x
  cases result with
  | error e => rfl
  | ok a => simp only [bind?, h a, Option.map_some, bind]

/-- A body runs in range on operands that are in range. -/
theorem ofBody?_eq {operand? : Nat → Option (Run String)} {operand : Nat → Run String}
    (h : ∀ i, operand? i = some (operand i)) (start : Event) (body : Body α) :
    ofBody? operand? start body = some (ofBody operand start body) := by
  induction body with
  | done result => rfl
  | request i next ih => rw [ofBody?, h i, Option.bind_eq_bind, Option.bind_some, ih]; rfl
  | announce next ih => rw [ofBody?, ih]; rfl

end Run

/-- The checked outcome of a call is the plain one if the operands are. -/
theorem EvalContext.dispatch?_eq (ctx : EvalContext) {operand? : Nat → Option (Run String)}
    {operand : Nat → Run String} (h : ∀ i, operand? i = some (operand i)) (name : String)
    (span : Span) (count : Nat) :
    ctx.dispatch? name span count operand? = some (ctx.dispatch name span count operand) := by
  rw [dispatch?, dispatch]
  cases ctx.registry.resolve name count with
  | error anomaly => rfl
  | ok f => simp only [Run.ofBody?_eq h, Option.map_some]

/-- Only the calls of a sequence count for its nesting. -/
theorem Arena.depthWithin_succ_eq (a : Arena) (levels : Nat) (r : Range) :
    a.depthWithin (levels + 1) r =
      (((a.cellsOf r).filterMap Cell.args?).map fun args =>
        1 + ((a.argsOf args).map (a.depthWithin levels)).foldr max 0).foldr max 0 := by
  rw [depthWithin]
  induction a.cellsOf r with
  | nil => rfl
  | cons cell cells ih =>
    cases cell with
    | literal | field => exact ih
    | call name args span =>
      have hargs : Cell.args? (.call name args span) = some args := rfl
      rw [List.foldr_cons, ih, List.filterMap_cons_some hargs, List.map_cons, List.foldr_cons]
      exact Nat.max_comm ..

/-- Entries that are all in range give a list of results. -/
theorem mapM_eq_some_map {α β : Type} {f : α → Option β} {g : α → β} {as : List α}
    (h : ∀ a ∈ as, f a = some (g a)) : as.mapM f = some (as.map g) := by
  induction as with
  | nil => rfl
  | cons a as ih =>
    rw [List.mapM_cons, h a List.mem_cons_self, ih fun b hb => h b (List.mem_cons_of_mem a hb)]
    rfl

namespace Template.WellFormed

variable {t : Template}

/-- The cells of a sequence in the tables are found by checked access. -/
theorem cells?_eq (h : t.WellFormed) {r : Range} (hr : r ∈ t.sequences) :
    t.cells? r = some (t.cellsOf r) :=
  if_pos (h.stop_le hr)

/-- The arguments of a call in the tables are found by checked access. -/
theorem args?_eq (h : t.WellFormed) {r : Range} (hr : r ∈ t.argLists) :
    t.args? r = some (t.argsOf r) :=
  if_pos (h.argLists_partition.inside r hr)

/-- The text of a node in the tables is found by checked access. -/
theorem text?_eq (h : t.WellFormed) {r : Range} (hr : r ∈ t.texts) :
    t.text? r = some (t.textOf r) :=
  if_pos (h.boundaries r hr)

/-- The arguments of a sequence lie before it, so following them comes to an end within as many
levels as there are nodes up to where the sequence ends. -/
theorem depthWithin?_eq (h : t.WellFormed) {r : Range} (hr : r ∈ t.sequences) {levels : Nat}
    (hlevels : r.stop ≤ levels) :
    t.depthWithin? (levels + 1) r = some (t.depthWithin levels r) := by
  induction levels generalizing r with
  | zero =>
    have hempty : t.cellsOf r = [] := by
      simp [Arena.cellsOf, Nat.le_zero.1 hlevels]
    rw [Arena.depthWithin?, h.cells?_eq hr, hempty]
    rfl
  | succ levels ih =>
    rw [Arena.depthWithin?, h.cells?_eq hr, Option.bind_eq_bind, Option.bind_some,
      mapM_eq_some_map fun args hargs => ?_, Arena.depthWithin_succ_eq]
    · rfl
    · obtain ⟨cell, hcell, hcellArgs⟩ := List.mem_filterMap.1 hargs
      have hinner : (t.argsOf args).mapM (t.depthWithin? (levels + 1)) =
          some ((t.argsOf args).map (t.depthWithin levels)) := by
        refine mapM_eq_some_map fun arg harg => ?_
        have hmem : arg ∈ t.argumentsOf cell :=
          List.mem_flatMap.2 ⟨args, Option.mem_toList.2 hcellArgs, harg⟩
        have hlt := h.stop_lt hr hcell hmem
        exact ih (mem_sequences_of_argument hcell hmem) (by omega)
      have hlist : args ∈ t.argLists :=
        List.mem_filterMap.2 ⟨cell, Arena.mem_cells hcell, hcellArgs⟩
      rw [h.args?_eq hlist, Option.bind_eq_bind, Option.bind_some, hinner]
      rfl

/-- Nodes are evaluated in range if their calls are. -/
theorem evalCells?_eq (h : t.WellFormed) {ctx : EvalContext}
    {call? : String → Range → Span → Option (Run String)}
    {call : String → Range → Span → Run String}
    (hcall : ∀ name args span, args ∈ t.argLists →
      call? name args span = some (call name args span))
    {cells : List Cell} (hcells : ∀ cell ∈ cells, cell ∈ t.cells.toList) :
    t.evalCells? ctx call? cells = some (t.evalCells ctx call cells) := by
  induction cells with
  | nil => rfl
  | cons cell cells ih =>
    obtain ⟨hcell, hcells⟩ := List.forall_mem_cons.1 hcells
    have hname : t.text? cell.text = some (t.textOf cell.text) :=
      h.text?_eq (List.mem_map_of_mem hcell)
    -- Whatever the text of the first node, the rest follows in range.
    have hrest : ∀ x : Run String,
        (x.bind? fun text => do
          let rest ← t.evalCells? ctx call? cells
          rest.bind? fun rest => some (pure (text ++ rest))) =
        some (x.bind fun text => (t.evalCells ctx call cells).bind fun rest =>
          pure (text ++ rest)) := by
      refine fun x => Run.bind?_eq fun text => ?_
      rw [ih hcells]
      exact Run.bind?_eq fun rest => rfl
    cases cell with
    | literal text span =>
      rw [Cell.text] at hname
      rw [Arena.evalCells?, hname]
      exact hrest (pure _)
    | field name span =>
      rw [Cell.text] at hname
      rw [Arena.evalCells?, hname]
      exact hrest (ctx.fieldText _ span)
    | call name args span =>
      have hlist : args ∈ t.argLists := List.mem_filterMap.2 ⟨_, hcell, rfl⟩
      rw [Cell.text] at hname
      simp only [Arena.evalCells?, hname, Option.bind_eq_bind, Option.bind_some,
        hcall _ args span hlist]
      exact hrest _

/-- Sequences are evaluated in range. -/
theorem evalSeq?_eq (h : t.WellFormed) (ctx : EvalContext) {r : Range} (hr : r ∈ t.sequences)
    (levels : Nat) : t.evalSeq? ctx levels r = some (t.evalSeq ctx levels r) := by
  induction levels generalizing r with
  | zero =>
    rw [Arena.evalSeq?, h.cells?_eq hr]
    exact h.evalCells?_eq (fun _ _ _ _ => rfl) fun _ => Arena.mem_cells
  | succ levels ih =>
    rw [Arena.evalSeq?, h.cells?_eq hr]
    refine h.evalCells?_eq (fun name args span hlist => ?_) fun _ => Arena.mem_cells
    rw [h.args?_eq hlist]
    refine ctx.dispatch?_eq (fun i => ?_) name span _
    cases hi : (t.argsOf args)[i]? with
    | none => rfl
    | some operand =>
      refine ih (List.mem_cons_of_mem _ (List.mem_flatMap.2 ⟨args, hlist, ?_⟩))
      exact List.mem_of_getElem? hi

end Template.WellFormed

/-- The tables of every template that was compiled are well formed: all that is in them lies in
range and has one owner, and from the root one comes to all of it, on paths that end. So nothing
that reads the template goes out of range. -/
theorem compileWithin_wellFormed {limits : Reader.Limits} {source : String} {t : Template}
    (h : compileWithin limits source = .ok t) :
    t.WellFormed ∧ WellFounded t.ArgumentOf ∧ (∀ r, t.Reaches r ↔ r ∈ t.sequences) ∧
      (∀ r ∈ t.sequences, t.cells? r = some (t.cellsOf r)) ∧
      (∀ r ∈ t.argLists, t.args? r = some (t.argsOf r)) ∧
      (∀ r ∈ t.texts, t.text? r = some (t.textOf r)) ∧
      t.depth? = some t.depth ∧ ∀ ctx, t.evaluate? ctx = some (t.evaluate ctx) := by
  have hwell : t.WellFormed := by
    rw [← ofNodes_toNodes_of_compileWithin h]
    exact Template.wellFormed_ofNodes _
  have hroot : t.root ∈ t.sequences := List.mem_cons_self
  exact ⟨hwell, hwell.wellFounded_argumentOf,
    fun _ => ⟨Template.mem_sequences_of_reaches, hwell.reaches⟩,
    fun _ => hwell.cells?_eq, fun _ => hwell.args?_eq, fun _ => hwell.text?_eq,
    hwell.depthWithin?_eq hroot hwell.root_inside, fun ctx => hwell.evalSeq?_eq ctx hroot _⟩

/-- Calls inside each other, one without arguments and one with an empty argument. -/
theorem compileWithin_wellFormed_nested :
    ∃ t, compileWithin { maxDepth := 2 } "é$f(%x%,$g(),)" = .ok t ∧ t.WellFormed ∧
      t.sequences = [⟨2, 2⟩, ⟨0, 1⟩, ⟨1, 1⟩, ⟨2, 0⟩] ∧ t.argLists = [⟨0, 0⟩, ⟨0, 3⟩] ∧
      t.texts = [⟨2, 1⟩, ⟨3, 1⟩, ⟨0, 2⟩, ⟨4, 1⟩] ∧ t.depth? = some 2 := by
  have ht := (compileWithin_eq_ok_iff { maxDepth := 2 } "é$f(%x%,$g(),)" _).2
    ⟨[.plain 'é', .call "f" [[.field "x"], [.call "g" []], []]],
      ⟨⟨by decide, by decide⟩, by decide, ⟨by decide, by decide, by decide⟩⟩, rfl⟩
  obtain ⟨hwell, -, -, -, -, -, hdepth, -⟩ := compileWithin_wellFormed ht
  refine ⟨_, ht, hwell, by decide, by decide, by decide, hdepth.trans ?_⟩
  rw [Template.depth_ofNodes]
  rfl

end TagTemplate
