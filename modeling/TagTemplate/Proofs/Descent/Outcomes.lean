import TagTemplate.Proofs.Descent.Mirror

/-!
# What each function of the parser does

Every function of the parser is told by an `Outcome`: where the parser gets to and what it has
written into the tables, as the layout of some nodes; and that the machine, in the state where the
parser stands, does the same with the source and adds the same nodes. This is said of the parser
from any place on, with anything in its tables.

Each lemma here is one step of the induction on the number of steps: it takes what is said of the
functions with fewer steps and says it of one function with one step more.
-/

namespace TagTemplate

namespace Descent

open Reader (Limits State Frame)

variable {limits : Limits}

/-! ## What is said of the functions -/

/-- What may follow a sequence that has been read to its end. -/
def Context.Ends : Context → List Char → Prop
  | .topLevel, rest => rest = []
  | .argument, rest => ∀ c more, rest = c :: more → c = ',' ∨ c = ')'

/-- As many calls are open as the parser has counted, and one at least around an argument. -/
def Context.Stands (context : Context) (p : Parser) (frames : List Frame) : Prop :=
  frames.length = p.depth ∧ (context = .argument ↔ frames ≠ [])

/-- Reading at the same depth leaves the calls around a sequence open. -/
theorem Context.Stands.reads {context : Context} {p q : Parser} {frames : List Frame}
    (h : context.Stands p frames) (hpq : p.Reads q) : context.Stands q frames :=
  ⟨h.1.trans hpq.depth.symm, h.2⟩

/-- A field reference or a call whose first character is `c`: it becomes one node, and the machine
reads it so in every sequence that it may stand in. -/
def NodeOutcome (limits : Limits) (p : Parser) (c : Char) (rest : List Char) :
    Except Fault (Cell × Parser) → Prop :=
  Outcome
    (fun r => ∃ node : Node, node.layout p.arena = (r.1, r.2.arena) ∧
      (p.skip [c] rest).Reads r.2 ∧
      ∀ (v : Locals) before frames, v.literal = "" → frames.length = p.depth →
        (p.state v before frames).complete limits (c :: rest) =
          (r.2.state { v with start := r.2.pos } (before ++ [node]) frames).complete limits
            r.2.rest)
    (fun e => ∀ (v : Locals) before frames, v.literal = "" → frames.length = p.depth →
      (p.state v before frames).complete limits (c :: rest) = .error e)

/-- A sequence that is read from within it on. -/
def SequenceOutcome (limits : Limits) (context : Context) (p : Parser) (v : Locals) :
    Except Fault (List Cell × Parser) → Prop :=
  Outcome
    (fun r => ∃ nodes more, Node.layoutSeq p.arena nodes = (more, r.2.arena) ∧
      r.1 = v.cells ++ more ∧ p.Reads r.2 ∧ context.Ends r.2.rest ∧
      (nodes = [] → v.literal = "" ∧ r.2.rest = p.rest) ∧
      ∃ w : Locals, w.literal = "" ∧ (r.2.rest ≠ [] → w.groups = 0) ∧
        ∀ before frames, context.Stands p frames →
          (p.state v before frames).complete limits p.rest =
            (r.2.state w (before ++ nodes) frames).complete limits r.2.rest)
    (fun e => ∀ before frames, context.Stands p frames →
      (p.state v before frames).complete limits p.rest = .error e)

/-! ## Sequences -/

section
variable {context : Context} {p : Parser} {v : Locals}

/-- Where a sequence ends, its last literal does. -/
theorem flush_outcome (hends : context.Ends p.rest) (hgroups : p.rest ≠ [] → v.groups = 0)
    (hbreaks : ∀ frames, context.Stands p frames → State.Breaks frames v.groups p.rest) :
    SequenceOutcome limits context p v (do
      let (v, p) ← p.flushLiteral limits v
      .ok (v.cells, p)) := by
  refine (p.flushLiteral_outcome v).bind (fun e he before frames hstands => ?_) ?_
  · rw [State.complete_endLiteral rfl (hbreaks frames hstands), he]
    rfl
  · rintro r ⟨nodes, more, arena, hlayout, rfl, hnone, hend⟩
    refine ⟨nodes, more, hlayout, rfl, (Parser.Reads.refl p).store arena, hends,
      fun h => ⟨hnone h, rfl⟩, { v with cells := v.cells ++ more, literal := "" }, rfl, hgroups, ?_⟩
    intro before frames hstands
    rw [State.complete_endLiteral rfl (hbreaks frames hstands), hend]
    rfl

/-- A node inside a sequence: the literal before it ends, and the sequence goes on behind it. -/
theorem node_outcome {c : Char} {rest : List Char} (hrest : p.rest = c :: rest)
    (hc : c = '%' ∨ c = '$') {f : Parser → Except Fault (Cell × Parser)}
    (hread : ∀ arena, NodeOutcome limits { p with arena } c rest (f { p with arena }))
    {g : Parser → Locals → Except Fault (List Cell × Parser)}
    (hnext : ∀ q v, q.rest.length ≤ rest.length → SequenceOutcome limits context q v (g q v)) :
    SequenceOutcome limits context p v (do
      let (v, p) ← p.flushLiteral limits v
      let (cell, p) ← f p
      g p { v with cells := v.cells ++ [cell], start := p.pos }) := by
  have hbreaks : ∀ frames, State.Breaks frames v.groups p.rest := by
    intro frames
    rw [hrest]
    exact hc.imp_right .inl
  refine (p.flushLiteral_outcome v).bind (fun e he before frames _ => ?_) ?_
  · rw [State.complete_endLiteral rfl (hbreaks frames), he]
    rfl
  rintro r ⟨nodes, more, arena, hlayout, rfl, -, hend⟩
  have hflushed : ∀ before frames, (p.state v before frames).complete limits p.rest =
      ({ p with arena }.state { v with cells := v.cells ++ more, literal := "" }
        (before ++ nodes) frames).complete limits (c :: rest) := by
    intro before frames
    rw [State.complete_endLiteral rfl (hbreaks frames), hend, ← hrest]
    rfl
  refine (hread arena).bind (fun e he before frames hstands => ?_) ?_
  · rw [hflushed]
    exact he _ _ _ rfl hstands.1
  rintro ⟨cell, q⟩ ⟨node, hnode, hreads, hcomplete⟩
  have hpq : p.Reads q := by
    have hskip : p.Reads ({ p with arena }.skip [c] rest) := (Parser.Reads.skip hrest).store arena
    exact hskip.trans hreads
  refine (hnext q _ hreads.length_le).imp ?_ fun e he before frames hstands => ?_
  · rintro ⟨cells, q'⟩ ⟨nodes', more', hlayout', rfl, hreads', hends, -, w, hw, hgroups, hrun⟩
    refine ⟨nodes ++ node :: nodes', more ++ cell :: more', ?_, ?_, hpq.trans hreads', hends,
      fun h => absurd h (by simp), w, hw, hgroups, fun before frames hstands => ?_⟩
    · rw [Node.layoutSeq_append, hlayout, Node.layoutSeq]
      dsimp only at hnode hlayout' ⊢
      rw [hnode]
      dsimp only
      rw [hlayout']
    · simp
    · rw [hflushed, hcomplete _ _ _ rfl hstands.1]
      have h := hrun (before ++ nodes ++ [node]) frames (hstands.reads hpq)
      simp only [List.append_assoc, List.singleton_append] at h ⊢
      exact h
  · rw [hflushed, hcomplete _ _ _ rfl hstands.1]
    exact he _ frames (hstands.reads hpq)

/-- A part of a literal is read, and the sequence goes on behind it. -/
theorem literal_outcome {q : Parser} {w : Locals} {x : Except Fault (List Cell × Parser)}
    (harena : q.arena = p.arena) (hreads : p.Reads q) (hcells : w.cells = v.cells)
    (hliteral : w.literal ≠ "")
    (hcomplete : ∀ before frames, context.Stands p frames →
      (p.state v before frames).complete limits p.rest =
        (q.state w before frames).complete limits q.rest)
    (hx : SequenceOutcome limits context q w x) : SequenceOutcome limits context p v x := by
  refine Outcome.imp hx ?_ fun e he before frames hstands => ?_
  · rintro r ⟨nodes, more, hlayout, hr, hreads', hends, hnone, w', hw, hgroups, hrun⟩
    refine ⟨nodes, more, harena ▸ hlayout, hcells ▸ hr, hreads.trans hreads', hends,
      fun h => absurd (hnone h).1 hliteral, w', hw, hgroups, fun before frames hstands => ?_⟩
    rw [hcomplete before frames hstands]
    exact hrun before frames (hstands.reads hreads)
  · rw [hcomplete before frames hstands]
    exact he before frames (hstands.reads hreads)

/-- A character that neither opens a node or an escape nor ends the sequence is text. -/
theorem step_keep {c : Char} (hc : (Piece.plain c).Valid)
    (hopen : ¬((c = ',' ∨ c = ')') ∧ context = .argument ∧ v.groups = 0)) {frames : List Frame}
    (hstands : context.Stands p frames) (before : List Node) (rest : List Char) :
    (p.state v before frames).step limits c =
      .ok ((p.skip [c] rest).state (v.keep c
        (if c = '(' ∧ context = .argument then v.groups + 1
        else if c = ')' ∧ context = .argument then v.groups - 1
        else v.groups)) before frames) := by
  rw [Parser.state_keep, State.step_of_text limits rfl]
  cases frames with
  | nil =>
    have hcontext : context ≠ .argument := fun h => hstands.2.1 h rfl
    rw [State.stepText_top limits rfl hc, if_neg fun h => hcontext h.2,
      if_neg fun h => hcontext h.2]
  | cons frame outer =>
    have hcontext : context = .argument := hstands.2.2 (List.cons_ne_nil _ _)
    subst hcontext
    simp only [true_and, and_true] at hopen ⊢
    rw [State.stepText_inner limits rfl hc, State.stepArgument,
      if_neg fun h => hopen ⟨.inl h.1, h.2⟩, if_neg fun h => hopen ⟨.inr h.1, h.2⟩]
    rfl

/-- The parser of sequences does one step and leaves the others to parsers with fewer steps. -/
theorem sequence_outcome_succ {steps : Nat}
    (hseq : ∀ p v, 2 * p.rest.length + 1 ≤ steps →
      SequenceOutcome limits context p v (sequence limits context steps p v))
    (hcall : ∀ p rest, p.rest = '$' :: rest → 2 * p.rest.length ≤ steps →
      NodeOutcome limits p '$' rest (call limits steps p rest))
    (p : Parser) (v : Locals) (hsteps : 2 * p.rest.length + 1 ≤ steps + 1) :
    SequenceOutcome limits context p v (sequence limits context (steps + 1) p v) := by
  rw [sequence]
  cases hrest : p.rest with
  | nil =>
    refine flush_outcome ?_ (fun h => absurd hrest h) fun frames _ => ?_
    · rw [hrest]
      cases context with
      | topLevel => rfl
      | argument => exact fun c more h => by cases h
    · rw [hrest]
      trivial
  | cons c rest =>
    have hlen : p.rest.length = rest.length + 1 := by rw [hrest, List.length_cons]
    have hnext : ∀ q v, q.rest.length ≤ rest.length →
        SequenceOutcome limits context q v (sequence limits context steps q v) :=
      fun q v hq => hseq q v (by omega)
    dsimp only
    by_cases hpercent : c = '%'
    · rw [if_pos hpercent]
      subst hpercent
      refine node_outcome hrest (.inl rfl) (f := fun p => p.field limits rest)
        (fun arena => ?_) hnext
      refine ({ p with arena }.field_outcome hrest).imp ?_ fun e he v before frames hv _ => ?_
      · rintro r ⟨node, hnode, hreads, hrun⟩
        exact ⟨node, hnode, hreads, fun v before frames hv _ => hrest ▸ hrun v before frames hv⟩
      · exact hrest ▸ he v before frames hv
    rw [if_neg hpercent]
    by_cases hdollar : c = '$'
    · rw [if_pos hdollar]
      subst hdollar
      exact node_outcome hrest (.inr rfl) (f := fun p => call limits steps p rest)
        (fun arena => hcall { p with arena } rest hrest (Nat.le_of_succ_le_succ hsteps)) hnext
    rw [if_neg hdollar]
    by_cases hbackslash : c = '\\'
    · rw [if_pos hbackslash]
      subst hbackslash
      refine (p.escape_outcome v hrest).bind (fun e he before frames _ => he before frames) ?_
      rintro ⟨w, q⟩ ⟨harena, hreads, hlt, hcells, hliteral, hcomplete⟩
      exact literal_outcome harena hreads hcells hliteral
        (fun before frames _ => hcomplete before frames)
        (hnext q w (Nat.le_of_lt_succ (hlt.trans_eq hlen)))
    rw [if_neg hbackslash]
    by_cases hend : (c = ',' ∨ c = ')') ∧ context = .argument ∧ v.groups = 0
    · rw [if_pos hend]
      obtain ⟨hc, hcontext, hgroups⟩ := hend
      refine flush_outcome ?_ (fun _ => hgroups) fun frames hstands => ?_
      · subst hcontext
        rw [hrest]
        rintro _ _ ⟨⟩
        exact hc
      · rw [hrest]
        exact .inr (.inr ⟨hc, hstands.2.1 hcontext, hgroups⟩)
    rw [if_neg hend]
    have hkeep : ∀ groups, groups = (if c = '(' ∧ context = .argument then v.groups + 1
        else if c = ')' ∧ context = .argument then v.groups - 1 else v.groups) →
        SequenceOutcome limits context p v
          (sequence limits context steps (p.skip [c] rest) (v.keep c groups)) := by
      rintro groups rfl
      refine literal_outcome (q := p.skip [c] rest) (w := v.keep c _) rfl (.skip hrest) rfl
        (by simp [Locals.keep]) ?_
        (hnext _ _ (Nat.le_refl _))
      intro before frames hstands
      rw [hrest]
      exact State.complete_of_step
        (step_keep ⟨hpercent, hdollar, hbackslash⟩ hend hstands before rest)
    split
    · next hparen => exact hkeep _ (if_pos hparen).symm
    · next hparen =>
      rw [if_neg hparen] at hkeep
      split
      · next hclose =>
        rw [if_pos hclose] at hkeep
        cases hgroups : v.groups with
        | zero => exact absurd ⟨.inr hclose.1, hclose.2, hgroups⟩ hend
        | succ groups =>
          rw [hgroups] at hkeep
          exact hkeep groups rfl
      · next hclose =>
        rw [if_neg hclose] at hkeep
        exact hkeep _ rfl

end

/-! ## Arguments -/

section
variable {p : Parser} {start : Nat}

/-- The arguments of the call at `start` from the beginning of one of them on. -/
def ArgumentsFromOutcome (limits : Limits) (start : Nat) (p : Parser) (args : List Range) :
    Except Fault (List Range × Parser) → Prop :=
  Outcome
    (fun r => ∃ nodes more, Node.layoutArgs p.arena nodes = (more, r.2.arena) ∧
      r.1 = args ++ more ∧ p.Reads r.2 ∧
      ∀ (frame : Frame) outer, outer.length + 1 = p.depth → frame.start = start →
        (frame.args = #[] → p.rest.head? ≠ some ')') →
        (p.state { start := p.pos } [] (frame :: outer)).complete limits p.rest =
          (r.2.state { start := r.2.pos } [] []).endCall limits
            { frame with args := frame.args ++ nodes.toArray } outer >>=
              fun st => st.complete limits r.2.rest)
    (fun e => ∀ (frame : Frame) outer, outer.length + 1 = p.depth → frame.start = start →
      (frame.args = #[] → p.rest.head? ≠ some ')') →
      (p.state { start := p.pos } [] (frame :: outer)).complete limits p.rest = .error e)

/-- The arguments of the call at `start` up to the parenthesis that closes it. -/
def ArgumentsOutcome (limits : Limits) (start : Nat) (p : Parser) :
    Except Fault (Range × Parser) → Prop :=
  Outcome
    (fun r => ∃ nodes ranges arena, Node.layoutArgs p.arena nodes = (ranges, arena) ∧
      arena.pushArgs ranges = (r.1, r.2.arena) ∧ p.Reads r.2 ∧
      ∀ (frame : Frame) outer, outer.length + 1 = p.depth → frame.start = start →
        frame.args = #[] →
        (p.state { start := p.pos } [] (frame :: outer)).complete limits p.rest =
          limits.reserve r.2.arena.usage.text frame.name.utf8ByteSize r.2.pos >>= fun text =>
            ({ r.2.state { start := r.2.pos } [] outer with
              draft := frame.outer
              usage := { r.2.arena.usage with text } }.addNode
                (.call frame.name nodes ⟨start, r.2.pos⟩)).complete limits r.2.rest)
    (fun e => ∀ (frame : Frame) outer, outer.length + 1 = p.depth → frame.start = start →
      frame.args = #[] →
      (p.state { start := p.pos } [] (frame :: outer)).complete limits p.rest = .error e)

/-- To end an argument in the machine is to store its nodes in the tables of the parser. -/
theorem endArgument_state {v : Locals} (hliteral : v.literal = "") (p : Parser) (nodes : List Node)
    (frames : List Frame) (frame : Frame) :
    (p.state v nodes frames).endArgument limits frame =
      limits.reserve p.arena.usage.nodes nodes.length p.pos >>= fun count =>
        .ok ({ p.state v nodes frames with usage := { p.arena.usage with nodes := count } },
          { frame with args := frame.args.push nodes }) := by
  rw [State.endArgument, State.endLiteral_of_empty hliteral]
  rfl

/-- What the machine does once an argument has been ended. -/
def afterArgument (limits : Limits) (outer : List Frame) (rest : List Char)
    (r : State × Frame) : Except CompileError (List Node) :=
  match rest with
  | [] => .error (.unterminatedArguments r.2.start r.1.pos)
  | ')' :: rest => (r.1.skip ')').endCall limits r.2 outer >>= fun st => st.complete limits rest
  | c :: rest =>
    let st := r.1.skip c
    { st with draft := { start := st.pos }, frames := r.2 :: outer }.complete limits rest

/-- At the end of an argument the machine ends it and then goes on, unless there is none. -/
theorem complete_argument {w : Locals} (hliteral : w.literal = "") {q : Parser} {nodes : List Node}
    {frame : Frame} (outer : List Frame) (hends : Context.argument.Ends q.rest)
    (hgroups : q.rest ≠ [] → w.groups = 0)
    (hsome : frame.args = #[] → nodes = [] → q.rest.head? ≠ some ')') :
    (q.state w nodes (frame :: outer)).complete limits q.rest =
      (q.state w nodes (frame :: outer)).endArgument limits frame >>=
        afterArgument limits outer q.rest := by
  cases hrest : q.rest with
  | nil =>
    rw [State.complete_nil, endArgument_state hliteral]
    show (State.endArgument .. >>= _) = _
    rw [endArgument_state hliteral]
    cases limits.reserve q.arena.usage.nodes nodes.length q.pos <;> rfl
  | cons c rest =>
    have hopen : w.groups = 0 := hgroups (hrest ▸ List.cons_ne_nil _ _)
    have hstep : ∀ c, (Piece.plain c).Valid → (q.state w nodes (frame :: outer)).step limits c =
        (q.state w nodes (frame :: outer)).stepArgument limits frame outer c := by
      intro c hc
      rw [State.step_of_text limits rfl, State.stepText_inner limits rfl hc]
    rw [State.complete_cons]
    rcases hends c rest hrest with rfl | rfl
    · rw [hstep ',' ⟨by decide, by decide, by decide⟩, State.stepArgument, if_pos ⟨rfl, hopen⟩,
        bind_assoc]
      rfl
    · have hnone : (frame.args.isEmpty && (q.state w nodes (frame :: outer)).atSequenceStart) =
          false := by
        refine Bool.eq_false_iff.2 fun h => ?_
        rw [hrest] at hsome
        simp [Parser.state, State.atSequenceStart] at h
        exact hsome h.1 h.2.1 rfl
      rw [hstep ')' ⟨by decide, by decide, by decide⟩, State.stepArgument_close hopen, hnone,
        if_neg Bool.false_ne_true, bind_assoc]
      rfl

/-- The parser of arguments reads one and leaves the others to a parser with fewer steps. -/
theorem argumentsFrom_outcome_succ {steps : Nat}
    (hseq : ∀ p v, 2 * p.rest.length + 1 ≤ steps →
      SequenceOutcome limits .argument p v (sequence limits .argument steps p v))
    (hmore : ∀ p args, 2 * p.rest.length + 2 ≤ steps →
      ArgumentsFromOutcome limits start p args (argumentsFrom limits steps start p args))
    (p : Parser) (args : List Range) (hsteps : 2 * p.rest.length + 2 ≤ steps + 1) :
    ArgumentsFromOutcome limits start p args (argumentsFrom limits (steps + 1) start p args) := by
  rw [argumentsFrom]
  have hstands : ∀ (frame : Frame) outer, outer.length + 1 = p.depth →
      Context.argument.Stands p (frame :: outer) := fun frame outer h =>
    ⟨h, ⟨fun _ => List.cons_ne_nil _ _, fun _ => rfl⟩⟩
  refine (hseq p { start := p.pos } (by omega)).bind (fun e he frame outer hdepth _ _ => ?_) ?_
  · exact he [] _ (hstands frame outer hdepth)
  rintro ⟨cells, q⟩ ⟨nodes, _, hlayout, rfl, hreads, hends, hnone, w, hw, hgroups, hrun⟩
  dsimp only at *
  have hlength : cells.length = nodes.length := Node.length_of_layoutSeq hlayout
  have hargument : ∀ (frame : Frame) outer, outer.length + 1 = p.depth →
      (frame.args = #[] → p.rest.head? ≠ some ')') →
      (p.state { start := p.pos } [] (frame :: outer)).complete limits p.rest =
        limits.reserve q.arena.usage.nodes cells.length q.pos >>= fun count =>
          afterArgument limits outer q.rest
            ({ q.state w nodes (frame :: outer) with
              usage := { q.arena.usage with nodes := count } },
              { frame with args := frame.args.push nodes }) := by
    intro frame outer hdepth hfirst
    have hrun := hrun [] _ (hstands frame outer hdepth)
    rw [List.nil_append] at hrun
    rw [hrun, complete_argument hw outer hends hgroups fun h h' => (hnone h').2 ▸ hfirst h,
      endArgument_state hw, hlength, bind_assoc]
    rfl
  refine (q.store_outcome _ _ _).bind (fun e he frame outer hdepth _ hfirst => ?_) ?_
  · rw [hargument frame outer hdepth hfirst, he]
    rfl
  rintro r ⟨rfl, hroom⟩
  have hroomy : ∀ (frame : Frame) outer, outer.length + 1 = p.depth →
      (frame.args = #[] → p.rest.head? ≠ some ')') →
      (p.state { start := p.pos } [] (frame :: outer)).complete limits p.rest =
        afterArgument limits outer q.rest
          ({ q with arena := (q.arena.pushCells cells).2 }.state w nodes (frame :: outer),
            { frame with args := frame.args.push nodes }) := by
    intro frame outer hdepth hfirst
    rw [hargument frame outer hdepth hfirst, hroom, Parser.state_pushCells]
    rfl
  cases hrest : q.rest with
  | nil =>
    intro frame outer hdepth hstart hfirst
    rw [hroomy frame outer hdepth hfirst, hrest, ← hstart]
    rfl
  | cons c rest =>
    have hlt : rest.length < p.rest.length := by
      have := hreads.length_le
      rw [hrest, List.length_cons] at this
      omega
    have hskip : ∀ c, q.rest = c :: rest →
        p.Reads (({ q with arena := (q.arena.pushCells cells).2 } : Parser).skip [c] rest) :=
      fun c hc => (hreads.store _).trans (.skip hc)
    have hlayoutArgs : ∀ more : List (List Node), Node.layoutArgs p.arena (nodes :: more) =
        ((q.arena.pushCells cells).1 :: (Node.layoutArgs (q.arena.pushCells cells).2 more).1,
          (Node.layoutArgs (q.arena.pushCells cells).2 more).2) := by
      intro more
      rw [Node.layoutArgs, hlayout]
    rcases hends c rest hrest with rfl | rfl
    · have hnext : ∀ (frame : Frame) outer, outer.length + 1 = p.depth →
          (frame.args = #[] → p.rest.head? ≠ some ')') →
          (p.state { start := p.pos } [] (frame :: outer)).complete limits p.rest =
            ((({ q with arena := (q.arena.pushCells cells).2 } : Parser).skip [','] rest).state
              { start := q.pos + 1 } [] ({ frame with args := frame.args.push nodes } ::
                outer)).complete limits rest := by
        intro frame outer hdepth hfirst
        rw [hroomy frame outer hdepth hfirst, hrest]
        rfl
      let comma : Parser := ({ q with arena := (q.arena.pushCells cells).2 } : Parser)
      have hsteps' : 2 * (comma.skip [','] rest).rest.length + 2 ≤ steps := by
        show 2 * rest.length + 2 ≤ steps
        omega
      refine (hmore (comma.skip [','] rest) _ hsteps').imp ?_
        fun e he frame outer hdepth hstart hfirst => ?_
      · rintro ⟨ranges, q'⟩ ⟨nodes', more, hlayout', rfl, hreads', hrun'⟩
        have hlayout' : Node.layoutArgs (q.arena.pushCells cells).2 nodes' = (more, q'.arena) :=
          hlayout'
        refine ⟨nodes :: nodes', (q.arena.pushCells cells).1 :: more, ?_, ?_,
          (hskip ',' hrest).trans hreads', fun frame outer hdepth hstart hfirst => ?_⟩
        · rw [hlayoutArgs, hlayout']
        · exact List.append_assoc ..
        · rw [hnext frame outer hdepth hfirst]
          have h := hrun' { frame with args := frame.args.push nodes } outer
            (hdepth.trans hreads.depth.symm) hstart fun h => absurd h Array.push_ne_empty
          have hargs : frame.args.push nodes ++ nodes'.toArray =
              frame.args ++ (nodes :: nodes').toArray := Array.toList_inj.1 (by simp)
          rw [← hargs]
          exact h
      · rw [hnext frame outer hdepth hfirst]
        exact he { frame with args := frame.args.push nodes } outer (hdepth.trans hreads.depth.symm)
          hstart fun h => absurd h Array.push_ne_empty
    · refine ⟨[nodes], [(q.arena.pushCells cells).1], ?_, rfl, hskip ')' hrest,
        fun frame outer hdepth hstart hfirst => ?_⟩
      · rw [hlayoutArgs]
        rfl
      · rw [hroomy frame outer hdepth hfirst, hrest]
        rfl

/-- The list of the arguments is written where the machine ends the call. -/
theorem finishArgs_outcome {q : Parser} {nodes : List (List Node)} {ranges : List Range}
    (hlayout : Node.layoutArgs p.arena nodes = (ranges, q.arena)) (hreads : p.Reads q)
    (hrun : ∀ (frame : Frame) outer, outer.length + 1 = p.depth → frame.start = start →
      frame.args = #[] →
      (p.state { start := p.pos } [] (frame :: outer)).complete limits p.rest =
        (q.state { start := q.pos } [] []).endCall limits
          { frame with args := nodes.toArray } outer >>= fun st => st.complete limits q.rest) :
    ArgumentsOutcome limits start p (q.finishArgs limits ranges) := by
  have hlength : ranges.length = nodes.length := Node.length_of_layoutArgs hlayout
  have hend : ∀ (frame : Frame) outer, frame.start = start →
      (q.state { start := q.pos } [] []).endCall limits { frame with args := nodes.toArray } outer =
        limits.reserve q.arena.usage.args ranges.length q.pos >>= fun args =>
          limits.reserve q.arena.usage.text frame.name.utf8ByteSize q.pos >>= fun text =>
            .ok ({ q.state { start := q.pos } [] outer with
              draft := frame.outer
              usage := { q.arena.usage with args, text } }.addNode
                (.call frame.name nodes ⟨start, q.pos⟩)) := by
    rintro frame outer rfl
    rw [hlength]
    rfl
  refine Outcome.imp (q.store_outcome _ _ _) ?_ fun e he frame outer hdepth hstart hnone => ?_
  · rintro r ⟨rfl, hroom⟩
    refine ⟨nodes, ranges, q.arena, hlayout, rfl, hreads.store _,
      fun frame outer hdepth hstart hnone => ?_⟩
    rw [hrun frame outer hdepth hstart hnone, hend frame outer hstart, hroom]
    show (limits.reserve q.arena.usage.text frame.name.utf8ByteSize q.pos >>= _) >>= _ = _
    have husage : (q.arena.pushArgs ranges).2.usage =
        { q.arena.usage with args := q.arena.usage.args + ranges.length } :=
      q.arena.usage_pushArgs ranges
    dsimp only
    rw [bind_assoc, husage]
    rfl
  · rw [hrun frame outer hdepth hstart hnone, hend frame outer hstart, he]
    rfl

/-- The parser of argument lists looks for the parenthesis that closes an empty one first. -/
theorem arguments_outcome_succ {steps : Nat}
    (hmore : ∀ p args, 2 * p.rest.length + 2 ≤ steps →
      ArgumentsFromOutcome limits start p args (argumentsFrom limits steps start p args))
    (p : Parser) (hsteps : 2 * p.rest.length + 3 ≤ steps + 1) :
    ArgumentsOutcome limits start p (arguments limits (steps + 1) start p) := by
  rw [arguments]
  split
  · next rest hrest =>
    have hlayout : Node.layoutArgs p.arena [] = ([], p.arena) := rfl
    refine finishArgs_outcome hlayout (.skip hrest) fun frame outer _ _ hnone => ?_
    obtain ⟨_, name, args, outer'⟩ := frame
    obtain rfl : args = #[] := hnone
    rw [hrest, State.complete_cons, State.step_of_text limits rfl,
      State.stepText_inner limits rfl ⟨by decide, by decide, by decide⟩,
      State.stepArgument_close rfl]
    rfl
  · next hrest =>
    have hfirst : p.rest.head? ≠ some ')' := by
      intro h
      obtain ⟨rest, h⟩ := List.head?_eq_some_iff.1 h
      exact hrest rest h
    refine (hmore p [] (by omega)).bind (fun e he frame outer hdepth hstart hnone =>
      he frame outer hdepth hstart fun _ => hfirst) ?_
    rintro ⟨ranges, q⟩ ⟨nodes, _, hlayout, rfl, hreads, hrun⟩
    refine finishArgs_outcome hlayout hreads fun frame outer hdepth hstart hnone => ?_
    rw [hrun frame outer hdepth hstart fun _ => hfirst, hnone, Array.empty_append]

end

/-! ## Calls -/

/-- The parser of calls reads the name and leaves the arguments to a parser with fewer steps. -/
theorem call_outcome_succ {steps : Nat}
    (hargs : ∀ start p, 2 * p.rest.length + 3 ≤ steps →
      ArgumentsOutcome limits start p (arguments limits steps start p))
    (p : Parser) {rest : List Char} (hrest : p.rest = '$' :: rest)
    (hsteps : 2 * p.rest.length ≤ steps + 1) :
    NodeOutcome limits p '$' rest (call limits (steps + 1) p rest) := by
  have hreads := (p.skip ['$'] rest).reads_takeName
  have harena : (p.skip ['$'] rest).takeName.2.arena = p.arena := rfl
  have hdepth : (p.skip ['$'] rest).takeName.2.depth = p.depth := rfl
  have hcomplete : ∀ (v : Locals) before frames, v.literal = "" →
      (p.state v before frames).complete limits ('$' :: rest) =
        { (p.skip ['$'] rest).takeName.2.state v before frames with
          mode := .callName p.pos (p.skip ['$'] rest).takeName.1 }.complete limits
            (p.skip ['$'] rest).takeName.2.rest := by
    intro v before frames hempty
    rw [← hrest]
    refine Parser.complete_takeName (Reader.step_callName limits p.pos) hrest ?_
    rw [State.step_of_text limits rfl, State.stepText, if_neg (by decide), if_pos rfl,
      State.endLiteral_of_empty hempty]
    rfl
  have hname : ∀ {c more}, (p.skip ['$'] rest).takeName.2.rest = c :: more →
      Reader.isNameChar c = false := Parser.isNameChar_takeName
  have hlength : rest.length + 1 = p.rest.length := by rw [hrest, List.length_cons]
  rw [call]
  generalize (p.skip ['$'] rest).takeName = r at *
  obtain ⟨name, q⟩ := r
  dsimp only at *
  by_cases hnone : name = ""
  · subst hnone
    rw [if_pos rfl]
    intro v before frames hempty _
    rw [hcomplete v before frames hempty]
    cases hq : q.rest with
    | nil => rfl
    | cons c more =>
      refine State.complete_of_step_error ?_
      show State.stepCallName .. = _
      rw [State.stepCallName, hname hq, if_neg Bool.false_ne_true, if_pos rfl]
  rw [if_neg hnone]
  cases hq : q.rest with
  | nil =>
    intro v before frames hempty _
    rw [hcomplete v before frames hempty, hq]
    exact congrArg Except.error (if_neg hnone)
  | cons c more =>
    have hc := hname hq
    dsimp only
    by_cases hparen : c = '('
    swap
    · rw [if_pos hparen]
      intro v before frames hempty _
      rw [hcomplete v before frames hempty, hq]
      refine State.complete_of_step_error ?_
      show State.stepCallName .. = _
      rw [State.stepCallName, hc, if_neg Bool.false_ne_true, if_neg hnone, if_pos hparen]
      rfl
    subst hparen
    rw [if_neg (not_not.2 rfl)]
    by_cases hdeep : limits.maxDepth ≤ (q.skip ['('] more).depth
    · rw [if_pos hdeep]
      intro v before frames hempty hframes
      rw [hcomplete v before frames hempty, hq]
      refine State.complete_of_step_error ?_
      show State.stepCallName .. = _
      rw [State.stepCallName, hc, if_neg Bool.false_ne_true, if_neg hnone, if_neg (not_not.2 rfl)]
      exact if_pos (show limits.maxDepth ≤ frames.length by rw [hframes, ← hdepth]; exact hdeep)
    rw [if_neg hdeep]
    -- The machine opens a frame where the parser counts one more call.
    have hopen : ∀ (v : Locals) before frames, v.literal = "" → frames.length = p.depth →
        (p.state v before frames).complete limits ('$' :: rest) =
          ({ q.skip ['('] more with depth := q.depth + 1 }.state
            { start := (q.skip ['('] more).pos } []
            ({ start := p.pos, name, outer := (q.state v before frames).draft } :: frames)).complete
              limits more := by
      intro v before frames hempty hframes
      rw [hcomplete v before frames hempty, hq]
      refine State.complete_of_step ?_
      have hopened :
          { q.state v before frames with mode := .callName p.pos name }.frames = frames := rfl
      refine (State.step_paren rfl hnone hopened ?_).trans rfl
      rw [hframes, ← hdepth]
      exact Nat.lt_of_not_le hdeep
    refine (hargs p.pos { q.skip ['('] more with depth := q.depth + 1 } ?_).bind
      (fun e he v before frames hempty hframes => ?_) ?_
    · have hle : more.length + 1 ≤ rest.length := by
        have := hreads.length_le
        rwa [hq, List.length_cons] at this
      show 2 * more.length + 3 ≤ steps
      omega
    · rw [hopen v before frames hempty hframes]
      exact he _ frames (by rw [hframes, ← hdepth]) rfl rfl
    rintro ⟨args, q'⟩ ⟨nodes, ranges, arena, hlayout, hpush, hreads', hrun⟩
    have hcount : decrement q'.depth = .ok q.depth := by
      rw [hreads'.depth]
      rfl
    have hback : (p.skip ['$'] rest).Reads { q' with depth := q.depth } :=
      (hreads.trans (.skip hq)).trans ⟨hreads'.consumed, rfl⟩
    have hclosed : ∀ (v : Locals) before frames, v.literal = "" → frames.length = p.depth →
        (p.state v before frames).complete limits ('$' :: rest) =
          limits.reserve q'.arena.usage.text name.utf8ByteSize q'.pos >>= fun text =>
            ({ q'.state { start := q'.pos } [] frames with
              draft := (q.state v before frames).draft
              usage := { q'.arena.usage with text } }.addNode
                (.call name nodes ⟨p.pos, q'.pos⟩)).complete limits q'.rest := by
      intro v before frames hempty hframes
      rw [hopen v before frames hempty hframes]
      exact hrun _ frames (by rw [hframes, ← hdepth]) rfl rfl
    dsimp only at *
    rw [hcount]
    show NodeOutcome limits p '$' rest
      (Parser.pushText limits { q' with depth := q.depth } name >>= _)
    refine Outcome.bind ({ q' with depth := q.depth }.store_outcome _ _ _)
      (fun e he v before frames hempty hframes => ?_) ?_
    · rw [hclosed v before frames hempty hframes]
      exact congrArg (· >>= _) he
    rintro r ⟨rfl, hroom⟩
    refine ⟨.call name nodes ⟨p.pos, q'.pos⟩, ?_, hback.store _,
      fun v before frames hempty hframes => ?_⟩
    · have hlayout : Node.layoutArgs q.arena nodes = (ranges, arena) := hlayout
      rw [Node.layout, ← harena, hlayout]
      dsimp only
      rw [hpush]
    · rw [hclosed v before frames hempty hframes, ← Parser.state_addNode, Parser.state_pushText]
      exact congrArg (· >>= _) hroom

end Descent

end TagTemplate
