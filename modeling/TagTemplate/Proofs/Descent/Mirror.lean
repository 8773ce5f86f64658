import Mathlib.Data.List.TakeWhile
import TagTemplate.Proofs.Descent.Parser
import TagTemplate.Proofs.Reading.Complete

/-!
# The parser and the machine

Both read a source from left to right, so where the parser stands the machine has a state as well
(`Parser.state`). What the machine makes of the rest of the source is `State.complete`; the lemmas
here follow it through what the parser does between two calls of its functions.
-/

namespace TagTemplate

/-! ## What the machine makes of the rest -/

namespace Reader

/-- Reads the rest of a source and ends it. -/
def State.complete (limits : Limits) (st : State) (cs : List Char) :
    Except CompileError (List Node) :=
  cs.foldlM (State.step limits) st >>= State.finish limits

namespace State

variable {limits : Limits} {st st' : State} {c : Char} {cs : List Char} {e : CompileError}

/-- At the end of the source the machine finishes. -/
theorem complete_nil (limits : Limits) (st : State) : st.complete limits [] = st.finish limits :=
  rfl

/-- The machine goes through a source character by character. -/
theorem complete_cons (limits : Limits) (st : State) (c : Char) (cs : List Char) :
    st.complete limits (c :: cs) = st.step limits c >>= fun st => st.complete limits cs := by
  rw [complete, List.foldlM_cons]
  cases st.step limits c <;> rfl

/-- After a step that succeeds the machine goes on from the new state. -/
theorem complete_of_step (h : st.step limits c = .ok st') :
    st.complete limits (c :: cs) = st'.complete limits cs := by
  rw [complete_cons, h]
  rfl

/-- A step that fails is the end of the reading. -/
theorem complete_of_step_error (h : st.step limits c = .error e) :
    st.complete limits (c :: cs) = .error e := by
  rw [complete_cons, h]
  rfl

/-- A name is collected as far as it goes. -/
theorem complete_name {mk : String → Mode}
    (hstep : ∀ (st : State) (name : String) (c : Char), st.mode = mk name → isNameChar c = true →
      st.step limits c = .ok { st.skip c with mode := mk (name.push c) })
    (hmode : st.mode = mk "") (cs : List Char) :
    st.complete limits cs =
      { st with
        pos := st.pos + String.utf8Len (cs.takeWhile isNameChar)
        mode := mk (.ofList (cs.takeWhile isNameChar)) }.complete limits
          (cs.dropWhile isNameChar) := by
  have hname := foldlM_name limits hstep (cs.takeWhile isNameChar)
    (fun c hc => List.mem_takeWhile_imp hc) "" st hmode
  rw [String.empty_append] at hname
  conv => lhs; rw [← List.takeWhile_append_dropWhile (p := isNameChar) (l := cs)]
  rw [complete, run_append hname]
  rfl

/-- A reference that a character has spoilt is never mended, and the character is to blame if
another `%` follows. -/
theorem complete_brokenField {start offset : Nat} {offender : Char}
    (hmode : st.mode = .brokenField start offender offset) (cs : List Char) :
    st.complete limits cs =
      .error (if '%' ∈ cs then .invalidIdentifier offender offset
        else .unterminatedField start) := by
  induction cs generalizing st with
  | nil =>
    rw [complete_nil, finish, hmode]
    rfl
  | cons c cs ih =>
    by_cases hc : c = '%'
    · subst hc
      have hstep : st.step limits '%' = .error (.invalidIdentifier offender offset) := by
        rw [step, hmode]
        rfl
      rw [complete_of_step_error hstep, if_pos List.mem_cons_self]
    · have hstep : st.step limits c = .ok (st.skip c) := by
        rw [step, hmode]
        exact if_neg hc
      have hmem : '%' ∈ c :: cs ↔ '%' ∈ cs :=
        ⟨fun h => (List.mem_cons.1 h).resolve_left fun h => hc h.symm, List.mem_cons_of_mem c⟩
      have hmode' : (st.skip c).mode = .brokenField start offender offset := hmode
      rw [complete_of_step hstep, ih hmode']
      exact congrArg Except.error (if_congr hmem.symm rfl rfl)

/-! ## Ending a literal -/

/-- Without pending text there is no literal to end. -/
theorem endLiteral_of_empty (h : st.draft.literal = "") : st.endLiteral limits = .ok st :=
  if_pos h

/-- At the start of a sequence there is no pending text. -/
theorem literal_of_atSequenceStart (h : st.atSequenceStart = true) : st.draft.literal = "" :=
  beq_iff_eq.1 (Bool.and_eq_true_iff.1 h).2

/-- An ended literal is not ended again, and nothing but the literal has changed. -/
theorem endLiteral_eq_ok (h : st.endLiteral limits = .ok st') :
    st'.endLiteral limits = .ok st' ∧ st'.mode = st.mode ∧ st'.frames = st.frames ∧
      st'.draft.groups = st.draft.groups ∧ st'.pos = st.pos ∧
      st'.atSequenceStart = st.atSequenceStart := by
  by_cases hempty : st.draft.literal = ""
  · have hst := h
    rw [endLiteral_of_empty hempty] at h
    cases h
    exact ⟨hst, rfl, rfl, rfl, rfl, rfl⟩
  · rw [endLiteral, if_neg hempty] at h
    obtain ⟨text, -, h⟩ := exists_of_bind_eq_ok h
    cases h
    refine ⟨endLiteral_of_empty rfl, rfl, rfl, rfl, rfl, ?_⟩
    rw [atSequenceStart, atSequenceStart, Bool.eq_iff_iff]
    simp [hempty]

/-- At the characters that end a literal, the machine first does that. -/
def Breaks (frames : List Frame) (groups : Nat) : List Char → Prop
  | [] => True
  | c :: _ => c = '%' ∨ c = '$' ∨ (c = ',' ∨ c = ')') ∧ frames ≠ [] ∧ groups = 0

/-- At the end of the source the machine first ends the growing literal. -/
theorem exists_finish_eq (limits : Limits) (frames : List Frame) :
    ∃ next : State → Except CompileError (List Node), ∀ st : State, st.mode = .text →
      st.frames = frames → st.finish limits = st.endLiteral limits >>= next := by
  cases frames with
  | nil =>
    refine ⟨fun st => limits.reserve st.usage.nodes st.draft.nodes.size st.pos >>= fun _ =>
      .ok st.draft.nodes.toList, fun st hmode hframes => ?_⟩
    rw [finish, hmode, hframes]
  | cons frame outer =>
    refine ⟨fun st => limits.reserve st.usage.nodes st.draft.nodes.size st.pos >>= fun _ =>
      .error (.unterminatedArguments frame.start st.pos), fun st hmode hframes => ?_⟩
    rw [finish, hmode, hframes]
    dsimp only
    rw [endArgument]
    cases hl : st.endLiteral limits with
    | error e => rfl
    | ok st' =>
      obtain ⟨-, -, -, -, hpos, -⟩ := endLiteral_eq_ok hl
      simp only [bind, Except.bind, ← hpos]
      cases limits.reserve st'.usage.nodes st'.draft.nodes.size st'.pos <;> rfl

/-- At the end of an argument the machine first ends the growing literal, also if it then finds that
there is no argument. -/
theorem exists_stepArgument_eq (limits : Limits) (frame : Frame) (outer : List Frame)
    (hc : c = ',' ∨ c = ')') :
    ∃ next : State → Except CompileError State, ∀ st : State, st.draft.groups = 0 →
      st.stepArgument limits frame outer c = st.endLiteral limits >>= next := by
  obtain rfl | rfl := hc
  · refine ⟨fun st => st.endArgument limits frame >>= fun r =>
      .ok { r.1.skip ',' with draft := { start := (r.1.skip ',').pos }, frames := r.2 :: outer },
      fun st hgroups => ?_⟩
    rw [stepArgument, if_pos ⟨rfl, hgroups⟩, endArgument]
    cases hl : st.endLiteral limits with
    | error e => rfl
    | ok st' => simp only [bind, Except.bind, endArgument, (endLiteral_eq_ok hl).1]
  · refine ⟨fun st =>
      (if frame.args.isEmpty && st.atSequenceStart then .ok (st, frame)
        else st.endArgument limits frame) >>= fun r =>
      (r.1.skip ')').endCall limits r.2 outer, fun st hgroups => ?_⟩
    rw [stepArgument_close hgroups]
    by_cases hnone : (frame.args.isEmpty && st.atSequenceStart) = true
    · have hempty := literal_of_atSequenceStart (Bool.and_eq_true_iff.1 hnone).2
      rw [endLiteral_of_empty hempty]
      rfl
    · rw [if_neg hnone, endArgument]
      cases hl : st.endLiteral limits with
      | error e => rfl
      | ok st' =>
        obtain ⟨hl', -, -, -, -, hstart⟩ := endLiteral_eq_ok hl
        rw [← hstart] at hnone
        show _ = (if _ then _ else _) >>= _
        rw [if_neg hnone, endArgument, hl']

/-- What the machine does with the rest of a source once it has ended the growing literal. -/
theorem exists_complete_eq (limits : Limits) {frames : List Frame} {groups : Nat}
    (h : Breaks frames groups cs) :
    ∃ next : State → Except CompileError (List Node), ∀ st : State, st.mode = .text →
      st.frames = frames → st.draft.groups = groups →
      st.complete limits cs = st.endLiteral limits >>= next := by
  cases cs with
  | nil =>
    obtain ⟨next, hnext⟩ := exists_finish_eq limits frames
    exact ⟨next, fun st hmode hframes _ => hnext st hmode hframes⟩
  | cons c cs =>
    suffices hstep : ∃ next : State → Except CompileError State, ∀ st : State, st.mode = .text →
        st.frames = frames → st.draft.groups = groups →
        st.step limits c = st.endLiteral limits >>= next by
      obtain ⟨next, hnext⟩ := hstep
      refine ⟨fun st => next st >>= fun st => st.complete limits cs,
        fun st hmode hframes hgroups => ?_⟩
      rw [complete_cons, hnext st hmode hframes hgroups, bind_assoc]
    obtain rfl | rfl | ⟨hc, hframes, rfl⟩ := h
    · exact ⟨fun st => .ok { st.skip '%' with mode := .fieldName st.pos "" },
        fun st hmode _ _ => step_of_text limits hmode '%'⟩
    · exact ⟨fun st => .ok { st.skip '$' with mode := .callName st.pos "" },
        fun st hmode _ _ => step_of_text limits hmode '$'⟩
    obtain ⟨frame, outer, rfl⟩ := List.exists_cons_of_ne_nil hframes
    have hplain : (Piece.plain c).Valid := by
      obtain rfl | rfl := hc <;> exact ⟨by decide, by decide, by decide⟩
    obtain ⟨next, hnext⟩ := exists_stepArgument_eq limits frame outer hc
    refine ⟨next, fun st hmode hframes hgroups => ?_⟩
    rw [step_of_text limits hmode, stepText_inner limits hframes hplain]
    exact hnext st hgroups

/-- What the machine does first may have been done before. -/
theorem complete_endLiteral (hmode : st.mode = .text)
    (hbreaks : Breaks st.frames st.draft.groups cs) :
    st.complete limits cs = st.endLiteral limits >>= fun st => st.complete limits cs := by
  obtain ⟨next, hnext⟩ := exists_complete_eq limits hbreaks
  rw [hnext st hmode rfl rfl]
  cases hl : st.endLiteral limits with
  | error e => rfl
  | ok st' =>
    obtain ⟨hl', hmode', hframes, hgroups, -, -⟩ := endLiteral_eq_ok hl
    show next st' = st'.complete limits cs
    rw [hnext st' (hmode'.trans hmode) hframes hgroups, hl']
    rfl

end State

end Reader

/-! ## Where the parser stands -/

namespace Descent

open Reader (Limits State Frame Draft)
open String (utf8Len)

variable {limits : Limits} {p q r : Parser} {v : Locals}

/-- The state of the machine where the parser stands in a sequence, with the nodes of that sequence
and the calls that are open around it. -/
def Parser.state (p : Parser) (v : Locals) (nodes : List Node) (frames : List Frame) : State where
  pos := p.pos
  mode := .text
  draft := { nodes := nodes.toArray, literal := v.literal, start := v.start, groups := v.groups }
  frames := frames
  usage := p.arena.usage

/-- A text of one character has the bytes of that character. -/
theorem utf8Len_singleton (c : Char) : utf8Len [c] = c.utf8Size := by
  rw [String.utf8Len_cons, String.utf8Len_nil, Nat.zero_add]

/-- To keep a character in the parser is to keep it in the machine. -/
theorem Parser.state_keep (p : Parser) (c : Char) (rest : List Char) (v : Locals) (groups : Nat)
    (nodes : List Node) (frames : List Frame) :
    (p.skip [c] rest).state (v.keep c groups) nodes frames =
      (p.state { v with groups } nodes frames).keep c := by
  rw [state, skip, utf8Len_singleton]
  rfl

/-- With one more text in the tables, the machine has counted it. -/
theorem Parser.state_pushText (p : Parser) (text : String) (v : Locals) (nodes : List Node)
    (frames : List Frame) :
    { p with arena := (p.arena.pushText text).2 }.state v nodes frames =
      { p.state v nodes frames with
        usage := { p.arena.usage with text := p.arena.usage.text + text.utf8ByteSize } } := by
  rw [state, state, Arena.usage_pushText]
  rfl

/-- With one more sequence in the tables, the machine has counted its nodes. -/
theorem Parser.state_pushCells (p : Parser) (cells : List Cell) (v : Locals) (nodes : List Node)
    (frames : List Frame) :
    { p with arena := (p.arena.pushCells cells).2 }.state v nodes frames =
      { p.state v nodes frames with
        usage := { p.arena.usage with nodes := p.arena.usage.nodes + cells.length } } := by
  rw [state, state, Arena.usage_pushCells]
  rfl

/-- To add a node in the parser is to add it in the machine. -/
theorem Parser.state_addNode (p : Parser) (v : Locals) (nodes : List Node) (frames : List Frame)
    (node : Node) :
    (p.state v nodes frames).addNode node =
      p.state { v with start := p.pos } (nodes ++ [node]) frames := by
  simp [State.addNode, state]

/-- The parser comes from one place to another by reading what lies between them, with as many calls
open as before. -/
structure Parser.Reads (p q : Parser) : Prop where
  consumed : ∃ cs, p.rest = cs ++ q.rest ∧ q.pos = p.pos + utf8Len cs
  depth : q.depth = p.depth

/-- A parser reads nothing by standing still. -/
theorem Parser.Reads.refl (p : Parser) : p.Reads p :=
  ⟨⟨[], rfl, rfl⟩, rfl⟩

/-- What is read in two goes is read in one. -/
theorem Parser.Reads.trans (hpq : p.Reads q) (hqr : q.Reads r) : p.Reads r := by
  obtain ⟨cs, hrest, hpos⟩ := hpq.consumed
  obtain ⟨ds, hrest', hpos'⟩ := hqr.consumed
  refine ⟨⟨cs ++ ds, ?_, ?_⟩, hqr.depth.trans hpq.depth⟩
  · rw [hrest, hrest', List.append_assoc]
  · rw [hpos', hpos, String.utf8Len_append, Nat.add_assoc]

/-- A parser reads what it skips. -/
theorem Parser.Reads.skip {cs rest : List Char} (h : p.rest = cs ++ rest) :
    p.Reads (p.skip cs rest) :=
  ⟨⟨cs, h, rfl⟩, rfl⟩

/-- Where the parser stands does not depend on the tables. -/
theorem Parser.Reads.store (h : p.Reads q) (arena : Arena) : p.Reads { q with arena } :=
  ⟨h.consumed, h.depth⟩

/-- No more of the source is left after reading than before. -/
theorem Parser.Reads.length_le (h : p.Reads q) : q.rest.length ≤ p.rest.length := by
  obtain ⟨cs, hrest, -⟩ := h.consumed
  rw [hrest, List.length_append]
  exact Nat.le_add_left _ _

/-- A parser reads the name that it takes. -/
theorem Parser.reads_takeName (p : Parser) : p.Reads p.takeName.2 :=
  .skip List.takeWhile_append_dropWhile.symm

/-! ## Outcomes -/

/-- The parser fails only where the source is refused; results are as said by `good`, and refusals
as said by `bad`. -/
def Outcome {α : Type} (good : α → Prop) (bad : CompileError → Prop) : Except Fault α → Prop
  | .ok a => good a
  | .error (.refused e) => bad e
  | .error .underflow | .error .exhausted => False

/-- Outcomes may be put after each other if what is said of refusals agrees. -/
theorem Outcome.bind {α β : Type} {good : α → Prop} {good' : β → Prop}
    {bad bad' : CompileError → Prop} {x : Except Fault α} {f : α → Except Fault β}
    (hx : Outcome good bad x) (hbad : ∀ e, bad e → bad' e)
    (hf : ∀ a, good a → Outcome good' bad' (f a)) : Outcome good' bad' (x >>= f) := by
  match x with
  | .ok a => exact hf a hx
  | .error (.refused e) => exact hbad e hx
  | .error .underflow | .error .exhausted => exact hx

/-- What is said of an outcome may be said more weakly. -/
theorem Outcome.imp {α : Type} {good good' : α → Prop} {bad bad' : CompileError → Prop}
    {x : Except Fault α} (hx : Outcome good bad x) (hgood : ∀ a, good a → good' a)
    (hbad : ∀ e, bad e → bad' e) : Outcome good' bad' x := by
  match x with
  | .ok a => exact hgood a hx
  | .error (.refused e) => exact hbad e hx
  | .error .underflow | .error .exhausted => exact hx

/-! ## Writing the tables -/

/-- The tables are taken over as they are where the machine has room for them. -/
theorem Parser.store_outcome (p : Parser) (used amount : Nat) (stored : Range × Arena) :
    Outcome
      (fun r => r = (stored.1, { p with arena := stored.2 }) ∧
        limits.reserve used amount p.pos = .ok (used + amount))
      (fun e => limits.reserve used amount p.pos = .error e)
      (p.store limits used amount stored) := by
  rw [store]
  cases h : limits.reserve used amount p.pos with
  | ok n =>
    obtain ⟨rfl, -⟩ := Reader.Limits.reserve_eq_ok h
    exact ⟨rfl, rfl⟩
  | error e => exact rfl

/-- Pending text becomes a literal in the machine as it does in the parser. -/
theorem Parser.endLiteral_state (p : Parser) (hsome : v.literal ≠ "") (before : List Node)
    (frames : List Frame) :
    (p.state v before frames).endLiteral limits =
      limits.reserve p.arena.usage.text v.literal.utf8ByteSize p.pos >>= fun text =>
        .ok { p.state { v with literal := "" } (before ++ [.literal v.literal ⟨v.start, p.pos⟩])
            frames with
          usage := { p.arena.usage with text } } := by
  simp [State.endLiteral, state, hsome]

/-- A literal is ended by the parser as by the machine, and becomes at most one node. -/
theorem Parser.flushLiteral_outcome (p : Parser) (v : Locals) :
    Outcome
      (fun r => ∃ nodes more arena, Node.layoutSeq p.arena nodes = (more, arena) ∧
        r = ({ v with cells := v.cells ++ more, literal := "" }, { p with arena }) ∧
        (nodes = [] → v.literal = "") ∧
        ∀ before frames, (p.state v before frames).endLiteral limits =
          .ok (r.2.state r.1 (before ++ nodes) frames))
      (fun e => ∀ before frames, (p.state v before frames).endLiteral limits = .error e)
      (p.flushLiteral limits v) := by
  rw [flushLiteral]
  split
  · next hempty =>
    refine ⟨[], [], p.arena, rfl, ?_, fun _ => hempty, fun before frames => ?_⟩
    · rw [List.append_nil, ← hempty]
    · rw [List.append_nil]
      exact State.endLiteral_of_empty hempty
  · next hsome =>
    refine (p.store_outcome _ _ _).bind (fun e he before frames => ?_) fun r hr => ?_
    · rw [p.endLiteral_state hsome, he]
      rfl
    · obtain ⟨rfl, hroom⟩ := hr
      refine ⟨[.literal v.literal ⟨v.start, p.pos⟩], _, _, rfl, rfl, fun h => (by cases h), ?_⟩
      intro before frames
      rw [p.endLiteral_state hsome, hroom]
      exact congrArg Except.ok (p.state_pushText v.literal ..).symm

/-! ## Parts without parts -/

/-- A backslash and what follows it are read by the parser as by the machine. -/
theorem Parser.escape_outcome (p : Parser) (v : Locals) {rest : List Char}
    (hrest : p.rest = '\\' :: rest) :
    Outcome
      (fun r => r.2.arena = p.arena ∧ p.Reads r.2 ∧ r.2.rest.length < p.rest.length ∧
        r.1.cells = v.cells ∧ r.1.literal ≠ "" ∧
        ∀ before frames, (p.state v before frames).complete limits p.rest =
          (r.2.state r.1 before frames).complete limits r.2.rest)
      (fun e => ∀ before frames, (p.state v before frames).complete limits p.rest = .error e)
      (p.escape v rest) := by
  have hstep : ∀ before frames, (p.state v before frames).step limits '\\' =
      .ok { (p.state v before frames).skip '\\' with mode := .escape p.pos } :=
    fun before frames => State.step_of_text limits rfl '\\'
  cases rest with
  | nil =>
    intro before frames
    rw [hrest, State.complete_of_step (hstep before frames)]
    rfl
  | cons c rest =>
    refine ⟨rfl, .skip hrest, ?_, rfl, ?_, fun before frames => ?_⟩
    · rw [hrest]
      show rest.length < rest.length + 2
      omega
    · simp
    · rw [hrest, State.complete_of_step (hstep before frames)]
      refine (State.complete_of_step rfl).trans ?_
      have hpos : p.pos + 1 + c.utf8Size = p.pos + utf8Len ['\\', c] := by
        have hbackslash : ('\\' : Char).utf8Size = 1 := rfl
        simp only [String.utf8Len_cons, String.utf8Len_nil, hbackslash]
        omega
      let literal := if Reader.isEscapable c then v.literal else v.literal.push '\\'
      exact congrArg (fun pos => { p.state { v with literal := literal.push c } before frames with
        pos }.complete limits rest) hpos

/-- Behind the name that was taken there is no character of a name. -/
theorem Parser.isNameChar_takeName {c : Char} {more : List Char}
    (h : p.takeName.2.rest = c :: more) : Reader.isNameChar c = false := by
  have hhead := List.head?_dropWhile_not Reader.isNameChar p.rest
  rw [show p.rest.dropWhile Reader.isNameChar = c :: more from h] at hhead
  exact hhead

/-- A character that opens a name and the name behind it are read by the parser as by the
machine. -/
theorem Parser.complete_takeName {mk : String → Reader.Mode} {c : Char} {rest : List Char}
    {before : List Node} {frames : List Frame}
    (hstep : ∀ (st : State) (name : String) (d : Char), st.mode = mk name →
      Reader.isNameChar d = true →
      st.step limits d = .ok { st.skip d with mode := mk (name.push d) })
    (hrest : p.rest = c :: rest)
    (hopen : (p.state v before frames).step limits c =
      .ok { (p.state v before frames).skip c with mode := mk "" }) :
    (p.state v before frames).complete limits p.rest =
      { (p.skip [c] rest).takeName.2.state v before frames with
        mode := mk (p.skip [c] rest).takeName.1 }.complete limits
          (p.skip [c] rest).takeName.2.rest := by
  rw [hrest, State.complete_of_step hopen, State.complete_name hstep rfl, takeName, skip, skip,
    utf8Len_singleton]
  rfl

/-- A field reference is read by the parser as by the machine, and becomes one node. -/
theorem Parser.field_outcome (p : Parser) {rest : List Char} (hrest : p.rest = '%' :: rest) :
    Outcome
      (fun r => ∃ node : Node, node.layout p.arena = (r.1, r.2.arena) ∧
        (p.skip ['%'] rest).Reads r.2 ∧
        ∀ v before frames, v.literal = "" →
          (p.state v before frames).complete limits p.rest =
            (r.2.state { v with start := r.2.pos } (before ++ [node]) frames).complete limits
              r.2.rest)
      (fun e => ∀ v before frames, v.literal = "" →
        (p.state v before frames).complete limits p.rest = .error e)
      (p.field limits rest) := by
  have hreads := (p.skip ['%'] rest).reads_takeName
  have harena : (p.skip ['%'] rest).takeName.2.arena = p.arena := rfl
  have hcomplete : ∀ (v : Locals) before frames, v.literal = "" →
      (p.state v before frames).complete limits p.rest =
        { (p.skip ['%'] rest).takeName.2.state v before frames with
          mode := .fieldName p.pos (p.skip ['%'] rest).takeName.1 }.complete limits
            (p.skip ['%'] rest).takeName.2.rest := by
    intro v before frames hempty
    refine complete_takeName (Reader.step_fieldName limits p.pos) hrest ?_
    rw [Reader.State.step_of_text limits rfl, State.stepText, if_pos rfl,
      State.endLiteral_of_empty hempty]
    rfl
  have hname : ∀ {c more}, (p.skip ['%'] rest).takeName.2.rest = c :: more →
      Reader.isNameChar c = false := isNameChar_takeName
  rw [field]
  generalize (p.skip ['%'] rest).takeName = r at *
  obtain ⟨name, q⟩ := r
  dsimp only at *
  cases hq : q.rest with
  | nil =>
    intro v before frames hempty
    rw [hcomplete v before frames hempty, hq]
    rfl
  | cons c more =>
    have hc := hname hq
    dsimp only
    by_cases hpercent : c = '%'
    · subst hpercent
      rw [if_pos rfl]
      by_cases hnone : name = ""
      · subst hnone
        rw [if_pos rfl]
        intro v before frames hempty
        rw [hcomplete v before frames hempty, hq]
        exact State.complete_of_step_error rfl
      · rw [if_neg hnone]
        have hstep : ∀ (v : Locals) before frames,
            { q.state v before frames with mode := .fieldName p.pos name }.step limits '%' =
              limits.reserve q.arena.usage.text name.utf8ByteSize (q.skip ['%'] more).pos >>=
                fun text => .ok (({ q.state v before frames with
                  pos := (q.skip ['%'] more).pos
                  usage := { q.arena.usage with text } } : State).addNode
                    (.field name ⟨p.pos, (q.skip ['%'] more).pos⟩)) := by
          intro v before frames
          show State.stepFieldName .. = _
          rw [State.stepFieldName, if_neg (by decide), if_neg (by decide), if_neg hnone]
          rfl
        refine ((q.skip ['%'] more).store_outcome _ _ _).bind (fun e he => ?_) fun r hr => ?_
        · intro v before frames hempty
          rw [hcomplete v before frames hempty, hq]
          refine State.complete_of_step_error ((hstep v before frames).trans ?_)
          exact congrArg (· >>= _) he
        · obtain ⟨rfl, hroom⟩ := hr
          refine ⟨.field name ⟨p.pos, (q.skip ['%'] more).pos⟩, ?_,
            (hreads.trans (.skip hq)).store _, ?_⟩
          · rw [← harena]
            rfl
          intro v before frames hempty
          rw [hcomplete v before frames hempty, hq, ← state_addNode, state_pushText]
          refine State.complete_of_step ((hstep v before frames).trans ?_)
          exact congrArg (· >>= _) hroom
    · rw [if_neg hpercent]
      have hspoilt : ∀ (v : Locals) before frames, v.literal = "" →
          (p.state v before frames).complete limits p.rest =
            .error (if '%' ∈ more then .invalidIdentifier c q.pos
              else .unterminatedField p.pos) := by
        intro v before frames hempty
        rw [hcomplete v before frames hempty, hq]
        have hstep : { q.state v before frames with mode := .fieldName p.pos name }.step limits c =
            .ok { (q.state v before frames).skip c with mode := .brokenField p.pos c q.pos } := by
          show State.stepFieldName .. = _
          rw [State.stepFieldName, hc, if_neg Bool.false_ne_true, if_pos hpercent]
          rfl
        exact (State.complete_of_step hstep).trans (State.complete_brokenField rfl more)
      split
      · next hmem =>
        rw [if_pos hmem] at hspoilt
        exact hspoilt
      · next hmem =>
        rw [if_neg hmem] at hspoilt
        exact hspoilt

end Descent

end TagTemplate
