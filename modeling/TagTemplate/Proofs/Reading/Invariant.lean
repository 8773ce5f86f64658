import TagTemplate.Proofs.Grammar

/-!
# What the reader knows between two characters

The invariant of the machine that reads templates, in terms of the grammar. Whatever prefix of a
source text was read, it is a partial derivation: the open calls, outermost first, each with the
pieces before it and its complete arguments (`Stack`), then the pieces of the innermost sequence,
and at last what the mode says of an unfinished piece (`Reading`). The draft of a sequence holds the
tree of its pieces, in the text mode with its last literal still growing (`AtText`), in a name with
all literals ended (`Paused`).

The lemmas after the definitions say what the parts of a step do to `AtText` and `Paused`. They
serve both directions: that every text read derives from the grammar, and that every derivation is
read.
-/

namespace TagTemplate

namespace Reader

open String (utf8Len)
open Piece (charsSeq charsEach sizeSeq nodes nodesArgs)

/-- A computation in two parts succeeds if both parts do. -/
theorem exists_of_bind_eq_ok {ε α β : Type} {x : Except ε α} {f : α → Except ε β} {b : β}
    (h : x >>= f = .ok b) : ∃ a, x = .ok a ∧ f a = .ok b := by
  cases x with
  | error e => cases h
  | ok a => exact ⟨a, rfl, h⟩

/-! ## Partial derivations -/

/-- The nodes of a draft in front of further ones, where its literal ends at `pos`. -/
def Draft.before (d : Draft) (pos : Nat) (ns : List Node) : List Node :=
  d.nodes.toList ++
    if d.literal = "" then ns else Node.join (.literal d.literal ⟨d.start, pos⟩) ns

/-- The pieces may stand at the beginning of a sequence inside `level` calls, and leave `groups`
parentheses open. -/
structure Legal (maxDepth level groups : Nat) (ps : List Piece) : Prop where
  valid : Piece.ValidSeq ps
  top : level = 0 → groups = 0
  inner : level ≠ 0 → Piece.groupsSeq 0 ps = some groups
  depth : level + Piece.depthSeq ps ≤ maxDepth

/-- One more piece may follow if it is in the language and nests no deeper than the limit. -/
theorem Legal.append {maxDepth level g g' : Nat} {ps : List Piece} {p : Piece}
    (h : Legal maxDepth level g ps) (hp : p.Valid) (htop : level = 0 → g' = 0)
    (hinner : level ≠ 0 → p.groups g = some g') (hdepth : level + p.depth ≤ maxDepth) :
    Legal maxDepth level g' (ps ++ [p]) := by
  refine ⟨(Piece.validSeq_append ps [p]).2 ⟨h.valid, hp, trivial⟩, htop, fun hl => ?_, ?_⟩
  · rw [Piece.groupsSeq_append, h.inner hl, Option.bind_some, Piece.groupsSeq_singleton,
      hinner hl]
  · have := h.depth
    rw [Piece.depthSeq_append, Piece.depthSeq, Piece.depthSeq]
    omega

/-- No more calls are around a sequence than may be. -/
theorem Legal.level_le {maxDepth level g : Nat} {ps : List Piece}
    (h : Legal maxDepth level g ps) : level ≤ maxDepth :=
  Nat.le_trans (Nat.le_add_right ..) h.depth

/-- What the finished parts of the open calls take up. -/
def spent : List Frame → Usage
  | [] => {}
  | frame :: frames =>
    spent frames + Node.usageSeq frame.outer.nodes.toList + Node.usageArgs frame.args.toList

/-- The source text up to an argument of a call: `cs` and the pieces `ps` in front of the call, its
name, and the arguments `args` before. -/
def argStart (cs : List Char) (ps : List Piece) (name : String) (args : List (List Piece)) :
    List Char :=
  cs ++ charsSeq ps ++ '$' :: (name.toList ++ '(' :: charsEach args)

/-- The call of `frame` is open inside the calls `frames`, after the pieces `ps` of the sequence
that begins after `cs`, and its arguments `args` are complete. -/
structure Opened (maxDepth : Nat) (frames : List Frame) (cs : List Char) (ps : List Piece)
    (frame : Frame) (args : List (List Piece)) : Prop where
  legal : Legal maxDepth frames.length frame.outer.groups ps
  outer : frame.outer.nodes.toList = nodes (utf8Len cs) ps
  literal : frame.outer.literal = ""
  start : frame.start = utf8Len cs + sizeSeq ps
  name : IsName frame.name
  valid : Piece.ValidArgs args
  depth : frames.length + 1 + Piece.depthArgs args ≤ maxDepth
  args_eq : frame.args.toList = nodesArgs (frame.start + (frame.name.utf8ByteSize + 2)) args

/-- The open calls are those of the source text `cs`, at the end of which the innermost sequence
begins. -/
inductive Stack (maxDepth : Nat) : List Frame → List Char → Prop
  | nil : Stack maxDepth [] []
  | cons {frames : List Frame} {cs : List Char} {frame : Frame} {ps : List Piece}
      {args : List (List Piece)} (stack : Stack maxDepth frames cs)
      (opened : Opened maxDepth frames cs ps frame args) :
      Stack maxDepth (frame :: frames) (argStart cs ps frame.name args)

/-- The machine is in the text of a sequence that begins after `cs` inside the calls `frames`, and
has read the pieces `ps` of it. -/
structure AtText (limits : Limits) (frames : List Frame) (cs : List Char) (ps : List Piece)
    (st : State) : Prop where
  mode : st.mode = .text
  frames_eq : st.frames = frames
  stack : Stack limits.maxDepth frames cs
  legal : Legal limits.maxDepth frames.length st.draft.groups ps
  pos : st.pos = utf8Len cs + sizeSeq ps
  before : ∀ ns, st.draft.before st.pos ns = Node.joinSeq (nodes (utf8Len cs) ps) ns
  start : st.draft.literal = "" → st.draft.start = st.pos
  usage : st.usage + { text := st.draft.literal.utf8ByteSize } =
    spent frames + Node.usageSeq (nodes (utf8Len cs) ps)
  fits : st.usage.Within limits.capacity

/-- As `AtText`, but a piece has begun after `ps`, and the literal before it is ended. -/
structure Paused (limits : Limits) (frames : List Frame) (cs : List Char) (ps : List Piece)
    (st : State) : Prop where
  frames_eq : st.frames = frames
  stack : Stack limits.maxDepth frames cs
  legal : Legal limits.maxDepth frames.length st.draft.groups ps
  nodes_eq : st.draft.nodes.toList = nodes (utf8Len cs) ps
  literal : st.draft.literal = ""
  usage : st.usage = spent frames + Node.usageSeq (nodes (utf8Len cs) ps)
  fits : st.usage.Within limits.capacity

/-- The machine has read the source text `cs`. -/
inductive Reading (limits : Limits) : List Char → State → Prop
  | text {frames : List Frame} {cs : List Char} {ps : List Piece} {st : State}
      (h : AtText limits frames cs ps st) : Reading limits (cs ++ charsSeq ps) st
  | escape {frames : List Frame} {cs : List Char} {ps : List Piece} {st : State} {start : Nat}
      (mode : st.mode = .escape start)
      (h : AtText limits frames cs ps { st with mode := .text, pos := start })
      (pos : st.pos = start + 1) : Reading limits (cs ++ charsSeq ps ++ ['\\']) st
  | fieldName {frames : List Frame} {cs : List Char} {ps : List Piece} {st : State}
      {start : Nat} {name : String} (mode : st.mode = .fieldName start name)
      (h : Paused limits frames cs ps st) (start_eq : start = utf8Len cs + sizeSeq ps)
      (chars : ∀ c ∈ name.toList, isNameChar c = true)
      (pos : st.pos = start + (name.utf8ByteSize + 1)) :
      Reading limits (cs ++ charsSeq ps ++ '%' :: name.toList) st
  | brokenField {frames : List Frame} {cs : List Char} {ps : List Piece} {st : State}
      {start offset : Nat} {name : String} {offender : Char} {rest : List Char}
      (mode : st.mode = .brokenField start offender offset)
      (h : Paused limits frames cs ps st) (start_eq : start = utf8Len cs + sizeSeq ps)
      (chars : ∀ c ∈ name.toList, isNameChar c = true)
      (offset_eq : offset = start + (name.utf8ByteSize + 1))
      (not_name : isNameChar offender = false) (rest_ne : ∀ c ∈ offender :: rest, c ≠ '%')
      (pos : st.pos = offset + utf8Len (offender :: rest)) :
      Reading limits (cs ++ charsSeq ps ++ '%' :: (name.toList ++ offender :: rest)) st
  | callName {frames : List Frame} {cs : List Char} {ps : List Piece} {st : State}
      {start : Nat} {name : String} (mode : st.mode = .callName start name)
      (h : Paused limits frames cs ps st) (start_eq : start = utf8Len cs + sizeSeq ps)
      (chars : ∀ c ∈ name.toList, isNameChar c = true)
      (pos : st.pos = start + (name.utf8ByteSize + 1)) :
      Reading limits (cs ++ charsSeq ps ++ '$' :: name.toList) st

/-- The offset of an argument. -/
theorem utf8Len_argStart (cs : List Char) (ps : List Piece) (name : String)
    (args : List (List Piece)) :
    utf8Len (argStart cs ps name args) =
      utf8Len cs + sizeSeq ps + (name.utf8ByteSize + 2) + utf8Len (charsEach args) := by
  have hdollar : ('$' : Char).utf8Size = 1 := rfl
  have hparen : ('(' : Char).utf8Size = 1 := rfl
  simp [argStart, sizeSeq, hdollar, hparen]
  omega

/-- The next argument begins after the comma of the one before. -/
theorem argStart_append_singleton (cs : List Char) (ps : List Piece) (name : String)
    (args : List (List Piece)) (a : List Piece) :
    argStart cs ps name (args ++ [a]) = argStart cs ps name args ++ charsSeq a ++ [','] := by
  simp [argStart, Piece.charsEach_append_singleton]

/-! ## Literals -/

/-- Text that is added to the growing literal is joined to the nodes that follow. -/
theorem Draft.before_append {d : Draft} {pos : Nat} (hstart : d.literal = "" → d.start = pos)
    {text : String} (htext : text ≠ "") (groups stop : Nat) (ns : List Node) :
    { d with literal := d.literal ++ text, groups }.before stop ns =
      d.before pos (Node.join (.literal text ⟨pos, stop⟩) ns) := by
  have hne : d.literal ++ text ≠ "" := fun h => htext (String.append_eq_empty_iff.1 h).2
  unfold Draft.before
  rw [if_neg hne]
  by_cases hl : d.literal = ""
  · rw [if_pos hl, hl, hstart hl, String.empty_append]
  · rw [if_neg hl, Node.join_join_literal]

/-- The nodes of a sequence whose literal has ended are a tree in front of the rest. -/
theorem before_nil_eq {limits : Limits} {frames : List Frame} {cs : List Char}
    {ps : List Piece} {st : State} (h : AtText limits frames cs ps st) :
    st.draft.before st.pos [] = nodes (utf8Len cs) ps := by
  rw [h.before, Piece.joinSeq_nodes_nil]

section
variable {limits : Limits} {frames : List Frame} {cs : List Char} {ps : List Piece}
  {st st' : State}

/-- A piece that is text joins the growing literal. -/
theorem AtText.append (h : AtText limits frames cs ps st) {p : Piece} {text : String}
    {groups : Nat} (hp : p.node st.pos = .literal text ⟨st.pos, st.pos + p.size⟩)
    (htext : text ≠ "") (hlegal : Legal limits.maxDepth frames.length groups (ps ++ [p])) :
    AtText limits frames cs (ps ++ [p])
      { st with
        pos := st.pos + p.size
        draft := { st.draft with literal := st.draft.literal ++ text, groups } } := by
  have hnodes : nodes (utf8Len cs) (ps ++ [p]) =
      Node.joinSeq (nodes (utf8Len cs) ps) [p.node st.pos] := by
    rw [Piece.nodes_append, Piece.nodes_singleton, h.pos]
  refine ⟨h.mode, h.frames_eq, h.stack, hlegal, ?_, fun ns => ?_, fun he => ?_, ?_, h.fits⟩
  · show st.pos + p.size = _
    rw [Piece.sizeSeq_append, Piece.sizeSeq_cons, Piece.sizeSeq_nil, h.pos]
    omega
  · rw [Draft.before_append h.start htext, h.before, hnodes, Node.joinSeq_assoc, hp]
    rfl
  · exact absurd (String.append_eq_empty_iff.1 he).2 htext
  · have husage := h.usage
    rw [hnodes, Node.usageSeq_joinSeq, ← Usage.add_assoc, ← husage, hp]
    ext <;> simp [Node.usageSeq, Node.usage]
    omega

/-- Ending the growing literal completes the nodes of the draft. -/
theorem AtText.endLiteral (h : AtText limits frames cs ps st)
    (hok : st.endLiteral limits = .ok st') :
    Paused limits frames cs ps st' ∧ st'.mode = .text ∧ st'.pos = st.pos := by
  have hbefore := before_nil_eq h
  have husage := h.usage
  unfold State.endLiteral at hok
  split at hok
  · next hl =>
    cases hok
    rw [Draft.before, if_pos hl, List.append_nil] at hbefore
    rw [hl] at husage
    exact ⟨⟨h.frames_eq, h.stack, h.legal, hbefore, hl, husage, h.fits⟩, h.mode, rfl⟩
  · next hl =>
    unfold Limits.reserve at hok
    split at hok
    · next hle =>
      cases hok
      rw [Draft.before, if_neg hl, Node.join_nil] at hbefore
      refine ⟨⟨h.frames_eq, h.stack, h.legal, ?_, rfl, ?_, ⟨hle, h.fits.nodes, h.fits.args⟩⟩,
        h.mode, rfl⟩
      · rw [Array.toList_push, hbefore]
      · rw [← husage]
        ext <;> simp
    · cases hok

/-- The growing literal can be ended if the tree so far does not outgrow the capacity. -/
theorem AtText.endLiteral_isOk (h : AtText limits frames cs ps st)
    (hfit : (spent frames + Node.usageSeq (nodes (utf8Len cs) ps)).Within limits.capacity) :
    ∃ st', st.endLiteral limits = .ok st' := by
  unfold State.endLiteral
  split
  · exact ⟨_, rfl⟩
  · rw [← h.usage] at hfit
    have hle : st.usage.text + st.draft.literal.utf8ByteSize ≤ limits.capacity := hfit.text
    rw [Limits.reserve, if_pos hle]
    exact ⟨_, rfl⟩

/-! ## Fields and calls -/

/-- A finished field or call is the next node of its sequence. -/
theorem AtText.of_addNode {p : Piece} {n : Node} (hframes : st.frames = frames)
    (hstack : Stack limits.maxDepth frames cs)
    (hlegal : Legal limits.maxDepth frames.length st.draft.groups (ps ++ [p]))
    (hnodes : st.draft.nodes.toList = nodes (utf8Len cs) ps) (hlit : st.draft.literal = "")
    (hp : p.node (utf8Len cs + sizeSeq ps) = n) (hn : n.isLiteral = false)
    (hpos : st.pos = utf8Len cs + sizeSeq (ps ++ [p]))
    (husage : st.usage = spent frames + Node.usageSeq (nodes (utf8Len cs) (ps ++ [p])))
    (hfits : st.usage.Within limits.capacity) :
    AtText limits frames cs (ps ++ [p]) (st.addNode n) := by
  refine ⟨rfl, hframes, hstack, hlegal, hpos, fun ns => ?_, fun _ => rfl, ?_, hfits⟩
  · have hnext : Node.joinSeq [n] ns = n :: ns := Node.join_of_not_literal hn ns
    rw [Piece.nodes_append, Piece.nodes_singleton, hp, Node.joinSeq_assoc, hnext,
      Piece.joinSeq_nodes_cons hn, ← hnodes]
    simp [Draft.before, State.addNode, hlit]
  · rw [← husage]
    simp [State.addNode, hlit]

/-- What the nodes before and a further piece take up together. -/
theorem usageSeq_nodes_append_singleton (pos : Nat) (ps : List Piece) (p : Piece) :
    Node.usageSeq (nodes pos (ps ++ [p])) =
      Node.usageSeq (nodes pos ps) + (p.node (pos + sizeSeq ps)).usage := by
  rw [Piece.nodes_append, Piece.nodes_singleton, Node.usageSeq_joinSeq, Node.usageSeq,
    Node.usageSeq, Usage.add_zero]

/-- The parenthesis after a name begins the first argument. -/
theorem Paused.openCall (h : Paused limits frames cs ps st) {start : Nat} {name : String}
    (hstart : start = utf8Len cs + sizeSeq ps) (hname : IsName name)
    (hpos : st.pos = start + (name.utf8ByteSize + 1)) (hdepth : frames.length < limits.maxDepth) :
    Opened limits.maxDepth frames cs ps { start, name, outer := st.draft } [] ∧
      AtText limits ({ start, name, outer := st.draft } :: frames) (argStart cs ps name []) []
        { st with
          pos := st.pos + 1
          mode := .text
          draft := { start := st.pos + 1 }
          frames := { start, name, outer := st.draft } :: frames } := by
  have hpos' : st.pos + 1 = utf8Len (argStart cs ps name []) := by
    rw [hpos, hstart, utf8Len_argStart, Nat.add_assoc]
    rfl
  have hopened : Opened limits.maxDepth frames cs ps { start, name, outer := st.draft } [] :=
    ⟨h.legal, h.nodes_eq, h.literal, hstart, hname, trivial, hdepth, rfl⟩
  refine ⟨hopened, rfl, rfl, .cons h.stack hopened,
    ⟨trivial, fun _ => rfl, fun _ => rfl, hdepth⟩, hpos', fun ns => ?_, fun _ => rfl, ?_, h.fits⟩
  · simp [Draft.before, nodes]
  · rw [spent, h.nodes_eq, h.usage]
    ext <;> simp [nodes, Node.usageSeq, Node.usageArgs]

/-! ## Ends of arguments -/

/-- A reservation that succeeds counts the entries, within the capacity. -/
theorem Limits.reserve_eq_ok {limits : Limits} {used amount pos sum : Nat}
    (h : limits.reserve used amount pos = .ok sum) :
    sum = used + amount ∧ used + amount ≤ limits.capacity := by
  unfold Limits.reserve at h
  split at h
  · next hle =>
    cases h
    exact ⟨rfl, hle⟩
  · cases h

/-- There is room for what does not go beyond the capacity. -/
theorem Limits.reserve_of_le {limits : Limits} {used amount : Nat} (pos : Nat)
    (h : used + amount ≤ limits.capacity) :
    limits.reserve used amount pos = .ok (used + amount) :=
  if_pos h

/-- Ending an argument gives its tree to the call. -/
theorem AtText.endArgument (h : AtText limits frames cs ps st) {frame frame' : Frame}
    (hok : st.endArgument limits frame = .ok (st', frame')) :
    frame' = { frame with args := frame.args.push (nodes (utf8Len cs) ps) } ∧
      st'.mode = .text ∧ st'.pos = st.pos ∧
      st'.usage = spent frames + Node.usageRoot (nodes (utf8Len cs) ps) ∧
      st'.usage.Within limits.capacity := by
  unfold State.endArgument at hok
  obtain ⟨st₁, hl, hok⟩ := exists_of_bind_eq_ok hok
  obtain ⟨hp, hmode, hpos⟩ := h.endLiteral hl
  obtain ⟨sum, hr, hok⟩ := exists_of_bind_eq_ok hok
  obtain ⟨rfl, hle⟩ := Limits.reserve_eq_ok hr
  cases hok
  refine ⟨?_, hmode, hpos, ?_, hp.fits.text, hle, hp.fits.args⟩
  · rw [hp.nodes_eq]
  · have hsize : st₁.draft.nodes.size = (nodes (utf8Len cs) ps).length := by
      rw [← hp.nodes_eq, Array.length_toList]
    rw [Node.usageRoot, ← Usage.add_assoc, ← hp.usage, hsize]
    ext <;> simp

/-- An argument can be ended if its tree does not outgrow the capacity. -/
theorem AtText.endArgument_isOk (h : AtText limits frames cs ps st) (frame : Frame)
    (hfit : (spent frames + Node.usageRoot (nodes (utf8Len cs) ps)).Within limits.capacity) :
    ∃ r, st.endArgument limits frame = .ok r := by
  have hfit' := hfit
  rw [Node.usageRoot, ← Usage.add_assoc] at hfit'
  obtain ⟨st₁, hl⟩ := h.endLiteral_isOk hfit'.left
  obtain ⟨hp, -, -⟩ := h.endLiteral hl
  have hle : st₁.usage.nodes + st₁.draft.nodes.size ≤ limits.capacity := by
    rw [hp.usage, ← Array.length_toList, hp.nodes_eq]
    exact hfit'.nodes
  unfold State.endArgument
  rw [hl]
  simp only [bind, Except.bind, Limits.reserve_of_le _ hle]
  exact ⟨_, rfl⟩

/-- A sequence that is balanced, of the language and not too deep may become an argument. -/
theorem Opened.push {maxDepth : Nat} {frame : Frame} {args : List (List Piece)} {a : List Piece}
    (h : Opened maxDepth frames cs ps frame args) (hvalid : Piece.ValidSeq a)
    (hbalanced : Piece.Balanced a) (hdepth : frames.length + 1 + Piece.depthSeq a ≤ maxDepth) :
    Opened maxDepth frames cs ps
      { frame with
        args := frame.args.push (nodes (utf8Len (argStart cs ps frame.name args)) a) }
      (args ++ [a]) := by
  refine ⟨h.legal, h.outer, h.literal, h.start, h.name,
    (Piece.validArgs_append_singleton args a).2 ⟨h.valid, hvalid, hbalanced⟩, ?_, ?_⟩
  · have := h.depth
    rw [Piece.depthArgs_append_singleton]
    omega
  · rw [Array.toList_push, h.args_eq, Piece.nodesArgs_append, utf8Len_argStart, h.start]
    rfl

/-- After a comma the next argument begins. -/
theorem AtText.comma {frame frame' : Frame} {args : List (List Piece)} {a : List Piece}
    (h : AtText limits (frame :: frames) (argStart cs ps frame.name args) a st)
    (stack : Stack limits.maxDepth frames cs)
    (opened : Opened limits.maxDepth frames cs ps frame args) (hgroups : st.draft.groups = 0)
    (hok : st.endArgument limits frame = .ok (st', frame')) :
    Opened limits.maxDepth frames cs ps frame' (args ++ [a]) ∧ frame'.name = frame.name ∧
      AtText limits (frame' :: frames) (argStart cs ps frame.name (args ++ [a])) []
        { st' with
          pos := st'.pos + 1
          draft := { start := st'.pos + 1 }
          frames := frame' :: frames } := by
  obtain ⟨rfl, hmode, hpos, husage, hfits⟩ := h.endArgument hok
  have hbalanced : Piece.Balanced a := by
    rw [Piece.Balanced, h.legal.inner (Nat.succ_ne_zero _), hgroups]
  have hopened := opened.push h.legal.valid hbalanced h.legal.depth
  have hlevel : frames.length + 1 ≤ limits.maxDepth := h.legal.level_le
  refine ⟨hopened, rfl, hmode, rfl, .cons stack hopened,
    ⟨trivial, fun _ => rfl, fun _ => rfl, hlevel⟩, ?_, fun ns => ?_, fun _ => rfl, ?_, hfits⟩
  · have hcomma : utf8Len [','] = 1 := rfl
    show st'.pos + 1 = utf8Len (argStart cs ps frame.name (args ++ [a]))
    rw [hpos, h.pos, argStart_append_singleton, String.utf8Len_append, String.utf8Len_append,
      hcomma, sizeSeq]
  · simp [Draft.before, nodes]
  · rw [husage, spent, spent, Array.toList_push, Node.usageArgs_append, Node.usageArgs_singleton,
      Node.usageRoot]
    ext <;> simp [nodes, Node.usageSeq] <;> omega

/-- Nothing is read of a sequence if there are no pieces of it. -/
theorem AtText.atSequenceStart_eq (h : AtText limits frames cs ps st) :
    st.atSequenceStart = ps.isEmpty := by
  have hbefore := before_nil_eq h
  unfold Draft.before at hbefore
  rw [Bool.eq_iff_iff, List.isEmpty_iff, ← Piece.nodes_eq_nil_iff (utf8Len cs), ← hbefore]
  by_cases hl : st.draft.literal = "" <;> simp [State.atSequenceStart, hl]

/-- The arguments of a call whose last sequence is `ps`. Nothing between the parentheses is no
argument. -/
def lastArgs (args : List (List Piece)) (ps : List Piece) : List (List Piece) :=
  if args.isEmpty && ps.isEmpty then [] else args ++ [ps]

/-- The source text of the arguments is that of the complete ones and then that of the last. -/
theorem charsArgs_lastArgs (args : List (List Piece)) (ps : List Piece) :
    Piece.charsArgs (lastArgs args ps) = charsEach args ++ charsSeq ps := by
  unfold lastArgs
  split
  · next h =>
    rw [Bool.and_eq_true, List.isEmpty_iff, List.isEmpty_iff] at h
    rw [h.1, h.2]
    rfl
  · rw [Piece.charsArgs_append_singleton]

/-- The closing parenthesis completes the source text of the call. -/
theorem argStart_append_last (cs : List Char) (ps : List Piece) (name : String)
    (args : List (List Piece)) (a : List Piece) :
    argStart cs ps name args ++ charsSeq a ++ [')'] =
      cs ++ charsSeq (ps ++ [.call name (lastArgs args a)]) := by
  rw [Piece.charsSeq_append_singleton, Piece.chars, charsArgs_lastArgs]
  simp [argStart]

/-- The arguments with the last one are those of a call, and not a single empty one. -/
theorem valid_lastArgs {args : List (List Piece)} (hargs : Piece.ValidArgs args)
    (hvalid : Piece.ValidSeq ps) (hbalanced : Piece.Balanced ps) :
    Piece.ValidArgs (lastArgs args ps) ∧ lastArgs args ps ≠ [[]] := by
  unfold lastArgs
  split
  · exact ⟨trivial, by simp⟩
  · next h =>
    refine ⟨(Piece.validArgs_append_singleton args ps).2 ⟨hargs, hvalid, hbalanced⟩, fun he => ?_⟩
    rcases args with _ | ⟨a, as⟩
    · simp_all
    · simp at he

/-- The last argument of `frame` is ended, or there is none, and the closing parenthesis is next. -/
structure Closing (limits : Limits) (frames : List Frame) (cs : List Char) (ps : List Piece)
    (frame : Frame) (args : List (List Piece)) (st : State) : Prop where
  opened : Opened limits.maxDepth frames cs ps frame args
  some_arg : args ≠ [[]]
  pos : st.pos + 1 = utf8Len cs + sizeSeq (ps ++ [.call frame.name args])
  usage : st.usage = spent (frame :: frames)
  fits : st.usage.Within limits.capacity

/-- A call has no arguments if nothing stands between its parentheses. -/
theorem AtText.noArgument_eq {frame : Frame} {args : List (List Piece)} {a : List Piece}
    (h : AtText limits (frame :: frames) (argStart cs ps frame.name args) a st)
    (opened : Opened limits.maxDepth frames cs ps frame args) :
    (frame.args.isEmpty && st.atSequenceStart) = (args.isEmpty && a.isEmpty) := by
  have hempty : frame.args.isEmpty = args.isEmpty := by
    rw [Bool.eq_iff_iff, List.isEmpty_iff, ← List.length_eq_zero_iff,
      ← Piece.length_nodesArgs (frame.start + (frame.name.utf8ByteSize + 2)) args,
      ← opened.args_eq]
    simp
  rw [h.atSequenceStart_eq, hempty]

/-- A closing parenthesis outside all groups ends the last argument, if there is one, and then the
call. -/
theorem State.stepArgument_close {frame : Frame} (hgroups : st.draft.groups = 0) :
    st.stepArgument limits frame frames ')' =
      ((if frame.args.isEmpty && st.atSequenceStart then .ok (st, frame)
        else st.endArgument limits frame) >>=
          fun r => (r.1.skip ')').endCall limits r.2 frames) := by
  rw [State.stepArgument, if_neg (by simp), if_pos ⟨rfl, hgroups⟩]
  split <;> rfl

/-- Ending the last argument, or none, leaves the call complete. -/
theorem AtText.closing {frame frame' : Frame} {args : List (List Piece)} {a : List Piece}
    (h : AtText limits (frame :: frames) (argStart cs ps frame.name args) a st)
    (opened : Opened limits.maxDepth frames cs ps frame args) (hgroups : st.draft.groups = 0)
    (hok : (if frame.args.isEmpty && st.atSequenceStart then .ok (st, frame)
      else st.endArgument limits frame) = Except.ok (st', frame')) :
    frame'.name = frame.name ∧ Closing limits frames cs ps frame' (lastArgs args a) st' := by
  have hbalanced : Piece.Balanced a := by
    rw [Piece.Balanced, h.legal.inner (Nat.succ_ne_zero _), hgroups]
  have hsome := (valid_lastArgs opened.valid h.legal.valid hbalanced).2
  have hpos : st.pos + 1 = utf8Len cs + sizeSeq (ps ++ [.call frame.name (lastArgs args a)]) := by
    rw [h.pos, utf8Len_argStart, Piece.sizeSeq_append, Piece.sizeSeq_cons, Piece.sizeSeq_nil,
      Piece.size_call, charsArgs_lastArgs, String.utf8Len_append, sizeSeq, sizeSeq]
    omega
  rw [h.noArgument_eq opened] at hok
  split at hok
  · next hnone =>
    cases hok
    have hargs : lastArgs args a = args ∧ a = [] := by
      rw [lastArgs, if_pos hnone]
      rw [Bool.and_eq_true, List.isEmpty_iff, List.isEmpty_iff] at hnone
      exact ⟨hnone.1.symm, hnone.2⟩
    rw [hargs.1] at hsome hpos ⊢
    have hlit : st.draft.literal = "" := by
      have hbefore := before_nil_eq h
      by_contra hl
      rw [hargs.2, Draft.before, if_neg hl] at hbefore
      simp [nodes] at hbefore
    have husage := h.usage
    rw [hargs.2, hlit] at husage
    exact ⟨rfl, opened, hsome, hpos, husage, h.fits⟩
  · next hlast =>
    obtain ⟨rfl, -, hpos', husage, hfits⟩ := h.endArgument hok
    have hargs : lastArgs args a = args ++ [a] := if_neg hlast
    rw [hargs] at hsome hpos ⊢
    refine ⟨rfl, opened.push h.legal.valid hbalanced h.legal.depth, hsome, ?_, ?_, hfits⟩
    · rw [hpos', hpos]
    · rw [husage, spent, spent, Array.toList_push, Node.usageArgs_append,
        Node.usageArgs_singleton, Node.usageRoot]
      simp only [Usage.add_assoc]

/-- A closed call is the next node of the sequence around it. -/
theorem Closing.endCall {frame : Frame} {args : List (List Piece)}
    (h : Closing limits frames cs ps frame args st) (stack : Stack limits.maxDepth frames cs)
    (hok : (st.skip ')').endCall limits frame frames = .ok st') :
    AtText limits frames cs (ps ++ [.call frame.name args]) st' := by
  unfold State.endCall at hok
  obtain ⟨sumArgs, ha, hok⟩ := exists_of_bind_eq_ok hok
  obtain ⟨sumText, ht, hok⟩ := exists_of_bind_eq_ok hok
  cases hok
  obtain ⟨rfl, hlea⟩ := Limits.reserve_eq_ok ha
  obtain ⟨rfl, hlet⟩ := Limits.reserve_eq_ok ht
  have hopened := h.opened
  have hstop : st.pos + 1 = frame.start + (Piece.call frame.name args).size := by
    rw [h.pos, hopened.start, Piece.sizeSeq_append, Piece.sizeSeq_cons, Piece.sizeSeq_nil]
    omega
  have hp : (Piece.call frame.name args).node (utf8Len cs + sizeSeq ps) =
      .call frame.name frame.args.toList ⟨frame.start, st.pos + 1⟩ := by
    rw [Piece.node, ← hopened.start, ← hopened.args_eq, ← hstop]
  have hdepth : frames.length + (Piece.call frame.name args).depth ≤ limits.maxDepth := by
    have := hopened.depth
    rw [Piece.depth]
    omega
  have hlegal : Legal limits.maxDepth frames.length frame.outer.groups
      (ps ++ [.call frame.name args]) :=
    hopened.legal.append ⟨hopened.name, h.some_arg, hopened.valid⟩ hopened.legal.top
      (fun _ => Piece.groups_call ..) hdepth
  refine AtText.of_addNode rfl stack hlegal hopened.outer hopened.literal hp rfl h.pos ?_
    ⟨hlet, h.fits.nodes, hlea⟩
  rw [usageSeq_nodes_append_singleton, hp, ← Usage.add_assoc, ← hopened.outer, Node.usage]
  have husage := h.usage
  rw [spent] at husage
  show Usage.mk (st.usage.text + _) st.usage.nodes (st.usage.args + _) = _
  rw [husage, ← Array.length_toList]
  ext <;> simp <;> omega

/-- A call can be closed if it does not outgrow the capacity. -/
theorem Closing.endCall_isOk {frame : Frame} {args : List (List Piece)}
    (h : Closing limits frames cs ps frame args st)
    (hfit : (spent frames +
      Node.usageSeq (nodes (utf8Len cs) (ps ++ [.call frame.name args]))).Within
        limits.capacity) :
    ∃ st', (st.skip ')').endCall limits frame frames = .ok st' := by
  rw [usageSeq_nodes_append_singleton, ← Usage.add_assoc, ← h.opened.outer, Piece.node,
    ← h.opened.start, ← h.opened.args_eq, Node.usage, ← Usage.add_assoc] at hfit
  have husage := h.usage
  rw [spent] at husage
  rw [← husage, Array.length_toList] at hfit
  unfold State.endCall
  have ha : (st.skip ')').usage.args + frame.args.size ≤ limits.capacity := hfit.args
  have ht : (st.skip ')').usage.text + frame.name.utf8ByteSize ≤ limits.capacity := hfit.text
  simp only [bind, Except.bind, Limits.reserve_of_le _ ha, Limits.reserve_of_le _ ht]
  exact ⟨_, rfl⟩

end

end Reader

end TagTemplate
