import TagTemplate.Proofs.Reading.Sound

/-!
# Every derivation is read

`Reads` says that the machine gets through the source text of some pieces, wherever the grammar and
the limits admit them. It holds of every sequence, by induction over its pieces and the arguments of
its calls (`reads`). With the soundness of reading, a source is read exactly if it derives from the
grammar within the limits, and what is read is the tree of the derivation (`read_eq_ok_iff`).
-/

namespace TagTemplate

namespace Reader

open String (utf8Len)
open Piece (charsSeq charsEach charsArgs sizeSeq nodes nodesArgs)

/-- The machine reads the pieces `qs` after whatever pieces they may follow. -/
def Reads (limits : Limits) (qs : List Piece) : Prop :=
  ∀ ⦃frames : List Frame⦄ ⦃cs : List Char⦄ ⦃ps : List Piece⦄ ⦃st : State⦄ ⦃g : Nat⦄,
    AtText limits frames cs ps st → Legal limits.maxDepth frames.length g (ps ++ qs) →
    (spent frames + Node.usageSeq (nodes (utf8Len cs) (ps ++ qs))).Within limits.capacity →
    ∃ st', (charsSeq qs).foldlM (State.step limits) st = .ok st' ∧
      AtText limits frames cs (ps ++ qs) st'

/-! ## Runs -/

section
variable {limits : Limits} {st st' : State} {c : Char} {cs ds : List Char}

/-- The characters are read one after the other. -/
theorem run_cons (h : st.step limits c = .ok st') :
    (c :: cs).foldlM (State.step limits) st = cs.foldlM (State.step limits) st' := by
  rw [List.foldlM_cons, h]
  rfl

/-- One character is read in one step. -/
theorem run_singleton (h : st.step limits c = .ok st') :
    [c].foldlM (State.step limits) st = .ok st' :=
  run_cons h

/-- Characters that follow are read from where the first have led. -/
theorem run_append (h : cs.foldlM (State.step limits) st = .ok st') :
    (cs ++ ds).foldlM (State.step limits) st = ds.foldlM (State.step limits) st' := by
  rw [List.foldlM_append, h]
  rfl

end

/-! ## Parts of a sequence -/

/-- What may stand at the beginning of a sequence may do so without its end. -/
theorem Legal.left {maxDepth level g : Nat} {ps qs : List Piece}
    (h : Legal maxDepth level g (ps ++ qs)) : ∃ g', Legal maxDepth level g' ps := by
  have hvalid := ((Piece.validSeq_append ps qs).1 h.valid).1
  have hdepth : level + Piece.depthSeq ps ≤ maxDepth := by
    have := h.depth
    rw [Piece.depthSeq_append] at this
    omega
  by_cases hl : level = 0
  · exact ⟨0, hvalid, fun _ => rfl, fun hl' => absurd hl hl', hdepth⟩
  · have hinner := h.inner hl
    rw [Piece.groupsSeq_append] at hinner
    obtain ⟨g', hg, -⟩ := Option.bind_eq_some_iff.1 hinner
    exact ⟨g', hvalid, fun hl' => absurd hl' hl, fun _ => hg, hdepth⟩

/-- The groups after a piece are those the grammar gives it. -/
theorem Legal.groups_eq {maxDepth level g g' : Nat} {ps : List Piece} {p : Piece}
    (h : Legal maxDepth level g ps) (h' : Legal maxDepth level g' (ps ++ [p]))
    (hl : level ≠ 0) : p.groups g = some g' := by
  have hinner := h'.inner hl
  rw [Piece.groupsSeq_append, h.inner hl] at hinner
  rwa [Option.bind_some, Piece.groupsSeq_singleton] at hinner

/-- The last piece of what may stand in a sequence is in the language. -/
theorem Legal.valid_last {maxDepth level g : Nat} {ps : List Piece} {p : Piece}
    (h : Legal maxDepth level g (ps ++ [p])) : p.Valid :=
  ((Piece.validSeq_append ps [p]).1 h.valid).2.1

/-- What precedes a piece fits if the whole does. -/
theorem fits_left {capacity : Nat} {u : Usage} {pos : Nat} {ps qs : List Piece}
    (h : (u + Node.usageSeq (nodes pos (ps ++ qs))).Within capacity) :
    (u + Node.usageSeq (nodes pos ps)).Within capacity := by
  rw [Piece.nodes_append, Node.usageSeq_joinSeq, ← Usage.add_assoc] at h
  exact h.left

/-- No pieces are read in no steps. -/
theorem reads_nil (limits : Limits) : Reads limits [] := by
  intro frames cs ps st g h _ _
  rw [List.append_nil]
  exact ⟨st, rfl, h⟩

/-- A sequence is read piece by piece. -/
theorem Reads.cons {limits : Limits} {p : Piece} {qs : List Piece} (hp : Reads limits [p])
    (hqs : Reads limits qs) : Reads limits (p :: qs) := by
  intro frames cs ps st g h hlegal hfit
  rw [← List.singleton_append, ← List.append_assoc] at hlegal hfit ⊢
  obtain ⟨g', hlegal'⟩ := hlegal.left
  obtain ⟨st₁, hrun, h₁⟩ := hp h hlegal' (fits_left hfit)
  obtain ⟨st₂, hrun', h₂⟩ := hqs h₁ hlegal hfit
  refine ⟨st₂, ?_, h₂⟩
  rw [Piece.charsSeq_append, run_append hrun, hrun']

/-! ## Text -/

section
variable (limits : Limits)

/-- In the text a character is taken into the text. -/
theorem State.step_of_text {st : State} (hmode : st.mode = .text) (c : Char) :
    st.step limits c = st.stepText limits c := by
  rw [State.step, hmode]

/-- At the top level a character without a meaning of its own is text. -/
theorem State.stepText_top {st : State} {c : Char} (hframes : st.frames = [])
    (hc : (Piece.plain c).Valid) : st.stepText limits c = .ok (st.keep c) := by
  obtain ⟨hpercent, hdollar, hbackslash⟩ := hc
  rw [State.stepText, if_neg hpercent, if_neg hdollar, if_neg hbackslash, hframes]

/-- Inside a call a character without a meaning of its own belongs to an argument. -/
theorem State.stepText_inner {st : State} {frame : Frame} {frames : List Frame} {c : Char}
    (hframes : st.frames = frame :: frames) (hc : (Piece.plain c).Valid) :
    st.stepText limits c = st.stepArgument limits frame frames c := by
  obtain ⟨hpercent, hdollar, hbackslash⟩ := hc
  rw [State.stepText, if_neg hpercent, if_neg hdollar, if_neg hbackslash, hframes]

/-- A plain character is read. -/
theorem reads_plain (c : Char) : Reads limits [.plain c] := by
  intro frames cs ps st g h hlegal _
  have hkeep := h.keep hlegal
  refine ⟨_, ?_, hkeep⟩
  have hstep : st.step limits c =
      .ok ({ st with draft := { st.draft with groups := g } }.keep c) := by
    refine (State.step_of_text limits h.mode c).trans ?_
    cases frames with
    | nil =>
      have hg : g = st.draft.groups := (hlegal.top rfl).trans (h.legal.top rfl).symm
      rw [State.stepText_top limits h.frames_eq hlegal.valid_last, hg]
    | cons frame outer =>
      have hgroups := h.legal.groups_eq hlegal (Nat.succ_ne_zero _)
      rw [Piece.groups_plain] at hgroups
      split at hgroups
      · cases hgroups
      · next hspecial =>
        have hcomma : ¬(c = ',' ∧ st.draft.groups = 0) := by tauto
        have hclose : ¬(c = ')' ∧ st.draft.groups = 0) := by tauto
        rw [State.stepText_inner limits h.frames_eq hlegal.valid_last, State.stepArgument,
          if_neg hcomma, if_neg hclose, ← Option.some.inj hgroups]
  rw [charsSeq, charsSeq, List.append_nil, Piece.chars, run_singleton hstep]

/-- An escape is read. -/
theorem reads_escaped (c : Char) : Reads limits [.escaped c] := by
  intro frames cs ps st g h _ _
  have hmode : { st with mode := .text } = st := by
    rw [← h.mode]
  have hescape : AtText limits frames cs (ps ++ [.escaped c])
      ({ st.skip '\\' with mode := .escape st.pos }.stepEscape c) :=
    AtText.stepEscape (hmode.symm ▸ h) rfl
  refine ⟨_, ?_, hescape⟩
  have hstep : st.step limits '\\' = .ok { st.skip '\\' with mode := .escape st.pos } :=
    State.step_of_text limits h.mode '\\'
  rw [charsSeq, charsSeq, List.append_nil, Piece.chars, run_cons hstep]
  rfl

/-! ## Names -/

/-- The characters of a name are collected one by one, in whichever mode collects them. -/
theorem foldlM_name {mk : String → Mode}
    (hstep : ∀ (st : State) (name : String) (c : Char), st.mode = mk name → isNameChar c = true →
      st.step limits c = .ok { st.skip c with mode := mk (name.push c) })
    (cs : List Char) (hcs : ∀ c ∈ cs, isNameChar c = true) (name : String) (st : State)
    (hmode : st.mode = mk name) :
    cs.foldlM (State.step limits) st =
      .ok { st with pos := st.pos + utf8Len cs, mode := mk (name ++ .ofList cs) } := by
  induction cs generalizing name st with
  | nil =>
    rw [← hmode.trans (congrArg mk (String.append_empty (s := name)).symm)]
    rfl
  | cons c cs ih =>
    have hc := hcs c List.mem_cons_self
    rw [run_cons (hstep st name c hmode hc)]
    have hname : name.push c ++ .ofList cs = name ++ .ofList (c :: cs) := by
      rw [push_eq_append_ofList, String.append_assoc, ← String.ofList_append,
        List.singleton_append]
    have h := ih (fun d hd => hcs d (List.mem_cons_of_mem c hd)) (name.push c)
      { st.skip c with mode := mk (name.push c) } rfl
    rw [hname] at h
    rw [h]
    simp [State.skip, Nat.add_assoc, Nat.add_comm]

/-- A whole name is collected. -/
theorem foldlM_whole_name {mk : String → Mode}
    (hstep : ∀ (st : State) (name : String) (c : Char), st.mode = mk name → isNameChar c = true →
      st.step limits c = .ok { st.skip c with mode := mk (name.push c) })
    {name : String} (hname : IsName name) (st : State) (hmode : st.mode = mk "") :
    name.toList.foldlM (State.step limits) st =
      .ok { st with pos := st.pos + name.utf8ByteSize, mode := mk name } := by
  have h := foldlM_name limits hstep name.toList hname.2 "" st hmode
  rwa [String.empty_append, String.ofList_toList, String.utf8Len_toList] at h

/-- A character of names is added to the name of a field. -/
theorem step_fieldName (start : Nat) (st : State) (name : String) (c : Char)
    (hmode : st.mode = .fieldName start name) (hc : isNameChar c = true) :
    st.step limits c = .ok { st.skip c with mode := .fieldName start (name.push c) } := by
  rw [State.step, hmode]
  exact if_pos hc

/-- A character of names is added to the name of a call. -/
theorem step_callName (start : Nat) (st : State) (name : String) (c : Char)
    (hmode : st.mode = .callName start name) (hc : isNameChar c = true) :
    st.step limits c = .ok { st.skip c with mode := .callName start (name.push c) } := by
  rw [State.step, hmode]
  exact if_pos hc

/-- A field is read. -/
theorem reads_field (name : String) : Reads limits [.field name] := by
  intro frames cs ps st g h hlegal hfit
  have hname : IsName name := hlegal.valid_last
  obtain ⟨st₁, hl⟩ := h.endLiteral_isOk (fits_left hfit)
  obtain ⟨hp, -, hpos⟩ := h.endLiteral hl
  have hstart : st₁.pos = utf8Len cs + sizeSeq ps := hpos.trans h.pos
  have hopen : st.step limits '%' = .ok { st₁.skip '%' with mode := .fieldName st₁.pos "" } := by
    rw [State.step_of_text limits h.mode, State.stepText, if_pos rfl, hl]
    rfl
  have hnames := foldlM_whole_name limits (step_fieldName limits st₁.pos) hname
    { st₁.skip '%' with mode := .fieldName st₁.pos "" } rfl
  have hle : st₁.usage.text + name.utf8ByteSize ≤ limits.capacity := by
    have htext := hfit.text
    rw [usageSeq_nodes_append_singleton, ← Usage.add_assoc, ← hp.usage] at htext
    exact htext
  have hp' := hp.update (st₁.pos + 1 + name.utf8ByteSize) (.fieldName st₁.pos name)
  have hpos' : st₁.pos + 1 + name.utf8ByteSize = st₁.pos + (name.utf8ByteSize + 1) := by
    omega
  have hfield := hp'.field hstart hname hpos' hle
  refine ⟨_, ?_, hfield⟩
  rw [charsSeq, charsSeq, List.append_nil, Piece.chars, run_cons hopen, run_append hnames]
  refine run_singleton ?_
  rw [State.step]
  dsimp only
  rw [State.stepFieldName, if_neg (by decide), if_neg (by decide), if_neg hname.1]
  dsimp only [State.skip]
  rw [Limits.reserve_of_le _ hle]
  rfl

end

/-! ## Arguments -/

section
variable {limits : Limits} {frames : List Frame} {cs : List Char} {ps : List Piece}
  {frame : Frame} {st : State}

/-- What an open call and the sequence it is a part of take up, in terms of the grammar. -/
theorem Opened.spent_eq {maxDepth : Nat} {args : List (List Piece)}
    (h : Opened maxDepth frames cs ps frame args) :
    spent (frame :: frames) = spent frames + Node.usageSeq (nodes (utf8Len cs) ps) +
      Node.usageArgs
        (nodesArgs (utf8Len cs + sizeSeq ps + (frame.name.utf8ByteSize + 2)) args) := by
  rw [spent, h.outer, h.args_eq, h.start]

/-- The next argument fits if all do. -/
theorem Opened.fits_arg {maxDepth capacity : Nat} {args rest : List (List Piece)}
    {a : List Piece} (h : Opened maxDepth frames cs ps frame args)
    (hfit : (spent frames + Node.usageSeq (nodes (utf8Len cs) ps) +
      Node.usageArgs (nodesArgs (utf8Len cs + sizeSeq ps + (frame.name.utf8ByteSize + 2))
        (args ++ a :: rest))).Within capacity) :
    (spent (frame :: frames) +
      Node.usageRoot (nodes (utf8Len (argStart cs ps frame.name args)) a)).Within capacity := by
  rw [Piece.nodesArgs_append, Node.usageArgs_append, ← Usage.add_assoc, ← h.spent_eq,
    ← utf8Len_argStart, nodesArgs, Node.usageArgs, ← Usage.add_assoc] at hfit
  exact hfit.left

/-- The last argument fits if all do, unless it is none. -/
theorem Opened.fits_last {maxDepth capacity : Nat} {done : List (List Piece)} {last : List Piece}
    (h : Opened maxDepth frames cs ps frame done)
    (hfit : (spent frames + Node.usageSeq (nodes (utf8Len cs) ps) +
      Node.usageArgs (nodesArgs (utf8Len cs + sizeSeq ps + (frame.name.utf8ByteSize + 2))
        (lastArgs done last))).Within capacity)
    (hsome : (done.isEmpty && last.isEmpty) = false) :
    (spent (frame :: frames) +
      Node.usageRoot (nodes (utf8Len (argStart cs ps frame.name done)) last)).Within capacity := by
  rw [lastArgs, if_neg (by rw [hsome]; exact Bool.false_ne_true)] at hfit
  exact h.fits_arg hfit

/-- The nodes of the last argument fit if all arguments do, also if there is none. -/
theorem Opened.fits_lastSeq {maxDepth capacity : Nat} {done : List (List Piece)}
    {last : List Piece} (h : Opened maxDepth frames cs ps frame done)
    (hfit : (spent frames + Node.usageSeq (nodes (utf8Len cs) ps) +
      Node.usageArgs (nodesArgs (utf8Len cs + sizeSeq ps + (frame.name.utf8ByteSize + 2))
        (lastArgs done last))).Within capacity) :
    (spent (frame :: frames) +
      Node.usageSeq (nodes (utf8Len (argStart cs ps frame.name done)) last)).Within capacity := by
  cases hnone : done.isEmpty && last.isEmpty with
  | true =>
    rw [lastArgs, if_pos hnone] at hfit
    rw [Bool.and_eq_true, List.isEmpty_iff, List.isEmpty_iff] at hnone
    rw [h.spent_eq, hnone.1, hnone.2]
    exact hfit
  | false =>
    have hroot := h.fits_last hfit hnone
    rw [Node.usageRoot, ← Usage.add_assoc] at hroot
    exact hroot.left

/-- Complete arguments are read, each with its comma. -/
theorem AtText.readEach {done rest : List (List Piece)} (hread : ∀ a ∈ rest, Reads limits a)
    (h : AtText limits (frame :: frames) (argStart cs ps frame.name done) [] st)
    (stack : Stack limits.maxDepth frames cs)
    (opened : Opened limits.maxDepth frames cs ps frame done) (hvalid : Piece.ValidArgs rest)
    (hdepth : frames.length + 1 + Piece.depthArgs rest ≤ limits.maxDepth)
    (hfit : (spent frames + Node.usageSeq (nodes (utf8Len cs) ps) +
      Node.usageArgs (nodesArgs (utf8Len cs + sizeSeq ps + (frame.name.utf8ByteSize + 2))
        (done ++ rest))).Within limits.capacity) :
    ∃ st' frame', (charsEach rest).foldlM (State.step limits) st = .ok st' ∧
      frame'.name = frame.name ∧ Opened limits.maxDepth frames cs ps frame' (done ++ rest) ∧
      AtText limits (frame' :: frames) (argStart cs ps frame.name (done ++ rest)) [] st' := by
  induction rest generalizing done frame st with
  | nil =>
    rw [List.append_nil]
    exact ⟨st, frame, rfl, rfl, opened, h⟩
  | cons a rest ih =>
    obtain ⟨⟨hva, hba⟩, hvalid⟩ := hvalid
    rw [Piece.depthArgs] at hdepth
    have hlegal : Legal limits.maxDepth (frame :: frames).length 0 ([] ++ a) :=
      ⟨hva, fun _ => rfl, fun _ => hba, by rw [List.length_cons, List.nil_append]; omega⟩
    have hfita := opened.fits_arg hfit
    obtain ⟨st₁, hrun, h₁⟩ := hread a List.mem_cons_self h hlegal
      (by rw [Node.usageRoot, ← Usage.add_assoc] at hfita; exact hfita.left)
    rw [List.nil_append] at h₁
    have hgroups : st₁.draft.groups = 0 := by
      have hinner := h₁.legal.inner (Nat.succ_ne_zero _)
      exact Option.some.inj (hinner.symm.trans hba)
    obtain ⟨⟨st₂, frame₂⟩, he⟩ := h₁.endArgument_isOk frame hfita
    obtain ⟨opened₂, hname, h₂⟩ := h₁.comma stack opened hgroups he
    have hstep : st₁.step limits ',' = .ok { st₂ with
        pos := st₂.pos + 1
        draft := { start := st₂.pos + 1 }
        frames := frame₂ :: frames } := by
      rw [State.step_of_text limits h₁.mode,
        State.stepText_inner limits h₁.frames_eq ⟨by decide, by decide, by decide⟩,
        State.stepArgument, if_pos ⟨rfl, hgroups⟩, he]
      rfl
    rw [List.append_cons] at hfit ⊢
    rw [← hname] at h₂ hfit ⊢
    obtain ⟨st₃, frame₃, hrun₃, hname₃, opened₃, h₃⟩ :=
      ih (fun b hb => hread b (List.mem_cons_of_mem a hb)) h₂ opened₂ hvalid (by omega) hfit
    refine ⟨st₃, frame₃, ?_, hname₃, opened₃, h₃⟩
    rw [charsEach, List.flatMap_cons, List.append_assoc, run_append hrun, List.singleton_append,
      run_cons hstep]
    exact hrun₃

/-- The last argument is read, or none, with the parenthesis that closes the call. -/
theorem AtText.readLast {done : List (List Piece)} {last : List Piece} (hread : Reads limits last)
    (h : AtText limits (frame :: frames) (argStart cs ps frame.name done) [] st)
    (stack : Stack limits.maxDepth frames cs)
    (opened : Opened limits.maxDepth frames cs ps frame done) (hvalid : Piece.ValidSeq last)
    (hbalanced : Piece.Balanced last)
    (hdepth : frames.length + 1 + Piece.depthSeq last ≤ limits.maxDepth)
    (hfit : (spent frames + Node.usageSeq (nodes (utf8Len cs)
      (ps ++ [.call frame.name (lastArgs done last)]))).Within limits.capacity) :
    ∃ st', (charsSeq last ++ [')']).foldlM (State.step limits) st = .ok st' ∧
      AtText limits frames cs (ps ++ [.call frame.name (lastArgs done last)]) st' := by
  have hfitargs := hfit
  rw [usageSeq_nodes_append_singleton, ← Usage.add_assoc, Piece.node, Node.usage,
    ← Usage.add_assoc] at hfitargs
  have hfitseq := opened.fits_lastSeq hfitargs.left
  have hlegal : Legal limits.maxDepth (frame :: frames).length 0 ([] ++ last) :=
    ⟨hvalid, fun _ => rfl, fun _ => hbalanced, hdepth⟩
  obtain ⟨st₁, hrun, h₁⟩ := hread h hlegal hfitseq
  rw [List.nil_append] at h₁
  have hgroups : st₁.draft.groups = 0 :=
    Option.some.inj ((h₁.legal.inner (Nat.succ_ne_zero _)).symm.trans hbalanced)
  have harg : ∃ r, (if frame.args.isEmpty && st₁.atSequenceStart then .ok (st₁, frame)
      else st₁.endArgument limits frame) = Except.ok r := by
    rw [h₁.noArgument_eq opened]
    cases hnone : done.isEmpty && last.isEmpty with
    | true => exact ⟨_, rfl⟩
    | false => exact h₁.endArgument_isOk frame (opened.fits_last hfitargs.left hnone)
  obtain ⟨⟨st₂, frame₂⟩, harg⟩ := harg
  obtain ⟨hname, hclosing⟩ := h₁.closing opened hgroups harg
  rw [← hname] at hfit ⊢
  obtain ⟨st₃, hend⟩ := hclosing.endCall_isOk hfit
  refine ⟨st₃, ?_, hclosing.endCall stack hend⟩
  rw [run_append hrun]
  refine run_singleton ?_
  rw [State.step_of_text limits h₁.mode,
    State.stepText_inner limits h₁.frames_eq ⟨by decide, by decide, by decide⟩,
    State.stepArgument_close hgroups, harg]
  exact hend

/-- The arguments of a call are read, with the parenthesis that closes it. -/
theorem AtText.readArgs {args : List (List Piece)} (hread : ∀ a ∈ args, Reads limits a)
    (h : AtText limits (frame :: frames) (argStart cs ps frame.name []) [] st)
    (stack : Stack limits.maxDepth frames cs)
    (opened : Opened limits.maxDepth frames cs ps frame []) (hvalid : Piece.ValidArgs args)
    (hsome : args ≠ [[]]) (hdepth : frames.length + 1 + Piece.depthArgs args ≤ limits.maxDepth)
    (hfit : (spent frames + Node.usageSeq (nodes (utf8Len cs)
      (ps ++ [.call frame.name args]))).Within limits.capacity) :
    ∃ st', (charsArgs args ++ [')']).foldlM (State.step limits) st = .ok st' ∧
      AtText limits frames cs (ps ++ [.call frame.name args]) st' := by
  rcases args.eq_nil_or_concat' with rfl | ⟨done, last, rfl⟩
  · exact h.readLast (reads_nil limits) stack opened trivial rfl hdepth hfit
  · have hlast : lastArgs done last = done ++ [last] := by
      refine if_neg fun hnone => hsome ?_
      rw [Bool.and_eq_true, List.isEmpty_iff, List.isEmpty_iff] at hnone
      rw [hnone.1, hnone.2, List.nil_append]
    obtain ⟨hdone, hvl, hbl⟩ := (Piece.validArgs_append_singleton done last).1 hvalid
    rw [Piece.depthArgs_append_singleton] at hdepth
    have hfitargs := hfit
    rw [usageSeq_nodes_append_singleton, ← Usage.add_assoc, Piece.node, Node.usage,
      ← Usage.add_assoc] at hfitargs
    have hfitdone := hfitargs.left
    rw [Piece.nodesArgs_append, Node.usageArgs_append, ← Usage.add_assoc] at hfitdone
    obtain ⟨st₁, frame₁, hrun, hname, opened₁, h₁⟩ :=
      h.readEach (fun a ha => hread a (List.mem_append_left _ ha)) stack opened hdone (by omega)
        hfitdone.left
    rw [List.nil_append] at opened₁ h₁
    rw [← hname, ← hlast] at hfit
    rw [← hname] at h₁ ⊢
    obtain ⟨st₂, hrun₂, h₂⟩ := h₁.readLast (hread last (by simp)) stack opened₁ hvl hbl (by omega)
      hfit
    rw [hlast] at h₂
    refine ⟨st₂, ?_, h₂⟩
    rw [Piece.charsArgs_append_singleton, List.append_assoc, run_append hrun, hrun₂]

end

/-- The parenthesis after a name opens the call if the limit admits one more. -/
theorem State.step_paren {limits : Limits} {st : State} {frames : List Frame} {start : Nat}
    {name : String} (hmode : st.mode = .callName start name) (hname : name ≠ "")
    (hframes : st.frames = frames) (hdepth : frames.length < limits.maxDepth) :
    st.step limits '(' = .ok { st with
      pos := st.pos + 1
      mode := .text
      draft := { start := st.pos + 1 }
      frames := { start, name, outer := st.draft } :: frames } := by
  subst hframes
  rw [State.step, hmode]
  dsimp only
  rw [State.stepCallName, if_neg (by decide), if_neg hname, if_neg (by decide)]
  exact if_neg (Nat.not_le_of_lt hdepth)

/-- The beginning of a call is read, up to its first argument. -/
theorem AtText.readOpen {limits : Limits} {frames : List Frame} {cs : List Char} {ps : List Piece}
    {st : State} {name : String} (h : AtText limits frames cs ps st) (hname : IsName name)
    (hdepth : frames.length < limits.maxDepth)
    (hfit : (spent frames + Node.usageSeq (nodes (utf8Len cs) ps)).Within limits.capacity) :
    ∃ st' frame, ('$' :: (name.toList ++ ['('])).foldlM (State.step limits) st = .ok st' ∧
      frame.name = name ∧ Opened limits.maxDepth frames cs ps frame [] ∧
      AtText limits (frame :: frames) (argStart cs ps name []) [] st' := by
  obtain ⟨st₁, hl⟩ := h.endLiteral_isOk hfit
  obtain ⟨hp, -, hpos⟩ := h.endLiteral hl
  have hstart : st₁.pos = utf8Len cs + sizeSeq ps := hpos.trans h.pos
  have hopen : st.step limits '$' = .ok { st₁.skip '$' with mode := .callName st₁.pos "" } := by
    rw [State.step_of_text limits h.mode, State.stepText, if_neg (by decide), if_pos rfl, hl]
    rfl
  have hnames := foldlM_whole_name limits (step_callName limits st₁.pos) hname
    { st₁.skip '$' with mode := .callName st₁.pos "" } rfl
  have hp' := hp.update (st₁.pos + 1 + name.utf8ByteSize) (.callName st₁.pos name)
  have hpos' : st₁.pos + 1 + name.utf8ByteSize = st₁.pos + (name.utf8ByteSize + 1) := by
    omega
  obtain ⟨opened, h₂⟩ := hp'.openCall hstart hname hpos' hdepth
  refine ⟨_, _, ?_, rfl, opened, h₂⟩
  rw [run_cons hopen, run_append hnames]
  exact run_singleton (State.step_paren rfl hname.1 hp'.frames_eq hdepth)

/-- A call is read. -/
theorem reads_call (limits : Limits) (name : String) (args : List (List Piece))
    (hargs : ∀ a ∈ args, Reads limits a) : Reads limits [.call name args] := by
  intro frames cs ps st g h hlegal hfit
  obtain ⟨hname, hsome, hvalid⟩ := hlegal.valid_last
  have hdepth : frames.length + 1 + Piece.depthArgs args ≤ limits.maxDepth := by
    have := hlegal.depth
    rw [Piece.depthSeq_append, Piece.depthSeq, Piece.depth] at this
    omega
  obtain ⟨st₁, frame, hopen, rfl, opened, h₁⟩ := h.readOpen hname (by omega) (fits_left hfit)
  obtain ⟨st₂, hrun, h₂⟩ := h₁.readArgs hargs h.stack opened hvalid hsome hdepth hfit
  refine ⟨st₂, ?_, h₂⟩
  have hchars : charsSeq [.call frame.name args] =
      '$' :: (frame.name.toList ++ ['(']) ++ (charsArgs args ++ [')']) := by
    simp [charsSeq, Piece.chars]
  rw [hchars, run_append hopen, hrun]

/-! ## Sources -/

/-- Every sequence is read. -/
theorem reads (limits : Limits) (ps : List Piece) : Reads limits ps := by
  induction ps using Piece.seqInduction with
  | nil => exact reads_nil limits
  | plain c ps ih => exact (reads_plain limits c).cons ih
  | escaped c ps ih => exact (reads_escaped limits c).cons ih
  | field name ps ih => exact (reads_field limits name).cons ih
  | call name args ps iha ih => exact (reads_call limits name args iha).cons ih

/-- The source text of a derivation is read, and gives the tree of the derivation. -/
theorem read_complete {limits : Limits} {source : String} {ps : List Piece}
    (h : Derives limits source ps) : read limits source = .ok (nodes 0 ps) := by
  have hlegal : Legal limits.maxDepth 0 0 ([] ++ ps) :=
    ⟨h.valid, fun _ => rfl, fun hl => absurd rfl hl, by rw [Nat.zero_add]; exact h.depth⟩
  have hfit := h.fits
  rw [Node.usageRoot] at hfit
  have hfit' : (spent [] + Node.usageSeq (nodes (utf8Len []) ([] ++ ps))).Within
      limits.capacity := by
    rw [spent, Usage.zero_add]
    exact hfit.left
  obtain ⟨st, hrun, hst⟩ := reads limits ps (atText_start limits) hlegal hfit'
  obtain ⟨st₁, hl⟩ := hst.endLiteral_isOk hfit'
  obtain ⟨hp, -, -⟩ := hst.endLiteral hl
  have hle : st₁.usage.nodes + st₁.draft.nodes.size ≤ limits.capacity := by
    rw [hp.usage, spent, Usage.zero_add, ← Array.length_toList, hp.nodes_eq]
    exact hfit.nodes
  rw [read, ← h.chars, hrun]
  show st.finish limits = _
  rw [State.finish, hst.mode]
  dsimp only
  rw [hst.frames_eq]
  dsimp only
  rw [hl]
  simp only [bind, Except.bind, Limits.reserve_of_le _ hle]
  rw [hp.nodes_eq]
  rfl

/-- A source is read if and only if it derives from the grammar within the limits, and what is read
is the tree of the derivation. -/
theorem read_eq_ok_iff (limits : Limits) (source : String) (ns : List Node) :
    read limits source = .ok ns ↔ ∃ ps, Derives limits source ps ∧ ns = nodes 0 ps := by
  refine ⟨read_sound, ?_⟩
  rintro ⟨ps, h, rfl⟩
  exact read_complete h

end Reader

end TagTemplate
