import TagTemplate.Proofs.Reading.Sound

/-!
# Reading within two limits on nesting

The limit on nesting matters at one place only, where a parenthesis opens a call. So readers that
differ in this limit alone go the same way until the lower limit refuses a call
(`State.step_of_deeper`), and what one of them gets through within the lower limit the other gets
through as well (`run_of_deeper`).

Which call is refused is told by the tree that the reader with the higher limit gives.
`Node.sitesSeq` lists the calls of a tree as they begin in the source, and `State.sites` those that
the reader has come to. A step adds at most the call that it opens (`State.step_sites`), so the call
that is refused is the first one of its level (`read_of_deeper`).
-/

namespace TagTemplate

/-! ## The calls of a tree -/

/-- The place of a call. -/
structure CallSite where
  /-- The number of calls around it. -/
  around : Nat
  /-- The offset of its `$`. -/
  start : Nat
  name : String
deriving DecidableEq

/-- The offset after the parenthesis that follows the name. -/
def CallSite.stop (s : CallSite) : Nat :=
  s.start + (s.name.utf8ByteSize + 2)

namespace Node

mutual

/-- The calls of a node that stands inside `around` others, in the order in which they begin. -/
def sites (around : Nat) : Node → List CallSite
  | .literal _ _ | .field _ _ => []
  | .call name args span => ⟨around, span.start, name⟩ :: sitesArgs (around + 1) args

/-- `sites` over a sequence. -/
def sitesSeq (around : Nat) : List Node → List CallSite
  | [] => []
  | n :: ns => n.sites around ++ sitesSeq around ns

/-- `sites` over the arguments of a call. -/
def sitesArgs (around : Nat) : List (List Node) → List CallSite
  | [] => []
  | a :: as => sitesSeq around a ++ sitesArgs around as

end

/-- The calls of two sequences are those of the one and then those of the other. -/
theorem sitesSeq_append (around : Nat) (ns ms : List Node) :
    sitesSeq around (ns ++ ms) = sitesSeq around ns ++ sitesSeq around ms := by
  induction ns with
  | nil => rfl
  | cons n ns ih => rw [List.cons_append, sitesSeq, ih, sitesSeq, List.append_assoc]

/-- One more node adds its calls at the end. -/
theorem sitesSeq_append_singleton (around : Nat) (ns : List Node) (n : Node) :
    sitesSeq around (ns ++ [n]) = sitesSeq around ns ++ n.sites around := by
  rw [sitesSeq_append, sitesSeq, sitesSeq, List.append_nil]

/-- One more argument adds its calls at the end. -/
theorem sitesArgs_append_singleton (around : Nat) (args : List (List Node)) (a : List Node) :
    sitesArgs around (args ++ [a]) = sitesArgs around args ++ sitesSeq around a := by
  induction args with
  | nil => exact List.append_nil _
  | cons b as ih => rw [List.cons_append, sitesArgs, ih, sitesArgs, List.append_assoc]

/-- The first call, as they begin in the source, that has exactly `d` others around it. -/
def firstSite (d : Nat) (ns : List Node) : Option CallSite :=
  (sitesSeq 0 ns).find? fun s => s.around = d

end Node

namespace Reader

open String (utf8Len)
open Node (sitesSeq sitesArgs sitesSeq_append_singleton sitesArgs_append_singleton)

/-! ## The calls that the reader has come to -/

/-- The call that a frame holds open inside `around` others, with the calls of its complete
arguments. -/
def Frame.sites (around : Nat) (frame : Frame) : List CallSite :=
  ⟨around, frame.start, frame.name⟩ :: sitesArgs (around + 1) frame.args.toList

/-- The calls before the innermost sequence, the open ones included. -/
def framesSites : List Frame → List CallSite
  | [] => []
  | frame :: frames =>
    framesSites frames ++ sitesSeq frames.length frame.outer.nodes.toList ++
      frame.sites frames.length

/-- The calls that the reader has come to, in the order in which they begin. -/
def State.sites (st : State) : List CallSite :=
  framesSites st.frames ++ sitesSeq st.frames.length st.draft.nodes.toList

/-- The call that the character opens. -/
def State.opens (st : State) (c : Char) : List CallSite :=
  match st.mode with
  | .callName start name => if c = '(' then [⟨st.frames.length, start, name⟩] else []
  | .text | .escape _ | .fieldName _ _ | .brokenField _ _ _ => []

section
variable {limits : Limits} {frames : List Frame} {frame frame' : Frame} {st st' : State} {c : Char}

/-- A literal is no call. -/
theorem State.endLiteral_sites (h : st.endLiteral limits = .ok st') :
    st'.frames = st.frames ∧ ∀ around, sitesSeq around st'.draft.nodes.toList =
      sitesSeq around st.draft.nodes.toList := by
  unfold State.endLiteral at h
  split at h
  · cases h
    exact ⟨rfl, fun _ => rfl⟩
  · obtain ⟨text, -, h⟩ := exists_of_bind_eq_ok h
    cases h
    refine ⟨rfl, fun around => ?_⟩
    rw [Array.toList_push, sitesSeq_append_singleton, Node.sites, List.append_nil]

/-- To end a literal leaves the calls that were read. -/
theorem State.sites_endLiteral (h : st.endLiteral limits = .ok st') : st'.sites = st.sites := by
  obtain ⟨hframes, hnodes⟩ := State.endLiteral_sites h
  rw [State.sites, hframes, hnodes, State.sites]

/-- A finished node is the last of its sequence. -/
theorem State.sites_addNode (st : State) (n : Node) :
    (st.addNode n).sites = st.sites ++ n.sites st.frames.length := by
  simp only [State.sites, State.addNode, Array.toList_push, sitesSeq_append_singleton,
    List.append_assoc]

/-- The calls of a finished argument are calls of the call. -/
theorem framesSites_push (frame : Frame) (frames : List Frame) (a : List Node) :
    framesSites ({ frame with args := frame.args.push a } :: frames) =
      framesSites (frame :: frames) ++ sitesSeq (frames.length + 1) a := by
  simp only [framesSites, Frame.sites, Array.toList_push, sitesArgs_append_singleton,
    List.append_assoc, List.cons_append]

/-- Ending an argument moves its calls into the frame. -/
theorem State.endArgument_sites (h : st.endArgument limits frame = .ok (st', frame')) :
    framesSites (frame' :: frames) =
      framesSites (frame :: frames) ++ sitesSeq (frames.length + 1) st.draft.nodes.toList := by
  unfold State.endArgument at h
  obtain ⟨st₁, hl, h⟩ := exists_of_bind_eq_ok h
  obtain ⟨sum, -, h⟩ := exists_of_bind_eq_ok h
  cases h
  rw [framesSites_push, (State.endLiteral_sites hl).2]

/-- So does ending the last argument, or none. -/
theorem State.endLast_sites
    (h : (if frame.args.isEmpty && st.atSequenceStart then .ok (st, frame)
      else st.endArgument limits frame) = Except.ok (st', frame')) :
    framesSites (frame' :: frames) =
      framesSites (frame :: frames) ++ sitesSeq (frames.length + 1) st.draft.nodes.toList := by
  split at h
  · next hnone =>
    cases h
    have hnodes : st.draft.nodes.toList = [] := by
      simp only [State.atSequenceStart, Bool.and_eq_true, Array.isEmpty_iff] at hnone
      rw [hnone.2.1]
    rw [hnodes, sitesSeq, List.append_nil]
  · exact State.endArgument_sites h

/-- A closed call has the calls that it had while it was open. -/
theorem State.endCall_sites (h : st.endCall limits frame frames = .ok st') :
    st'.sites = framesSites (frame :: frames) := by
  unfold State.endCall at h
  obtain ⟨args, -, h⟩ := exists_of_bind_eq_ok h
  obtain ⟨text, -, h⟩ := exists_of_bind_eq_ok h
  cases h
  rw [State.sites_addNode]
  rfl

/-! ## Steps -/

/-- A character of an argument leaves the calls that were read. -/
theorem State.stepArgument_sites (hframes : st.frames = frame :: frames)
    (h : st.stepArgument limits frame frames c = .ok st') : st'.sites = st.sites := by
  have hsites : st.sites = framesSites (frame :: frames) ++
      sitesSeq (frames.length + 1) st.draft.nodes.toList := by
    rw [State.sites, hframes, List.length_cons]
  by_cases hcomma : c = ',' ∧ st.draft.groups = 0
  · rw [State.stepArgument, if_pos hcomma] at h
    obtain ⟨⟨st₁, frame₁⟩, he, h⟩ := exists_of_bind_eq_ok h
    cases h
    rw [hsites, ← State.endArgument_sites he]
    exact List.append_nil _
  by_cases hclose : c = ')' ∧ st.draft.groups = 0
  · obtain ⟨rfl, hgroups⟩ := hclose
    rw [State.stepArgument_close hgroups] at h
    obtain ⟨⟨st₁, frame₁⟩, he, h⟩ := exists_of_bind_eq_ok h
    rw [hsites, ← State.endLast_sites he, State.endCall_sites h]
  · rw [State.stepArgument, if_neg hcomma, if_neg hclose] at h
    cases h
    rfl

/-- A character of text leaves the calls that were read. -/
theorem State.stepText_sites (h : st.stepText limits c = .ok st') : st'.sites = st.sites := by
  unfold State.stepText at h
  split at h
  · obtain ⟨st₁, hl, h⟩ := exists_of_bind_eq_ok h
    cases h
    show st₁.sites = st.sites
    exact State.sites_endLiteral hl
  split at h
  · obtain ⟨st₁, hl, h⟩ := exists_of_bind_eq_ok h
    cases h
    show st₁.sites = st.sites
    exact State.sites_endLiteral hl
  split at h
  · cases h
    rfl
  · split at h
    · cases h
      rfl
    · next frame frames hframes => exact State.stepArgument_sites hframes h

/-- A character in the name of a field leaves the calls that were read. -/
theorem State.stepFieldName_sites {start : Nat} {name : String}
    (h : st.stepFieldName limits start name c = .ok st') : st'.sites = st.sites := by
  unfold State.stepFieldName at h
  split at h
  · cases h
    rfl
  split at h
  · cases h
    rfl
  split at h
  · cases h
  · obtain ⟨text, -, h⟩ := exists_of_bind_eq_ok h
    cases h
    rw [State.sites_addNode, Node.sites, List.append_nil]
    rfl

/-- A parenthesis after a name opens a call, or is refused because of the calls around it. -/
theorem State.stepCallName_paren {start : Nat} {name : String} (hname : name ≠ "") :
    st.stepCallName limits start name '(' =
      if limits.maxDepth ≤ st.frames.length then
        .error (.nestingTooDeep limits.maxDepth start (st.pos + 1))
      else
        .ok { st with
          pos := st.pos + 1
          mode := .text
          draft := { start := st.pos + 1 }
          frames := { start, name, outer := st.draft } :: st.frames } := by
  rw [State.stepCallName, if_neg (by decide), if_neg hname, if_neg (by decide)]
  rfl

/-- After a name the calls around matter to a parenthesis only. -/
theorem State.stepCallName_of_ne {start : Nat} {name : String} (hc : c ≠ '(') :
    st.stepCallName limits start name c =
      if isNameChar c then
        .ok { st.skip c with mode := .callName start (name.push c) }
      else if name = "" then
        .error (.emptyCall start)
      else
        .error (.expectedArgumentList start st.pos) := by
  rw [State.stepCallName, if_pos hc]

/-- A name comes before the parenthesis that opens a call. -/
theorem State.stepCallName_nil {start : Nat} :
    st.stepCallName limits start "" '(' = .error (.emptyCall start) := by
  rw [State.stepCallName, if_neg (by decide), if_pos rfl]

/-- A character in the name of a call leaves the calls that were read, and the parenthesis behind
the name adds the call. -/
theorem State.stepCallName_sites {start : Nat} {name : String}
    (h : st.stepCallName limits start name c = .ok st') :
    st'.sites = st.sites ++ if c = '(' then [⟨st.frames.length, start, name⟩] else [] := by
  by_cases hc : c = '('
  · subst hc
    by_cases hname : name = ""
    · subst hname
      rw [State.stepCallName_nil] at h
      cases h
    · rw [State.stepCallName_paren hname] at h
      split at h
      · cases h
      · cases h
        exact List.append_nil _
  · rw [State.stepCallName_of_ne hc] at h
    rw [if_neg hc, List.append_nil]
    split at h
    · cases h
      rfl
    · split at h <;> cases h

/-- A step comes to the call that it opens, and to no other. -/
theorem State.step_sites (h : st.step limits c = .ok st') : st'.sites = st.sites ++ st.opens c := by
  unfold State.step at h
  unfold State.opens
  cases hmode : st.mode with
  | text =>
    rw [hmode] at h
    exact (State.stepText_sites h).trans (List.append_nil _).symm
  | escape start =>
    rw [hmode] at h
    cases h
    exact (List.append_nil _).symm
  | fieldName start name =>
    rw [hmode] at h
    exact (State.stepFieldName_sites h).trans (List.append_nil _).symm
  | brokenField start offender offset =>
    rw [hmode] at h
    dsimp only at h
    split at h
    · cases h
    · cases h
      exact (List.append_nil _).symm
  | callName start name =>
    rw [hmode] at h
    exact State.stepCallName_sites h

/-- Only a parenthesis after a name opens a call. -/
theorem State.opens_eq_singleton {site : CallSite} (h : st.opens c = [site]) :
    c = '(' ∧ st.mode = .callName site.start site.name ∧ site.around = st.frames.length := by
  unfold State.opens at h
  split at h
  · next start name hmode =>
    split at h
    · next hc =>
      cases h
      exact ⟨hc, hmode, rfl⟩
    · cases h
  all_goals cases h

/-- A reader with a lower limit takes the same step, unless the step opens a call inside too many
others. -/
theorem State.step_of_deeper {d d' : Nat} (hd : d ≤ d') (capacity : Nat) (st : State) (c : Char) :
    st.step ⟨d, capacity⟩ c = st.step ⟨d', capacity⟩ c ∨
      ∃ site, st.opens c = [site] ∧ d ≤ site.around ∧
        st.step ⟨d, capacity⟩ c = .error (.nestingTooDeep d site.start (st.pos + 1)) := by
  unfold State.step State.opens
  cases st.mode with
  | text | escape | fieldName | brokenField => exact .inl rfl
  | callName start name =>
    dsimp only
    by_cases hc : c = '('
    · subst hc
      by_cases hname : name = ""
      · subst hname
        exact .inl (State.stepCallName_nil.trans State.stepCallName_nil.symm)
      rw [State.stepCallName_paren hname, State.stepCallName_paren hname]
      by_cases hdeep : d ≤ st.frames.length
      · exact .inr ⟨⟨st.frames.length, start, name⟩, rfl, hdeep, if_pos hdeep⟩
      · have hdeep' : ¬d' ≤ st.frames.length := by omega
        exact .inl ((if_neg hdeep).trans (if_neg hdeep').symm)
    · exact .inl ((State.stepCallName_of_ne hc).trans (State.stepCallName_of_ne hc).symm)

/-- The calls that a reader opens stand inside fewer others than its limit says. -/
theorem State.around_lt_of_opens {site : CallSite} (h : st.step limits c = .ok st')
    (hsite : site ∈ st.opens c) : site.around < limits.maxDepth := by
  unfold State.opens at hsite
  split at hsite
  · next start name hmode =>
    rw [State.step, hmode] at h
    dsimp only at h
    split at hsite
    · next hc =>
      subst hc
      obtain rfl := List.mem_singleton.1 hsite
      by_cases hname : name = ""
      · subst hname
        rw [State.stepCallName_nil] at h
        cases h
      · rw [State.stepCallName_paren hname] at h
        split at h
        · cases h
        · next hdepth => exact Nat.lt_of_not_le hdepth
    · cases hsite
  all_goals cases hsite

/-! ## Runs -/

/-- What a reader with a lower limit gets through is read alike within a higher one. -/
theorem run_of_deeper {d d' capacity : Nat} (hd : d ≤ d') {cs : List Char}
    (h : cs.foldlM (State.step ⟨d, capacity⟩) st = .ok st') :
    cs.foldlM (State.step ⟨d', capacity⟩) st = .ok st' := by
  induction cs generalizing st with
  | nil => exact h
  | cons c cs ih =>
    rw [List.foldlM_cons] at h ⊢
    obtain ⟨st₁, hstep, h⟩ := exists_of_bind_eq_ok h
    rcases State.step_of_deeper hd capacity st c with heq | ⟨site, -, -, herror⟩
    · rw [← heq, hstep]
      exact ih h
    · rw [herror] at hstep
      cases hstep

/-- A run that fails does so at a character. -/
theorem run_error {e : CompileError} {cs : List Char}
    (h : cs.foldlM (State.step limits) st = .error e) :
    ∃ as c bs st', cs = as ++ c :: bs ∧ as.foldlM (State.step limits) st = .ok st' ∧
      st'.step limits c = .error e := by
  induction cs generalizing st with
  | nil => cases h
  | cons c cs ih =>
    rw [List.foldlM_cons] at h
    cases hstep : st.step limits c with
    | error e' =>
      rw [hstep] at h
      cases h
      exact ⟨[], c, cs, st, rfl, rfl, hstep⟩
    | ok st₁ =>
      rw [hstep] at h
      obtain ⟨as, c', bs, st', rfl, hrun, herror⟩ := ih h
      refine ⟨c :: as, c', bs, st', rfl, ?_, herror⟩
      rw [List.foldlM_cons, hstep]
      exact hrun

/-- The calls that a run comes to follow those that were there before. -/
theorem run_sites {cs : List Char} (h : cs.foldlM (State.step limits) st = .ok st') :
    st.sites <+: st'.sites := by
  induction cs generalizing st with
  | nil =>
    cases h
    exact List.prefix_rfl
  | cons c cs ih =>
    rw [List.foldlM_cons] at h
    obtain ⟨st₁, hstep, h⟩ := exists_of_bind_eq_ok h
    refine List.IsPrefix.trans ?_ (ih h)
    rw [State.step_sites hstep]
    exact List.prefix_append _ _

/-- All calls that a run comes to stand inside fewer others than the limit says, if those before do.
-/
theorem run_around_lt {cs : List Char} (h : cs.foldlM (State.step limits) st = .ok st')
    (hst : ∀ s ∈ st.sites, s.around < limits.maxDepth) :
    ∀ s ∈ st'.sites, s.around < limits.maxDepth := by
  induction cs generalizing st with
  | nil =>
    cases h
    exact hst
  | cons c cs ih =>
    rw [List.foldlM_cons] at h
    obtain ⟨st₁, hstep, h⟩ := exists_of_bind_eq_ok h
    refine ih h ?_
    rw [State.step_sites hstep, List.forall_mem_append]
    exact ⟨hst, fun s => State.around_lt_of_opens hstep⟩

/-- At the end of the source the calls that the reader has come to are those of the tree. -/
theorem State.finish_sites {ns : List Node} (h : st.finish limits = .ok ns) :
    sitesSeq 0 ns = st.sites := by
  unfold State.finish at h
  split at h
  · split at h
    · next hframes =>
      obtain ⟨st₁, hl, h⟩ := exists_of_bind_eq_ok h
      obtain ⟨sum, -, h⟩ := exists_of_bind_eq_ok h
      cases h
      rw [(State.endLiteral_sites hl).2, State.sites, hframes]
      rfl
    · obtain ⟨r, -, h⟩ := exists_of_bind_eq_ok h
      cases h
  all_goals cases h

end

/-! ## Sources -/

/-- What was read before a parenthesis that may open a call. -/
theorem Reading.callName_inv {limits : Limits} {cs : List Char} {st : State} {start : Nat}
    {name : String} (h : Reading limits cs st) (hmode : st.mode = .callName start name) :
    ∃ frames ds ps, Paused limits frames ds ps st ∧
      cs = ds ++ Piece.charsSeq ps ++ '$' :: name.toList ∧
      start = utf8Len (ds ++ Piece.charsSeq ps) ∧ st.pos = start + (name.utf8ByteSize + 1) := by
  cases h with
  | text h => rw [h.mode] at hmode; cases hmode
  | escape mode | fieldName mode | brokenField mode => rw [mode] at hmode; cases hmode
  | callName mode h start_eq chars pos =>
    obtain ⟨rfl, rfl⟩ := Mode.callName.inj (mode.symm.trans hmode)
    exact ⟨_, _, _, h, rfl, by rw [start_eq, String.utf8Len_append, Piece.sizeSeq], pos⟩

section
variable {d d' capacity : Nat} {source : String}

/-- A call that the lower limit refuses is the first of its level, whatever follows in the source.
-/
theorem firstSite_of_refused {as bs : List Char} {st : State} {site : CallSite} {ns : List Node}
    (hd : d ≤ d') (hsource : source.toList = as ++ '(' :: bs)
    (hrun : as.foldlM (State.step ⟨d, capacity⟩) State.start = .ok st)
    (hopens : st.opens '(' = [site]) (haround : site.around = d)
    (hread : read ⟨d', capacity⟩ source = .ok ns) : Node.firstSite d ns = some site := by
  obtain ⟨st', hrun', hfinish⟩ := exists_of_bind_eq_ok hread
  rw [hsource, List.foldlM_append, run_of_deeper hd hrun] at hrun'
  obtain ⟨st₁, hstep, hrest⟩ := exists_of_bind_eq_ok (List.foldlM_cons.symm.trans hrun')
  obtain ⟨more, hmore⟩ := run_sites hrest
  have hbefore : ∀ s ∈ st.sites, s.around < d :=
    run_around_lt hrun fun s hs => absurd hs List.not_mem_nil
  have hnone : st.sites.find? (fun s => s.around = d) = none :=
    List.find?_eq_none.2 fun s hs => by simpa using (hbefore s hs).ne
  rw [Node.firstSite, State.finish_sites hfinish, ← hmore, State.step_sites hstep, hopens,
    List.append_assoc, List.find?_append, hnone]
  simp [haround]

/-- A reader with a lower limit reads the same, or it refuses a call. That is the first call, as
they begin in the source, that has as many others around it as the limit says. -/
theorem read_of_deeper (hd : d ≤ d') (capacity : Nat) (source : String) :
    read ⟨d, capacity⟩ source = read ⟨d', capacity⟩ source ∨
      ∃ site before after,
        read ⟨d, capacity⟩ source = .error (.nestingTooDeep d site.start site.stop) ∧
          source.toList = before ++ '$' :: (site.name.toList ++ ['(']) ++ after ∧
          site.start = utf8Len before ∧
          ∀ ns, read ⟨d', capacity⟩ source = .ok ns → Node.firstSite d ns = some site := by
  cases hrun : source.toList.foldlM (State.step ⟨d, capacity⟩) State.start with
  | ok st =>
    rw [read, read, hrun, run_of_deeper hd hrun]
    exact .inl rfl
  | error e =>
    obtain ⟨as, c, bs, st, hsource, hrun₁, herror⟩ := run_error hrun
    have hread : read ⟨d, capacity⟩ source = .error e := by
      rw [read, hrun]
      rfl
    rcases State.step_of_deeper hd capacity st c with heq | ⟨site, hopens, hdeep, hrefused⟩
    · have hread' : read ⟨d', capacity⟩ source = .error e := by
        rw [heq] at herror
        rw [read, hsource, List.foldlM_append, run_of_deeper hd hrun₁]
        simp only [List.foldlM_cons, bind, Except.bind, herror]
      exact .inl (hread.trans hread'.symm)
    · obtain ⟨rfl, hmode, haround⟩ := State.opens_eq_singleton hopens
      obtain ⟨frames, before, ps, hpaused, rfl, hstart, hpos⟩ :=
        (reading_of_run hrun₁).callName_inv hmode
      have hdepth : frames.length ≤ d := hpaused.legal.level_le
      rw [← hpaused.frames_eq, ← haround] at hdepth
      obtain rfl := Except.error.inj (herror.symm.trans hrefused)
      have hstop : st.pos + 1 = site.stop := by
        rw [hpos, CallSite.stop, Nat.add_assoc]
      refine .inr ⟨site, before ++ Piece.charsSeq ps, bs, hstop ▸ hread, ?_, hstart, fun ns hns =>
        firstSite_of_refused hd hsource hrun₁ hopens (Nat.le_antisymm hdepth hdeep) hns⟩
      rw [hsource]
      simp

end

end Reader

end TagTemplate
