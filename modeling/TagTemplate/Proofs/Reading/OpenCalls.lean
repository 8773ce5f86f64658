import TagTemplate.Proofs.Reading.Complete
import TagTemplate.Proofs.Reading.Nesting
import TagTemplate.Proofs.Reading.Room

/-!
# The calls that a text leaves open

`OpenAfter` says, of a text that ends between two pieces, which calls are open at its end. Like the
grammar it does without a reader. The reader's open calls are those of the text it has read
(`Stack.openAfter`), and every text with open calls is read if the limits admit it
(`OpenAfter.exists_run`). Since the reader comes to one state only, no text leaves calls open in two
ways (`OpenAfter.unique`).
-/

namespace TagTemplate

open String (utf8Len)
open Piece (charsSeq charsEach sizeSeq)

/-- The calls of `sites`, innermost first, are open after the text. -/
inductive OpenAfter : List Char → List CallSite → Prop
  /-- Outside all calls. -/
  | top {ps : List Piece} (valid : Piece.ValidSeq ps) : OpenAfter (charsSeq ps) []
  /-- Inside one more call, after its complete arguments and the beginning of the next. -/
  | inner {cs : List Char} {sites : List CallSite} {name : String} {args : List (List Piece)}
      {ps : List Piece} {groups : Nat} (outer : OpenAfter cs sites) (isName : IsName name)
      (complete : Piece.ValidArgs args) (valid : Piece.ValidSeq ps)
      (begun : Piece.groupsSeq 0 ps = some groups) :
      OpenAfter (cs ++ '$' :: (name.toList ++ '(' :: charsEach args) ++ charsSeq ps)
        (⟨sites.length, utf8Len cs, name⟩ :: sites)

/-- Exactly the calls of `sites` are open after the text. -/
def OpenExactly (cs : List Char) (sites : List CallSite) : Prop :=
  ∀ sites', OpenAfter cs sites' ↔ sites' = sites

namespace Reader

variable {limits : Limits} {frames : List Frame} {cs : List Char} {ps : List Piece}

/-- The calls that the reader holds open, innermost first. -/
def openSites : List Frame → List CallSite
  | [] => []
  | frame :: frames => ⟨frames.length, frame.start, frame.name⟩ :: openSites frames

/-- There is a place for each open call. -/
theorem length_openSites (frames : List Frame) : (openSites frames).length = frames.length := by
  induction frames with
  | nil => rfl
  | cons frame frames ih => rw [openSites, List.length_cons, ih, List.length_cons]

/-- The offset of an open call is the length of the text before it. -/
theorem Opened.start_eq {maxDepth : Nat} {frame : Frame} {args : List (List Piece)}
    (h : Opened maxDepth frames cs ps frame args) : frame.start = utf8Len (cs ++ charsSeq ps) := by
  rw [h.start, Piece.utf8Len_append_charsSeq]

/-- The calls that the reader holds open are open after the text it has read. -/
theorem Stack.openAfter {maxDepth g : Nat} (stack : Stack maxDepth frames cs)
    (legal : Legal maxDepth frames.length g ps) :
    OpenAfter (cs ++ charsSeq ps) (openSites frames) := by
  induction stack generalizing g ps with
  | nil => exact .top legal.valid
  | @cons frames cs frame ps₀ args stack opened ih =>
    have hinner := OpenAfter.inner (ih opened.legal) opened.name opened.valid legal.valid
      (legal.inner (Nat.succ_ne_zero _))
    rwa [length_openSites, ← opened.start_eq] at hinner

/-- An argument that begins after complete ones may go on with pieces of the language. -/
theorem AtText.readArgument {frame : Frame} {done : List (List Piece)} {st : State} {g : Nat}
    (h : AtText limits (frame :: frames) (argStart cs ps frame.name done) [] st) {a : List Piece}
    (hvalid : Piece.ValidSeq a) (hbegun : Piece.groupsSeq 0 a = some g)
    (hdepth : frames.length + 1 + Piece.depthSeq a ≤ limits.maxDepth)
    (hroom : utf8Len (argStart cs ps frame.name done ++ charsSeq a) ≤ limits.capacity) :
    ∃ st', (charsSeq a).foldlM (State.step limits) st = .ok st' ∧
      AtText limits (frame :: frames) (argStart cs ps frame.name done) a st' := by
  have hlegal : Legal limits.maxDepth (frame :: frames).length g ([] ++ a) :=
    ⟨hvalid, fun hl => absurd hl (Nat.succ_ne_zero _), fun _ => hbegun, hdepth⟩
  exact reads limits a h hlegal (h.stack.within_seq a hroom)

/-- A call begins and its complete arguments are read, up to the next argument. -/
theorem AtText.readBegun {st : State} {name : String} {args : List (List Piece)}
    (h : AtText limits frames cs ps st) (hname : IsName name) (hargs : Piece.ValidArgs args)
    (hdepth : frames.length + 1 + Piece.depthArgs args ≤ limits.maxDepth)
    (hroom : utf8Len (argStart cs ps name args) ≤ limits.capacity) :
    ∃ st' frame, ('$' :: (name.toList ++ '(' :: charsEach args)).foldlM (State.step limits) st =
        .ok st' ∧
      frame.name = name ∧ frame.start = utf8Len (cs ++ charsSeq ps) ∧
      AtText limits (frame :: frames) (argStart cs ps name args) [] st' := by
  have hread : utf8Len (cs ++ charsSeq ps) ≤ limits.capacity := utf8Len_left_le hroom
  have hfit := h.stack.within_seq ps hread
  obtain ⟨st₁, frame, hopen, rfl, opened, h₁⟩ := h.readOpen hname (by omega) hfit
  -- The arguments take up no more than their source text, which there is room for.
  have hfitargs : (spent frames + Node.usageSeq (Piece.nodes (utf8Len cs) ps) +
      Node.usageArgs (Piece.nodesArgs (utf8Len cs + sizeSeq ps + (frame.name.utf8ByteSize + 2))
        ([] ++ args))).Within limits.capacity := by
    have hbefore := h.stack.within_seq ps (Nat.le_refl _)
    refine (hbefore.add (usageArgs_each_within args _)).mono ?_
    rw [utf8Len_argStart] at hroom
    rw [Piece.utf8Len_append_charsSeq]
    omega
  obtain ⟨st₂, frame₂, hrun, hname₂, opened₂, h₂⟩ :=
    h₁.readEach (fun a _ => reads limits a) h.stack opened hargs hdepth hfitargs
  refine ⟨st₂, frame₂, ?_, hname₂, opened₂.start_eq, h₂⟩
  have hchars : '$' :: (frame.name.toList ++ '(' :: charsEach args) =
      '$' :: (frame.name.toList ++ ['(']) ++ charsEach args := by
    simp
  rw [hchars, run_append hopen, hrun]

end Reader

open Reader (Limits State Frame AtText openSites length_openSites)

/-- A text with open calls is read, and leaves the reader with these calls, provided that the limits
admit them. -/
theorem OpenAfter.exists_run {text : List Char} {sites : List CallSite}
    (h : OpenAfter text sites) :
    ∃ d, ∀ limits : Limits, d ≤ limits.maxDepth → utf8Len text ≤ limits.capacity →
      ∃ frames cs ps st, text.foldlM (State.step limits) State.start = .ok st ∧
        AtText limits frames cs ps st ∧ text = cs ++ charsSeq ps ∧ openSites frames = sites := by
  induction h with
  | @top ps valid =>
    refine ⟨Piece.depthSeq ps, fun limits hd hroom => ?_⟩
    have hlegal : Reader.Legal limits.maxDepth ([] : List Frame).length 0 ([] ++ ps) :=
      ⟨valid, fun _ => rfl, fun hl => absurd rfl hl, (Nat.zero_add _).symm ▸ hd⟩
    obtain ⟨st, hrun, h⟩ := Reader.reads limits ps (Reader.atText_start limits) hlegal
      ((Reader.atText_start limits).stack.within_seq ps hroom)
    exact ⟨[], [], ps, st, hrun, h, rfl, rfl⟩
  | @inner text sites name args a groups outer isName complete valid begun ih =>
    obtain ⟨d, ih⟩ := ih
    refine ⟨max d (sites.length + 1 + max (Piece.depthArgs args) (Piece.depthSeq a)),
      fun limits hd hroom => ?_⟩
    have hroom' := Reader.utf8Len_left_le hroom
    obtain ⟨frames, cs, ps, st, hrun, h, rfl, rfl⟩ :=
      ih limits (by omega) (Reader.utf8Len_left_le hroom')
    rw [length_openSites] at hd
    obtain ⟨st₁, frame, hrun₁, rfl, hstart, h₁⟩ := h.readBegun isName complete (by omega) hroom'
    obtain ⟨st₂, hrun₂, h₂⟩ := h₁.readArgument valid begun (by omega) hroom
    refine ⟨frame :: frames, _, a, st₂, ?_, h₂, rfl, ?_⟩
    · rw [List.append_assoc, Reader.run_append hrun, Reader.run_append hrun₁, hrun₂]
    · rw [openSites, hstart, length_openSites]

/-- A text leaves calls open in one way only. -/
theorem OpenAfter.unique {text : List Char} {sites sites' : List CallSite}
    (h : OpenAfter text sites) (h' : OpenAfter text sites') : sites = sites' := by
  -- A reader with enough room for both comes to one state.
  obtain ⟨d, h⟩ := h.exists_run
  obtain ⟨d', h'⟩ := h'.exists_run
  let limits : Limits := { maxDepth := max d d', capacity := utf8Len text }
  obtain ⟨frames, cs, ps, st, hrun, hst, -, rfl⟩ := h limits (Nat.le_max_left d d') (Nat.le_refl _)
  obtain ⟨frames', cs', ps', st', hrun', hst', -, rfl⟩ :=
    h' limits (Nat.le_max_right d d') (Nat.le_refl _)
  obtain rfl : st = st' := Except.ok.inj (hrun.symm.trans hrun')
  rw [← hst.frames_eq, ← hst'.frames_eq]

/-- The calls that are open after a text are the only ones that are. -/
theorem OpenAfter.exactly {text : List Char} {sites : List CallSite} (h : OpenAfter text sites) :
    OpenExactly text sites := by
  intro sites'
  refine ⟨fun h' => h'.unique h, ?_⟩
  rintro rfl
  exact h

end TagTemplate
