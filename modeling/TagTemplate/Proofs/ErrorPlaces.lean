import TagTemplate.Proofs.Continuation
import TagTemplate.Proofs.Coverage
import TagTemplate.Proofs.Reading.OpenCalls

/-!
# Where compile errors point

Every compile error points at the construct that caused it (`compile_error_points`). What this means
is said without the reader, in terms of the source text: `CompileReason.Blames` says for each reason
what the span of the error covers, what comes before and after, and which calls are open around it.

The reader raises its errors at few places, and the invariant of reading says what was read until
then. So each place has a lemma that finds the construct in the source.
-/

namespace TagTemplate

open String (utf8Len)
open Piece (charsSeq charsEach sizeSeq)
open Reader (isNameChar)

/-- What the reason says of the source. A construct begins after `before`, inside the calls of
`around`, innermost first. The text `lead` is a part of it, the span of the error covers the text
`covered`, and `after` is the rest of the source. -/
def CompileReason.Blames (maxDepth : Nat) (around : List CallSite)
    (before lead covered after : List Char) : CompileReason → Prop
  | .unterminatedField => lead = [] ∧ covered = ['%'] ∧ '%' ∉ after
  | .invalidIdentifier c =>
    (∃ name, lead = '%' :: name ∧ ∀ d ∈ name, isNameChar d = true) ∧ covered = [c] ∧ c ≠ '%' ∧
      isNameChar c = false ∧ '%' ∈ after
  | .emptyIdentifier =>
    lead = [] ∧
      (covered = ['%', '%'] ∨ covered = ['$'] ∧ ∀ c ∈ after.head?, isNameChar c = false)
  | .expectedArgumentList =>
    lead = [] ∧ ∃ name c rest, IsName name ∧ covered = '$' :: name.toList ∧ after = c :: rest ∧
      isNameChar c = false ∧ c ≠ '('
  | .unterminatedCall =>
    lead = [] ∧ after = [] ∧ ∃ name, IsName name ∧
      (covered = '$' :: name.toList ∨
        ∃ rest, covered = '$' :: (name.toList ++ '(' :: rest) ∧
          OpenExactly (before ++ covered) (⟨around.length, utf8Len before, name⟩ :: around))
  | .danglingEscape => lead = [] ∧ covered = ['\\'] ∧ after = []
  | .nestingTooDeep limit =>
    lead = [] ∧ limit = maxDepth ∧ around.length = maxDepth ∧
      ∃ name, IsName name ∧ covered = '$' :: (name.toList ++ ['('])
  | .templateTooLarge _ => False

/-- The error points at a construct of the source that its reason blames. -/
def CompileError.PointsAtCause (maxDepth : Nat) (source : String) (e : CompileError) : Prop :=
  ∃ around before lead covered after,
    source.toList = before ++ lead ++ covered ++ after ∧
      e.span = ⟨utf8Len (before ++ lead), utf8Len (before ++ lead) + utf8Len covered⟩ ∧
      OpenExactly before around ∧ e.reason.Blames maxDepth around before lead covered after

section
variable {maxDepth : Nat} {source : String} {e : CompileError}

/-- No reason blames nothing. -/
theorem CompileReason.Blames.covered_ne_nil {around : List CallSite}
    {before lead covered after : List Char} {r : CompileReason}
    (h : r.Blames maxDepth around before lead covered after) : covered ≠ [] := by
  rintro rfl
  cases r with
  | unterminatedField | danglingEscape => exact absurd h.2.1 (by simp)
  | invalidIdentifier c => exact absurd h.2.1 (by simp)
  | emptyIdentifier => rcases h.2 with hcovered | ⟨hcovered, -⟩ <;> cases hcovered
  | expectedArgumentList =>
    obtain ⟨-, _, _, _, -, hcovered, -⟩ := h
    cases hcovered
  | unterminatedCall =>
    obtain ⟨-, -, _, -, hcovered | ⟨_, hcovered, -⟩⟩ := h <;> cases hcovered
  | nestingTooDeep limit =>
    obtain ⟨-, -, -, _, -, hcovered⟩ := h
    cases hcovered
  | templateTooLarge limit => exact h

/-- Most reasons blame a construct from its beginning. -/
theorem CompileError.PointsAtCause.of_start {around : List CallSite}
    {before covered after : List Char} (hsource : source.toList = before ++ covered ++ after)
    (hspan : e.span = ⟨utf8Len before, utf8Len before + utf8Len covered⟩)
    (hopen : OpenExactly before around)
    (hblames : e.reason.Blames maxDepth around before [] covered after) :
    e.PointsAtCause maxDepth source := by
  refine ⟨around, before, [], covered, after, ?_, ?_, hopen, hblames⟩
  · rw [List.append_nil, hsource]
  · rw [List.append_nil, hspan]

/-- An error that points at its cause has a span that is not empty, lies in the source and has its
ends between characters. -/
theorem CompileError.PointsAtCause.span_ok (h : e.PointsAtCause maxDepth source) :
    e.span.start < e.span.stop ∧ e.span.stop ≤ source.utf8ByteSize ∧
      e.span.OnBoundaries source := by
  obtain ⟨around, before, lead, covered, after, hsource, hspan, -, hblames⟩ := h
  have hcovers : e.span.Covers source covered := ⟨_, after, hsource, hspan⟩
  have hpos : utf8Len covered ≠ 0 := fun hzero =>
    hblames.covered_ne_nil (String.utf8Len_eq_zero.1 hzero)
  refine ⟨?_, ?_, hcovers.onBoundaries⟩
  · rw [hspan]
    exact Nat.lt_add_of_pos_right (Nat.pos_of_ne_zero hpos)
  · rw [hspan, ← String.utf8Len_toList, hsource]
    simp only [String.utf8Len_append]
    omega

end

namespace Reader

/-! ## The places where errors are raised -/

variable {limits : Limits} {frames : List Frame} {cs : List Char} {ps : List Piece}
  {st : State} {source : String} {e : CompileError}

/-- The calls that the reader holds open are exactly the open ones. -/
theorem Paused.openExactly (h : Paused limits frames cs ps st) :
    OpenExactly (cs ++ charsSeq ps) (openSites frames) :=
  (h.stack.openAfter h.legal).exactly

/-- So are they while the reader is in text. -/
theorem AtText.openExactly (h : AtText limits frames cs ps st) :
    OpenExactly (cs ++ charsSeq ps) (openSites frames) :=
  (h.stack.openAfter h.legal).exactly

/-- The offset of the reader is the length of what it has read. -/
theorem AtText.pos_eq (h : AtText limits frames cs ps st) :
    st.pos = utf8Len (cs ++ charsSeq ps) := by
  rw [h.pos, Piece.utf8Len_append_charsSeq]

/-- A percent or dollar sign takes one byte in front of a name. -/
theorem utf8Len_cons_name {c : Char} (hc : c.utf8Size = 1) (name : String) :
    utf8Len (c :: name.toList) = name.utf8ByteSize + 1 := by
  rw [String.utf8Len_cons, String.utf8Len_toList, hc]

/-- An error at a character of the name of a field is about two percent signs. -/
theorem Paused.points_fieldName (h : Paused limits frames cs ps st) {start : Nat} {name : String}
    {c : Char} {rest : List Char} (hstart : start = utf8Len cs + sizeSeq ps)
    (hsource : source.toList = cs ++ charsSeq ps ++ '%' :: (name.toList ++ c :: rest))
    (herror : st.stepFieldName limits start name c = .error e)
    (hroomy : ∀ limit, e.reason ≠ .templateTooLarge limit) :
    e.PointsAtCause limits.maxDepth source := by
  obtain ⟨rfl, ⟨rfl, rfl⟩ | ⟨limit, rfl⟩⟩ := State.stepFieldName_error herror
  · have hchars : source.toList = cs ++ charsSeq ps ++ ['%', '%'] ++ rest := by
      simpa using hsource
    refine .of_start hchars ?_ h.openExactly ⟨rfl, .inl rfl⟩
    rw [hstart, ← Piece.utf8Len_append_charsSeq]
    rfl
  · exact absurd rfl (hroomy limit)

/-- A character that spoils the name of a field is blamed once a percent sign follows. -/
theorem Paused.points_brokenField (h : Paused limits frames cs ps st) {name : String}
    {offender : Char} {between rest : List Char} {offset : Nat}
    (hoffset : offset = utf8Len cs + sizeSeq ps + (name.utf8ByteSize + 1))
    (hchars : ∀ c ∈ name.toList, isNameChar c = true) (hname : isNameChar offender = false)
    (hpercent : offender ≠ '%')
    (hsource : source.toList =
      cs ++ charsSeq ps ++ '%' :: (name.toList ++ offender :: between) ++ '%' :: rest) :
    (CompileError.invalidIdentifier offender offset).PointsAtCause limits.maxDepth source := by
  have hlead : utf8Len (cs ++ charsSeq ps ++ '%' :: name.toList) = offset := by
    rw [hoffset, String.utf8Len_append, Piece.utf8Len_append_charsSeq, utf8Len_cons_name rfl]
  refine ⟨openSites frames, cs ++ charsSeq ps, '%' :: name.toList, [offender],
    between ++ '%' :: rest, ?_, ?_, h.openExactly, ⟨name.toList, rfl, hchars⟩, rfl, hpercent,
    hname, by simp⟩
  · rw [hsource]
    simp
  · rw [hlead]
    simp [CompileError.invalidIdentifier]

/-- An error at a character after a `$` is about the `$` and the name that follows. -/
theorem Paused.points_callName (h : Paused limits frames cs ps st) {start : Nat} {name : String}
    {c : Char} {rest : List Char} (hstart : start = utf8Len cs + sizeSeq ps)
    (hchars : ∀ c ∈ name.toList, isNameChar c = true)
    (hpos : st.pos = start + (name.utf8ByteSize + 1))
    (hsource : source.toList = cs ++ charsSeq ps ++ '$' :: (name.toList ++ c :: rest))
    (herror : st.stepCallName limits start name c = .error e) :
    e.PointsAtCause limits.maxDepth source := by
  rw [← Piece.utf8Len_append_charsSeq] at hstart
  obtain ⟨hc, ⟨rfl, rfl⟩ | ⟨hname, hparen, rfl⟩ | ⟨hname, rfl, hdepth, rfl⟩⟩ :=
    State.stepCallName_error herror
  · have hsource' : source.toList = cs ++ charsSeq ps ++ ['$'] ++ c :: rest := by
      simpa using hsource
    have hnext : ∀ d ∈ (c :: rest).head?, isNameChar d = false := by
      simpa using hc
    refine .of_start hsource' ?_ h.openExactly ⟨rfl, .inr ⟨rfl, hnext⟩⟩
    rw [hstart]
    rfl
  · have hsource' : source.toList =
        cs ++ charsSeq ps ++ '$' :: name.toList ++ c :: rest := by
      simpa using hsource
    refine .of_start hsource' ?_ h.openExactly
      ⟨rfl, name, c, rest, ⟨hname, hchars⟩, rfl, rfl, hc, hparen⟩
    rw [utf8Len_cons_name rfl, ← hstart, ← hpos]
    rfl
  · have hsource' : source.toList =
        cs ++ charsSeq ps ++ '$' :: (name.toList ++ ['(']) ++ rest := by
      simpa using hsource
    have hlevel := h.legal.level_le
    rw [h.frames_eq] at hdepth
    refine .of_start hsource' ?_ h.openExactly
      ⟨rfl, rfl, ?_, name, ⟨hname, hchars⟩, rfl⟩
    · rw [Piece.utf8Len_callStart, ← hstart]
      show Span.mk start (st.pos + 1) = _
      rw [hpos, Nat.add_assoc]
    · rw [length_openSites]
      exact Nat.le_antisymm hlevel hdepth

/-- At the end of the source, too, an error after a `$` is about the `$` and the name that
follows. -/
theorem Paused.points_callName_end (h : Paused limits frames cs ps st) {start : Nat}
    {name : String} (hstart : start = utf8Len cs + sizeSeq ps)
    (hchars : ∀ c ∈ name.toList, isNameChar c = true)
    (hpos : st.pos = start + (name.utf8ByteSize + 1))
    (hsource : source.toList = cs ++ charsSeq ps ++ '$' :: name.toList) :
    (if name = "" then CompileError.emptyCall start
      else .unterminatedName start st.pos).PointsAtCause limits.maxDepth source := by
  rw [← Piece.utf8Len_append_charsSeq] at hstart
  have hsource' : source.toList = cs ++ charsSeq ps ++ '$' :: name.toList ++ [] := by
    rw [List.append_nil, hsource]
  split
  · next hname =>
    subst hname
    refine .of_start hsource' ?_ h.openExactly ⟨rfl, .inr ⟨rfl, by simp⟩⟩
    rw [hstart]
    rfl
  · next hname =>
    refine .of_start hsource' ?_ h.openExactly ⟨rfl, rfl, name, ⟨hname, hchars⟩, .inl rfl⟩
    rw [utf8Len_cons_name rfl, ← hstart, ← hpos]
    rfl

/-- A `%` without a partner is blamed itself. -/
theorem Paused.points_unterminatedField (h : Paused limits frames cs ps st) {start : Nat}
    {rest : List Char} (hstart : start = utf8Len cs + sizeSeq ps) (hrest : '%' ∉ rest)
    (hsource : source.toList = cs ++ charsSeq ps ++ '%' :: rest) :
    (CompileError.unterminatedField start).PointsAtCause limits.maxDepth source := by
  have hsource' : source.toList = cs ++ charsSeq ps ++ ['%'] ++ rest := by
    rw [hsource, List.append_cons]
  refine .of_start hsource' ?_ h.openExactly ⟨rfl, rfl, hrest⟩
  rw [hstart, ← Piece.utf8Len_append_charsSeq]
  rfl

/-- The call whose arguments the end of the source leaves open is the innermost open one. -/
theorem AtText.points_unterminatedArguments {frame : Frame}
    (h : AtText limits (frame :: frames) cs ps st) (hsource : source.toList = cs ++ charsSeq ps) :
    (CompileError.unterminatedArguments frame.start st.pos).PointsAtCause limits.maxDepth
      source := by
  have hopen := h.openExactly
  have hpos := h.pos_eq
  cases h.stack with
  | @cons _ cs₀ _ ps₀ args stack opened =>
    have hcalls : OpenExactly (cs₀ ++ charsSeq ps₀) (openSites frames) :=
      (stack.openAfter opened.legal).exactly
    have hchars : argStart cs₀ ps₀ frame.name args ++ charsSeq ps =
        cs₀ ++ charsSeq ps₀ ++
          '$' :: (frame.name.toList ++ '(' :: (charsEach args ++ charsSeq ps)) := by
      simp [argStart]
    have hsource' : source.toList = cs₀ ++ charsSeq ps₀ ++
        '$' :: (frame.name.toList ++ '(' :: (charsEach args ++ charsSeq ps)) ++ [] := by
      rw [hsource, hchars, List.append_nil]
    rw [openSites, opened.start_eq, ← length_openSites frames, hchars] at hopen
    refine .of_start hsource' ?_ hcalls
      ⟨rfl, rfl, frame.name, opened.name, .inr ⟨_, rfl, hopen⟩⟩
    rw [← String.utf8Len_append, ← hchars, ← opened.start_eq, ← hpos]
    rfl

/-! ## All errors -/

/-- A name contains no percent sign. -/
theorem percent_notMem {name : String} (h : ∀ c ∈ name.toList, isNameChar c = true) :
    '%' ∉ name.toList :=
  fun hmem => absurd (h '%' hmem) (by decide)

/-- An error that arises at a character points at its cause. -/
theorem Reading.points_of_step_error {cs rest : List Char} {c : Char} (h : Reading limits cs st)
    (herror : st.step limits c = .error e) (hsource : source.toList = cs ++ c :: rest)
    (hroomy : ∀ limit, e.reason ≠ .templateTooLarge limit) :
    e.PointsAtCause limits.maxDepth source := by
  unfold State.step at herror
  cases h with
  | text h =>
    rw [h.mode] at herror
    obtain ⟨-, limit, pos, -, rfl⟩ := State.stepText_error herror
    exact absurd rfl (hroomy limit)
  | escape mode =>
    rw [mode] at herror
    cases herror
  | fieldName mode h start_eq =>
    rw [mode] at herror
    rw [List.append_assoc, List.cons_append] at hsource
    exact h.points_fieldName start_eq hsource herror hroomy
  | brokenField mode h start_eq chars offset_eq not_name rest_ne =>
    rw [mode] at herror
    dsimp only at herror
    split at herror
    · next hc =>
      subst hc
      cases herror
      exact h.points_brokenField (start_eq ▸ offset_eq) chars not_name
        (rest_ne _ List.mem_cons_self) hsource
    · cases herror
  | callName mode h start_eq chars pos =>
    rw [mode] at herror
    rw [List.append_assoc, List.cons_append] at hsource
    exact h.points_callName start_eq chars pos hsource herror

/-- An error that arises at the end of the source points at its cause. -/
theorem Reading.points_of_finish_error (h : Reading limits source.toList st)
    (herror : st.finish limits = .error e)
    (hroomy : ∀ limit, e.reason ≠ .templateTooLarge limit) :
    e.PointsAtCause limits.maxDepth source := by
  generalize hcs : source.toList = cs at h
  cases h with
  | text h =>
    rcases State.finish_text_error h.mode herror with
      ⟨frame, frames, hframes, rfl⟩ | ⟨limit, rfl⟩
    · obtain rfl := h.frames_eq.symm.trans hframes
      exact h.points_unterminatedArguments hcs
    · exact absurd rfl (hroomy limit)
  | @escape frames cs ps _ start mode h pos =>
    rw [State.finish, mode] at herror
    cases herror
    have hstart : start = utf8Len (cs ++ charsSeq ps) := h.pos_eq
    refine .of_start (hcs.trans (List.append_nil _).symm) ?_ h.openExactly ⟨rfl, rfl, rfl⟩
    rw [hstart]
    rfl
  | fieldName mode h start_eq chars =>
    rw [State.finish, mode] at herror
    cases herror
    exact h.points_unterminatedField start_eq (percent_notMem chars) hcs
  | brokenField mode h start_eq chars offset_eq not_name rest_ne =>
    rw [State.finish, mode] at herror
    cases herror
    refine h.points_unterminatedField start_eq ?_ hcs
    rw [List.mem_append, not_or]
    exact ⟨percent_notMem chars, fun hmem => rest_ne _ hmem rfl⟩
  | callName mode h start_eq chars pos =>
    rw [State.finish, mode] at herror
    cases herror
    exact h.points_callName_end start_eq chars pos hcs

end Reader

/-- Every compile error points at the construct that caused it. Its span is not empty, lies in the
source and has both ends between characters, and the source text there and around it is what the
reason of the error says. In particular no source that a 32-bit index reaches through is too
large. -/
theorem compile_error_points {source : String} {maxDepth : Nat} {e : CompileError}
    (hsize : source.utf8ByteSize ≤ 2 ^ 32 - 1) (h : compile source maxDepth = .error e) :
    e.span.start < e.span.stop ∧ e.span.stop ≤ source.utf8ByteSize ∧
      e.span.OnBoundaries source ∧ e.PointsAtCause maxDepth source := by
  have hread := (compileWithin_eq_error_iff { maxDepth } source e).1 h
  have hroomy := Reader.read_roomy hsize e hread
  have hpoints : e.PointsAtCause maxDepth source := by
    rcases Reader.read_eq_error hread with
      ⟨as, c, bs, st, hsource, hreading, -, herror⟩ | ⟨st, hreading, -, herror⟩
    · exact hreading.points_of_step_error herror hsource hroomy
    · exact hreading.points_of_finish_error herror hroomy
  obtain ⟨hnonempty, hinside, hboundaries⟩ := hpoints.span_ok
  exact ⟨hnonempty, hinside, hboundaries, hpoints⟩

/-- A call inside one other, where only one is admitted. -/
theorem compile_error_points_nested :
    "é$f(x,$g(y".utf8ByteSize ≤ 2 ^ 32 - 1 ∧
      compile "é$f(x,$g(y" 1 = .error (.nestingTooDeep 1 7 10) ∧ 7 < 10 ∧
      10 ≤ "é$f(x,$g(y".utf8ByteSize ∧ Span.OnBoundaries "é$f(x,$g(y" ⟨7, 10⟩ ∧
      (CompileError.nestingTooDeep 1 7 10).PointsAtCause 1 "é$f(x,$g(y" := by
  have hsize : "é$f(x,$g(y".utf8ByteSize ≤ 2 ^ 32 - 1 := by decide
  have herror : compile "é$f(x,$g(y" 1 = .error (.nestingTooDeep 1 7 10) := rfl
  exact ⟨hsize, herror, compile_error_points hsize herror⟩

end TagTemplate
