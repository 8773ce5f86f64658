import TagTemplate.Proofs.Reading.Nesting
import TagTemplate.Proofs.Reading.Place
import TagTemplate.Proofs.Reading.Room

/-!
# What an error says of longer sources

An error of the reader arises at a character or at the end of the source. One that arises at a
character is settled: the reader has not looked at what follows. One that arises at the end is about
a part that is still open. Such a part may be completed, with one exception: a `%` after which a
character has come that cannot stand in the name of a field. `CompileError.outlook` reads off an
error which of this is the case, and `Reading.outlook_of_step_error` and
`Reading.outlook_of_finish_error` say that it reads rightly.
-/

namespace TagTemplate

open String (utf8Len)

/-- What an error says of the sources that begin with a source. -/
inductive Outlook
  /-- They have the same error. -/
  | settled
  /-- One of them is a template. -/
  | unfinished
  /-- None of them is a template. -/
  | spoilt
  /-- The source was too large already. -/
  | tooLarge
deriving DecidableEq

/-- The source text from an offset on. -/
def textFrom (source : String) (offset : Nat) : String :=
  String.Pos.Raw.extract source ⟨offset⟩ ⟨source.utf8ByteSize⟩

/-- The source text from the end of one part on is the other part. -/
theorem textFrom_utf8Len {source : String} {before after : List Char}
    (h : source.toList = before ++ after) :
    textFrom source (utf8Len before) = .ofList after := by
  have hextract := String.extract_of_valid before after []
  have hsize : source.utf8ByteSize = utf8Len before + utf8Len after := by
    rw [← String.utf8Len_toList, h, String.utf8Len_append]
  rw [List.append_nil, ← h, String.ofList_toList, ← hsize] at hextract
  exact hextract

/-- The outlook that an error of the source gives. A source may go on after a `$` at its end, and
after a `%` that only characters of names follow. -/
def CompileError.outlook (source : String) (e : CompileError) : Outlook :=
  match e.reason with
  | .expectedArgumentList | .invalidIdentifier _ | .nestingTooDeep _ => .settled
  | .emptyIdentifier => if textFrom source e.span.start = "$" then .unfinished else .settled
  | .unterminatedCall | .danglingEscape => .unfinished
  | .unterminatedField =>
    if (textFrom source e.span.stop).toList.all Reader.isNameChar then .unfinished else .spoilt
  | .templateTooLarge _ => .tooLarge

namespace CompileError

variable {source : String} {before after : List Char}

/-- An empty name of a field is settled. -/
theorem outlook_emptyField (h : source.toList = before ++ '%' :: after) :
    (emptyField (utf8Len before)).outlook source = .settled := by
  refine if_neg fun hdollar => ?_
  rw [emptyField, textFrom_utf8Len h] at hdollar
  have hlist := congrArg String.toList hdollar
  simp at hlist

/-- An empty name of a function is settled unless the source ends with the `$`. -/
theorem outlook_emptyCall (h : source.toList = before ++ '$' :: after) :
    (emptyCall (utf8Len before)).outlook source =
      if after = [] then .unfinished else .settled := by
  have hiff : textFrom source (utf8Len before) = "$" ↔ after = [] := by
    rw [textFrom_utf8Len h, ← String.toList_inj]
    simp
  exact if_congr hiff rfl rfl

/-- An open field reference may be completed as long as only characters of names follow the `%`. -/
theorem outlook_unterminatedField (h : source.toList = before ++ '%' :: after) :
    (unterminatedField (utf8Len before)).outlook source =
      if after.all Reader.isNameChar then .unfinished else .spoilt := by
  have hpercent : ('%' : Char).utf8Size = 1 := rfl
  have hstop : utf8Len before + 1 = utf8Len (before ++ ['%']) := by
    rw [String.utf8Len_append, String.utf8Len_cons, String.utf8Len_nil, hpercent]
  have hafter : textFrom source (utf8Len before + 1) = .ofList after := by
    rw [hstop]
    exact textFrom_utf8Len (by rw [h, List.append_cons])
  show (if (textFrom source (utf8Len before + 1)).toList.all _ then _ else _) = _
  rw [hafter, String.toList_ofList]

end CompileError

namespace Reader

open Piece (charsSeq sizeSeq)

/-! ## Errors at a character -/

section
variable {limits : Limits} {st st' : State} {source : String} {e : CompileError}

/-- An error in the name of a field arises at the percent sign that ends it: the name is empty, or
there is no room for it. -/
theorem State.stepFieldName_error {start : Nat} {name : String} {c : Char}
    (h : st.stepFieldName limits start name c = .error e) :
    c = '%' ∧ (name = "" ∧ e = .emptyField start ∨
      ∃ limit, e = .templateTooLarge limit (st.pos + c.utf8Size)) := by
  unfold State.stepFieldName at h
  split at h
  · cases h
  split at h
  · cases h
  · next hpercent =>
    refine ⟨not_not.1 hpercent, ?_⟩
    split at h
    · next hname =>
      cases h
      exact .inl ⟨hname, rfl⟩
    · obtain ⟨limit, pos, hpos, rfl⟩ := (crampedAt_reserve.bind fun _ _ => crampedAt_ok _) e h
      obtain rfl := List.mem_singleton.1 hpos
      exact .inr ⟨limit, rfl⟩

/-- An error after a `$` arises at the first character that is no part of a name: there is no name,
or no parenthesis follows it, or too many calls are open before it. -/
theorem State.stepCallName_error {start : Nat} {name : String} {c : Char}
    (h : st.stepCallName limits start name c = .error e) :
    isNameChar c = false ∧
      ((name = "" ∧ e = .emptyCall start) ∨
        (name ≠ "" ∧ c ≠ '(' ∧ e = .expectedArgumentList start st.pos) ∨
        (name ≠ "" ∧ c = '(' ∧ limits.maxDepth ≤ st.frames.length ∧
          e = .nestingTooDeep limits.maxDepth start (st.pos + 1))) := by
  by_cases hparen : c = '('
  · subst hparen
    refine ⟨by decide, ?_⟩
    by_cases hname : name = ""
    · subst hname
      rw [State.stepCallName_nil] at h
      cases h
      exact .inl ⟨rfl, rfl⟩
    · rw [State.stepCallName_paren hname] at h
      split at h
      · next hdepth =>
        cases h
        exact .inr (.inr ⟨hname, rfl, hdepth, rfl⟩)
      · cases h
  · rw [State.stepCallName_of_ne hparen] at h
    split at h
    · cases h
    · next hc =>
      refine ⟨Bool.eq_false_iff.2 hc, ?_⟩
      split at h
      · next hname =>
        cases h
        exact .inl ⟨hname, rfl⟩
      · next hname =>
        cases h
        exact .inr (.inl ⟨hname, hparen, rfl⟩)

/-- An error in the name of a field is settled. -/
theorem outlook_of_stepFieldName {before after : List Char} {name : String} {c : Char}
    (hsource : source.toList = before ++ '%' :: after)
    (herror : st.stepFieldName limits (utf8Len before) name c = .error e) :
    e.outlook source = .settled ∨ e.outlook source = .tooLarge := by
  obtain ⟨-, ⟨-, rfl⟩ | ⟨limit, rfl⟩⟩ := State.stepFieldName_error herror
  · exact .inl (CompileError.outlook_emptyField hsource)
  · exact .inr rfl

/-- An error after a `$` is settled once a character has come that is no part of a name. -/
theorem outlook_of_stepCallName {before after : List Char} {name : String} {c : Char}
    (hsource : source.toList = before ++ '$' :: (name.toList ++ c :: after))
    (herror : st.stepCallName limits (utf8Len before) name c = .error e) :
    e.outlook source = .settled := by
  obtain ⟨-, ⟨-, rfl⟩ | ⟨-, -, rfl⟩ | ⟨-, -, -, rfl⟩⟩ := State.stepCallName_error herror
  · rw [CompileError.outlook_emptyCall hsource]
    exact if_neg (List.append_ne_nil_of_right_ne_nil _ (List.cons_ne_nil c after))
  · rfl
  · rfl

/-- An error that arises at a character is settled, unless the template outgrows its capacity. -/
theorem Reading.outlook_of_step_error {cs rest : List Char} {c : Char} (h : Reading limits cs st)
    (herror : st.step limits c = .error e) (hsource : source.toList = cs ++ c :: rest) :
    e.outlook source = .settled ∨ e.outlook source = .tooLarge := by
  unfold State.step at herror
  cases h with
  | text h =>
    rw [h.mode] at herror
    obtain ⟨-, limit, pos, -, rfl⟩ := State.stepText_error herror
    exact .inr rfl
  | escape mode =>
    rw [mode] at herror
    cases herror
  | fieldName mode h start_eq =>
    rw [mode, start_eq, ← Piece.utf8Len_append_charsSeq] at herror
    rw [List.append_assoc, List.cons_append] at hsource
    exact outlook_of_stepFieldName hsource herror
  | brokenField mode =>
    rw [mode] at herror
    dsimp only at herror
    split at herror
    · cases herror
      exact .inl rfl
    · cases herror
  | callName mode h start_eq =>
    rw [mode, start_eq, ← Piece.utf8Len_append_charsSeq] at herror
    rw [List.append_assoc, List.cons_append] at hsource
    exact .inl (outlook_of_stepCallName hsource herror)

/-! ## Errors at the end -/

/-- A character that spoils the name of a field spoils it for good. -/
theorem run_brokenField {cs : List Char} {start offset : Nat} {offender : Char}
    (hmode : st.mode = .brokenField start offender offset)
    (hrun : cs.foldlM (State.step limits) st = .ok st') :
    st'.mode = .brokenField start offender offset := by
  induction cs generalizing st with
  | nil =>
    cases hrun
    exact hmode
  | cons c cs ih =>
    rw [List.foldlM_cons] at hrun
    obtain ⟨st₁, hstep, hrun⟩ := exists_of_bind_eq_ok hrun
    refine ih ?_ hrun
    rw [State.step, hmode] at hstep
    dsimp only at hstep
    split at hstep
    · cases hstep
    · cases hstep
      exact hmode

/-- In the text of a sequence the end of the source leaves at most a call open. -/
theorem State.finish_text_error (hmode : st.mode = .text) (h : st.finish limits = .error e) :
    (∃ frame frames, st.frames = frame :: frames ∧
        e = .unterminatedArguments frame.start st.pos) ∨
      ∃ limit, e = .templateTooLarge limit st.pos := by
  rw [State.finish, hmode] at h
  dsimp only at h
  split at h
  · obtain ⟨limit, pos, hpos, rfl⟩ :
        ∃ limit, ∃ pos ∈ [st.pos], e = .templateTooLarge limit pos := by
      refine CrampedAt.bind crampedAt_endLiteral (fun st' hend => ?_) e h
      rw [← State.pos_endLiteral hend]
      exact crampedAt_reserve.bind fun _ _ => crampedAt_ok _
    obtain rfl := List.mem_singleton.1 hpos
    exact .inr ⟨limit, rfl⟩
  · next frame frames hframes =>
    cases hend : st.endArgument limits frame with
    | error e' =>
      rw [hend] at h
      cases h
      obtain ⟨limit, pos, hpos, rfl⟩ := crampedAt_endArgument e hend
      obtain rfl := List.mem_singleton.1 hpos
      exact .inr ⟨limit, rfl⟩
    | ok r =>
      rw [hend] at h
      cases h
      exact .inl ⟨frame, frames, hframes, rfl⟩

/-- An error that arises at the end is about a field that is spoilt for good, or about a part that
may be completed, unless the template outgrows its capacity. -/
theorem Reading.outlook_of_finish_error (h : Reading limits source.toList st)
    (herror : st.finish limits = .error e) :
    (e.outlook source = .unfinished ∧
        ∀ start offender offset, st.mode ≠ .brokenField start offender offset) ∨
      (e.outlook source = .spoilt ∧
        ∃ start offender offset, st.mode = .brokenField start offender offset) ∨
      e.outlook source = .tooLarge := by
  generalize hcs : source.toList = cs at h
  cases h with
  | text h =>
    rw [h.mode]
    rcases State.finish_text_error h.mode herror with ⟨frame, frames, -, rfl⟩ | ⟨limit, rfl⟩
    · exact .inl ⟨rfl, fun _ _ _ => Mode.noConfusion⟩
    · exact .inr (.inr rfl)
  | escape mode =>
    rw [State.finish, mode] at herror
    cases herror
    rw [mode]
    exact .inl ⟨rfl, fun _ _ _ => Mode.noConfusion⟩
  | @fieldName frames cs ps _ start name mode h start_eq chars pos =>
    rw [State.finish, mode] at herror
    cases herror
    have hall : name.toList.all isNameChar = true := List.all_eq_true.2 chars
    rw [start_eq, ← Piece.utf8Len_append_charsSeq, CompileError.outlook_unterminatedField hcs,
      mode, hall]
    exact .inl ⟨rfl, fun _ _ _ => Mode.noConfusion⟩
  | @brokenField frames cs ps _ start offset name offender rest mode h start_eq chars offset_eq
      not_name rest_ne pos =>
    rw [State.finish, mode] at herror
    cases herror
    have hall : (name.toList ++ offender :: rest).all isNameChar = false := by
      rw [List.all_append, List.all_cons, not_name, Bool.false_and, Bool.and_false]
    rw [start_eq, ← Piece.utf8Len_append_charsSeq, CompileError.outlook_unterminatedField hcs,
      mode, hall]
    exact .inr (.inl ⟨rfl, _, _, _, rfl⟩)
  | @callName frames cs ps _ start name mode h start_eq chars pos =>
    rw [State.finish, mode] at herror
    cases herror
    rw [mode]
    refine .inl ⟨?_, fun _ _ _ => Mode.noConfusion⟩
    split
    · next hname =>
      subst hname
      rw [start_eq, ← Piece.utf8Len_append_charsSeq, CompileError.outlook_emptyCall hcs]
      rfl
    · rfl

end

end Reader

end TagTemplate
