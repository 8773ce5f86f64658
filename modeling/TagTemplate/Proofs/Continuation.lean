import TagTemplate.Proofs.Compile
import TagTemplate.Proofs.Reading.Completion
import TagTemplate.Proofs.Reading.Outlook

/-!
# Sources that go on

A compile error tells a hopeless source from an unfinished one (`compile_error_outlook`). The errors
that are decided at a character stay what they are, whatever follows. After any other error the
source can go on to a template, unless a character after an open `%` has spoilt it, and then no
continuation is a template within any limit on nesting.
-/

namespace TagTemplate

open String (utf8Len)

namespace Reader

variable {limits : Limits} {source : String} {e : CompileError}

/-- A source with an error has it at a character or at its end. -/
theorem read_eq_error (h : read limits source = .error e) :
    (∃ as c bs st, source.toList = as ++ c :: bs ∧ Reading limits as st ∧
        as.foldlM (State.step limits) State.start = .ok st ∧ st.step limits c = .error e) ∨
      ∃ st, Reading limits source.toList st ∧
        source.toList.foldlM (State.step limits) State.start = .ok st ∧
        st.finish limits = .error e := by
  cases hrun : source.toList.foldlM (State.step limits) State.start with
  | error e' =>
    rw [read, hrun] at h
    cases h
    obtain ⟨as, c, bs, st, hsource, hrun', herror⟩ := run_error hrun
    exact .inl ⟨as, c, bs, st, hsource, reading_of_run hrun', hrun', herror⟩
  | ok st =>
    rw [read, hrun] at h
    exact .inr ⟨st, reading_of_run hrun, rfl, h⟩

/-- An error at a character does not depend on what follows. -/
theorem read_append_of_step_error {as bs : List Char} {c : Char} {st : State}
    (hsource : source.toList = as ++ c :: bs)
    (hrun : as.foldlM (State.step limits) State.start = .ok st)
    (herror : st.step limits c = .error e) (t : String) : read limits (source ++ t) = .error e := by
  rw [read, String.toList_append, hsource, List.append_assoc, run_append hrun, List.cons_append,
    List.foldlM_cons, herror]
  rfl

/-- A source whose field is spoilt is the beginning of no template, within whatever limit on
nesting. -/
theorem read_append_ne_ok {d d' capacity : Nat} {st : State} {start offset : Nat} {offender : Char}
    (hrun : source.toList.foldlM (State.step ⟨d, capacity⟩) State.start = .ok st)
    (hmode : st.mode = .brokenField start offender offset) (t : String) (ns : List Node) :
    read ⟨d', capacity⟩ (source ++ t) ≠ .ok ns := by
  intro hread
  obtain ⟨st₂, hrun₂, hfinish⟩ := exists_of_bind_eq_ok hread
  rw [String.toList_append, List.foldlM_append] at hrun₂
  obtain ⟨st₁, hrun₁, hrun₂⟩ := exists_of_bind_eq_ok hrun₂
  -- Within the higher of the two limits both runs come to the same state.
  have hsame : st = st₁ := by
    have hst := run_of_deeper (Nat.le_max_left d d') hrun
    have hst₁ := run_of_deeper (Nat.le_max_right d d') hrun₁
    exact Except.ok.inj (hst.symm.trans hst₁)
  subst hsame
  have hmode₂ := run_brokenField hmode hrun₂
  rw [State.finish, hmode₂] at hfinish
  cases hfinish

end Reader

/-- Only an error about the capacity says that the source was too large. -/
theorem CompileError.reason_of_outlook_tooLarge {source : String} {e : CompileError}
    (h : e.outlook source = .tooLarge) : ∃ limit, e.reason = .templateTooLarge limit := by
  cases hreason : e.reason with
  | templateTooLarge limit => exact ⟨limit, rfl⟩
  | emptyIdentifier | unterminatedField =>
    rw [outlook, hreason] at h
    dsimp only at h
    split at h <;> cases h
  | unterminatedCall | expectedArgumentList | invalidIdentifier | danglingEscape
  | nestingTooDeep =>
    rw [outlook, hreason] at h
    cases h

section
variable {source : String} {d : Nat} {e : CompileError}

/-- A settled error is decided at a character. -/
theorem compile_append_of_settled (h : compile source d = .error e)
    (houtlook : e.outlook source = .settled) (t : String) :
    compile (source ++ t) d = .error e := by
  have hread := (compileWithin_eq_error_iff { maxDepth := d } source e).1 h
  rcases Reader.read_eq_error hread with
    ⟨as, c, bs, st, hsource, hreading, hrun, herror⟩ | ⟨st, hreading, -, herror⟩
  · have hread' := Reader.read_append_of_step_error hsource hrun herror t
    exact (compileWithin_eq_error_iff { maxDepth := d } (source ++ t) e).2 hread'
  · rcases hreading.outlook_of_finish_error herror with ⟨hend, -⟩ | ⟨hend, -⟩ | hend
    all_goals
      rw [houtlook] at hend
      cases hend

/-- An unfinished source can go on to a template. -/
theorem compile_append_of_unfinished (h : compile source d = .error e)
    (houtlook : e.outlook source = .unfinished)
    (hsize : 2 * source.utf8ByteSize + 3 ≤ 2 ^ 32 - 1) :
    ∃ t u, compile (source ++ t) (d + 1) = .ok u := by
  have hread := (compileWithin_eq_error_iff { maxDepth := d } source e).1 h
  rcases Reader.read_eq_error hread with
    ⟨as, c, bs, st, hsource, hreading, -, herror⟩ | ⟨st, hreading, -, herror⟩
  · rcases hreading.outlook_of_step_error herror hsource with hstep | hstep
    all_goals
      rw [houtlook] at hstep
      cases hstep
  · rcases hreading.outlook_of_finish_error herror with ⟨-, hmode⟩ | ⟨hend, -⟩ | hend
    · obtain ⟨ds, hlength, qs, hqs, hdepth⟩ := hreading.completes hmode
      rw [String.utf8Len_toList] at hlength
      have hsource : source ++ .ofList ds = .ofList (source.toList ++ ds) := by
        rw [String.ofList_append, String.ofList_toList]
      rw [← hsource] at hqs
      refine ⟨.ofList ds, _, compile_of_spells hqs hdepth ?_⟩
      rw [String.utf8ByteSize_append, String.utf8ByteSize_ofList]
      omega
    all_goals
      rw [houtlook] at hend
      cases hend

/-- A spoilt source goes on to no template. -/
theorem compile_append_of_spoilt (h : compile source d = .error e)
    (houtlook : e.outlook source = .spoilt) (t : String) (d' : Nat) (u : Template) :
    compile (source ++ t) d' ≠ .ok u := by
  have hread := (compileWithin_eq_error_iff { maxDepth := d } source e).1 h
  rcases Reader.read_eq_error hread with
    ⟨as, c, bs, st, hsource, hreading, -, herror⟩ | ⟨st, hreading, hrun, herror⟩
  · rcases hreading.outlook_of_step_error herror hsource with hstep | hstep
    all_goals
      rw [houtlook] at hstep
      cases hstep
  · rcases hreading.outlook_of_finish_error herror with ⟨hend, -⟩ | ⟨-, _, _, _, hmode⟩ | hend
    · rw [houtlook] at hend
      cases hend
    · intro hok
      obtain ⟨ns, hns, -⟩ := Reader.exists_of_bind_eq_ok hok
      exact Reader.read_append_ne_ok hrun hmode t ns hns
    · rw [houtlook] at hend
      cases hend

/-- Compile errors are decided from left to right, and they tell hopeless sources from unfinished
ones. A settled error is the error of every source that begins with this one. An unfinished source
goes on to a template within some limit on nesting, provided that a template has room for about
twice as much. A spoilt source goes on to no template within any limit. No source that a 32-bit
index reaches through is too large. -/
theorem compile_error_outlook (h : compile source d = .error e) :
    (e.outlook source = .settled → ∀ t, compile (source ++ t) d = .error e) ∧
    (e.outlook source = .unfinished → 2 * source.utf8ByteSize + 3 ≤ 2 ^ 32 - 1 →
      ∃ t d' u, d ≤ d' ∧ compile (source ++ t) d' = .ok u) ∧
    (e.outlook source = .spoilt → ∀ t d' u, compile (source ++ t) d' ≠ .ok u) ∧
    (e.outlook source = .tooLarge → 2 ^ 32 - 1 < source.utf8ByteSize) := by
  refine ⟨compile_append_of_settled h, fun houtlook hsize => ?_, compile_append_of_spoilt h,
    fun houtlook => ?_⟩
  · obtain ⟨t, u, hok⟩ := compile_append_of_unfinished h houtlook hsize
    exact ⟨t, d + 1, u, Nat.le_succ d, hok⟩
  · by_contra hsize
    have hread := (compileWithin_eq_error_iff { maxDepth := d } source e).1 h
    obtain ⟨limit, hreason⟩ := CompileError.reason_of_outlook_tooLarge houtlook
    exact Reader.read_roomy (Nat.le_of_not_lt hsize) e hread limit hreason

end

/-- A field without a name, an open field inside a group of an argument, and a blank after a `%`. -/
theorem compile_error_outlook_fields :
    (∀ t, compile ("é%%" ++ t) 1 = .error (.emptyField 2)) ∧
      (∃ t d' u, 1 ≤ d' ∧ compile ("$f(x,(%n" ++ t) d' = .ok u) ∧
      ∀ t d' u, compile ("%a b" ++ t) d' ≠ .ok u := by
  have hempty : compile "é%%" 1 = .error (.emptyField 2) := rfl
  have hopen : compile "$f(x,(%n" 1 = .error (.unterminatedField 6) := rfl
  have hblank : compile "%a b" 1 = .error (.unterminatedField 0) := rfl
  obtain ⟨hsettled, -⟩ := compile_error_outlook hempty
  obtain ⟨-, hunfinished, -⟩ := compile_error_outlook hopen
  obtain ⟨-, -, hspoilt, -⟩ := compile_error_outlook hblank
  exact ⟨hsettled (by decide), hunfinished (by decide) (by decide), hspoilt (by decide)⟩

end TagTemplate
