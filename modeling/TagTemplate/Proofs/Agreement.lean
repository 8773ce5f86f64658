import TagTemplate.Proofs.Occurrence
import TagTemplate.Proofs.Refinement
import TagTemplate.Proofs.Similarity

/-!
# What an evaluation sees

An evaluation looks at the fields and functions that its template names, and at nothing else; and it
sees a value only as text, or as a value of some type that has none. So contexts that agree on all
this are evaluated alike, in all that can be observed (`Node.evalSeq_eq_of_agree`). The induction is
on the tree; a function may ask for any operands, but it gets the same answers.

In the lenient mode a value without text form counts as empty text, as an absent field does. A
record without such a value differs from the record with it in one event only, the note that the
field was passed over (`Node.matches_hide`).
-/

namespace TagTemplate

/-! ## Contexts that agree -/

/-- A template sees the same in the field of two records: nothing, the same text, or a value without
text form, of the same type. -/
inductive SeenAlike : Option Value → Option Value → Prop
  | absent : SeenAlike none none
  | text {v w : Value} {t : String} (hv : v.text? = some t) (hw : w.text? = some t) :
      SeenAlike (some v) (some w)
  | withoutText {v w : Value} (hv : v.text? = none) (hw : w.text? = none)
      (htype : v.typeName = w.typeName) : SeenAlike (some v) (some w)

/-- The contexts have the same options, the same functions under the names that are called in the
sequence, or none, and the same to be seen in the fields that are named in it. -/
structure AgreeOn (ns : List Node) (ctx ctx' : EvalContext) : Prop where
  options : ctx.options = ctx'.options
  calls : ∀ {name args span around}, Node.Occurs (.call name args span) around ns →
    ctx.registry.get? name = ctx'.registry.get? name
  fields : ∀ {name span around}, Node.Occurs (.field name span) around ns →
    SeenAlike (ctx.record name) (ctx'.record name)

section
variable {ctx ctx' : EvalContext} {n : Node} {ns a : List Node} {args : List (List Node)}
  {name : String} {span : Span}

/-- Contexts that agree on a sequence agree on the rest of it. -/
theorem AgreeOn.tail (h : AgreeOn (n :: ns) ctx ctx') : AgreeOn ns ctx ctx' :=
  ⟨h.options, fun hcall => h.calls hcall.cons, fun hfield => h.fields hfield.cons⟩

/-- Contexts that agree on a sequence agree on the arguments of its first node. -/
theorem AgreeOn.arg (h : AgreeOn (.call name args span :: ns) ctx ctx') (ha : a ∈ args) :
    AgreeOn a ctx ctx' :=
  ⟨h.options, fun hcall => h.calls (.inside List.mem_cons_self ha hcall),
    fun hfield => h.fields (.inside List.mem_cons_self ha hfield)⟩

namespace EvalContext

/-- A field has the same text in two records that let it be seen alike. -/
theorem fieldText_eq_of_seenAlike (hoptions : ctx.options = ctx'.options)
    (h : SeenAlike (ctx.record name) (ctx'.record name)) (span : Span) :
    ctx.fieldText name span = ctx'.fieldText name span := by
  unfold fieldText
  rw [← hoptions]
  congr 1
  funext _
  generalize ctx.record name = value at h
  generalize ctx'.record name = value' at h
  cases h with
  | absent => rfl
  | text hv hw => simp only [hv, hw]
  | withoutText hv hw htype => simp only [hv, hw, htype]

/-- The outcome of a call depends on the function of its name and on the operands. -/
theorem dispatch_eq_of_get? (h : ctx.registry.get? name = ctx'.registry.get? name) (span : Span)
    (count : Nat) {operand operand' : Nat → Run String} (hop : ∀ i, operand i = operand' i) :
    ctx.dispatch name span count operand = ctx'.dispatch name span count operand' := by
  have hresolve : ctx.registry.resolve name count = ctx'.registry.resolve name count := by
    rw [Registry.resolve, h, Registry.resolve]
  rw [dispatch, dispatch, hresolve, funext hop]

/-- What becomes of the outcome of a call depends on the options only. -/
theorem callText_eq_of_options (hoptions : ctx.options = ctx'.options) (outcome : Run String) :
    ctx.callText name outcome = ctx'.callText name outcome := by
  rw [callText, callText, hoptions]

end EvalContext

end

namespace Node

/-- Contexts that agree on a sequence evaluate it alike. -/
theorem evalSeq_eq_of_agree {ctx ctx' : EvalContext} {ns : List Node} (h : AgreeOn ns ctx ctx')
    (levels : Nat) : evalSeq ctx ns levels = evalSeq ctx' ns levels := by
  induction ns using seqInduction generalizing levels with
  | nil => rfl
  | literal text span ns ih => rw [evalSeq, evalSeq, eval, eval, ih h.tail]
  | field name span ns ih =>
    have hfield := EvalContext.fieldText_eq_of_seenAlike h.options
      (h.fields (.here List.mem_cons_self)) span
    rw [evalSeq, evalSeq, eval, eval, hfield, ih h.tail]
  | call name args span ns iha ih =>
    have hcall : (Node.call name args span).eval ctx levels =
        (Node.call name args span).eval ctx' levels := by
      cases levels with
      | zero =>
        rw [eval, eval, EvalContext.callText_eq_of_options h.options, EvalContext.tooDeep,
          EvalContext.tooDeep, h.options]
      | succ levels =>
        have hop : ∀ i, evalArgs ctx args levels i = evalArgs ctx' args levels i := by
          intro i
          rw [evalArgs_eq, evalArgs_eq]
          split
          · next a ha =>
            have hmem := List.mem_of_getElem? ha
            exact iha a hmem (h.arg hmem) levels
          · rfl
        rw [eval, eval, EvalContext.callText_eq_of_options h.options,
          EvalContext.dispatch_eq_of_get? (h.calls (.here List.mem_cons_self)) span args.length hop]
    rw [evalSeq, evalSeq, hcall, ih h.tail]

end Node

/-! ## Values without text form -/

/-- The record `record'` is `record` with some values left out that have no text form. -/
def Record.Hides (record record' : Record) : Prop :=
  ∀ name, record' name = record name ∨
    record' name = none ∧ ∃ v, record name = some v ∧ v.text? = none

/-- Is the event anything but the note that a field was passed over which `record'` leaves out? -/
def Event.isSeen (record record' : Record) : Event → Bool
  | .fieldDegraded name => record' name == record name
  | .lookup _ | .call _ _ | .callDegraded _ _ => true

/-- Equal errors have one fault, wherever they arise. -/
theorem EvalError.tracks_eq : EvalError.Tracks Eq Eq where
  fault h := h ▸ .refl _
  node _ _ _ h := h ▸ rfl
  locate h hspan := h ▸ hspan ▸ rfl

section
variable {ctx : EvalContext} {record' : Record}

/-- In the lenient mode an evaluation respects equality of errors. -/
theorem EvalContext.respects_eq (hlenient : ctx.options.strict = false) : ctx.Respects Eq where
  strict h := nomatch hlenient.symm.trans h
  lenient _ _ := rfl

/-- A value that is left out was passed over, and nothing else happens in its field. -/
theorem EvalContext.matches_hide_fieldText (hlenient : ctx.options.strict = false)
    (h : ctx.record.Hides record') (name : String) (span : Span) :
    Run.Matches (Event.isSeen ctx.record record') Eq (ctx.fieldText name span)
      ({ ctx with record := record' }.fieldText name span) := by
  rcases h name with heq | ⟨hnone, v, hv, htext⟩
  · have hsame : { ctx with record := record' }.fieldText name span = ctx.fieldText name span := by
      simp only [fieldText, heq]
    rw [hsame]
    exact matches_fieldText EvalError.tracks_eq rfl (beq_iff_eq.2 heq) rfl
  · have hdropped : Event.isSeen ctx.record record' (.fieldDegraded name) = false := by
      rw [Event.isSeen, hnone, hv]
      rfl
    unfold fieldText
    refine (Run.matches_emit rfl).bind fun _ => ?_
    simp only [hnone, hv, htext, hlenient, Bool.false_eq_true, if_false]
    exact (Run.matches_pure "").skip hdropped

/-- In the lenient mode a record with some values left out that have no text form is evaluated like
the record with them. -/
theorem Node.matches_hide (hlenient : ctx.options.strict = false) (h : ctx.record.Hides record')
    (ns : List Node) (levels : Nat) :
    Run.Matches (Event.isSeen ctx.record record') Eq (evalSeq ctx ns levels)
      (evalSeq { ctx with record := record' } ns levels) := by
  induction ns using seqInduction generalizing levels with
  | nil => exact Run.matches_pure ""
  | literal text span ns ih => exact matches_cons (Run.matches_pure text) (ih levels)
  | field name span ns ih =>
    exact matches_cons (EvalContext.matches_hide_fieldText hlenient h name span) (ih levels)
  | call name args span ns iha ih =>
    refine matches_cons ?_ (ih levels)
    cases levels with
    | zero =>
      exact EvalContext.matches_callText EvalError.tracks_eq (fun _ => rfl) (Run.matches_fail rfl)
    | succ levels =>
      have hop : ∀ i, Run.Matches (Event.isSeen ctx.record record') Eq
          (evalArgs ctx args levels i) (evalArgs { ctx with record := record' } args levels i) := by
        intro i
        rw [evalArgs_eq, evalArgs_eq]
        split
        · next a ha => exact iha a (List.mem_of_getElem? ha) levels
        · exact Run.matches_pure ""
      exact EvalContext.matches_callText EvalError.tracks_eq (fun _ => rfl)
        (EvalContext.matches_dispatch EvalError.tracks_eq (EvalContext.respects_eq hlenient)
          (fun _ _ => rfl) rfl args.length hop fun _ => evalArgs_succeeds hlenient args levels)

end

/-- An evaluation sees only what its template names, and values only as text. Contexts with the same
options that agree on the functions called and on the fields named in a template evaluate it alike:
the result is the same, with every part of an error, and so are all events and their order. In the
lenient mode a value without text form may moreover be left out of the record: the text, the calls
and the lookups stay the same. -/
theorem compileWithin_sees {limits : Reader.Limits} {source : String} {t : Template}
    (h : compileWithin limits source = .ok t) :
    (∀ ctx ctx', AgreeOn t.toNodes ctx ctx' → t.evaluate ctx = t.evaluate ctx') ∧
    ∀ (ctx : EvalContext) (record' : Record), ctx.options.strict = false →
      ctx.record.Hides record' →
      let x := t.evaluate ctx
      let y := t.evaluate { ctx with record := record' }
      y.result = x.result ∧ y.calls = x.calls ∧ y.lookups = x.lookups ∧
        y.events = x.events.filter (Event.isSeen ctx.record record') := by
  have heval : ∀ ctx, t.evaluate ctx = Node.evalSeq ctx t.toNodes ctx.options.maxDepth := by
    intro ctx
    rw [← Template.evaluate_ofNodes, ofNodes_toNodes_of_compileWithin h]
  refine ⟨?_, ?_⟩
  · intro ctx ctx' hagree
    rw [heval, heval, ← hagree.options, Node.evalSeq_eq_of_agree hagree]
  · intro ctx record' hlenient hhides x y
    have hmatches : Run.Matches (Event.isSeen ctx.record record') Eq x y := by
      show Run.Matches _ Eq (t.evaluate ctx) (t.evaluate _)
      rw [heval, heval]
      exact Node.matches_hide hlenient hhides t.toNodes ctx.options.maxDepth
    have hdropped : ∀ ev : Event, ev.isSeen ctx.record record' = false →
        ∃ name, ev = .fieldDegraded name := by
      intro ev hev
      cases ev with
      | fieldDegraded name => exact ⟨name, rfl⟩
      | lookup | call | callDegraded => cases hev
    refine ⟨hmatches.result.eq.symm, ?_, ?_, hmatches.events⟩
    · rw [Run.calls, hmatches.events]
      refine Run.filterMap_filter_of_none (fun ev hev => ?_) x.events
      obtain ⟨name, rfl⟩ := hdropped ev hev
      rfl
    · rw [Run.lookups, hmatches.events]
      refine Run.filterMap_filter_of_none (fun ev hev => ?_) x.events
      obtain ⟨name, rfl⟩ := hdropped ev hev
      rfl

/-- An integer and a text that look alike, two numbers without text form, and a function that is not
called. -/
theorem compileWithin_sees_number :
    let ctx : EvalContext := {
      record := fun name =>
        if name = "x" then some (.integer 7) else some (.number ⟨0x7ff8000000000000⟩) }
    let ctx' : EvalContext := {
      record := fun name =>
        if name = "x" then some (.text "7")
        else if name = "y" then some (.number ⟨0x7ff0000000000000⟩) else none
      registry := Registry.builtins.register Function.bracket }
    let record' : Record := fun name => if name = "x" then some (.integer 7) else none
    ∃ t, compileWithin { maxDepth := 1 } "$upper(%x%)%y%" = .ok t ∧ AgreeOn t.toNodes ctx ctx' ∧
      t.evaluate ctx = t.evaluate ctx' ∧
      ctx.options.strict = false ∧ ctx.record.Hides record' ∧
      (t.evaluate { ctx with record := record' }).result = (t.evaluate ctx).result := by
  intro ctx ctx' record'
  have ht := (compileWithin_eq_ok_iff { maxDepth := 1 } "$upper(%x%)%y%" _).2
    ⟨[.call "upper" [[.field "x"]], .field "y"],
      ⟨⟨by decide, by decide⟩, by decide, ⟨by decide, by decide, by decide⟩⟩, rfl⟩
  have hagree : AgreeOn
      [.call "upper" [[.field "x" ⟨7, 10⟩]] ⟨0, 11⟩, .field "y" ⟨11, 14⟩] ctx ctx' := by
    have hx : SeenAlike (ctx.record "x") (ctx'.record "x") := .text (t := "7") rfl rfl
    have hy : SeenAlike (ctx.record "y") (ctx'.record "y") := .withoutText rfl rfl rfl
    have hupper : ctx.registry.get? "upper" = ctx'.registry.get? "upper" := by
      simp only [ctx, ctx', Registry.get?_register]
      exact (if_neg (by decide)).symm
    -- The nodes of the tree are the call, the field in it and the field after it.
    refine ⟨rfl, fun hcall => ?_, fun hfield => ?_⟩
    · cases hcall with
      | here h =>
        obtain ⟨rfl, -⟩ : _ = "upper" ∧ _ := by simpa using h
        exact hupper
      | inside houter ha h =>
        obtain ⟨-, rfl, -⟩ : _ ∧ _ = [[Node.field "x" ⟨7, 10⟩]] ∧ _ := by simpa using houter
        obtain rfl := List.mem_singleton.1 ha
        cases h with
        | here h => simp at h
        | inside hinner => simp at hinner
    · cases hfield with
      | here h =>
        obtain ⟨rfl, -⟩ : _ = "y" ∧ _ := by simpa using h
        exact hy
      | inside houter ha h =>
        obtain ⟨-, rfl, -⟩ : _ ∧ _ = [[Node.field "x" ⟨7, 10⟩]] ∧ _ := by simpa using houter
        obtain rfl := List.mem_singleton.1 ha
        cases h with
        | here h =>
          obtain ⟨rfl, -⟩ : _ = "x" ∧ _ := by simpa using h
          exact hx
        | inside hinner => simp at hinner
  have hhides : ctx.record.Hides record' := by
    intro name
    by_cases hname : name = "x"
    · exact .inl (by simp [ctx, record', hname])
    · exact .inr ⟨if_neg hname, _, if_neg hname, rfl⟩
  obtain ⟨hsame, hlenient⟩ := compileWithin_sees ht
  rw [Template.toNodes_ofNodes] at hsame
  exact ⟨_, ht, by rw [Template.toNodes_ofNodes]; exact hagree, hsame ctx ctx' hagree, rfl, hhides,
    (hlenient ctx record' rfl hhides).1⟩

end TagTemplate
