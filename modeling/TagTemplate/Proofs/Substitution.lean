import TagTemplate.Proofs.Printing
import TagTemplate.Proofs.Similarity

/-!
# Field values in place of fields

A field may be replaced in the source by its value, written as text (`splice`): the new source
compiles, and is evaluated as the old one is, except that the field is not looked up
(`compile_splice`). So a value never acts as template syntax, wherever it is put. On the side of the
grammar the replacement is `Piece.substitute`, which puts quoted text in place of a field;
`splice_eq` relates it to the bytes of the source.

In the strict mode the functions of the registry are to ignore where the errors of their operands
point; `compile_splice_needs_ignoresSpans` shows why.
-/

namespace TagTemplate

open String (utf8Len)

/-! ## Splicing -/

/-- A source that is copied from left to right, with a text in place of some of its spans. -/
structure Splice where
  /-- The offset of the source behind the last span that was replaced. -/
  pos : Nat := 0
  /-- The copy up to there. -/
  out : String := ""

/-- Copies the source up to the span, and the text in place of the span. -/
def Splice.replace (source text : String) (s : Splice) (span : Span) : Splice where
  pos := span.stop
  out := s.out ++ String.Pos.Raw.extract source ⟨s.pos⟩ ⟨span.start⟩ ++ text

/-- The source with a text in place of each of the spans, which come in order. -/
def splice (source : String) (spans : List Span) (text : String) : String :=
  let s := spans.foldl (Splice.replace source text) {}
  s.out ++ String.Pos.Raw.extract source ⟨s.pos⟩ ⟨source.utf8ByteSize⟩

namespace Splice

/-- The source is passed up to the end of `l`, and the copy is to read `o` up to there. What is
still to be copied is the end of both. -/
def Reached (s : Splice) (l o : List Char) : Prop :=
  ∃ l₁ o₁ m, l = l₁ ++ m ∧ o = o₁ ++ m ∧ s.pos = utf8Len l₁ ∧ s.out = .ofList o₁

variable {s : Splice} {l o : List Char} {source : String}

/-- At first nothing is passed up. -/
theorem reached_start : ({} : Splice).Reached [] [] :=
  ⟨[], [], [], rfl, rfl, rfl, rfl⟩

/-- Text of the source that no span covers is copied. -/
theorem Reached.copy (h : s.Reached l o) (m : List Char) : s.Reached (l ++ m) (o ++ m) := by
  obtain ⟨l₁, o₁, k, rfl, rfl, hpos, hout⟩ := h
  exact ⟨l₁, o₁, k ++ m, List.append_assoc .., List.append_assoc .., hpos, hout⟩

/-- Text of the source that a span covers is replaced. -/
theorem Reached.replace (h : s.Reached l o) {m r : List Char}
    (hsource : source.toList = l ++ m ++ r) (text : String) :
    (s.replace source text ⟨utf8Len l, utf8Len l + utf8Len m⟩).Reached (l ++ m)
      (o ++ text.toList) := by
  obtain ⟨l₁, o₁, k, rfl, rfl, hpos, hout⟩ := h
  have hextract := String.extract_of_valid l₁ k (m ++ r)
  rw [← List.append_assoc, ← hsource, String.ofList_toList, ← String.utf8Len_append] at hextract
  have hpos' : (s.replace source text ⟨utf8Len (l₁ ++ k), utf8Len (l₁ ++ k) + utf8Len m⟩).pos =
      utf8Len (l₁ ++ k ++ m) := by
    rw [Splice.replace, String.utf8Len_append (l₁ ++ k) m]
  refine ⟨l₁ ++ k ++ m, o₁ ++ k ++ text.toList, [], by simp, by simp, hpos', ?_⟩
  rw [Splice.replace, hpos, hout, hextract, String.ofList_append, String.ofList_append,
    String.ofList_toList]

/-- At the end the rest of the source is copied. -/
theorem Reached.finish (h : s.Reached source.toList o) :
    s.out ++ String.Pos.Raw.extract source ⟨s.pos⟩ ⟨source.utf8ByteSize⟩ = .ofList o := by
  obtain ⟨l₁, o₁, k, hl, rfl, hpos, hout⟩ := h
  have hextract := String.extract_of_valid l₁ k []
  have hsize : source.utf8ByteSize = utf8Len l₁ + utf8Len k := by
    rw [← String.utf8Len_toList, hl, String.utf8Len_append]
  rw [List.append_nil, ← hl, String.ofList_toList, ← hsize] at hextract
  rw [hpos, hout, hextract, String.ofList_append]

/-- Wherever in the source the text `cs` stands, replacing the spans turns it into `cs'`. The spans
are given by the offset of `cs`. -/
def Turns (source text : String) (spans : Nat → List Span) (cs cs' : List Char) : Prop :=
  ∀ ⦃s : Splice⦄ ⦃l o r : List Char⦄, s.Reached l o → source.toList = l ++ cs ++ r →
    ((spans (utf8Len l)).foldl (replace source text) s).Reached (l ++ cs) (o ++ cs')

variable {text : String} {spans spans' : Nat → List Span} {cs cs' ds ds' : List Char}

/-- A text in which nothing is replaced stays. -/
theorem turns_self (cs : List Char) : Turns source text (fun _ => []) cs cs :=
  fun _ _ _ _ h _ => h.copy cs

/-- A text that is all one span is replaced. -/
theorem turns_span (cs : List Char) :
    Turns source text (fun pos => [⟨pos, pos + utf8Len cs⟩]) cs text.toList :=
  fun _ _ _ _ h hsource => h.replace hsource text

/-- Two texts after each other are turned one after the other. -/
theorem Turns.append (h : Turns source text spans cs cs') (h' : Turns source text spans' ds ds') :
    Turns source text (fun pos => spans pos ++ spans' (pos + utf8Len cs)) (cs ++ ds)
      (cs' ++ ds') := by
  intro s l o r hs hsource
  have hcs := h hs (r := ds ++ r) (by rw [hsource]; simp)
  have hds := h' hcs (r := r) (by rw [hsource]; simp)
  rw [String.utf8Len_append] at hds
  rw [List.foldl_append, ← List.append_assoc, ← List.append_assoc]
  exact hds

/-- The spans count, and not how they are given. -/
theorem Turns.congr (h : Turns source text spans cs cs') (hspans : ∀ pos, spans' pos = spans pos) :
    Turns source text spans' cs cs' := by
  rwa [funext hspans]

/-- The whole source is turned. -/
theorem Turns.splice_eq (h : Turns source text spans source.toList cs') :
    splice source (spans 0) text = .ofList cs' :=
  (h (r := []) reached_start (by simp)).finish

end Splice

/-! ## Spans of fields -/

namespace Node

mutual

/-- The spans of the fields of the name in a node. -/
def fieldSpans (f : String) : Node → List Span
  | .literal _ _ => []
  | .field name span => if name = f then [span] else []
  | .call _ args _ => fieldSpansArgs f args

/-- The spans of the fields of the name in a sequence, in the order of the source. -/
def fieldSpansSeq (f : String) : List Node → List Span
  | [] => []
  | n :: ns => n.fieldSpans f ++ fieldSpansSeq f ns

/-- `fieldSpansSeq` over the arguments of a call. -/
def fieldSpansArgs (f : String) : List (List Node) → List Span
  | [] => []
  | a :: as => fieldSpansSeq f a ++ fieldSpansArgs f as

end

/-- Literals that merge have no fields in them. -/
theorem fieldSpansSeq_join (f : String) (n : Node) (ns : List Node) :
    fieldSpansSeq f (join n ns) = n.fieldSpans f ++ fieldSpansSeq f ns := by
  cases n with
  | field | call => rfl
  | literal s i =>
    rcases ns with _ | ⟨m, ns⟩
    · rfl
    · cases m <;> rfl

end Node

/-! ## Substitution in derivations -/

namespace Piece

mutual

/-- The piece with the quoted text `w` in place of the fields `f`. -/
def substitute (f w : String) : Piece → List Piece
  | .plain c => [.plain c]
  | .escaped c => [.escaped c]
  | .field name => if name = f then quoted w else [.field name]
  | .call name args => [.call name (substituteArgs f w args)]

/-- `substitute` over a sequence. -/
def substituteSeq (f w : String) : List Piece → List Piece
  | [] => []
  | p :: ps => p.substitute f w ++ substituteSeq f w ps

/-- `substitute` over the arguments of a call. -/
def substituteArgs (f w : String) : List (List Piece) → List (List Piece)
  | [] => []
  | a :: as => substituteSeq f w a :: substituteArgs f w as

end

variable {f w : String}

/-- A text with a character in it is quoted by some piece. -/
theorem quoted_ne_nil (hw : w ≠ "") : quoted w ≠ [] := by
  intro h
  rw [quoted, List.map_eq_nil_iff] at h
  exact hw (String.toList_eq_nil_iff.1 h)

/-- A text that is not empty leaves no sequence empty that was not. -/
theorem substituteSeq_eq_nil (hw : w ≠ "") {ps : List Piece} (h : substituteSeq f w ps = []) :
    ps = [] := by
  cases ps with
  | nil => rfl
  | cons p ps =>
    have hp := (List.append_eq_nil_iff.1 h).1
    cases p with
    | plain | escaped | call => cases hp
    | field name =>
      rw [substitute] at hp
      split at hp
      · exact absurd hp (quoted_ne_nil hw)
      · cases hp

/-- Without such a text a call with one argument, which is a field, would become a call with none.
-/
theorem substituteArgs_eq_singleton_nil (hw : w ≠ "") {args : List (List Piece)}
    (h : substituteArgs f w args = [[]]) : args = [[]] := by
  rcases args with _ | ⟨a, _ | ⟨b, bs⟩⟩
  · cases h
  · rw [substituteArgs, substituteArgs, List.cons.injEq] at h
    rw [substituteSeq_eq_nil hw h.1]
  · exact absurd (List.cons.inj h).2 (List.cons_ne_nil _ _)

/-- A field that is replaced leaves the number of arguments. -/
theorem length_substituteArgs (args : List (List Piece)) :
    (substituteArgs f w args).length = args.length := by
  induction args with
  | nil => rfl
  | cons a as ih => rw [substituteArgs, List.length_cons, ih, List.length_cons]

/-- Quoted text changes nothing in the parentheses around it. -/
theorem groupsSeq_substituteSeq (g : Nat) (ps : List Piece) :
    groupsSeq g (substituteSeq f w ps) = groupsSeq g ps := by
  induction ps generalizing g with
  | nil => rfl
  | cons p ps ih =>
    have hp : groupsSeq g (p.substitute f w) = p.groups g := by
      cases p with
      | plain | escaped => exact groupsSeq_singleton g _
      | field name =>
        rw [substitute]
        split
        · rw [groupsSeq_quoted, groups_field]
        · exact groupsSeq_singleton g _
      | call name args => rw [substitute, groupsSeq_singleton, groups_call, groups_call]
    rw [substituteSeq, groupsSeq_append, hp, ← List.singleton_append, groupsSeq_append,
      groupsSeq_singleton]
    simp only [ih]

/-- The language has the pieces after the substitution if it had those before. -/
theorem validSeq_substituteSeq (hw : w ≠ "") {ps : List Piece} (h : ValidSeq ps) :
    ValidSeq (substituteSeq f w ps) := by
  induction ps using seqInduction with
  | nil => trivial
  | plain c ps ih | escaped c ps ih => exact ⟨h.1, ih h.2⟩
  | field name ps ih =>
    refine (validSeq_append _ _).2 ⟨?_, ih h.2⟩
    rw [substitute]
    split
    · exact valid_quoted w
    · exact ⟨h.1, trivial⟩
  | call name args ps iha ih =>
    obtain ⟨⟨hname, hsome, hargs⟩, hps⟩ := h
    have hvalid : ValidArgs (substituteArgs f w args) := by
      clear ih hsome
      induction args with
      | nil => trivial
      | cons a as ihas =>
        refine ⟨⟨iha a List.mem_cons_self hargs.1.1, ?_⟩,
          ihas (fun b hb => iha b (List.mem_cons_of_mem a hb)) hargs.2⟩
        rw [Balanced, groupsSeq_substituteSeq]
        exact hargs.1.2
    have hsome' : substituteArgs f w args ≠ [[]] :=
      fun hnil => hsome (substituteArgs_eq_singleton_nil hw hnil)
    exact ⟨⟨hname, hsome', hvalid⟩, ih hps⟩

/-- Quoted text has no calls. -/
theorem depthSeq_substituteSeq (ps : List Piece) :
    depthSeq (substituteSeq f w ps) = depthSeq ps := by
  induction ps using seqInduction with
  | nil => rfl
  | plain c ps ih | escaped c ps ih =>
    rw [substituteSeq, depthSeq_append, ih]
    rfl
  | field name ps ih =>
    rw [substituteSeq, depthSeq_append, ih, substitute]
    split
    · rw [depthSeq_quoted]
      rfl
    · rfl
  | call name args ps iha ih =>
    have hargs : depthArgs (substituteArgs f w args) = depthArgs args := by
      clear ih
      induction args with
      | nil => rfl
      | cons a as ihas =>
        rw [substituteArgs, depthArgs, iha a List.mem_cons_self,
          ihas fun b hb => iha b (List.mem_cons_of_mem a hb), depthArgs]
    rw [substituteSeq, depthSeq_append, ih, substitute, depthSeq, depthSeq, depth, hargs, depthSeq,
      depth, Nat.max_zero]

end Piece

/-! ## The spliced source -/

open Piece (charsSeq charsArgs sizeSeq nodes nodesArgs substituteSeq substituteArgs quoted Spells)

section
variable {f w source : String}

open Splice (Turns turns_self turns_span)

/-- Replacing the fields of the arguments of a call substitutes in each of them. -/
theorem turns_args {args : List (List Piece)}
    (h : ∀ a ∈ args, Turns source (escape w) (fun pos => Node.fieldSpansSeq f (nodes pos a))
      (charsSeq a) (charsSeq (substituteSeq f w a))) :
    Turns source (escape w) (fun pos => Node.fieldSpansArgs f (nodesArgs pos args))
      (charsArgs args) (charsArgs (substituteArgs f w args)) := by
  induction args with
  | nil => exact turns_self []
  | cons a as ih =>
    have ha := h a List.mem_cons_self
    have has := ih fun b hb => h b (List.mem_cons_of_mem a hb)
    cases as with
    | nil =>
      refine ha.congr fun pos => ?_
      rw [nodesArgs, nodesArgs, Node.fieldSpansArgs, Node.fieldSpansArgs, List.append_nil]
    | cons b bs =>
      have hcomma : utf8Len [','] = 1 := rfl
      have hall := (ha.append (turns_self [','])).append has
      rw [List.append_assoc, List.append_assoc] at hall
      refine hall.congr fun pos => ?_
      rw [nodesArgs, Node.fieldSpansArgs, List.append_nil, String.utf8Len_append, hcomma, sizeSeq]

/-- Replacing the fields of a piece substitutes in it, if it does so in its arguments. -/
theorem turns_piece (p : Piece)
    (h : ∀ a ∈ p.args, Turns source (escape w) (fun pos => Node.fieldSpansSeq f (nodes pos a))
      (charsSeq a) (charsSeq (substituteSeq f w a))) :
    Turns source (escape w) (fun pos => (p.node pos).fieldSpans f) p.chars
      (charsSeq (p.substitute f w)) := by
  cases p with
  | plain c => exact turns_self [c]
  | escaped c => exact turns_self ['\\', c]
  | field name =>
    rw [Piece.substitute]
    split
    · next hname =>
      have hsize : name.utf8ByteSize + 2 = utf8Len (Piece.field name).chars := by
        rw [← Piece.size, Piece.size_field]
      rw [Piece.charsSeq_quoted]
      refine (turns_span _).congr fun pos => ?_
      rw [Piece.node, Node.fieldSpans, if_pos hname, hsize]
    · next hname =>
      rw [charsSeq, charsSeq, List.append_nil]
      refine (turns_self _).congr fun pos => ?_
      rw [Piece.node, Node.fieldSpans, if_neg hname]
  | call name args =>
    have hargs : Turns source (escape w) (fun pos => Node.fieldSpansArgs f (nodesArgs pos args))
        (charsArgs args) (charsArgs (substituteArgs f w args)) := turns_args h
    have hcall := ((turns_self ('$' :: (name.toList ++ ['(']))).append hargs).append
      (turns_self [')'])
    have hchars : ∀ as, (Piece.call name as).chars =
        '$' :: (name.toList ++ ['(']) ++ charsArgs as ++ [')'] := by
      intro as
      simp [Piece.chars]
    rw [Piece.substitute, charsSeq, charsSeq, List.append_nil, hchars, hchars]
    refine hcall.congr fun pos => ?_
    rw [Piece.node, Node.fieldSpans, Piece.utf8Len_callStart, List.nil_append, List.append_nil]

/-- Replacing the fields of a sequence substitutes in it. -/
theorem turns_seq (ps : List Piece) :
    Turns source (escape w) (fun pos => Node.fieldSpansSeq f (nodes pos ps)) (charsSeq ps)
      (charsSeq (substituteSeq f w ps)) := by
  induction ps using Piece.consInduction with
  | nil => exact turns_self []
  | cons p ps hargs ih =>
    rw [substituteSeq, Piece.charsSeq_append]
    refine ((turns_piece p hargs).append ih).congr fun pos => ?_
    rw [nodes, Node.fieldSpansSeq_join, Piece.size]

/-- Replacing the fields of a source by escaped text is substituting quoted text for them. -/
theorem splice_eq {ps : List Piece} (h : Spells ps source) :
    splice source (Node.fieldSpansSeq f (nodes 0 ps)) (escape w) =
      .ofList (charsSeq (substituteSeq f w ps)) := by
  have hturns : Turns source (escape w) (fun pos => Node.fieldSpansSeq f (nodes pos ps))
      (charsSeq ps) (charsSeq (substituteSeq f w ps)) := turns_seq ps
  rw [h.chars] at hturns
  exact hturns.splice_eq

end

/-! ## Evaluation -/

/-- Is the event anything but a lookup of the field? -/
def Event.spares (f : String) : Event → Bool
  | .lookup field => decide (field ≠ f)
  | .call _ _ | .callDegraded _ _ | .fieldDegraded _ => true

section
variable {ctx : EvalContext} {f w : String} {v : Value}

open EvalError (SameFault)

/-- A field whose value has a text gives that text. -/
theorem EvalContext.fieldText_of_text (hrecord : ctx.record f = some v) (htext : v.text? = some w)
    (span : Span) : ctx.fieldText f span = Run.emit (.lookup f) >>= fun _ => pure w := by
  rw [fieldText, hrecord]
  dsimp only
  rw [htext]

/-- The operands of a call that is substituted in give the texts they gave before. -/
theorem matches_args {args : List (List Piece)} {levels : Nat}
    (h : ∀ a ∈ args, ∀ pos pos', Run.Matches (Event.spares f) SameFault
      (Node.evalSeq ctx (nodes pos a) levels)
      (Node.evalSeq ctx (nodes pos' (substituteSeq f w a)) levels)) (pos pos' i : Nat) :
    Run.Matches (Event.spares f) SameFault (Node.evalArgs ctx (nodesArgs pos args) levels i)
      (Node.evalArgs ctx (nodesArgs pos' (substituteArgs f w args)) levels i) := by
  induction args generalizing pos pos' i with
  | nil => exact Run.matches_pure ""
  | cons a as ih =>
    cases i with
    | zero => exact h a List.mem_cons_self pos pos'
    | succ i => exact ih (fun b hb => h b (List.mem_cons_of_mem a hb)) _ _ i

/-- A piece that is substituted in gives the text it gave before, without lookups of the field, if
its arguments do. What takes its place is a single node. -/
theorem matches_piece (hreg : ctx.options.strict = true → ctx.registry.IgnoresSpans)
    (hrecord : ctx.record f = some v) (htext : v.text? = some w) (hw : w ≠ "") (p : Piece)
    (h : ∀ a ∈ p.args, ∀ levels pos pos', Run.Matches (Event.spares f) SameFault
      (Node.evalSeq ctx (nodes pos a) levels)
      (Node.evalSeq ctx (nodes pos' (substituteSeq f w a)) levels))
    (levels pos pos' : Nat) :
    ∃ n, nodes pos' (p.substitute f w) = [n] ∧
      Run.Matches (Event.spares f) SameFault ((p.node pos).eval ctx levels)
        (n.eval ctx levels) := by
  have htracks := EvalError.tracks_sameFault fun _ _ => True
  cases p with
  | plain c | escaped c => exact ⟨_, Piece.nodes_singleton _ _, Run.matches_pure _⟩
  | field name =>
    rw [Piece.substitute]
    split
    · next hname =>
      subst hname
      refine ⟨_, Piece.nodes_quoted pos' hw, ?_⟩
      rw [Piece.node, Node.eval, Node.eval, EvalContext.fieldText_of_text hrecord htext]
      exact (Run.matches_pure w).skip (decide_eq_false fun h => h rfl)
    · next hname =>
      refine ⟨_, Piece.nodes_singleton _ _, ?_⟩
      exact EvalContext.matches_fieldText htracks (decide_eq_true hname) rfl trivial
  | call name args =>
    refine ⟨_, Piece.nodes_singleton _ _, ?_⟩
    cases levels with
    | zero =>
      rw [Piece.node, Node.eval, Piece.node, Node.eval]
      exact EvalContext.matches_callText htracks (fun _ => rfl) (Run.matches_fail ⟨rfl, rfl⟩)
    | succ levels =>
      rw [Piece.node, Node.eval, Piece.node, Node.eval, Piece.length_nodesArgs,
        Piece.length_nodesArgs, Piece.length_substituteArgs]
      refine EvalContext.matches_callText htracks (fun _ => rfl) ?_
      refine EvalContext.matches_dispatch htracks ⟨hreg, fun _ => .refl⟩ (fun _ _ => rfl) trivial _
        (matches_args (fun a ha => h a ha levels) _ _) fun hlenient i => ?_
      exact Node.evalArgs_succeeds hlenient _ levels i

/-- A sequence that is substituted in gives the text it gave before, without lookups of the field.
-/
theorem matches_seq (hreg : ctx.options.strict = true → ctx.registry.IgnoresSpans)
    (hrecord : ctx.record f = some v) (htext : v.text? = some w) (hw : w ≠ "") (ps : List Piece)
    (levels pos pos' : Nat) :
    Run.Matches (Event.spares f) SameFault (Node.evalSeq ctx (nodes pos ps) levels)
      (Node.evalSeq ctx (nodes pos' (substituteSeq f w ps)) levels) := by
  induction ps using Piece.consInduction generalizing levels pos pos' with
  | nil => exact Run.matches_pure ""
  | cons p ps hargs ih =>
    obtain ⟨n, hnode, hn⟩ := matches_piece hreg hrecord htext hw p hargs levels pos pos'
    rw [nodes, Node.evalSeq_join, substituteSeq, Piece.nodes_append, hnode, Node.joinSeq_cons,
      Node.evalSeq_join]
    exact Node.matches_cons hn (ih _ _ _)

end

/-! ## Templates -/

section
variable {α : Type} {f : String} {E : EvalError → EvalError → Prop} {x y : Run α}

/-- Runs that match but for the lookups of a field have the same calls. -/
theorem Run.Matches.calls_eq (h : Run.Matches (Event.spares f) E x y) : y.calls = x.calls := by
  rw [Run.calls, Run.calls, h.events, List.filterMap_filter]
  congr 1
  funext event
  cases event <;> simp [Event.spares]

/-- Runs that match but for the lookups of a field have the same lookups but those. -/
theorem Run.Matches.lookups_eq (h : Run.Matches (Event.spares f) E x y) :
    y.lookups = x.lookups.filter (· ≠ f) := by
  rw [Run.lookups, Run.lookups, h.events, List.filterMap_filter, List.filter_filterMap]
  congr 1
  funext event
  cases event <;> simp [Event.spares, Option.filter]

end

/-- A value never acts as template syntax. If a field `f` has the text `w`, then the source with
`w`, escaped, in place of all fields `f` compiles as well, and is evaluated as the source itself is:
to the same text or to the same error, with the same calls, and with the same lookups but those of
`f`. The functions of the registry are not to look, in the strict mode, at where the error of an
operand points. -/
theorem compile_splice {source : String} {maxDepth : Nat} {t : Template} {record : Record}
    {f w : String} {v : Value} (hcompile : compile source maxDepth = .ok t)
    (hrecord : record f = some v) (htext : v.text? = some w) (hw : w ≠ "")
    (hsize :
      (splice source (Node.fieldSpansSeq f t.toNodes) (escape w)).utf8ByteSize ≤ 2 ^ 32 - 1) :
    ∃ t', compile (splice source (Node.fieldSpansSeq f t.toNodes) (escape w)) maxDepth = .ok t' ∧
      ∀ registry options, (options.strict = true → registry.IgnoresSpans) →
        let x := t.evaluate { record, registry, options }
        let y := t'.evaluate { record, registry, options }
        (∀ out, x.result = .ok out ↔ y.result = .ok out) ∧
          (∀ e, x.result = .error e →
            ∃ e', y.result = .error e' ∧ e'.kind = e.kind ∧ e'.message = e.message) ∧
          y.calls = x.calls ∧ y.lookups = x.lookups.filter (· ≠ f) := by
  obtain ⟨ps, hps, rfl⟩ := (compile_eq_ok_iff source maxDepth t).1 hcompile
  rw [Template.toNodes_ofNodes, splice_eq hps.toSpells] at hsize ⊢
  have hspells : Spells (substituteSeq f w ps) (.ofList (charsSeq (substituteSeq f w ps))) :=
    ⟨Piece.validSeq_substituteSeq hw hps.valid, String.toList_ofList.symm⟩
  have hdepth : Piece.depthSeq (substituteSeq f w ps) ≤ maxDepth := by
    rw [Piece.depthSeq_substituteSeq]
    exact hps.depth
  refine ⟨_, compile_of_spells hspells hdepth hsize, fun registry options hreg => ?_⟩
  rw [Template.evaluate_ofNodes, Template.evaluate_ofNodes]
  let ctx : EvalContext := { record, registry, options }
  have hmatches : Run.Matches (Event.spares f) EvalError.SameFault
      (Node.evalSeq ctx (nodes 0 ps) options.maxDepth)
      (Node.evalSeq ctx (nodes 0 (substituteSeq f w ps)) options.maxDepth) :=
    matches_seq hreg hrecord htext hw ps options.maxDepth 0 0
  refine ⟨hmatches.result.eq_ok_iff, fun e he => ?_, hmatches.calls_eq, hmatches.lookups_eq⟩
  obtain ⟨e', he', hfault⟩ := hmatches.result.exists_error he
  exact ⟨e', he', hfault.kind_eq.symm, hfault.message_eq.symm⟩

/-- A value with a comma and a percent sign, beside and inside the operand of a script. -/
theorem compile_splice_script :
    let record : Record := fun name => if name = "a" then some (.text "x,%") else none
    let registry := Registry.builtins.registerAll [Function.scripted "s" (.exactly 1) [.text 0]]
    let options : EvalOptions := { strict := true }
    registry.IgnoresSpans ∧
      ∃ t, compile "(%a%$s(%a%%b%))" = .ok t ∧
        ∃ t', compile "(x\\,\\%$s(x\\,\\%%b%))" = .ok t' ∧
          let x := t.evaluate { record, registry, options }
          let y := t'.evaluate { record, registry, options }
          (∀ out, x.result = .ok out ↔ y.result = .ok out) ∧
            (∀ e, x.result = .error e →
              ∃ e', y.result = .error e' ∧ e'.kind = e.kind ∧ e'.message = e.message) ∧
            y.calls = x.calls ∧ y.lookups = x.lookups.filter (· ≠ "a") := by
  intro record registry options
  have hreg : registry.IgnoresSpans := by
    refine (Registry.propagates_builtins.registerAll fun f hf => ?_).ignoresSpans
    obtain rfl := List.mem_singleton.1 hf
    exact Function.propagates_scripted _ _ _
  let ps : List Piece :=
    [.plain '(', .field "a", .call "s" [[.field "a", .field "b"]], .plain ')']
  have hspells : Spells ps "(%a%$s(%a%%b%))" := ⟨by decide, by decide⟩
  have hcompile := compile_of_spells hspells (by decide : _ ≤ defaultMaxDepth) (by decide)
  have hsplice : splice "(%a%$s(%a%%b%))"
      (Node.fieldSpansSeq "a" (Template.ofNodes (nodes 0 ps)).toNodes) (escape "x,%") =
        "(x\\,\\%$s(x\\,\\%%b%))" := by
    rw [Template.toNodes_ofNodes, splice_eq hspells]
    decide
  have hrecord : record "a" = some (.text "x,%") := rfl
  obtain ⟨t', ht', heval⟩ := compile_splice hcompile hrecord rfl (by decide)
    (by rw [hsplice]; decide)
  rw [hsplice] at ht'
  exact ⟨hreg, _, hcompile, t', ht', heval registry options fun _ => hreg⟩

/-- A function that answers an error of its operand with the place where it points tells the two
sources apart. -/
theorem compile_splice_needs_ignoresSpans :
    let place : Function := {
      name := "place"
      arity := .exactly 1
      body := fun _ => .request 0 fun
        | .ok text => .done (.ok text)
        | .error e => .done (.ok (e.span.elim "" fun span => span.start.repr)) }
    let ctx : EvalContext := {
      record := fun _ => some (.text "x")
      registry := Registry.empty.register place
      options := { strict := true } }
    ∃ t t', compile "%a%$place($gone())" = .ok t ∧
      splice "%a%$place($gone())" (Node.fieldSpansSeq "a" t.toNodes) (escape "x") =
        "x$place($gone())" ∧
      compile "x$place($gone())" = .ok t' ∧ (t.evaluate ctx).result = .ok "x10" ∧
        (t'.evaluate ctx).result = .ok "x8" := by
  intro place ctx
  have hspells : Spells [.field "a", .call "place" [[.call "gone" []]]] "%a%$place($gone())" :=
    ⟨by decide, by decide⟩
  have hspells' : Spells [.plain 'x', .call "place" [[.call "gone" []]]] "x$place($gone())" :=
    ⟨by decide, by decide⟩
  refine ⟨_, _, compile_of_spells hspells (by decide) (by decide), ?_,
    compile_of_spells hspells' (by decide) (by decide), by decide, by decide⟩
  rw [Template.toNodes_ofNodes, splice_eq hspells]
  decide

end TagTemplate
