import TagTemplate.Proofs.Compile
import TagTemplate.Proofs.Moving
import TagTemplate.Proofs.Occurrence
import TagTemplate.Proofs.Unambiguity

/-!
# An argument reads like a source of its own

Inside an argument commas and parentheses may end it, at the top level they are text. The two agree
on balanced text (`compile_argument`): balanced sources that compile may be put between the
parentheses of a call as its arguments, and what stands in an argument of a call is balanced and
compiles by itself, to the same tree, moved to its place.

Which characters of a source are bare is a matter of its derivation, of which there is only one
(`BalancedSource.balanced`).
-/

namespace TagTemplate

open String (utf8Len)
open Piece (Spells charsSeq charsEach charsArgs sizeSeq nodes nodesArgs)

/-! ## Balanced sources -/

/-- In the bare characters of the source every parenthesis is closed that is opened, and opened that
is closed, and commas stand only between. Escaped characters do not count, nor do those that belong
to a call. -/
def BalancedSource (source : String) : Prop :=
  ∃ ps, Spells ps source ∧ Piece.Balanced ps

/-- Every derivation of a balanced source is balanced. -/
theorem BalancedSource.balanced {source : String} {ps : List Piece} (h : BalancedSource source)
    (hps : Spells ps source) : Piece.Balanced ps := by
  obtain ⟨qs, hqs, hbalanced⟩ := h
  rwa [hps.unique hqs]

/-! ## Calls of sources -/

/-- The source text of a call of `name` whose arguments have the given source texts. -/
def callSource (name : String) (sources : List String) : String :=
  "$" ++ name ++ "(" ++ ",".intercalate sources ++ ")"

/-- The source text of the pieces. -/
def Piece.text (ps : List Piece) : String :=
  .ofList (charsSeq ps)

/-- The source text of a call on the source texts of pieces is that of the call as a piece. -/
theorem toList_callSource (name : String) (args : List (List Piece)) :
    (callSource name (args.map Piece.text)).toList = (Piece.call name args).chars := by
  have htexts : (args.map Piece.text).map String.toList = args.map charsSeq := by
    simp [Piece.text]
  rw [callSource, Piece.chars, Piece.charsArgs_eq_intercalate, ← htexts]
  simp [String.toList_intercalate]

/-- The arguments are read from `source` as their own source texts are, one after the other: the
first begins at `pos`, and each other one byte after the end of the one before. -/
def ReadApart (source : String) (maxDepth pos : Nat) : List String → List (List Node) → Prop
  | [], [] => True
  | s :: sources, a :: args =>
    Span.Covers source ⟨pos, pos + s.utf8ByteSize⟩ s.toList ∧ BalancedSource s ∧
      (∃ t, compile s maxDepth = .ok t ∧ a = Node.moveSeq pos t.toNodes) ∧
      ReadApart source maxDepth (pos + s.utf8ByteSize + 1) sources args
  | _, _ => False

section
variable {source : String} {maxDepth : Nat} {args : List (List Piece)}

/-- Sources that compile have derivations. -/
theorem exists_args {sources : List String}
    (h : ∀ s ∈ sources, BalancedSource s ∧ ∃ t, compile s maxDepth = .ok t) :
    ∃ args, sources = args.map Piece.text ∧ Piece.ValidArgs args ∧
      Piece.depthArgs args ≤ maxDepth := by
  induction sources with
  | nil => exact ⟨[], rfl, trivial, Nat.zero_le _⟩
  | cons s sources ih =>
    obtain ⟨hbalanced, t, ht⟩ := h s List.mem_cons_self
    obtain ⟨ps, hps, -⟩ := (compile_eq_ok_iff s maxDepth t).1 ht
    obtain ⟨args, rfl, hvalid, hdepth⟩ := ih fun r hr => h r (List.mem_cons_of_mem s hr)
    have htext : s = Piece.text ps := by
      rw [Piece.text, hps.chars, String.ofList_toList]
    refine ⟨ps :: args, ?_, ⟨⟨hps.valid, hbalanced.balanced hps.toSpells⟩, hvalid⟩,
      Nat.max_le.2 ⟨hps.depth, hdepth⟩⟩
    rw [List.map_cons, ← htext]

/-- An argument compiles by itself, wherever it stands. -/
theorem compile_text {a : List Piece} (hvalid : Piece.ValidSeq a)
    (hdepth : Piece.depthSeq a ≤ maxDepth) (hsize : sizeSeq a ≤ 2 ^ 32 - 1) (pos : Nat) :
    ∃ t, compile (Piece.text a) maxDepth = .ok t ∧ nodes pos a = Node.moveSeq pos t.toNodes := by
  have hspells : Spells a (Piece.text a) := ⟨hvalid, String.toList_ofList.symm⟩
  rw [hspells.sizeSeq_eq] at hsize
  refine ⟨_, compile_of_spells hspells hdepth hsize, ?_⟩
  have hmoved := Piece.nodes_add pos a 0
  rwa [Nat.zero_add, ← Template.toNodes_ofNodes (nodes 0 a)] at hmoved

/-- The arguments of a call are read as their source texts are. -/
theorem readApart_nodesArgs (hvalid : Piece.ValidArgs args)
    (hdepth : Piece.depthArgs args ≤ maxDepth) (hsize : source.utf8ByteSize ≤ 2 ^ 32 - 1)
    {before after : List Char} (hsource : source.toList = before ++ charsArgs args ++ after) :
    ReadApart source maxDepth (utf8Len before) (args.map Piece.text)
      (nodesArgs (utf8Len before) args) := by
  induction args generalizing before with
  | nil => trivial
  | cons a as ih =>
    obtain ⟨⟨hva, hba⟩, hvalid⟩ := hvalid
    obtain ⟨hda, hdepth⟩ := Nat.max_le.1 hdepth
    obtain ⟨rest, hrest⟩ := Piece.charsArgs_append_cons [] a as
    have hplace : source.toList = before ++ charsSeq a ++ (rest ++ after) := by
      rw [hsource, ← List.nil_append (a :: as), hrest]
      simp [charsEach]
    have hlength : (Piece.text a).utf8ByteSize = sizeSeq a := by
      rw [Piece.text, String.utf8ByteSize_ofList, sizeSeq]
    have hfits : sizeSeq a ≤ 2 ^ 32 - 1 := by
      have hall := congrArg utf8Len hplace
      rw [String.utf8Len_toList, String.utf8Len_append, String.utf8Len_append] at hall
      rw [sizeSeq]
      omega
    refine ⟨?_, ⟨a, ⟨hva, String.toList_ofList.symm⟩, hba⟩, compile_text hva hda hfits _, ?_⟩
    · rw [hlength, Piece.text, String.toList_ofList]
      exact Span.covers_of_eq hplace
    · rw [hlength]
      cases as with
      | nil => trivial
      | cons b bs =>
        have hnext : source.toList =
            before ++ charsSeq a ++ [','] ++ charsArgs (b :: bs) ++ after := by
          rw [hsource, charsArgs]
          simp
        have hcomma : utf8Len [','] = 1 := rfl
        have hread := ih hvalid hdepth hnext
        rw [String.utf8Len_append, String.utf8Len_append, hcomma, ← sizeSeq] at hread
        rwa [Nat.add_assoc]

/-! ## Both directions -/

/-- Balanced sources that compile are the arguments of a call of them. -/
theorem compile_callSource {name : String} {sources : List String} (hname : IsName name)
    (hsome : sources ≠ [""])
    (h : ∀ s ∈ sources, BalancedSource s ∧ ∃ t, compile s maxDepth = .ok t)
    (hsize : (callSource name sources).utf8ByteSize ≤ 2 ^ 32 - 1) :
    ∃ t args, compile (callSource name sources) (maxDepth + 1) = .ok t ∧
      t.toNodes = [.call name args ⟨0, (callSource name sources).utf8ByteSize⟩] ∧
      args.length = sources.length ∧
      ReadApart (callSource name sources) maxDepth (name.utf8ByteSize + 2) sources args := by
  obtain ⟨args, rfl, hvalid, hdepth⟩ := exists_args h
  have hsome' : args ≠ [[]] := by
    rintro rfl
    exact hsome rfl
  have hchars := toList_callSource name args
  have hspells : Spells [.call name args] (callSource name (args.map Piece.text)) :=
    ⟨⟨⟨hname, hsome', hvalid⟩, trivial⟩, by rw [charsSeq, charsSeq, List.append_nil, hchars]⟩
  have hdeep : Piece.depthSeq [.call name args] ≤ maxDepth + 1 := by
    rw [Piece.depthSeq, Piece.depth, Piece.depthSeq]
    omega
  have hlength := hspells.sizeSeq_eq
  rw [Piece.sizeSeq_cons, Piece.sizeSeq_nil, Nat.add_zero] at hlength
  have hplace : (callSource name (args.map Piece.text)).toList =
      '$' :: (name.toList ++ ['(']) ++ charsArgs args ++ [')'] := by
    rw [hchars, Piece.chars]
    simp
  have hread := readApart_nodesArgs hvalid hdepth hsize hplace
  rw [Piece.utf8Len_callStart] at hread
  refine ⟨_, nodesArgs (name.utf8ByteSize + 2) args, compile_of_spells hspells hdeep hsize, ?_, ?_,
    hread⟩
  · rw [Template.toNodes_ofNodes, Piece.nodes_singleton, Piece.node, hlength]
    simp only [Nat.zero_add]
  · rw [Piece.length_nodesArgs, List.length_map]

/-- The arguments of a call are balanced sources that compile. -/
theorem readApart_of_occurs {t : Template} (hsize : source.utf8ByteSize ≤ 2 ^ 32 - 1)
    (h : compile source maxDepth = .ok t) {name : String} {args : List (List Node)} {span : Span}
    {around : Nat} (hcall : Node.Occurs (.call name args span) around t.toNodes) :
    ∃ sources, span.Covers source (callSource name sources).toList ∧
      sources.length = args.length ∧
      ReadApart source maxDepth (span.start + (name.utf8ByteSize + 2)) sources args := by
  obtain ⟨ps, hps, rfl⟩ := (compile_eq_ok_iff source maxDepth t).1 h
  rw [Template.toNodes_ofNodes] at hcall
  obtain ⟨p, before, hp, hnode⟩ := Piece.of_occurs rfl hps.valid hcall
  cases p with
  | plain | escaped | field => cases hnode
  | call name' as =>
    obtain ⟨rfl, rfl, rfl⟩ := Node.call.inj hnode
    rw [Nat.zero_add]
    obtain ⟨after, hchars⟩ := hp.chars_eq
    have hplace := hps.chars.symm.trans hchars
    have hdepth : Piece.depthArgs as ≤ maxDepth := by
      have hdeep := hp.depth
      have hlimit := hps.depth
      rw [Piece.depth] at hdeep
      exact Nat.le_trans (by omega) hlimit
    refine ⟨as.map Piece.text, ?_, by rw [List.length_map, Piece.length_nodesArgs], ?_⟩
    · rw [toList_callSource]
      exact Span.covers_of_eq hplace
    · have hinner : source.toList =
          before ++ '$' :: (name.toList ++ ['(']) ++ charsArgs as ++ ([')'] ++ after) := by
        rw [hplace, Piece.chars]
        simp
      have hread := readApart_nodesArgs hp.valid.2.2 hdepth hsize hinner
      rwa [String.utf8Len_append, Piece.utf8Len_callStart] at hread

end

/-- Arguments and the top level agree on balanced text. Balanced sources that compile are the
arguments of the call that is made of them, within a limit that admits one call more; only the
single empty source makes no argument. And the text of every argument of every call, however deep,
is a balanced source that compiles. Both times the argument has the tree of its source, moved to
its place. -/
theorem compile_argument (maxDepth : Nat) :
    (∀ name sources, IsName name → sources ≠ [""] →
      (∀ s ∈ sources, BalancedSource s ∧ ∃ t, compile s maxDepth = .ok t) →
      (callSource name sources).utf8ByteSize ≤ 2 ^ 32 - 1 →
      ∃ t args, compile (callSource name sources) (maxDepth + 1) = .ok t ∧
        t.toNodes = [.call name args ⟨0, (callSource name sources).utf8ByteSize⟩] ∧
        args.length = sources.length ∧
        ReadApart (callSource name sources) maxDepth (name.utf8ByteSize + 2) sources args) ∧
    ∀ source t, source.utf8ByteSize ≤ 2 ^ 32 - 1 → compile source maxDepth = .ok t →
      ∀ name args span around, Node.Occurs (.call name args span) around t.toNodes →
        ∃ sources, span.Covers source (callSource name sources).toList ∧
          sources.length = args.length ∧
          ReadApart source maxDepth (span.start + (name.utf8ByteSize + 2)) sources args := by
  refine ⟨?_, ?_⟩
  · intro name sources hname hsome h hsize
    exact compile_callSource hname hsome h hsize
  · intro source t hsize h name args span around hcall
    exact readApart_of_occurs hsize h hcall

/-- A group with a comma, and a call after a character of two bytes. -/
theorem compile_argument_group :
    (∃ t args, compile "$f((a,b),é$g(%x%))" 2 = .ok t ∧
      t.toNodes = [.call "f" args ⟨0, 19⟩] ∧ args.length = 2 ∧
      ReadApart "$f((a,b),é$g(%x%))" 1 3 ["(a,b)", "é$g(%x%)"] args) ∧
    ∃ sources, Span.Covers "$f((a,b),é$g(%x%))" ⟨11, 18⟩ (callSource "g" sources).toList ∧
      sources.length = 1 ∧
      ReadApart "$f((a,b),é$g(%x%))" 2 14 sources [[.field "x" ⟨14, 17⟩]] := by
  have hgroup : Spells [.plain '(', .plain 'a', .plain ',', .plain 'b', .plain ')'] "(a,b)" :=
    ⟨by decide, by decide⟩
  have hcall : Spells [.plain 'é', .call "g" [[.field "x"]]] "é$g(%x%)" :=
    ⟨by decide, by decide⟩
  have hsources : ∀ s ∈ ["(a,b)", "é$g(%x%)"], BalancedSource s ∧ ∃ t, compile s 1 = .ok t := by
    rw [List.forall_mem_cons, List.forall_mem_singleton]
    exact ⟨⟨⟨_, hgroup, by decide⟩, _, compile_of_spells hgroup (by decide) (by decide)⟩,
      ⟨_, hcall, by decide⟩, _, compile_of_spells hcall (by decide) (by decide)⟩
  have hwhole : Spells [.call "f" [[.plain '(', .plain 'a', .plain ',', .plain 'b', .plain ')'],
      [.plain 'é', .call "g" [[.field "x"]]]]] "$f((a,b),é$g(%x%))" :=
    ⟨by decide, by decide⟩
  have hinner : Node.Occurs (.call "g" [[.field "x" ⟨14, 17⟩]] ⟨11, 18⟩) 1
      [.call "f" [[.literal "(a,b)" ⟨3, 8⟩],
        [.literal "é" ⟨9, 11⟩, .call "g" [[.field "x" ⟨14, 17⟩]] ⟨11, 18⟩]] ⟨0, 19⟩] :=
    .inside List.mem_cons_self (List.mem_cons_of_mem _ List.mem_cons_self)
      (.here (List.mem_cons_of_mem _ List.mem_cons_self))
  refine ⟨?_, ?_⟩
  · have hsource : callSource "f" ["(a,b)", "é$g(%x%)"] = "$f((a,b),é$g(%x%))" := by decide
    have hcompiles := (compile_argument 1).1 "f" _ (by decide) (by decide) hsources (by decide)
    rw [hsource] at hcompiles
    exact hcompiles
  · refine (compile_argument 2).2 "$f((a,b),é$g(%x%))" _ (by decide)
      (compile_of_spells hwhole (by decide) (by decide)) "g" [[.field "x" ⟨14, 17⟩]] ⟨11, 18⟩ 1 ?_
    rw [Template.toNodes_ofNodes]
    exact hinner

end TagTemplate
