import TagTemplate.Proofs.Printing

/-!
# Spans account for the source

Every byte of a source that compiles lies in the span of a node at the top level, and within the
span of a call in a fixed place of the call: its name, the span of a node of an argument, or one of
the characters that hold the call together. `Node.AccountsSeq` says so of a tree, at all levels at
once, and says of each node what stands in its span. It speaks of the source text itself and of no
grammar: for literals `unescape` gives the text that a piece of source stands for.
`compileWithin_accounts` proves it of every template.
-/

namespace TagTemplate

open String (utf8Len)

/-! ## Source text under a span -/

/-- The text that a piece of source stands for, read from left to right: a backslash and a character
that has a meaning of its own stand for the character, and all else stands for itself, a backslash
before any other character included. -/
def unescape : List Char → List Char
  | '\\' :: c :: cs =>
    if c ∈ ['%', '$', '(', ')', ',', '\\'] then c :: unescape cs else '\\' :: c :: unescape cs
  | c :: cs => c :: unescape cs
  | [] => []

/-- A character that is no backslash is text as it stands. -/
theorem unescape_cons {c : Char} (hc : c ≠ '\\') (cs : List Char) :
    unescape (c :: cs) = c :: unescape cs := by
  rw [unescape]
  rintro d ds rfl
  exact absurd rfl hc

namespace Span

/-- The span covers the text `cs` of the source. -/
def Covers (source : String) (span : Span) (cs : List Char) : Prop :=
  ∃ before after, source.toList = before ++ cs ++ after ∧
    span = ⟨utf8Len before, utf8Len before + utf8Len cs⟩

/-- The span begins and ends between two characters of the source. -/
def OnBoundaries (source : String) (span : Span) : Prop :=
  String.Pos.Raw.IsValid source ⟨span.start⟩ ∧ String.Pos.Raw.IsValid source ⟨span.stop⟩

end Span

namespace Node

mutual

/-- The span of the node covers what the node stands for. -/
def Accounts (source : String) : Node → Prop
  | .literal text span => ∃ cs, cs ≠ [] ∧ span.Covers source cs ∧ unescape cs = text.toList
  | .field name span => span.Covers source ('%' :: (name.toList ++ ['%']))
  | .call name args span => ∃ regions,
      span.Covers source ('$' :: (name.toList ++ '(' :: ([','].intercalate regions ++ [')']))) ∧
        AccountsArgs source (span.start + (name.utf8ByteSize + 2)) args regions

/-- The nodes of a sequence cover the source from `pos` to `stop`, one after the other, and no two
literals are neighbours. -/
def AccountsSeq (source : String) (pos : Nat) : List Node → Nat → Prop
  | [], stop => pos = stop
  | n :: ns, stop => n.span.start = pos ∧ n.span.OnBoundaries source ∧ n.Accounts source ∧
      n.Apart ns ∧ AccountsSeq source n.span.stop ns stop

/-- The arguments of a call cover their regions, of which the first begins at `pos` and each other
one byte after the one before. -/
def AccountsArgs (source : String) (pos : Nat) : List (List Node) → List (List Char) → Prop
  | [], [] => True
  | a :: as, r :: rs => Span.Covers source ⟨pos, pos + utf8Len r⟩ r ∧ (r = [] ↔ a = []) ∧
      AccountsSeq source pos a (pos + utf8Len r) ∧ AccountsArgs source (pos + utf8Len r + 1) as rs
  | _, _ => False

end

end Node

namespace Span

variable {source : String} {span i j : Span} {cs ds before after : List Char}

/-- A text that stands somewhere is covered by the span of its place. -/
theorem covers_of_eq (h : source.toList = before ++ cs ++ after) :
    Covers source ⟨utf8Len before, utf8Len before + utf8Len cs⟩ cs :=
  ⟨before, after, h, rfl⟩

/-- A text in front of a position makes the position one between two characters. -/
theorem isValid_of_eq (h : source.toList = before ++ after) :
    String.Pos.Raw.IsValid source ⟨utf8Len before⟩ := by
  have hsource : source = .ofList before ++ .ofList after := by
    rw [← String.ofList_append, ← h, String.ofList_toList]
  have hend : (⟨utf8Len before⟩ : String.Pos.Raw) = (String.ofList before).rawEndPos :=
    (String.rawEndPos_ofList before).symm
  rw [hsource, hend]
  exact String.Pos.Raw.isValid_rawEndPos.append_right _

/-- A span that covers some text of a source lies on boundaries of its characters. -/
theorem Covers.onBoundaries (h : span.Covers source cs) : span.OnBoundaries source := by
  obtain ⟨before, after, hsource, rfl⟩ := h
  have hstart : source.toList = before ++ (cs ++ after) := by
    rw [hsource, List.append_assoc]
  refine ⟨isValid_of_eq hstart, ?_⟩
  rw [← String.utf8Len_append]
  exact isValid_of_eq hsource

/-- Beginnings of one text are equal if they are equally long. -/
theorem eq_of_utf8Len_eq {as bs cs ds : List Char} (h : as ++ cs = bs ++ ds)
    (hlen : utf8Len as = utf8Len bs) : as = bs := by
  rcases List.append_eq_append_iff.1 h with ⟨es, rfl, -⟩ | ⟨es, rfl, -⟩
  · rw [String.utf8Len_append] at hlen
    have hes : es = [] := String.utf8Len_eq_zero.1 (by omega)
    rw [hes, List.append_nil]
  · rw [String.utf8Len_append] at hlen
    have hes : es = [] := String.utf8Len_eq_zero.1 (by omega)
    rw [hes, List.append_nil]

/-- Spans that meet cover their texts one after the other. -/
theorem Covers.append (hi : i.Covers source cs) (hj : j.Covers source ds)
    (hmeet : j.start = i.stop) : Covers source ⟨i.start, j.stop⟩ (cs ++ ds) := by
  obtain ⟨before, after, hsource, rfl⟩ := hi
  obtain ⟨before', after', hsource', rfl⟩ := hj
  have hboth : before' ++ (ds ++ after') = before ++ cs ++ after := by
    rw [← List.append_assoc, ← hsource', hsource]
  have hbefore : before' = before ++ cs := by
    refine eq_of_utf8Len_eq hboth ?_
    rw [String.utf8Len_append]
    exact hmeet
  subst hbefore
  refine ⟨before, after', ?_, ?_⟩
  · rw [hsource', List.append_assoc before]
  · simp only [String.utf8Len_append, Nat.add_assoc]

end Span

namespace Node

variable {source : String}

/-! ## Nodes in front of a sequence -/

/-- A node that is no literal stands in front of a sequence that goes on where it ends. -/
theorem AccountsSeq.cons {n : Node} {ns : List Node} {stop : Nat} (hn : n.isLiteral = false)
    (hspan : n.span.OnBoundaries source) (haccounts : n.Accounts source)
    (hns : AccountsSeq source n.span.stop ns stop) :
    AccountsSeq source n.span.start (n :: ns) stop :=
  ⟨rfl, hspan, haccounts, by cases ns <;> simp [Apart, hn], hns⟩

/-- A literal in front of a sequence covers its own text, and with it that of a literal it meets.
The text must not end in a backslash that would join what follows. -/
theorem AccountsSeq.join_literal {s : String} {i : Span} {cs : List Char} {ns : List Node}
    {stop : Nat} (hcs : cs ≠ []) (hi : i.Covers source cs)
    (hs : ∀ ds, unescape (cs ++ ds) = s.toList ++ unescape ds)
    (hns : AccountsSeq source i.stop ns stop) :
    AccountsSeq source i.start (join (.literal s i) ns) stop := by
  have hself : unescape cs = s.toList := by
    have h := hs []
    rwa [List.append_nil, unescape, List.append_nil] at h
  have halone : Accounts source (.literal s i) := ⟨cs, hcs, hi, hself⟩
  rcases ns with _ | ⟨m, ns⟩
  · exact ⟨rfl, hi.onBoundaries, halone, trivial, hns⟩
  · cases m with
    | field | call => exact ⟨rfl, hi.onBoundaries, halone, .inr rfl, hns⟩
    | literal t j =>
      obtain ⟨hmeet, -, ⟨ds, -, hj, hds⟩, hapart, hrest⟩ := hns
      have hboth := hi.append hj hmeet
      have htext : unescape (cs ++ ds) = (s ++ t).toList := by
        rw [hs, hds, String.toList_append]
      refine ⟨rfl, hboth.onBoundaries, ⟨cs ++ ds, by simp [hcs], hboth, htext⟩, ?_, hrest⟩
      cases ns with
      | nil => trivial
      | cons k ks => exact .inr (hapart.resolve_left Bool.noConfusion)

end Node

/-! ## Trees of derivations -/

namespace Piece

variable {source : String}

/-- The source text of arguments has commas between them. -/
theorem charsArgs_eq_intercalate (args : List (List Piece)) :
    charsArgs args = [','].intercalate (args.map charsSeq) := by
  induction args with
  | nil => rfl
  | cons a as ih =>
    cases as with
    | nil => simp [charsArgs, List.intercalate]
    | cons b bs =>
      rw [charsArgs, ih]
      simp [List.intercalate]

/-- Only a sequence without pieces has no source text. -/
theorem charsSeq_eq_nil_iff (ps : List Piece) : charsSeq ps = [] ↔ ps = [] := by
  cases ps with
  | nil => simp [charsSeq]
  | cons p ps => cases p <;> simp [charsSeq, chars]

/-- The arguments of a piece that the language has are in the language. -/
theorem valid_of_mem_args {p : Piece} (hp : p.Valid) {a : List Piece} (ha : a ∈ p.args) :
    ValidSeq a := by
  cases p with
  | plain | escaped | field => cases ha
  | call name args => exact ((validArgs_iff args).1 hp.2.2 a ha).1

/-- A plain character stands for itself, whatever follows. -/
theorem unescape_plain {c : Char} (hc : (Piece.plain c).Valid) (ds : List Char) :
    unescape ([c] ++ ds) = (String.ofList [c]).toList ++ unescape ds := by
  rw [List.singleton_append, unescape_cons hc.2.2, String.toList_ofList, List.singleton_append]

/-- An escape stands for its text, whatever follows. -/
theorem unescape_escaped (c : Char) (ds : List Char) :
    unescape (['\\', c] ++ ds) = (escapedText c).toList ++ unescape ds := by
  have hspecial : c ∈ ['%', '$', '(', ')', ',', '\\'] ↔ Reader.isEscapable c = true := by
    simp [Reader.isEscapable, or_assoc]
  rw [List.cons_append, List.singleton_append, unescape, escapedText]
  by_cases hc : Reader.isEscapable c = true
  · rw [if_pos (hspecial.2 hc), if_pos hc, String.toList_ofList, List.singleton_append]
  · rw [if_neg (hspecial.not.2 hc), if_neg hc, String.toList_ofList, List.cons_append,
      List.singleton_append]

/-- Wherever in the source the text of the pieces stands, their tree accounts for it. -/
def AccountedFor (source : String) (ps : List Piece) : Prop :=
  ∀ {before after : List Char}, source.toList = before ++ charsSeq ps ++ after →
    Node.AccountsSeq source (utf8Len before) (nodes (utf8Len before) ps)
      (utf8Len before + sizeSeq ps)

/-- The arguments of a call account for their source text if each of them does. -/
theorem accountsArgs_nodesArgs {args : List (List Piece)}
    (hargs : ∀ a ∈ args, AccountedFor source a) {before after : List Char}
    (hsource : source.toList = before ++ charsArgs args ++ after) :
    Node.AccountsArgs source (utf8Len before) (nodesArgs (utf8Len before) args)
      (args.map charsSeq) := by
  induction args generalizing before with
  | nil => trivial
  | cons a as ih =>
    have hempty : charsSeq a = [] ↔ nodes (utf8Len before) a = [] := by
      rw [charsSeq_eq_nil_iff, nodes_eq_nil_iff]
    obtain ⟨after', hplace⟩ : ∃ after', source.toList = before ++ charsSeq a ++ after' := by
      cases as with
      | nil => exact ⟨after, hsource⟩
      | cons b bs => exact ⟨',' :: charsArgs (b :: bs) ++ after, by rw [hsource]; simp [charsArgs]⟩
    refine ⟨Span.covers_of_eq hplace, hempty, hargs a List.mem_cons_self hplace, ?_⟩
    cases as with
    | nil => trivial
    | cons b bs =>
      have hcomma : utf8Len [','] = 1 := rfl
      have hrest : source.toList =
          before ++ charsSeq a ++ [','] ++ charsArgs (b :: bs) ++ after := by
        rw [hsource]
        simp [charsArgs]
      have h := ih (fun c hc => hargs c (List.mem_cons_of_mem a hc)) hrest
      rw [String.utf8Len_append, String.utf8Len_append, hcomma] at h
      exact h

/-- The node of a piece accounts for the text of the piece, in front of nodes that account for what
follows. -/
theorem accountsSeq_join {p : Piece} (hp : p.Valid) (hargs : ∀ a ∈ p.args, AccountedFor source a)
    {before after : List Char} (hsource : source.toList = before ++ p.chars ++ after)
    {ns : List Node} {stop : Nat}
    (hns : Node.AccountsSeq source (utf8Len before + p.size) ns stop) :
    Node.AccountsSeq source (utf8Len before) ((p.node (utf8Len before)).join ns) stop := by
  have hcovers : Span.Covers source ⟨utf8Len before, utf8Len before + p.size⟩ p.chars :=
    Span.covers_of_eq hsource
  cases p with
  | plain c =>
    rw [size_plain] at hcovers hns
    exact .join_literal (List.cons_ne_nil _ _) hcovers (unescape_plain hp) hns
  | escaped c =>
    rw [size_escaped] at hcovers hns
    exact .join_literal (List.cons_ne_nil _ _) hcovers (unescape_escaped c) hns
  | field name =>
    rw [size_field] at hcovers hns
    exact .cons rfl hcovers.onBoundaries hcovers hns
  | call name args =>
    have hinner : source.toList =
        before ++ '$' :: (name.toList ++ ['(']) ++ charsArgs args ++ ([')'] ++ after) := by
      rw [hsource]
      simp [chars]
    have haccounts := accountsArgs_nodesArgs hargs hinner
    rw [String.utf8Len_append, utf8Len_callStart] at haccounts
    rw [chars, charsArgs_eq_intercalate] at hcovers
    exact .cons rfl hcovers.onBoundaries ⟨args.map charsSeq, hcovers, haccounts⟩ hns

/-- A tree that was read from a piece of the source accounts for it. -/
theorem accountsSeq_nodes {ps : List Piece} (hvalid : ValidSeq ps) : AccountedFor source ps := by
  induction ps using consInduction with
  | nil => exact fun _ => rfl
  | cons p ps hargs ih =>
    intro before after hsource
    have hplace : source.toList = before ++ p.chars ++ (charsSeq ps ++ after) := by
      rw [hsource]
      simp [charsSeq]
    have hrest : source.toList = before ++ p.chars ++ charsSeq ps ++ after := by
      rw [hplace, List.append_assoc _ (charsSeq ps)]
    have hns := ih hvalid.2 hrest
    rw [String.utf8Len_append, Nat.add_assoc] at hns
    rw [sizeSeq_cons]
    refine accountsSeq_join hvalid.1 (fun a ha => hargs a ha ?_) hplace hns
    exact valid_of_mem_args hvalid.1 ha

end Piece

/-- Spans account for every byte of the source. The spans of the nodes at the top level cover the
source from its beginning to its end, one after the other, and so on within each call; and every
span covers what its node stands for. -/
theorem compileWithin_accounts {limits : Reader.Limits} {source : String} {t : Template}
    (h : compileWithin limits source = .ok t) :
    Node.AccountsSeq source 0 t.toNodes source.utf8ByteSize ∧ (t.toNodes = [] ↔ source = "") := by
  obtain ⟨ps, hps, rfl⟩ := (compileWithin_eq_ok_iff limits source t).1 h
  rw [Template.toNodes_ofNodes]
  have hsource : source.toList = [] ++ Piece.charsSeq ps ++ [] := by
    rw [hps.chars, List.nil_append, List.append_nil]
  have haccounts := Piece.accountsSeq_nodes hps.valid hsource
  rw [String.utf8Len_nil, Nat.zero_add, hps.sizeSeq_eq] at haccounts
  refine ⟨haccounts, ?_⟩
  rw [Piece.nodes_eq_nil_iff, ← Piece.charsSeq_eq_nil_iff, hps.chars, String.toList_eq_nil_iff]

/-- A character of two bytes, two escapes, a call and a group. -/
theorem compileWithin_accounts_escaped :
    ∃ t, compileWithin { maxDepth := 1 } "é\\%$f(a\\b,(%x%))" = .ok t ∧
      t.toNodes =
        [.literal "é%" ⟨0, 4⟩,
          .call "f" [[.literal "a\\b" ⟨7, 10⟩],
            [.literal "(" ⟨11, 12⟩, .field "x" ⟨12, 15⟩, .literal ")" ⟨15, 16⟩]] ⟨4, 17⟩] ∧
      Node.AccountsSeq "é\\%$f(a\\b,(%x%))" 0 t.toNodes 17 := by
  have ht := (compileWithin_eq_ok_iff { maxDepth := 1 } "é\\%$f(a\\b,(%x%))" _).2
    ⟨[.plain 'é', .escaped '%',
        .call "f" [[.plain 'a', .escaped 'b'], [.plain '(', .field "x", .plain ')']]],
      ⟨⟨by decide, by decide⟩, by decide, ⟨by decide, by decide, by decide⟩⟩, rfl⟩
  obtain ⟨haccounts, -⟩ := compileWithin_accounts ht
  refine ⟨_, ht, ?_, haccounts⟩
  rw [Template.toNodes_ofNodes]
  rfl

end TagTemplate
