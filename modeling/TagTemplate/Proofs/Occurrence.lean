import TagTemplate.Proofs.Coverage

/-!
# Nodes inside a tree

`Node.Occurs` says where in a tree a node stands: how many calls are around it. A field or a call of
the tree of a derivation is the node of one of its pieces, and the piece tells the place in the
source and the depth that is left there (`Piece.of_occurs`). So a node begins after every call
around it (`Piece.start_lt_of_encloses`).
-/

namespace TagTemplate

open String (utf8Len)

namespace Node

/-- The node stands in the sequence, or in an argument of a call of it and so on, inside `around`
calls. -/
inductive Occurs (n : Node) : Nat → List Node → Prop
  | here {ns : List Node} (h : n ∈ ns) : Occurs n 0 ns
  | inside {around : Nat} {name : String} {args : List (List Node)} {span : Span} {a ns : List Node}
      (hcall : .call name args span ∈ ns) (ha : a ∈ args) (h : Occurs n around a) :
      Occurs n (around + 1) ns

/-- The node stands in an argument of the call, at whatever depth. -/
def Encloses (args : List (List Node)) (n : Node) : Prop :=
  ∃ a ∈ args, ∃ around, Occurs n around a

variable {n m : Node} {ns : List Node} {around : Nat}

/-- What stands in a sequence stands there with one more node in front of it. -/
theorem Occurs.cons (h : Occurs n around ns) : Occurs n around (m :: ns) := by
  cases h with
  | here h => exact .here (List.mem_cons_of_mem m h)
  | inside hcall ha h => exact .inside (List.mem_cons_of_mem m hcall) ha h

/-- Joining a node changes no node but literals. -/
theorem mem_of_mem_join (hn : n.isLiteral = false) (h : n ∈ join m ns) : n = m ∨ n ∈ ns := by
  have hliteral : ∀ {s : String} {i : Span}, n ≠ .literal s i := by
    rintro s i rfl
    cases hn
  cases m with
  | field | call => exact List.mem_cons.1 h
  | literal s i =>
    rcases ns with _ | ⟨k, ns⟩
    · exact List.mem_cons.1 h
    · cases k with
      | field | call => exact List.mem_cons.1 h
      | literal t j =>
        rcases List.mem_cons.1 h with h | h
        · exact absurd h hliteral
        · exact .inr (List.mem_cons_of_mem _ h)

end Node

namespace Piece

/-! ## Nodes of derivations -/

variable {n : Node} {pos around : Nat} {ps : List Piece} {args : List (List Piece)}

/-- A field or a call in the tree of a sequence is the node of a piece. -/
theorem of_mem_nodes (hn : n.isLiteral = false) (h : n ∈ nodes pos ps) :
    ∃ before p after, ps = before ++ p :: after ∧ n = p.node (pos + sizeSeq before) := by
  induction ps generalizing pos with
  | nil => cases h
  | cons p ps ih =>
    rcases Node.mem_of_mem_join hn h with rfl | h
    · exact ⟨[], p, ps, rfl, rfl⟩
    · obtain ⟨before, q, after, rfl, rfl⟩ := ih h
      refine ⟨p :: before, q, after, rfl, ?_⟩
      rw [sizeSeq_cons, Nat.add_assoc]

/-- A tree among those of arguments is the tree of one of them. -/
theorem of_mem_nodesArgs {a : List Node} (h : a ∈ nodesArgs pos args) :
    ∃ before b after, args = before ++ b :: after ∧
      a = nodes (pos + utf8Len (charsEach before)) b := by
  induction args generalizing pos with
  | nil => cases h
  | cons b bs ih =>
    rcases List.mem_cons.1 h with rfl | h
    · exact ⟨[], b, bs, rfl, rfl⟩
    · obtain ⟨before, c, after, rfl, rfl⟩ := ih h
      refine ⟨b :: before, c, after, rfl, ?_⟩
      have hcomma : (',' : Char).utf8Size = 1 := rfl
      congr 1
      simp [charsEach, sizeSeq, hcomma]
      omega

/-- The text of an argument stands between the arguments before and those after it. -/
theorem charsArgs_append_cons (before : List (List Piece)) (a : List Piece)
    (after : List (List Piece)) :
    ∃ rest, charsArgs (before ++ a :: after) = charsEach before ++ charsSeq a ++ rest := by
  induction before with
  | nil =>
    cases after with
    | nil => exact ⟨[], (List.append_nil _).symm⟩
    | cons b bs => exact ⟨',' :: charsArgs (b :: bs), rfl⟩
  | cons c cs ih =>
    obtain ⟨rest, hrest⟩ := ih
    refine ⟨rest, ?_⟩
    obtain ⟨b, bs, hbs⟩ : ∃ b bs, cs ++ a :: after = b :: bs := by
      cases cs <;> exact ⟨_, _, rfl⟩
    rw [List.cons_append, hbs, charsArgs, ← hbs, hrest]
    simp [charsEach]

/-- An argument is no deeper than all arguments together. -/
theorem depthSeq_le_depthArgs {a : List Piece} (ha : a ∈ args) : depthSeq a ≤ depthArgs args := by
  induction args with
  | nil => cases ha
  | cons b bs ih =>
    rw [depthArgs]
    rcases List.mem_cons.1 ha with rfl | ha
    · exact Nat.le_max_left _ _
    · exact Nat.le_trans (ih ha) (Nat.le_max_right _ _)

/-- The piece stands in the source text of the pieces `ps`, after the text `before` and inside
`around` calls. -/
structure StandsIn (ps : List Piece) (p : Piece) (before : List Char) (around : Nat) : Prop where
  valid : p.Valid
  chars_eq : ∃ after, charsSeq ps = before ++ p.chars ++ after
  depth : around + p.depth ≤ depthSeq ps

/-- A piece of a sequence stands in its source text. -/
theorem standsIn_append_cons {before after : List Piece} {p : Piece}
    (h : ValidSeq (before ++ p :: after)) :
    StandsIn (before ++ p :: after) p (charsSeq before) 0 := by
  refine ⟨((validSeq_append _ _).1 h).2.1, ⟨charsSeq after, ?_⟩, ?_⟩
  · rw [charsSeq_append, charsSeq, List.append_assoc]
  · rw [depthSeq_append, depthSeq, Nat.zero_add]
    exact Nat.le_trans (Nat.le_max_left _ _) (Nat.le_max_right _ _)

/-- What stands in an argument of a call stands in the source text of the call, one call further
inside. -/
theorem StandsIn.call {name : String} {before after : List (List Piece)} {a : List Piece}
    {p : Piece} {start cs : List Char}
    (hcall : StandsIn ps (.call name (before ++ a :: after)) start 0)
    (h : StandsIn a p cs around) :
    StandsIn ps p (start ++ '$' :: (name.toList ++ ['(']) ++ charsEach before ++ cs)
      (around + 1) := by
  obtain ⟨rest, hrest⟩ := hcall.chars_eq
  obtain ⟨tail, htail⟩ := charsArgs_append_cons before a after
  obtain ⟨inner, hinner⟩ := h.chars_eq
  have hdepth := hcall.depth
  have hdeep := h.depth
  have harg : depthSeq a ≤ depthArgs (before ++ a :: after) :=
    depthSeq_le_depthArgs (List.mem_append_right _ List.mem_cons_self)
  rw [Piece.depth] at hdepth
  refine ⟨h.valid, ⟨inner ++ tail ++ ')' :: rest, ?_⟩, by omega⟩
  rw [hrest, chars, htail, hinner]
  simp

/-- A field or a call in the tree of a derivation is the node of a piece of it. -/
theorem of_occurs (hn : n.isLiteral = false) (hvalid : ValidSeq ps)
    (h : Node.Occurs n around (nodes pos ps)) :
    ∃ p before, StandsIn ps p before around ∧ n = p.node (pos + utf8Len before) := by
  generalize hns : nodes pos ps = ns at h
  induction h generalizing pos ps with
  | here h =>
    subst hns
    obtain ⟨before, p, after, rfl, rfl⟩ := of_mem_nodes hn h
    exact ⟨p, _, standsIn_append_cons hvalid, rfl⟩
  | @inside around name args span a ns hcall ha _ ih =>
    subst hns
    obtain ⟨before, p, after, rfl, hp⟩ := of_mem_nodes (n := .call name args span) rfl hcall
    have hstands := standsIn_append_cons hvalid
    cases p with
    | plain | escaped | field => cases hp
    | call name' as =>
      obtain ⟨rfl, rfl, rfl⟩ := Node.call.inj hp
      obtain ⟨done, b, rest, rfl, rfl⟩ := of_mem_nodesArgs ha
      have hb : ValidSeq b :=
        valid_of_mem_args hstands.valid (List.mem_append_right _ List.mem_cons_self)
      obtain ⟨q, start, hq, rfl⟩ := ih hb rfl
      refine ⟨q, _, hstands.call hq, ?_⟩
      rw [String.utf8Len_append, String.utf8Len_append, String.utf8Len_append, utf8Len_callStart,
        ← sizeSeq]
      simp only [Nat.add_assoc]

/-- The node of a piece begins where the piece does. -/
theorem span_start_node (p : Piece) (pos : Nat) : (p.node pos).span.start = pos := by
  cases p <;> rfl

/-- What a call encloses begins after it. -/
theorem start_lt_of_encloses {name : String} {args : List (List Node)} {span : Span}
    (hvalid : ValidSeq ps) (hcall : Node.Occurs (.call name args span) around (nodes pos ps))
    (h : Node.Encloses args n) (hn : n.isLiteral = false) : span.start < n.span.start := by
  obtain ⟨p, before, hp, hnode⟩ := of_occurs rfl hvalid hcall
  cases p with
  | plain | escaped | field => cases hnode
  | call name' as =>
    obtain ⟨rfl, rfl, rfl⟩ := Node.call.inj hnode
    obtain ⟨a, ha, inside, hinside⟩ := h
    obtain ⟨done, b, rest, rfl, rfl⟩ := of_mem_nodesArgs ha
    have hb : ValidSeq b :=
      valid_of_mem_args hp.valid (List.mem_append_right _ List.mem_cons_self)
    obtain ⟨q, start, -, rfl⟩ := of_occurs hn hb hinside
    rw [span_start_node]
    dsimp only
    omega

end Piece

end TagTemplate
