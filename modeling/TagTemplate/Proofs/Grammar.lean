import Mathlib.Data.String.Basic
import TagTemplate.Proofs.Tree

/-!
# The grammar of templates

The template language, stated without a reader. A source text is a sequence of pieces: plain
characters, escapes, field references, and calls whose arguments are sequences again. `Piece.chars`
is the source text of a piece; `Piece.Valid` holds of the pieces the language has. Which plain
characters may stand in an argument depends on the parentheses open before them, which
`Piece.groupsSeq` counts.

A valid sequence of pieces is a derivation of its source text (`Piece.Spells`). The tree it stands
for is `Piece.nodes`: every piece is a node with the span of its source text, and literals that meet
are one.
-/

namespace TagTemplate

open String (utf8Len)

/-- The names of fields and functions: one or more letters, digits and underscores. -/
def IsName (name : String) : Prop :=
  name ≠ "" ∧ ∀ c ∈ name.toList, Reader.isNameChar c = true

/-- Whether a text is a name is computed on its characters. -/
instance (name : String) : Decidable (IsName name) :=
  have := List.decidableBAll (fun c => Reader.isNameChar c = true) name.toList
  inferInstanceAs (Decidable (_ ∧ _))

/-- A piece of source text. -/
inductive Piece
  /-- A character that stands for itself. -/
  | plain (c : Char)
  /-- A backslash and a character. -/
  | escaped (c : Char)
  /-- A name between two percent signs. -/
  | field (name : String)
  /-- A dollar sign, a name, and arguments in parentheses, separated by commas. -/
  | call (name : String) (args : List (List Piece))

namespace Piece

/-- Induction over a sequence of pieces, through the arguments of its calls. -/
theorem seqInduction {P : List Piece → Prop} (nil : P [])
    (plain : ∀ c ps, P ps → P (.plain c :: ps))
    (escaped : ∀ c ps, P ps → P (.escaped c :: ps))
    (field : ∀ name ps, P ps → P (.field name :: ps))
    (call : ∀ name args ps, (∀ a ∈ args, P a) → P ps → P (.call name args :: ps)) :
    ∀ ps, P ps := by
  intro ps
  refine Piece.rec_2 (motive_1 := fun p => ∀ ps, P ps → P (p :: ps))
    (motive_2 := fun args => ∀ a ∈ args, P a) (motive_3 := P)
    plain escaped field (fun name args ih ps => call name args ps ih) ?_ ?_ nil ?_ ps
  · intro a ha
    cases ha
  · intro a as iha ihas b hb
    rcases List.mem_cons.1 hb with rfl | hb
    · exact iha
    · exact ihas b hb
  · intro p ps ihp ihps
    exact ihp ps ihps

/-- The arguments of a call. Other pieces have none. -/
def args : Piece → List (List Piece)
  | .plain _ | .escaped _ | .field _ => []
  | .call _ args => args

/-- Induction over a sequence of pieces, through the arguments of each, for statements that treat
all pieces alike. -/
theorem consInduction {P : List Piece → Prop} (nil : P [])
    (cons : ∀ p ps, (∀ a ∈ args p, P a) → P ps → P (p :: ps)) : ∀ ps, P ps := by
  intro ps
  induction ps using seqInduction with
  | nil => exact nil
  | plain c ps ih => exact cons (.plain c) ps (List.forall_mem_nil _) ih
  | escaped c ps ih => exact cons (.escaped c) ps (List.forall_mem_nil _) ih
  | field name ps ih => exact cons (.field name) ps (List.forall_mem_nil _) ih
  | call name args ps iha ih => exact cons (.call name args) ps iha ih

/-! ## Source texts -/

mutual

/-- The source text of a piece. -/
def chars : Piece → List Char
  | .plain c => [c]
  | .escaped c => ['\\', c]
  | .field name => '%' :: (name.toList ++ ['%'])
  | .call name args => '$' :: (name.toList ++ '(' :: (charsArgs args ++ [')']))

/-- The source text of a sequence. -/
def charsSeq : List Piece → List Char
  | [] => []
  | p :: ps => p.chars ++ charsSeq ps

/-- The source text of the arguments of a call, with a comma between each two. -/
def charsArgs : List (List Piece) → List Char
  | [] => []
  | [a] => charsSeq a
  | a :: b :: as => charsSeq a ++ ',' :: charsArgs (b :: as)

end

/-- The source text of two sequences is the one text after the other. -/
theorem charsSeq_append (ps qs : List Piece) :
    charsSeq (ps ++ qs) = charsSeq ps ++ charsSeq qs := by
  induction ps with
  | nil => rfl
  | cons p ps ih => rw [List.cons_append, charsSeq, ih, charsSeq, List.append_assoc]

/-- A piece more at the end of a sequence is its text more at the end. -/
theorem charsSeq_append_singleton (ps : List Piece) (p : Piece) :
    charsSeq (ps ++ [p]) = charsSeq ps ++ p.chars := by
  rw [charsSeq_append, charsSeq, charsSeq, List.append_nil]

/-- The source text of complete arguments, each with the comma that ends it. -/
def charsEach (args : List (List Piece)) : List Char :=
  args.flatMap fun a => charsSeq a ++ [',']

/-- An argument more is its text more at the end, and its comma. -/
theorem charsEach_append_singleton (args : List (List Piece)) (a : List Piece) :
    charsEach (args ++ [a]) = charsEach args ++ (charsSeq a ++ [',']) := by
  simp [charsEach]

/-- All arguments but the last end with a comma. -/
theorem charsArgs_append_singleton (args : List (List Piece)) (a : List Piece) :
    charsArgs (args ++ [a]) = charsEach args ++ charsSeq a := by
  induction args with
  | nil => rfl
  | cons b as ih =>
    cases as with
    | nil => simp [charsArgs, charsEach]
    | cons c as =>
      rw [List.cons_append, List.cons_append, charsArgs, ← List.cons_append, ih]
      simp [charsEach]

/-- The number of bytes of a call up to its first argument. -/
theorem utf8Len_callStart (name : String) :
    utf8Len ('$' :: (name.toList ++ ['('])) = name.utf8ByteSize + 2 := by
  have hdollar : ('$' : Char).utf8Size = 1 := rfl
  have hparen : ('(' : Char).utf8Size = 1 := rfl
  simp [hdollar, hparen]

/-- The number of bytes of a piece. -/
def size (p : Piece) : Nat :=
  utf8Len p.chars

/-- The number of bytes of a sequence. -/
def sizeSeq (ps : List Piece) : Nat :=
  utf8Len (charsSeq ps)

/-- No pieces have no bytes. -/
@[simp] theorem sizeSeq_nil : sizeSeq [] = 0 := rfl

/-- A sequence has the bytes of its first piece and of the rest. -/
@[simp] theorem sizeSeq_cons (p : Piece) (ps : List Piece) :
    sizeSeq (p :: ps) = p.size + sizeSeq ps := by
  rw [sizeSeq, charsSeq, String.utf8Len_append, size, sizeSeq]

/-- A sequence has the bytes of its parts. -/
@[simp] theorem sizeSeq_append (ps qs : List Piece) :
    sizeSeq (ps ++ qs) = sizeSeq ps + sizeSeq qs := by
  rw [sizeSeq, charsSeq_append, String.utf8Len_append, sizeSeq, sizeSeq]

/-- The number of bytes of a text that ends with a sequence. -/
theorem utf8Len_append_charsSeq (cs : List Char) (ps : List Piece) :
    utf8Len (cs ++ charsSeq ps) = utf8Len cs + sizeSeq ps := by
  rw [String.utf8Len_append, sizeSeq]

/-! ## The pieces of the language -/

/-- The parentheses open after a piece of an argument, where `g` are open before it. A comma or a
closing parenthesis outside all of them is no part of an argument. -/
def groups : Nat → Piece → Option Nat
  | g, .plain '(' => some (g + 1)
  | 0, .plain ')' => none
  | g + 1, .plain ')' => some g
  | 0, .plain ',' => none
  | g, _ => some g

/-- The groups after a character of an argument, case by case. -/
theorem groups_plain (g : Nat) (c : Char) :
    groups g (.plain c) =
      if (c = ',' ∨ c = ')') ∧ g = 0 then none
      else some (if c = '(' then g + 1 else if c = ')' then g - 1 else g) := by
  by_cases hopen : c = '('
  · subst hopen
    cases g <;> simp [groups]
  by_cases hclose : c = ')'
  · subst hclose
    cases g <;> simp [groups]
  by_cases hcomma : c = ','
  · subst hcomma
    cases g <;> simp [groups]
  · cases g <;> simp [groups, hopen, hclose, hcomma]

/-- An escaped character opens and closes no group, even if it is a parenthesis. -/
@[simp] theorem groups_escaped (g : Nat) (c : Char) : groups g (.escaped c) = some g := by
  cases g <;> rfl

/-- A field opens and closes no group. -/
@[simp] theorem groups_field (g : Nat) (name : String) : groups g (.field name) = some g := by
  cases g <;> rfl

/-- A call opens and closes no group: its parentheses are its own. -/
@[simp] theorem groups_call (g : Nat) (name : String) (args : List (List Piece)) :
    groups g (.call name args) = some g := by
  cases g <;> rfl

/-- The parentheses open after a sequence that is part of an argument. -/
def groupsSeq (g : Nat) (ps : List Piece) : Option Nat :=
  ps.foldlM groups g

/-- Every parenthesis is closed that is opened, and opened that is closed, and commas stand only
between. -/
def Balanced (ps : List Piece) : Prop :=
  groupsSeq 0 ps = some 0

mutual

/-- Does the language have the piece? A call without arguments has none, not a single empty one. -/
def Valid : Piece → Prop
  | .plain c => c ≠ '%' ∧ c ≠ '$' ∧ c ≠ '\\'
  | .escaped _ => True
  | .field name => IsName name
  | .call name args => IsName name ∧ args ≠ [[]] ∧ ValidArgs args

/-- `Valid` over a sequence: the derivations of the language at the top level. -/
def ValidSeq : List Piece → Prop
  | [] => True
  | p :: ps => p.Valid ∧ ValidSeq ps

/-- `Valid` over the arguments of a call, each of which is balanced. -/
def ValidArgs : List (List Piece) → Prop
  | [] => True
  | a :: as => (ValidSeq a ∧ Balanced a) ∧ ValidArgs as

end

/-- Whether the arguments are a single empty one is seen from the list. -/
instance (args : List (List Piece)) : Decidable (args = [[]]) :=
  match args with
  | [] => isFalse fun h => nomatch h
  | [[]] => isTrue rfl
  | [_ :: _] => isFalse fun h => nomatch h
  | _ :: _ :: _ => isFalse fun h => nomatch h

/-- Whether a sequence is balanced is computed from its groups. -/
instance (ps : List Piece) : Decidable (Balanced ps) :=
  inferInstanceAs (Decidable (groupsSeq 0 ps = some 0))

mutual

/-- Whether the language has a piece can be computed. -/
def decidableValid : (p : Piece) → Decidable p.Valid
  | .plain c => inferInstanceAs (Decidable (c ≠ '%' ∧ c ≠ '$' ∧ c ≠ '\\'))
  | .escaped _ => isTrue trivial
  | .field name => inferInstanceAs (Decidable (IsName name))
  | .call name args =>
    have := decidableValidArgs args
    inferInstanceAs (Decidable (IsName name ∧ args ≠ [[]] ∧ ValidArgs args))

/-- `decidableValid` over a sequence. -/
def decidableValidSeq : (ps : List Piece) → Decidable (ValidSeq ps)
  | [] => isTrue trivial
  | p :: ps =>
    have := decidableValid p
    have := decidableValidSeq ps
    inferInstanceAs (Decidable (p.Valid ∧ ValidSeq ps))

/-- `decidableValid` over the arguments of a call. -/
def decidableValidArgs : (args : List (List Piece)) → Decidable (ValidArgs args)
  | [] => isTrue trivial
  | a :: as =>
    have := decidableValidSeq a
    have := decidableValidArgs as
    inferInstanceAs (Decidable ((ValidSeq a ∧ Balanced a) ∧ ValidArgs as))

end

/-- Whether the language has a sequence can be computed. -/
instance (ps : List Piece) : Decidable (ValidSeq ps) :=
  decidableValidSeq ps

/-- `ValidSeq` in the natural per-element form. -/
theorem validSeq_iff (ps : List Piece) : ValidSeq ps ↔ ∀ p ∈ ps, p.Valid := by
  induction ps with
  | nil => simp [ValidSeq]
  | cons p ps ih => simp [ValidSeq, ih]

/-- `ValidArgs` in the natural per-element form. -/
theorem validArgs_iff (args : List (List Piece)) :
    ValidArgs args ↔ ∀ a ∈ args, ValidSeq a ∧ Balanced a := by
  induction args with
  | nil => simp [ValidArgs]
  | cons a as ih => simp [ValidArgs, ih]

/-- The arguments with one more are those of a call if the others are and the last is balanced. -/
theorem validArgs_append_singleton (args : List (List Piece)) (a : List Piece) :
    ValidArgs (args ++ [a]) ↔ ValidArgs args ∧ ValidSeq a ∧ Balanced a := by
  simp only [validArgs_iff, List.forall_mem_append, List.forall_mem_singleton]

/-- The language has a sequence exactly if it has both parts. -/
theorem validSeq_append (ps qs : List Piece) :
    ValidSeq (ps ++ qs) ↔ ValidSeq ps ∧ ValidSeq qs := by
  simp only [validSeq_iff, List.forall_mem_append]

/-- The pieces are a derivation of the source text. -/
structure Spells (ps : List Piece) (source : String) : Prop where
  valid : ValidSeq ps
  chars : charsSeq ps = source.toList

/-- A derivation has as many bytes as its source text. -/
theorem Spells.sizeSeq_eq {ps : List Piece} {source : String} (h : Spells ps source) :
    sizeSeq ps = source.utf8ByteSize := by
  rw [sizeSeq, h.chars, String.utf8Len_toList]

/-- The groups of a sequence are counted through the one part and on through the other. -/
theorem groupsSeq_append (g : Nat) (ps qs : List Piece) :
    groupsSeq g (ps ++ qs) = (groupsSeq g ps).bind (groupsSeq · qs) :=
  List.foldlM_append ..

/-- One piece leaves as many groups open as it does in a sequence of its own. -/
theorem groupsSeq_singleton (g : Nat) (p : Piece) : groupsSeq g [p] = p.groups g := by
  simp [groupsSeq]

mutual

/-- The greatest number of calls around each other in a piece. -/
def depth : Piece → Nat
  | .plain _ | .escaped _ | .field _ => 0
  | .call _ args => depthArgs args + 1

/-- `depth` over a sequence. -/
def depthSeq : List Piece → Nat
  | [] => 0
  | p :: ps => max p.depth (depthSeq ps)

/-- `depth` over the arguments of a call. -/
def depthArgs : List (List Piece) → Nat
  | [] => 0
  | a :: as => max (depthSeq a) (depthArgs as)

end

/-- One more argument is no deeper than the others, or as deep as it is itself. -/
theorem depthArgs_append_singleton (args : List (List Piece)) (a : List Piece) :
    depthArgs (args ++ [a]) = max (depthArgs args) (depthSeq a) := by
  induction args with
  | nil => simp [depthArgs]
  | cons b as ih => rw [List.cons_append, depthArgs, ih, depthArgs, Nat.max_assoc]

/-- A sequence is as deep as the deeper part. -/
theorem depthSeq_append (ps qs : List Piece) :
    depthSeq (ps ++ qs) = max (depthSeq ps) (depthSeq qs) := by
  induction ps with
  | nil => simp [depthSeq]
  | cons p ps ih => rw [List.cons_append, depthSeq, ih, depthSeq, Nat.max_assoc]

/-! ## Trees -/

/-- The text that an escape stands for. The backslash stays if the character needs none. -/
def escapedText (c : Char) : String :=
  if Reader.isEscapable c then .ofList [c] else .ofList ['\\', c]

mutual

/-- The node of a piece whose source text begins at `pos`. -/
def node (pos : Nat) : Piece → Node
  | .plain c => .literal (.ofList [c]) ⟨pos, pos + c.utf8Size⟩
  | .escaped c => .literal (escapedText c) ⟨pos, pos + (1 + c.utf8Size)⟩
  | .field name => .field name ⟨pos, pos + (name.utf8ByteSize + 2)⟩
  | .call name args =>
    .call name (nodesArgs (pos + (name.utf8ByteSize + 2)) args)
      ⟨pos, pos + (Piece.call name args).size⟩

/-- The tree of a sequence whose source text begins at `pos`. -/
def nodes (pos : Nat) : List Piece → List Node
  | [] => []
  | p :: ps => (p.node pos).join (nodes (pos + p.size) ps)

/-- The trees of the arguments of a call, the first of which begins at `pos`. -/
def nodesArgs (pos : Nat) : List (List Piece) → List (List Node)
  | [] => []
  | a :: as => nodes pos a :: nodesArgs (pos + (sizeSeq a + 1)) as

end

/-- The tree of a sequence is that of the one part joined to that of the other, which begins where
the first ends. -/
theorem nodes_append (pos : Nat) (ps qs : List Piece) :
    nodes pos (ps ++ qs) = Node.joinSeq (nodes pos ps) (nodes (pos + sizeSeq ps) qs) := by
  induction ps generalizing pos with
  | nil => rfl
  | cons p ps ih =>
    rw [List.cons_append, nodes, ih, nodes, Node.joinSeq_join, sizeSeq_cons, Nat.add_assoc]

/-- The literals of a tree do not meet. -/
theorem joinSeq_nodes_nil (pos : Nat) (ps : List Piece) :
    Node.joinSeq (nodes pos ps) [] = nodes pos ps := by
  have h := nodes_append pos ps []
  rw [List.append_nil] at h
  exact h.symm

/-- A node that is no literal follows a tree as it is. -/
theorem joinSeq_nodes_cons {n : Node} (hn : n.isLiteral = false) (pos : Nat) (ps : List Piece)
    (ns : List Node) : Node.joinSeq (nodes pos ps) (n :: ns) = nodes pos ps ++ n :: ns := by
  induction ps generalizing pos with
  | nil => rfl
  | cons p ps ih => rw [nodes, Node.joinSeq_join, ih, Node.join_append_cons hn]

/-- The tree of one piece is its node. -/
theorem nodes_singleton (pos : Nat) (p : Piece) : nodes pos [p] = [p.node pos] := by
  rw [nodes, nodes, Node.join_nil]

/-- Every piece adds a node, or a character to one, so only no pieces have no nodes. -/
theorem nodes_eq_nil_iff (pos : Nat) (ps : List Piece) : nodes pos ps = [] ↔ ps = [] := by
  cases ps with
  | nil => simp [nodes]
  | cons p ps => simp [nodes, Node.join_ne_nil]

/-- The tree has as many arguments as the source text. -/
theorem length_nodesArgs (pos : Nat) (args : List (List Piece)) :
    (nodesArgs pos args).length = args.length := by
  induction args generalizing pos with
  | nil => rfl
  | cons a as ih => rw [nodesArgs, List.length_cons, ih, List.length_cons]

/-- The trees of more arguments begin behind the commas of those before. -/
theorem nodesArgs_append (pos : Nat) (as bs : List (List Piece)) :
    nodesArgs pos (as ++ bs) = nodesArgs pos as ++ nodesArgs (pos + utf8Len (charsEach as)) bs := by
  induction as generalizing pos with
  | nil => rfl
  | cons a as ih =>
    have hcomma : (',' : Char).utf8Size = 1 := rfl
    have hpos : pos + (sizeSeq a + 1) + utf8Len (charsEach as) =
        pos + utf8Len (charsEach (a :: as)) := by
      simp [charsEach, sizeSeq, hcomma]
      omega
    rw [List.cons_append, nodesArgs, ih, nodesArgs, List.cons_append, hpos]

/-- The calls of a derivation are the calls of its tree. -/
theorem depthSeq_nodes (pos : Nat) (ps : List Piece) :
    Node.depthSeq (nodes pos ps) = depthSeq ps := by
  induction ps using seqInduction generalizing pos with
  | nil => rfl
  | plain c ps ih | escaped c ps ih | field name ps ih =>
    rw [nodes, Node.depthSeq_join, ih, depthSeq]
    rfl
  | call name args ps iha ih =>
    have hargs : ∀ pos, Node.depthArgs (nodesArgs pos args) = depthArgs args := by
      clear ih
      induction args with
      | nil => exact fun _ => rfl
      | cons a as ihas =>
        intro pos
        rw [nodesArgs, Node.depthArgs, iha a List.mem_cons_self, depthArgs,
          ihas fun b hb => iha b (List.mem_cons_of_mem a hb)]
    rw [nodes, Node.depthSeq_join, ih, depthSeq, node, Node.depth, hargs, depth]

/-! ## Sizes -/

/-- A plain character has its own bytes. -/
@[simp] theorem size_plain (c : Char) : (Piece.plain c).size = c.utf8Size := by
  simp [size, chars]

/-- An escape has the byte of the backslash and those of the character. -/
@[simp] theorem size_escaped (c : Char) : (Piece.escaped c).size = 1 + c.utf8Size := by
  have h : ('\\' : Char).utf8Size = 1 := rfl
  simp [size, chars, h]
  omega

/-- A field has the bytes of its name and the two percent signs. -/
@[simp] theorem size_field (name : String) :
    (Piece.field name).size = name.utf8ByteSize + 2 := by
  have h : ('%' : Char).utf8Size = 1 := rfl
  simp [size, chars, h]

/-- A call has the bytes of its name and arguments, the dollar sign and the two parentheses. -/
theorem size_call (name : String) (args : List (List Piece)) :
    (Piece.call name args).size = name.utf8ByteSize + utf8Len (charsArgs args) + 3 := by
  have h₁ : ('$' : Char).utf8Size = 1 := rfl
  have h₂ : ('(' : Char).utf8Size = 1 := rfl
  have h₃ : (')' : Char).utf8Size = 1 := rfl
  simp [size, chars, h₁, h₂, h₃]
  omega

/-- The text of an escape is no longer than its source text. -/
theorem utf8ByteSize_escapedText_le (c : Char) :
    (escapedText c).utf8ByteSize ≤ 1 + c.utf8Size := by
  have h : ('\\' : Char).utf8Size = 1 := rfl
  unfold escapedText
  split
  · rw [String.utf8ByteSize_ofList, String.utf8Len_cons, String.utf8Len_nil]
    omega
  · rw [String.utf8ByteSize_ofList, String.utf8Len_cons, String.utf8Len_cons,
      String.utf8Len_nil, h]
    omega

/-- What the arguments of a call take up, their own places included, if each takes up no more than
its source text has bytes. -/
theorem usageArgs_nodesArgs_within {args : List (List Piece)}
    (h : ∀ a ∈ args, ∀ pos, (Node.usageRoot (nodes pos a)).Within (sizeSeq a)) (pos : Nat) :
    (Node.usageArgs (nodesArgs pos args) + { args := args.length }).Within
      (utf8Len (charsArgs args) + 1) := by
  induction args generalizing pos with
  | nil => exact ⟨Nat.zero_le _, Nat.zero_le _, Nat.zero_le _⟩
  | cons a as ih =>
    have ha := h a List.mem_cons_self pos
    have ih := ih (fun b hb => h b (List.mem_cons_of_mem a hb)) (pos + (sizeSeq a + 1))
    have hone : ({ args := 1 } : Reader.Usage).Within 1 :=
      ⟨Nat.zero_le _, Nat.zero_le _, Nat.le_refl _⟩
    cases as with
    | nil => exact ha.add hone
    | cons b as =>
      have hcomma : (',' : Char).utf8Size = 1 := rfl
      have hsize : utf8Len (charsArgs (a :: b :: as)) + 1 =
          sizeSeq a + (utf8Len (charsArgs (b :: as)) + 1) + 1 := by
        simp [charsArgs, sizeSeq, hcomma]
      rw [hsize]
      have husage : Node.usageArgs (nodesArgs pos (a :: b :: as)) +
            { args := (a :: b :: as).length } =
          Node.usageRoot (nodes pos a) +
            (Node.usageArgs (nodesArgs (pos + (sizeSeq a + 1)) (b :: as)) +
              { args := (b :: as).length }) + { args := 1 } := by
        ext <;> simp [nodesArgs, Node.usageArgs, Node.usageRoot]
        omega
      rw [husage]
      exact (ha.add ih).add hone

/-- A tree takes up no more than its source text has bytes: a text is no longer than its source, and
every node and every argument has a byte of its own. -/
theorem usageRoot_nodes_within (pos : Nat) (ps : List Piece) :
    (Node.usageRoot (nodes pos ps)).Within (sizeSeq ps) := by
  induction ps using seqInduction generalizing pos with
  | nil => exact ⟨Nat.le_refl _, Nat.le_refl _, Nat.le_refl _⟩
  | plain c ps ih =>
    rw [nodes, sizeSeq_cons, size_plain]
    refine Node.usageRoot_join_within ⟨?_, ?_, ?_⟩ (ih _)
    · simp [node, Node.usage]
    · exact c.utf8Size_pos
    · exact Nat.zero_le _
  | escaped c ps ih =>
    rw [nodes, sizeSeq_cons, size_escaped]
    refine Node.usageRoot_join_within ⟨?_, ?_, ?_⟩ (ih _)
    · exact utf8ByteSize_escapedText_le c
    · exact Nat.le_add_right 1 _
    · exact Nat.zero_le _
  | field name ps ih =>
    rw [nodes, sizeSeq_cons, size_field]
    refine Node.usageRoot_join_within ⟨?_, ?_, ?_⟩ (ih _)
    · exact Nat.le_add_right _ 2
    · exact Nat.le_add_left 1 _
    · exact Nat.zero_le _
  | call name args ps iha ih =>
    rw [nodes, sizeSeq_cons, size_call]
    have hargs := usageArgs_nodesArgs_within iha (pos + (name.utf8ByteSize + 2))
    refine Node.usageRoot_join_within ⟨?_, ?_, ?_⟩ (ih _)
    · have := hargs.text
      simp only [node, Node.usage, Reader.Usage.text_add] at this ⊢
      omega
    · have := hargs.nodes
      simp only [node, Node.usage, Reader.Usage.nodes_add] at this ⊢
      omega
    · have := hargs.args
      simp only [node, Node.usage, Reader.Usage.args_add, length_nodesArgs] at this ⊢
      omega

end Piece

end TagTemplate
