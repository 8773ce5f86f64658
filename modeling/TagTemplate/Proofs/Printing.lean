import TagTemplate.Proofs.Compile

/-!
# Printing templates

`Node.printSeq` writes a sequence of nodes as source text. A tree that is canonical comes back when
the text is compiled, apart from its spans, and all trees of templates are canonical
(`compile_print`). The text is spelt by pieces of the grammar, one for each character of a literal
(`Piece.quoted`), so nothing here looks into the reader.
-/

namespace TagTemplate

open Reader (isEscapable)

/-- A text as source text: a backslash stands before each character that has a meaning of its own
somewhere. -/
def escape (text : String) : String :=
  .ofList (text.toList.flatMap fun c => if isEscapable c then ['\\', c] else [c])

/-- Text without such characters is its own source text. -/
theorem escape_eq_self {text : String} (h : ∀ c ∈ text.toList, isEscapable c = false) :
    escape text = text := by
  have hchars : text.toList.flatMap (fun c => if isEscapable c then ['\\', c] else [c]) =
      text.toList.flatMap fun c => [c] :=
    List.flatMap_congr fun c hc => if_neg (Bool.eq_false_iff.1 (h c hc))
  rw [escape, hchars, List.flatMap_singleton', String.ofList_toList]

namespace Node

/-! ## Source texts of trees -/

mutual

/-- The source text of a node. -/
def print : Node → String
  | .literal text _ => escape text
  | .field name _ => "%" ++ name ++ "%"
  | .call name args _ => "$" ++ name ++ "(" ++ printArgs args ++ ")"

/-- The source text of a sequence. -/
def printSeq : List Node → String
  | [] => ""
  | n :: ns => n.print ++ printSeq ns

/-- The source text of the arguments of a call, with a comma between each two. -/
def printArgs : List (List Node) → String
  | [] => ""
  | [a] => printSeq a
  | a :: b :: as => printSeq a ++ "," ++ printArgs (b :: as)

end

/-! ## Canonical trees -/

/-- May the node stand in front of the sequence without merging with it? -/
def Apart (n : Node) : List Node → Prop
  | [] => True
  | m :: _ => n.isLiteral = false ∨ m.isLiteral = false

mutual

/-- A node that some source text stands for: no literal is empty, names are names, and a single
argument is not empty. -/
def Canonical : Node → Prop
  | .literal text _ => text ≠ ""
  | .field name _ => IsName name
  | .call name args _ => IsName name ∧ args ≠ [[]] ∧ CanonicalArgs args

/-- `Canonical` over a sequence, in which no two literals are neighbours. -/
def CanonicalSeq : List Node → Prop
  | [] => True
  | n :: ns => n.Canonical ∧ n.Apart ns ∧ CanonicalSeq ns

/-- `Canonical` over the arguments of a call. -/
def CanonicalArgs : List (List Node) → Prop
  | [] => True
  | a :: as => CanonicalSeq a ∧ CanonicalArgs as

end

/-- A canonical node in front of a canonical sequence makes a canonical sequence. -/
theorem CanonicalSeq.join {n : Node} {ns : List Node} (hn : n.Canonical) (hns : CanonicalSeq ns) :
    CanonicalSeq (n.join ns) := by
  cases n with
  | field name span => exact ⟨hn, by cases ns <;> simp [Apart, isLiteral], hns⟩
  | call name args span => exact ⟨hn, by cases ns <;> simp [Apart, isLiteral], hns⟩
  | literal s i =>
    rcases ns with _ | ⟨m, ns⟩
    · exact ⟨hn, trivial, trivial⟩
    · cases m with
      | field | call => exact ⟨hn, .inr rfl, hns⟩
      | literal t j =>
        obtain ⟨hm, hapart, hns⟩ := hns
        refine ⟨fun h => hn (String.append_eq_empty_iff.1 h).1, ?_, hns⟩
        cases ns with
        | nil => trivial
        | cons k ks => exact .inr (hapart.resolve_left Bool.noConfusion)

/-- A node that does not merge with the sequence after it stands in front of it as it is. -/
theorem join_of_apart {n : Node} {ns : List Node} (h : n.Apart ns) : n.join ns = n :: ns := by
  cases n with
  | field | call => rfl
  | literal s i =>
    rcases ns with _ | ⟨m, ns⟩
    · rfl
    · cases m with
      | field | call => rfl
      | literal t j => cases h <;> contradiction

/-! ## What spans do not change -/

/-- A node without its place is a literal if it was one. -/
theorem isLiteral_bare (n : Node) : n.bare.isLiteral = n.isLiteral := by
  cases n <;> rfl

/-- A node that does not merge with a sequence does not do so when both are without places. -/
theorem Apart.bare {n : Node} {ns : List Node} (h : n.Apart ns) : n.bare.Apart (bareSeq ns) := by
  cases ns with
  | nil => trivial
  | cons m ms =>
    rw [bareSeq, Apart, isLiteral_bare, isLiteral_bare]
    exact h

/-- Without places there are as many nodes. -/
theorem length_bareSeq (ns : List Node) : (bareSeq ns).length = ns.length := by
  induction ns with
  | nil => rfl
  | cons n ns ih => rw [bareSeq, List.length_cons, ih, List.length_cons]

/-- Without places a sequence is as deep as before. -/
theorem depthSeq_bareSeq (ns : List Node) : depthSeq (bareSeq ns) = depthSeq ns := by
  induction ns using seqInduction with
  | nil => rfl
  | literal text span ns ih | field name span ns ih => simp [bareSeq, bare, depthSeq, depth, ih]
  | call name args span ns iha ih =>
    have hargs : depthArgs (bareArgs args) = depthArgs args := by
      clear ih
      induction args with
      | nil => rfl
      | cons a as ihas =>
        rw [bareArgs, depthArgs, iha a List.mem_cons_self,
          ihas fun b hb => iha b (List.mem_cons_of_mem a hb), depthArgs]
    simp [bareSeq, bare, depthSeq, depth, ih, hargs]

/-- Without places a sequence uses what it used. -/
theorem usageSeq_bareSeq (ns : List Node) : usageSeq (bareSeq ns) = usageSeq ns := by
  induction ns using seqInduction with
  | nil => rfl
  | literal text span ns ih | field name span ns ih => simp [bareSeq, bare, usageSeq, usage, ih]
  | call name args span ns iha ih =>
    have hargs : usageArgs (bareArgs args) = usageArgs args := by
      clear ih
      induction args with
      | nil => rfl
      | cons a as ihas =>
        rw [bareArgs, usageArgs, iha a List.mem_cons_self, length_bareSeq,
          ihas fun b hb => iha b (List.mem_cons_of_mem a hb), usageArgs]
    have hlen : (bareArgs args).length = args.length := by rw [bareArgs_eq_map, List.length_map]
    simp [bareSeq, bare, usageSeq, usage, ih, hargs, hlen]

/-- Without places a root uses what it used. -/
theorem usageRoot_bareSeq (ns : List Node) : usageRoot (bareSeq ns) = usageRoot ns := by
  rw [usageRoot, usageRoot, usageSeq_bareSeq, length_bareSeq]

end Node

/-! ## Quoted text -/

namespace Piece

/-- The piece that stands for a character wherever it is put. -/
def quotedChar (c : Char) : Piece :=
  if isEscapable c then .escaped c else .plain c

/-- The pieces that stand for a text wherever it is put. -/
def quoted (text : String) : List Piece :=
  text.toList.map quotedChar

/-- Quoted text is spelt as it is escaped. -/
theorem charsSeq_quoted (text : String) : charsSeq (quoted text) = (escape text).toList := by
  rw [quoted, escape, String.toList_ofList]
  induction text.toList with
  | nil => rfl
  | cons c cs ih =>
    rw [List.map_cons, charsSeq, ih, List.flatMap_cons, quotedChar]
    split <;> rfl

/-- A character without a backslash has no meaning of its own. -/
theorem valid_quotedChar (c : Char) : (quotedChar c).Valid := by
  unfold quotedChar
  split
  · trivial
  · next hc => refine ⟨?_, ?_, ?_⟩ <;> rintro rfl <;> exact hc rfl

/-- The language has the quoted text: every character with a meaning is escaped. -/
theorem valid_quoted (text : String) : ValidSeq (quoted text) := by
  rw [validSeq_iff]
  intro p hp
  obtain ⟨c, -, rfl⟩ := List.mem_map.1 hp
  exact valid_quotedChar c

/-- A quoted character neither opens nor closes a group, and ends no argument. -/
theorem groups_quotedChar (g : Nat) (c : Char) : groups g (quotedChar c) = some g := by
  unfold quotedChar
  split
  · exact groups_escaped g c
  · next hc =>
    have hopen : c ≠ '(' := by rintro rfl; exact hc rfl
    have hclose : c ≠ ')' := by rintro rfl; exact hc rfl
    have hcomma : c ≠ ',' := by rintro rfl; exact hc rfl
    rw [groups_plain, if_neg (by tauto), if_neg hopen, if_neg hclose]

/-- A quoted text opens and closes no group. -/
theorem groupsSeq_quoted (g : Nat) (text : String) : groupsSeq g (quoted text) = some g := by
  rw [quoted, groupsSeq]
  induction text.toList with
  | nil => rfl
  | cons c cs ih =>
    rw [List.map_cons, List.foldlM_cons, groups_quotedChar]
    exact ih

/-- A quoted text has no calls in it. -/
theorem depthSeq_quoted (text : String) : depthSeq (quoted text) = 0 := by
  rw [quoted]
  induction text.toList with
  | nil => rfl
  | cons c cs ih =>
    rw [List.map_cons, depthSeq, ih, quotedChar]
    split <;> rfl

/-- The node of a quoted character is the character as a literal. -/
theorem node_quotedChar (pos : Nat) (c : Char) :
    (quotedChar c).node pos = .literal (.ofList [c]) ⟨pos, pos + (quotedChar c).size⟩ := by
  unfold quotedChar
  split
  · next hc => rw [node, escapedText, if_pos hc, size_escaped]
  · rw [node, size_plain]

/-- Quoted text is one literal. -/
theorem nodes_quoted (pos : Nat) {text : String} (htext : text ≠ "") :
    nodes pos (quoted text) = [.literal text ⟨pos, pos + sizeSeq (quoted text)⟩] := by
  have key : ∀ (cs : List Char) (pos : Nat), cs ≠ [] → nodes pos (cs.map quotedChar) =
      [.literal (.ofList cs) ⟨pos, pos + sizeSeq (cs.map quotedChar)⟩] := by
    intro cs
    induction cs with
    | nil => exact fun _ h => absurd rfl h
    | cons c cs ih =>
      intro pos _
      rw [List.map_cons, nodes, node_quotedChar, sizeSeq_cons]
      cases cs with
      | nil => rfl
      | cons d ds =>
        rw [ih _ (List.cons_ne_nil d ds), Node.join_literal_literal, ← String.ofList_append,
          List.singleton_append, Nat.add_assoc]
  have hne : text.toList ≠ [] := fun h => htext (String.toList_eq_nil_iff.1 h)
  rw [quoted, key _ _ hne, String.ofList_toList]

/-! ## The pieces of a tree -/

mutual

/-- The pieces that spell a node. -/
def ofNode : Node → List Piece
  | .literal text _ => quoted text
  | .field name _ => [.field name]
  | .call name args _ => [.call name (ofNodesArgs args)]

/-- The pieces that spell a sequence. -/
def ofNodes : List Node → List Piece
  | [] => []
  | n :: ns => ofNode n ++ ofNodes ns

/-- The pieces that spell the arguments of a call. -/
def ofNodesArgs : List (List Node) → List (List Piece)
  | [] => []
  | a :: as => ofNodes a :: ofNodesArgs as

end

/-- The pieces of a tree spell its source text. -/
theorem charsSeq_ofNodes (ns : List Node) : charsSeq (ofNodes ns) = (Node.printSeq ns).toList := by
  induction ns using Node.seqInduction with
  | nil => rfl
  | literal text span ns ih =>
    rw [ofNodes, charsSeq_append, ih, ofNode, charsSeq_quoted, Node.printSeq, Node.print,
      String.toList_append]
  | field name span ns ih =>
    rw [ofNodes, charsSeq_append, ih, ofNode, Node.printSeq, Node.print]
    simp [charsSeq, chars]
  | call name args span ns iha ih =>
    have hargs : charsArgs (ofNodesArgs args) = (Node.printArgs args).toList := by
      clear ih
      induction args with
      | nil => rfl
      | cons a as ihas =>
        have ha := iha a List.mem_cons_self
        have has := ihas fun b hb => iha b (List.mem_cons_of_mem a hb)
        cases as with
        | nil => exact ha
        | cons b bs =>
          rw [ofNodesArgs] at has
          rw [ofNodesArgs, ofNodesArgs, charsArgs, ha, has, Node.printArgs]
          simp
    rw [ofNodes, charsSeq_append, ih, ofNode, Node.printSeq, Node.print]
    simp [charsSeq, chars, hargs]

/-- The pieces of a tree leave no parenthesis open and need none before them. -/
theorem groupsSeq_ofNodes (g : Nat) (ns : List Node) : groupsSeq g (ofNodes ns) = some g := by
  induction ns with
  | nil => rfl
  | cons n ns ih =>
    have hn : groupsSeq g (ofNode n) = some g := by
      cases n with
      | literal text span => exact groupsSeq_quoted g text
      | field name span => rw [ofNode, groupsSeq_singleton, groups_field]
      | call name args span => rw [ofNode, groupsSeq_singleton, groups_call]
    rw [ofNodes, groupsSeq_append, hn]
    exact ih

/-- The pieces of a canonical tree stand for it. -/
theorem bareSeq_nodes_ofNodes (pos : Nat) {ns : List Node} (h : Node.CanonicalSeq ns) :
    Node.bareSeq (nodes pos (ofNodes ns)) = Node.bareSeq ns := by
  induction ns using Node.seqInduction generalizing pos with
  | nil => rfl
  | literal text span ns ih =>
    obtain ⟨htext, hapart, hns⟩ := h
    rw [ofNodes, nodes_append, ofNode, nodes_quoted pos htext, Node.joinSeq_cons,
      Node.joinSeq_nil_left, Node.bareSeq_join, ih _ hns, Node.bareSeq]
    exact Node.join_of_apart hapart.bare
  | field name span ns ih =>
    obtain ⟨-, -, hns⟩ := h
    rw [ofNodes, nodes_append, ofNode, nodes_singleton, Node.joinSeq_cons,
      Node.joinSeq_nil_left, Node.bareSeq_join, ih _ hns, Node.bareSeq]
    rfl
  | call name args span ns iha ih =>
    obtain ⟨⟨-, -, hargs⟩, -, hns⟩ := h
    have hbare : ∀ pos, Node.bareArgs (nodesArgs pos (ofNodesArgs args)) = Node.bareArgs args := by
      clear ih
      induction args with
      | nil => exact fun _ => rfl
      | cons a as ihas =>
        intro pos
        rw [ofNodesArgs, nodesArgs, Node.bareArgs, iha a List.mem_cons_self _ hargs.1,
          ihas (fun b hb => iha b (List.mem_cons_of_mem a hb)) hargs.2, Node.bareArgs]
    rw [ofNodes, nodes_append, ofNode, nodes_singleton, Node.joinSeq_cons,
      Node.joinSeq_nil_left, Node.bareSeq_join, ih _ hns, Node.bareSeq, node, Node.bare, hbare]
    rfl

/-- Only the empty canonical sequence has no pieces. -/
theorem eq_nil_of_ofNodes_eq_nil {ns : List Node} (h : Node.CanonicalSeq ns)
    (hnil : ofNodes ns = []) : ns = [] := by
  have hbare := bareSeq_nodes_ofNodes 0 h
  rw [hnil] at hbare
  cases ns with
  | nil => rfl
  | cons n ns => cases hbare

/-- The language has the pieces of a canonical tree. -/
theorem valid_ofNodes {ns : List Node} (h : Node.CanonicalSeq ns) : ValidSeq (ofNodes ns) := by
  induction ns using Node.seqInduction with
  | nil => trivial
  | literal text span ns ih =>
    exact (validSeq_append _ _).2 ⟨valid_quoted text, ih h.2.2⟩
  | field name span ns ih => exact ⟨h.1, ih h.2.2⟩
  | call name args span ns iha ih =>
    obtain ⟨⟨hname, hsome, hargs⟩, -, hns⟩ := h
    have hvalid : ValidArgs (ofNodesArgs args) := by
      clear ih hsome
      induction args with
      | nil => trivial
      | cons a as ihas =>
        exact ⟨⟨iha a List.mem_cons_self hargs.1, groupsSeq_ofNodes 0 a⟩,
          ihas (fun b hb => iha b (List.mem_cons_of_mem a hb)) hargs.2⟩
    have hsome' : ofNodesArgs args ≠ [[]] := by
      intro hnil
      rcases args with _ | ⟨a, _ | ⟨b, bs⟩⟩
      · cases hnil
      · rw [ofNodesArgs, ofNodesArgs, List.cons.injEq] at hnil
        exact hsome (by rw [eq_nil_of_ofNodes_eq_nil hargs.1 hnil.1])
      · exact List.cons_ne_nil _ _ (List.cons.inj hnil).2
    exact ⟨⟨hname, hsome', hvalid⟩, ih hns⟩

/-- A canonical tree is spelt by its pieces. -/
theorem spells_ofNodes {ns : List Node} (h : Node.CanonicalSeq ns) :
    Spells (ofNodes ns) (Node.printSeq ns) :=
  ⟨valid_ofNodes h, charsSeq_ofNodes ns⟩

/-- The tree of a derivation is canonical. -/
theorem canonicalSeq_nodes (pos : Nat) {ps : List Piece} (h : ValidSeq ps) :
    Node.CanonicalSeq (nodes pos ps) := by
  induction ps using seqInduction generalizing pos with
  | nil => trivial
  | plain c ps ih =>
    exact .join (Reader.ofList_cons_ne_empty c []) (ih _ h.2)
  | escaped c ps ih =>
    exact .join (Reader.escapedText_ne_empty c) (ih _ h.2)
  | field name ps ih => exact .join h.1 (ih _ h.2)
  | call name args ps iha ih =>
    obtain ⟨⟨hname, hsome, hargs⟩, hps⟩ := h
    have hcanonical : ∀ pos, Node.CanonicalArgs (nodesArgs pos args) := by
      clear ih hsome
      induction args with
      | nil => exact fun _ => trivial
      | cons a as ihas =>
        exact fun pos => ⟨iha a List.mem_cons_self pos hargs.1.1,
          ihas (fun b hb => iha b (List.mem_cons_of_mem a hb)) hargs.2 _⟩
    have hsome' : ∀ pos, nodesArgs pos args ≠ [[]] := by
      intro pos hnil
      rcases args with _ | ⟨a, _ | ⟨b, bs⟩⟩
      · cases hnil
      · rw [nodesArgs, nodesArgs, List.cons.injEq] at hnil
        exact hsome (by rw [(nodes_eq_nil_iff pos a).1 hnil.1])
      · exact List.cons_ne_nil _ _ (List.cons.inj hnil).2
    exact .join ⟨hname, hsome' _, hcanonical _⟩ (ih _ hps)

end Piece

/-! ## Printing and compiling -/

open Node (printSeq bareSeq CanonicalSeq)

/-- The source text of a canonical tree compiles to the tree, if the limits admit it. -/
theorem compile_printSeq {ns : List Node} {maxDepth : Nat} (h : CanonicalSeq ns)
    (hdepth : Node.depthSeq ns ≤ maxDepth)
    (hfits : (Node.usageRoot ns).Within (2 ^ 32 - 1)) :
    ∃ t, compile (printSeq ns) maxDepth = .ok t ∧ bareSeq t.toNodes = bareSeq ns := by
  have hbare := Piece.bareSeq_nodes_ofNodes 0 h
  have hdepth' : Piece.depthSeq (Piece.ofNodes ns) ≤ maxDepth := by
    rw [← Piece.depthSeq_nodes 0, ← Node.depthSeq_bareSeq, hbare, Node.depthSeq_bareSeq]
    exact hdepth
  have hfits' : (Node.usageRoot (Piece.nodes 0 (Piece.ofNodes ns))).Within (2 ^ 32 - 1) := by
    rw [← Node.usageRoot_bareSeq, hbare, Node.usageRoot_bareSeq]
    exact hfits
  refine ⟨Template.ofNodes (Piece.nodes 0 (Piece.ofNodes ns)), ?_, ?_⟩
  · exact (compile_eq_ok_iff _ maxDepth _).2 ⟨_, ⟨Piece.spells_ofNodes h, hdepth', hfits'⟩, rfl⟩
  · rw [Template.toNodes_ofNodes, hbare]

/-- Printing and compiling are inverse on the whole language. The source text of a canonical tree
compiles, and to that tree; the tree of any source that compiles is canonical, and so comes back
from its own source text. -/
theorem compile_print (maxDepth : Nat) :
    (∀ ns, CanonicalSeq ns → Node.depthSeq ns ≤ maxDepth →
        (printSeq ns).utf8ByteSize ≤ 2 ^ 32 - 1 →
        ∃ t, compile (printSeq ns) maxDepth = .ok t ∧ bareSeq t.toNodes = bareSeq ns) ∧
      ∀ source t, compile source maxDepth = .ok t →
        CanonicalSeq t.toNodes ∧
          ∃ t', compile (printSeq t.toNodes) maxDepth = .ok t' ∧
            bareSeq t'.toNodes = bareSeq t.toNodes := by
  constructor
  · intro ns h hdepth hsize
    have hfits := (Piece.usageRoot_nodes_within 0 (Piece.ofNodes ns)).mono
      ((Piece.spells_ofNodes h).sizeSeq_eq ▸ hsize)
    rw [← Node.usageRoot_bareSeq, Piece.bareSeq_nodes_ofNodes 0 h, Node.usageRoot_bareSeq] at hfits
    exact compile_printSeq h hdepth hfits
  · intro source t hok
    obtain ⟨ps, hps, rfl⟩ := (compile_eq_ok_iff source maxDepth t).1 hok
    rw [Template.toNodes_ofNodes]
    have hcanonical := Piece.canonicalSeq_nodes 0 hps.valid
    have hdepth : Node.depthSeq (Piece.nodes 0 ps) ≤ maxDepth := by
      rw [Piece.depthSeq_nodes]
      exact hps.depth
    exact ⟨hcanonical, compile_printSeq hcanonical hdepth hps.fits⟩

/-- A literal with a percent sign, and a call whose first argument is empty. -/
theorem compile_print_percent :
    ∃ t, compile "5\\%$f(,%x%)" 1 = .ok t ∧
      bareSeq t.toNodes =
        [.literal "5%" ⟨0, 0⟩, .call "f" [[], [.field "x" ⟨0, 0⟩]] ⟨0, 0⟩] ∧
      CanonicalSeq t.toNodes ∧
      ∃ t', compile (printSeq t.toNodes) 1 = .ok t' ∧ bareSeq t'.toNodes = bareSeq t.toNodes := by
  let ns : List Node := [.literal "5%" ⟨0, 0⟩, .call "f" [[], [.field "x" ⟨0, 0⟩]] ⟨0, 0⟩]
  have htext : "5%" ≠ "" := by decide
  have hfield : IsName "x" := by decide
  have hcall : IsName "f" := by decide
  have hcanonical : CanonicalSeq ns :=
    ⟨htext, .inr rfl, ⟨hcall, by simp, trivial, ⟨hfield, trivial, trivial⟩, trivial⟩, trivial,
      trivial⟩
  obtain ⟨t, ht, hbare⟩ := (compile_print 1).1 ns hcanonical (by decide) (by decide)
  exact ⟨t, ht, hbare, (compile_print 1).2 _ t ht⟩

end TagTemplate
