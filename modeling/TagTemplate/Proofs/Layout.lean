import Mathlib.Data.String.Basic
import TagTemplate.Template.Unfold
import TagTemplate.Template.Layout
import TagTemplate.Proofs.Tree

/-!
# The tables of a template hold its tree

`Node.Stored` relates a node to the cell it has in some tables, and through the ranges of the cell
to everything that belongs to the node. Tables that only grow keep what they hold (`Stored.mono`),
and laying out a tree lets the tables grow until they hold the tree (`layoutSeq_stored`). What is
held can be read back (`StoredSeq.unfold_eq`), so a template unfolds to the tree it was made of
(`Template.toNodes_ofNodes`).
-/

namespace TagTemplate

/-! ## Pieces of tables -/

/-- The range `r` of a table holds the entries `m`. -/
def Range.Cuts {α : Type} (r : Range) (table : List α) (m : List α) : Prop :=
  ∃ before after, table = before ++ m ++ after ∧ r = ⟨before.length, m.length⟩

/-- The range `r` of a text in bytes holds the text `m`. -/
def Range.CutsText (r : Range) (text m : String) : Prop :=
  ∃ before after, text = before ++ m ++ after ∧ r = ⟨before.utf8ByteSize, m.utf8ByteSize⟩

/-- What a range of a table holds stays when the table grows. -/
theorem Range.Cuts.append {α : Type} {r : Range} {table m : List α} (h : r.Cuts table m)
    (more : List α) : r.Cuts (table ++ more) m := by
  obtain ⟨before, after, rfl, hr⟩ := h
  exact ⟨before, after ++ more, by rw [List.append_assoc _ after], hr⟩

/-- What a range of a text holds stays when the text grows. -/
theorem Range.CutsText.append {r : Range} {text m : String} (h : r.CutsText text m)
    (more : String) : r.CutsText (text ++ more) m := by
  obtain ⟨before, after, rfl, hr⟩ := h
  exact ⟨before, after ++ more, String.append_assoc, hr⟩

/-- To cut the range out of the table gives what it holds. -/
theorem Range.Cuts.extract_eq {α : Type} {r : Range} {table : Array α} {m : List α}
    (h : r.Cuts table.toList m) : (table.extract r.start r.stop).toList = m := by
  obtain ⟨before, after, htable, rfl⟩ := h
  rw [Array.toList_extract, htable]
  simp [Range.stop]

/-- To cut the range out of the text gives what it holds. -/
theorem Range.CutsText.extract_eq {r : Range} {text m : String} (h : r.CutsText text m) :
    String.Pos.Raw.extract text ⟨r.start⟩ ⟨r.stop⟩ = m := by
  obtain ⟨before, after, rfl, rfl⟩ := h
  have hx := String.extract_of_valid before.toList m.toList after.toList
  simpa [String.ofList_append, String.append_assoc, Range.stop] using hx

namespace Arena

/-- The tables `b` begin with the tables `a`. -/
structure Extends (a b : Arena) : Prop where
  cells : ∃ more, b.cells.toList = a.cells.toList ++ more
  args : ∃ more, b.args.toList = a.args.toList ++ more
  text : ∃ more, b.text = a.text ++ more

/-- Tables begin with themselves. -/
theorem Extends.refl (a : Arena) : a.Extends a :=
  ⟨⟨[], by rw [List.append_nil]⟩, ⟨[], by rw [List.append_nil]⟩, ⟨"", by rw [String.append_empty]⟩⟩

/-- Tables that grow twice have grown. -/
theorem Extends.trans {a b c : Arena} (hab : a.Extends b) (hbc : b.Extends c) : a.Extends c := by
  obtain ⟨⟨cells, hcells⟩, ⟨args, hargs⟩, ⟨text, htext⟩⟩ := hab
  obtain ⟨⟨cells', hcells'⟩, ⟨args', hargs'⟩, ⟨text', htext'⟩⟩ := hbc
  refine ⟨⟨cells ++ cells', ?_⟩, ⟨args ++ args', ?_⟩, ⟨text ++ text', ?_⟩⟩
  · rw [hcells', hcells, List.append_assoc]
  · rw [hargs', hargs, List.append_assoc]
  · rw [htext', htext, String.append_assoc]

/-- To push a text changes nothing that is there. -/
theorem extends_pushText (a : Arena) (text : String) : a.Extends (a.pushText text).2 :=
  ⟨⟨[], by simp [pushText]⟩, ⟨[], by simp [pushText]⟩, ⟨text, rfl⟩⟩

/-- To push cells changes nothing that is there. -/
theorem extends_pushCells (a : Arena) (cells : List Cell) : a.Extends (a.pushCells cells).2 :=
  ⟨⟨cells, by simp [pushCells]⟩, ⟨[], by simp [pushCells]⟩, ⟨"", by simp [pushCells]⟩⟩

/-- To push arguments changes nothing that is there. -/
theorem extends_pushArgs (a : Arena) (args : List Range) : a.Extends (a.pushArgs args).2 :=
  ⟨⟨[], by simp [pushArgs]⟩, ⟨args, by simp [pushArgs]⟩, ⟨"", by simp [pushArgs]⟩⟩

/-- The range that comes back for a text holds it. -/
theorem cutsText_pushText (a : Arena) (text : String) :
    (a.pushText text).1.CutsText (a.pushText text).2.text text :=
  ⟨a.text, "", by simp [pushText], rfl⟩

/-- The range that comes back for cells holds them. -/
theorem cuts_pushCells (a : Arena) (cells : List Cell) :
    (a.pushCells cells).1.Cuts (a.pushCells cells).2.cells.toList cells :=
  ⟨a.cells.toList, [], by simp [pushCells], by simp [pushCells]⟩

/-- The range that comes back for arguments holds them. -/
theorem cuts_pushArgs (a : Arena) (args : List Range) :
    (a.pushArgs args).1.Cuts (a.pushArgs args).2.args.toList args :=
  ⟨a.args.toList, [], by simp [pushArgs], by simp [pushArgs]⟩

/-- The number of text bytes, of nodes and of arguments in the tables. -/
def usage (a : Arena) : Reader.Usage where
  text := a.text.utf8ByteSize
  nodes := a.cells.size
  args := a.args.size

/-- To push a text uses its bytes. -/
theorem usage_pushText (a : Arena) (text : String) :
    (a.pushText text).2.usage = a.usage + { text := text.utf8ByteSize } := by
  ext <;> simp [usage, pushText]

/-- To push cells uses as many nodes. -/
theorem usage_pushCells (a : Arena) (cells : List Cell) :
    (a.pushCells cells).2.usage = a.usage + { nodes := cells.length } := by
  ext <;> simp [usage, pushCells, ← Array.length_toList]

/-- To push arguments uses as many places for them. -/
theorem usage_pushArgs (a : Arena) (args : List Range) :
    (a.pushArgs args).2.usage = a.usage + { args := args.length } := by
  ext <;> simp [usage, pushArgs, ← Array.length_toList]

/-- The node of a cell, whose arguments are followed through at most `levels` sequences inside each
other. -/
def unfoldCell (a : Arena) (levels : Nat) : Cell → Node
  | .literal text span => .literal (a.textOf text) span
  | .field name span => .field (a.textOf name) span
  | .call name args span => .call (a.textOf name) ((a.argsOf args).map (a.unfold levels)) span

/-- A range is unfolded cell by cell, and the arguments of the cells with one level less. -/
theorem unfold_succ (a : Arena) (levels : Nat) (r : Range) :
    a.unfold (levels + 1) r = (a.cellsOf r).map (a.unfoldCell levels) := rfl

end Arena

/-! ## Trees in tables -/

mutual

/-- The tables hold the node as the cell. -/
inductive Node.Stored (a : Arena) : Node → Cell → Prop
  | literal {text : String} {span : Span} {r : Range} (htext : r.CutsText a.text text) :
      Node.Stored a (.literal text span) (.literal r span)
  | field {name : String} {span : Span} {r : Range} (hname : r.CutsText a.text name) :
      Node.Stored a (.field name span) (.field r span)
  | call {name : String} {args : List (List Node)} {span : Span} {n r : Range}
      {ranges : List Range} (hname : n.CutsText a.text name) (hranges : r.Cuts a.args.toList ranges)
      (hargs : Node.StoredArgs a args ranges) :
      Node.Stored a (.call name args span) (.call n r span)

/-- The tables hold the nodes of a sequence as the cells. -/
inductive Node.StoredSeq (a : Arena) : List Node → List Cell → Prop
  | nil : Node.StoredSeq a [] []
  | cons {n : Node} {ns : List Node} {cell : Cell} {cells : List Cell}
      (head : Node.Stored a n cell) (tail : Node.StoredSeq a ns cells) :
      Node.StoredSeq a (n :: ns) (cell :: cells)

/-- The tables hold the arguments of a call in the ranges. -/
inductive Node.StoredArgs (a : Arena) : List (List Node) → List Range → Prop
  | nil : Node.StoredArgs a [] []
  | cons {s : List Node} {ss : List (List Node)} {r : Range} {rs : List Range}
      {cells : List Cell} (hcells : r.Cuts a.cells.toList cells) (head : Node.StoredSeq a s cells)
      (tail : Node.StoredArgs a ss rs) : Node.StoredArgs a (s :: ss) (r :: rs)

end

namespace Node

mutual

/-- Tables that grow hold what they held. -/
theorem Stored.mono {a b : Arena} (hab : a.Extends b) :
    ∀ {n : Node} {cell : Cell}, Stored a n cell → Stored b n cell
  | _, _, .literal htext => by
    obtain ⟨more, hmore⟩ := hab.text
    exact .literal (hmore ▸ htext.append more)
  | _, _, .field hname => by
    obtain ⟨more, hmore⟩ := hab.text
    exact .field (hmore ▸ hname.append more)
  | _, _, .call hname hranges hargs => by
    obtain ⟨more, hmore⟩ := hab.text
    obtain ⟨more', hmore'⟩ := hab.args
    exact .call (hmore ▸ hname.append more) (hmore' ▸ hranges.append more') (hargs.mono hab)

/-- What the tables hold they hold when they grow. -/
theorem StoredSeq.mono {a b : Arena} (hab : a.Extends b) :
    ∀ {ns : List Node} {cells : List Cell}, StoredSeq a ns cells → StoredSeq b ns cells
  | _, _, .nil => .nil
  | _, _, .cons head tail => .cons (head.mono hab) (tail.mono hab)

/-- The arguments that the tables hold they hold when they grow. -/
theorem StoredArgs.mono {a b : Arena} (hab : a.Extends b) :
    ∀ {args : List (List Node)} {ranges : List Range}, StoredArgs a args ranges →
      StoredArgs b args ranges
  | _, _, .nil => .nil
  | _, _, .cons hcells head tail => by
    obtain ⟨more, hmore⟩ := hab.cells
    exact .cons (hmore ▸ hcells.append more) (head.mono hab) (tail.mono hab)

end

mutual

/-- Laying out a node lets the tables grow until they hold it. -/
theorem layout_stored (a : Arena) :
    ∀ n : Node, a.Extends (n.layout a).2 ∧ Stored (n.layout a).2 n (n.layout a).1
  | .literal text _ => ⟨a.extends_pushText text, .literal (a.cutsText_pushText text)⟩
  | .field name _ => ⟨a.extends_pushText name, .field (a.cutsText_pushText name)⟩
  | .call name args _ => by
    obtain ⟨hext, hargs⟩ := layoutArgs_stored a args
    rw [layout]
    generalize layoutArgs a args = r at *
    obtain ⟨ranges, b⟩ := r
    have hb := b.extends_pushArgs ranges
    have hc := (b.pushArgs ranges).2.extends_pushText name
    refine ⟨(hext.trans hb).trans hc, .call (Arena.cutsText_pushText _ name) ?_
      (hargs.mono (hb.trans hc))⟩
    exact b.cuts_pushArgs ranges

/-- The tables hold a sequence when it has been laid out. -/
theorem layoutSeq_stored (a : Arena) : ∀ ns : List Node,
    a.Extends (layoutSeq a ns).2 ∧ StoredSeq (layoutSeq a ns).2 ns (layoutSeq a ns).1
  | [] => ⟨.refl a, .nil⟩
  | n :: ns => by
    obtain ⟨hn, hstored⟩ := layout_stored a n
    obtain ⟨hns, hstoreds⟩ := layoutSeq_stored (n.layout a).2 ns
    exact ⟨hn.trans hns, .cons (hstored.mono hns) hstoreds⟩

/-- The tables hold the arguments of a call when they have been laid out. -/
theorem layoutArgs_stored (a : Arena) : ∀ args : List (List Node),
    a.Extends (layoutArgs a args).2 ∧ StoredArgs (layoutArgs a args).2 args (layoutArgs a args).1
  | [] => ⟨.refl a, .nil⟩
  | s :: ss => by
    obtain ⟨hs, hstored⟩ := layoutSeq_stored a s
    rw [layoutArgs]
    generalize layoutSeq a s = r at *
    obtain ⟨cells, b⟩ := r
    have hb := b.extends_pushCells cells
    obtain ⟨hss, hstoreds⟩ := layoutArgs_stored (b.pushCells cells).2 ss
    refine ⟨(hs.trans hb).trans hss, .cons ?_ (hstored.mono (hb.trans hss)) hstoreds⟩
    obtain ⟨more, hmore⟩ := hss.cells
    exact hmore ▸ (b.cuts_pushCells cells).append more

end

/-- There is a cell for each node of a stored sequence. -/
theorem StoredSeq.length_eq {a : Arena} {ns : List Node} {cells : List Cell}
    (h : StoredSeq a ns cells) : cells.length = ns.length := by
  induction ns generalizing cells with
  | nil =>
    cases h
    rfl
  | cons n ns ih =>
    cases h with
    | cons head tail => rw [List.length_cons, ih tail, List.length_cons]

/-- There is a range for each stored argument. -/
theorem StoredArgs.length_eq {a : Arena} {args : List (List Node)} {ranges : List Range}
    (h : StoredArgs a args ranges) : ranges.length = args.length := by
  induction args generalizing ranges with
  | nil =>
    cases h
    rfl
  | cons s ss ih =>
    cases h with
    | cons hcells head tail => rw [List.length_cons, ih tail, List.length_cons]

/-- A sequence is laid out part by part. -/
theorem layoutSeq_append (a : Arena) (ms ns : List Node) :
    layoutSeq a (ms ++ ns) =
      ((layoutSeq a ms).1 ++ (layoutSeq (layoutSeq a ms).2 ns).1,
        (layoutSeq (layoutSeq a ms).2 ns).2) := by
  induction ms generalizing a with
  | nil => rfl
  | cons m ms ih =>
    show ((m.layout a).1 :: (layoutSeq (m.layout a).2 (ms ++ ns)).1,
      (layoutSeq (m.layout a).2 (ms ++ ns)).2) = _
    rw [ih]
    rfl

/-- There is a cell for each node that is laid out. -/
theorem length_of_layoutSeq {a b : Arena} {nodes : List Node} {cells : List Cell}
    (h : layoutSeq a nodes = (cells, b)) : cells.length = nodes.length := by
  have hstored := (layoutSeq_stored a nodes).2
  rw [h] at hstored
  exact hstored.length_eq

/-- There is a range for each argument that is laid out. -/
theorem length_of_layoutArgs {a b : Arena} {args : List (List Node)} {ranges : List Range}
    (h : layoutArgs a args = (ranges, b)) : ranges.length = args.length := by
  have hstored := (layoutArgs_stored a args).2
  rw [h] at hstored
  exact hstored.length_eq

/-! ## Reading a tree back -/

section
variable {a : Arena}

/-- The arguments of a call can be read back if each of them can. -/
theorem StoredArgs.unfold_eq {args : List (List Node)} {ranges : List Range} {levels : Nat}
    (h : StoredArgs a args ranges)
    (hread : ∀ s ∈ args, ∀ cells, StoredSeq a s cells →
      cells.map (a.unfoldCell levels) = s) : ranges.map (a.unfold (levels + 1)) = args := by
  induction args generalizing ranges with
  | nil =>
    cases h
    rfl
  | cons s ss ih =>
    cases h with
    | cons hcells head tail =>
      have hs := hread s List.mem_cons_self _ head
      rw [List.map_cons, ih tail fun t ht => hread t (List.mem_cons_of_mem s ht),
        Arena.unfold_succ, Arena.cellsOf, hcells.extract_eq, hs]

/-- What the tables hold can be read back through as many levels as calls nest. -/
theorem StoredSeq.unfold_eq {ns : List Node} {cells : List Cell} {levels : Nat}
    (h : StoredSeq a ns cells) (hlevels : depthSeq ns ≤ levels) :
    cells.map (a.unfoldCell levels) = ns := by
  induction ns using seqInduction generalizing cells levels with
  | nil =>
    cases h
    rfl
  | literal text span ns ih =>
    cases h with
    | cons head tail =>
      cases head with
      | literal htext =>
        rw [List.map_cons, ih tail (Nat.max_le.1 hlevels).2, Arena.unfoldCell, Arena.textOf,
          htext.extract_eq]
  | field name span ns ih =>
    cases h with
    | cons head tail =>
      cases head with
      | field hname =>
        rw [List.map_cons, ih tail (Nat.max_le.1 hlevels).2, Arena.unfoldCell, Arena.textOf,
          hname.extract_eq]
  | call name args span ns iha ih =>
    cases h with
    | cons head tail =>
      obtain ⟨hcall, hrest⟩ := Nat.max_le.1 hlevels
      rw [depth] at hcall
      obtain ⟨levels, rfl⟩ : ∃ k, levels = k + 1 := ⟨levels - 1, by omega⟩
      cases head with
      | call hname hranges hargs =>
        have hinner := hargs.unfold_eq fun s hs cells hcells =>
          iha s hs hcells ((depthArgs_le_iff args levels).1 (Nat.le_of_succ_le_succ hcall) s hs)
        rw [List.map_cons, ih tail hrest, Arena.unfoldCell, Arena.textOf, hname.extract_eq,
          Arena.argsOf, hranges.extract_eq, hinner]

end

/-! ## Sizes -/

mutual

/-- A node adds to the tables what it takes up. -/
theorem layout_usage (a : Arena) : ∀ n : Node, (n.layout a).2.usage = a.usage + n.usage
  | .literal text _ => a.usage_pushText text
  | .field name _ => a.usage_pushText name
  | .call name args _ => by
    have hargs := layoutArgs_usage a args
    have hlen := (layoutArgs_stored a args).2.length_eq
    rw [layout]
    generalize layoutArgs a args = r at *
    obtain ⟨ranges, b⟩ := r
    show (((b.pushArgs ranges).2.pushText name).2).usage = _
    rw [Arena.usage_pushText, Arena.usage_pushArgs, hargs, hlen, usage]
    ext <;> simp [Nat.add_assoc]

/-- To lay a sequence out uses what its nodes take. -/
theorem layoutSeq_usage (a : Arena) :
    ∀ ns : List Node, (layoutSeq a ns).2.usage = a.usage + usageSeq ns
  | [] => (Reader.Usage.add_zero _).symm
  | n :: ns => by
    have hns := layoutSeq_usage (n.layout a).2 ns
    rw [layout_usage a n, Reader.Usage.add_assoc] at hns
    exact hns

/-- To lay arguments out uses what their nodes take. -/
theorem layoutArgs_usage (a : Arena) :
    ∀ args : List (List Node), (layoutArgs a args).2.usage = a.usage + usageArgs args
  | [] => (Reader.Usage.add_zero _).symm
  | s :: ss => by
    have hs := layoutSeq_usage a s
    have hlen := (layoutSeq_stored a s).2.length_eq
    rw [layoutArgs]
    generalize layoutSeq a s = r at *
    obtain ⟨cells, b⟩ := r
    have hss := layoutArgs_usage (b.pushCells cells).2 ss
    rw [Arena.usage_pushCells, hs, hlen] at hss
    refine hss.trans ?_
    rw [usageArgs]
    ext <;> simp [Nat.add_assoc]

end

/-- An argument uses at most the nodes that all arguments use. -/
theorem usageRoot_nodes_le {args : List (List Node)} {s : List Node} (hs : s ∈ args) :
    (usageRoot s).nodes ≤ (usageArgs args).nodes := by
  obtain ⟨as, bs, rfl⟩ := List.append_of_mem hs
  rw [usageArgs_append, usageArgs]
  simp only [usageRoot, Reader.Usage.nodes_add]
  omega

/-- No more calls nest than there are nodes. -/
theorem depthSeq_le_nodes (ns : List Node) : depthSeq ns ≤ (usageRoot ns).nodes := by
  induction ns using seqInduction with
  | nil => exact Nat.le_refl 0
  | literal text span ns ih | field name span ns ih =>
    simp only [usageRoot, usageSeq, usage, Reader.Usage.nodes_add, depthSeq, depth,
      List.length_cons] at ih ⊢
    omega
  | call name args span ns iha ih =>
    have hargs : depthArgs args ≤ (usageArgs args).nodes := by
      refine (depthArgs_le_iff args _).2 fun s hs => Nat.le_trans (iha s hs) ?_
      exact usageRoot_nodes_le hs
    simp only [usageRoot, usageSeq, usage, Reader.Usage.nodes_add, depthSeq, depth,
      List.length_cons] at ih ⊢
    omega

end Node

/-! ## Templates -/

/-- The template of a tree holds the tree. -/
theorem Template.stored_ofNodes (ns : List Node) :
    ∃ cells, (Template.ofNodes ns).root.Cuts (Template.ofNodes ns).cells.toList cells ∧
      Node.StoredSeq (Template.ofNodes ns).toArena ns cells := by
  obtain ⟨-, hstored⟩ := Node.layoutSeq_stored {} ns
  rw [ofNodes]
  generalize Node.layoutSeq {} ns = r at *
  obtain ⟨cells, b⟩ := r
  exact ⟨cells, b.cuts_pushCells cells, hstored.mono (b.extends_pushCells cells)⟩

/-- The tables of a template have room for its tree and for nothing else. -/
theorem Template.usage_ofNodes (ns : List Node) :
    (Template.ofNodes ns).usage = Node.usageRoot ns := by
  have husage := Node.layoutSeq_usage {} ns
  have hlen := (Node.layoutSeq_stored {} ns).2.length_eq
  rw [ofNodes]
  generalize Node.layoutSeq {} ns = r at *
  obtain ⟨cells, b⟩ := r
  show ((b.pushCells cells).2).usage = _
  rw [Arena.usage_pushCells, husage, hlen]
  exact congrArg (· + _) (Reader.Usage.zero_add _)

/-- A template unfolds to the tree it was made of. -/
@[simp] theorem Template.toNodes_ofNodes (ns : List Node) : (Template.ofNodes ns).toNodes = ns := by
  obtain ⟨cells, hcells, hstored⟩ := stored_ofNodes ns
  have hlevels : Node.depthSeq ns ≤ (Template.ofNodes ns).nodeCount := by
    have h := Node.depthSeq_le_nodes ns
    rwa [← usage_ofNodes] at h
  rw [toNodes, Arena.unfold_succ, Arena.cellsOf, hcells.extract_eq, hstored.unfold_eq hlevels]

end TagTemplate
