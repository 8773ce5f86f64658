import TagTemplate.Proofs.Compile
import TagTemplate.Proofs.TreeEvaluation

/-!
# A template stands for its tree

The tables of a template are a way to keep a tree. Everything a user can ask of a template is asked
of the tree: whether two templates are equal, how many nodes there are, how deep the calls nest, and
what an evaluation gives and does (`compileWithin_refines`). The tree of a template is the one it
unfolds to; `ofNodes_toNodes_of_compileWithin` says that nothing of the tables is lost in it.
-/

namespace TagTemplate

namespace Node

/-! ## Counting nodes -/

mutual

/-- The number of nodes in a node: itself, and those in its arguments. -/
def count : Node → Nat
  | .literal _ _ | .field _ _ => 1
  | .call _ args _ => countArgs args + 1

/-- `count` over a sequence. -/
def countSeq : List Node → Nat
  | [] => 0
  | n :: ns => n.count + countSeq ns

/-- `count` over the arguments of a call. -/
def countArgs : List (List Node) → Nat
  | [] => 0
  | a :: as => countSeq a + countArgs as

end

/-- Every node of a sequence takes up one place in the table of nodes. -/
theorem nodes_usageRoot (ns : List Node) : (usageRoot ns).nodes = countSeq ns := by
  induction ns using seqInduction with
  | nil => rfl
  | literal text span ns ih | field name span ns ih =>
    simp only [usageRoot, usageSeq, usage, Reader.Usage.nodes_add, List.length_cons, countSeq,
      count] at ih ⊢
    omega
  | call name args span ns iha ih =>
    have hargs : (usageArgs args).nodes = countArgs args := by
      clear ih
      induction args with
      | nil => rfl
      | cons a as ihas =>
        have ha := iha a List.mem_cons_self
        have has := ihas fun b hb => iha b (List.mem_cons_of_mem a hb)
        simp only [usageRoot, usageArgs, Reader.Usage.nodes_add, countArgs] at ha has ⊢
        omega
    simp only [usageRoot, usageSeq, usage, Reader.Usage.nodes_add, List.length_cons, countSeq,
      count] at ih ⊢
    omega

end Node

/-! ## Nesting in tables -/

namespace Arena

/-- The number of calls around each other in a cell, as far as `levels` of them below it. -/
def depthCell (a : Arena) (levels : Nat) : Cell → Nat
  | .literal _ _ | .field _ _ => 0
  | .call _ args _ => 1 + ((a.argsOf args).map (a.depthWithin levels)).foldr max 0

/-- The depth of a range is that of its deepest cell, whose arguments are followed one level less.
-/
theorem depthWithin_succ (a : Arena) (levels : Nat) (r : Range) :
    a.depthWithin (levels + 1) r =
      (a.cellsOf r).foldr (fun cell deepest => max deepest (a.depthCell levels cell)) 0 := by
  rw [depthWithin]
  congr 1
  funext cell deepest
  cases cell <;> simp [depthCell]

end Arena

namespace Node

variable {a : Arena}

/-- The arguments of a call nest as deep in the tables as in the tree if each of them does. -/
theorem StoredArgs.depthWithin_eq {args : List (List Node)} {ranges : List Range} {levels : Nat}
    (h : StoredArgs a args ranges)
    (hseq : ∀ s ∈ args, ∀ r cells, r.Cuts a.cells.toList cells → StoredSeq a s cells →
      a.depthWithin levels r = depthSeq s) :
    (ranges.map (a.depthWithin levels)).foldr max 0 = depthArgs args := by
  induction args generalizing ranges with
  | nil =>
    cases h
    rfl
  | cons s ss ih =>
    cases h with
    | cons hcells head tail =>
      rw [List.map_cons, List.foldr_cons, hseq s List.mem_cons_self _ _ hcells head,
        ih tail fun t ht => hseq t (List.mem_cons_of_mem s ht), depthArgs]

/-- A sequence nests as deep in the tables as in the tree, if it is followed through as many levels
as its calls nest. -/
theorem StoredSeq.depthWithin_eq {ns : List Node} {cells : List Cell} {levels : Nat}
    (h : StoredSeq a ns cells) (hlevels : depthSeq ns ≤ levels + 1) :
    cells.foldr (fun cell deepest => max deepest (a.depthCell levels cell)) 0 = depthSeq ns := by
  induction ns using seqInduction generalizing cells levels with
  | nil =>
    cases h
    rfl
  | literal text span ns ih | field name span ns ih =>
    cases h with
    | cons head tail =>
      cases head
      rw [List.foldr_cons, ih tail (Nat.max_le.1 hlevels).2, Arena.depthCell, depthSeq, depth,
        Nat.max_comm]
  | call name args span ns iha ih =>
    cases h with
    | cons head tail =>
      obtain ⟨hcall, hrest⟩ := Nat.max_le.1 hlevels
      cases head with
      | @call _ _ _ _ r _ hname hranges hargs =>
        have hinner : ((a.argsOf r).map (a.depthWithin levels)).foldr max 0 = depthArgs args := by
          rw [Arena.argsOf, hranges.extract_eq]
          refine hargs.depthWithin_eq fun s hs seq cells hcells hstored => ?_
          have hle := (depthArgs_le_iff args levels).1 (Nat.le_of_succ_le_succ hcall) s hs
          cases levels with
          | zero => exact (Nat.le_zero.1 hle).symm
          | succ levels =>
            rw [Arena.depthWithin_succ, Arena.cellsOf, hcells.extract_eq]
            exact iha s hs hstored hle
        rw [List.foldr_cons, ih tail hrest, Arena.depthCell, hinner, depthSeq, depth, Nat.max_comm,
          Nat.add_comm]

end Node

/-! ## Templates -/

namespace Template

/-- A template of a tree has as many nodes as the tree. -/
theorem nodeCount_ofNodes (ns : List Node) : (ofNodes ns).nodeCount = Node.countSeq ns := by
  rw [← Node.nodes_usageRoot, ← usage_ofNodes]
  rfl

/-- A template of a tree nests as deep as the tree. -/
theorem depth_ofNodes (ns : List Node) : (ofNodes ns).depth = Node.depthSeq ns := by
  obtain ⟨cells, hcells, hstored⟩ := stored_ofNodes ns
  have hlevels : Node.depthSeq ns ≤ (ofNodes ns).nodeCount := by
    rw [nodeCount_ofNodes, ← Node.nodes_usageRoot]
    exact Node.depthSeq_le_nodes ns
  rw [depth]
  cases hcount : (ofNodes ns).nodeCount with
  | zero =>
    rw [hcount] at hlevels
    exact (Nat.le_zero.1 hlevels).symm
  | succ levels =>
    rw [hcount] at hlevels
    rw [Arena.depthWithin_succ, Arena.cellsOf, hcells.extract_eq]
    exact hstored.depthWithin_eq hlevels

end Template

/-- The tables of a template that was compiled are those of its tree. -/
theorem ofNodes_toNodes_of_compileWithin {limits : Reader.Limits} {source : String} {t : Template}
    (h : compileWithin limits source = .ok t) : Template.ofNodes t.toNodes = t := by
  obtain ⟨ps, -, rfl⟩ := (compileWithin_eq_ok_iff limits source t).1 h
  rw [Template.toNodes_ofNodes]

/-- A template nests no deeper than the limit. -/
theorem depth_le_of_compileWithin {limits : Reader.Limits} {source : String} {t : Template}
    (h : compileWithin limits source = .ok t) : t.depth ≤ limits.maxDepth := by
  obtain ⟨ps, hps, rfl⟩ := (compileWithin_eq_ok_iff limits source t).1 h
  rw [Template.depth_ofNodes, Piece.depthSeq_nodes]
  exact hps.depth

/-- A template refines its tree. Two templates, compiled from any sources within any limits, are
equal if and only if their trees are; and the number of nodes, the nesting of calls and every
evaluation, with all it does and gives, are those of the tree. -/
theorem compileWithin_refines {limits limits' : Reader.Limits} {a b : String} {s t : Template}
    (ha : compileWithin limits a = .ok s) (hb : compileWithin limits' b = .ok t) :
    (s = t ↔ s.toNodes = t.toNodes) ∧ s.nodeCount = Node.countSeq s.toNodes ∧
      s.depth = Node.depthSeq s.toNodes ∧
      ∀ ctx, s.evaluate ctx = Node.evalSeq ctx s.toNodes ctx.options.maxDepth := by
  have hs := ofNodes_toNodes_of_compileWithin ha
  have ht := ofNodes_toNodes_of_compileWithin hb
  refine ⟨⟨congrArg Template.toNodes, fun h => ?_⟩, ?_, ?_, fun ctx => ?_⟩
  · rw [← hs, ← ht, h]
  · rw [← Template.nodeCount_ofNodes, hs]
  · rw [← Template.depth_ofNodes, hs]
  · rw [← Template.evaluate_ofNodes, hs]

/-- Calls inside each other, against a source of the same beginning under other limits. -/
theorem compileWithin_refines_nested :
    ∃ s t, compileWithin { maxDepth := 2 } "$f(%x%,$g())" = .ok s ∧
      compileWithin { maxDepth := 1, capacity := 20 } "$f(%x%,y)" = .ok t ∧
      s ≠ t ∧ s.nodeCount = 3 ∧ s.depth = 2 ∧
      ∀ ctx, s.evaluate ctx = Node.evalSeq ctx s.toNodes ctx.options.maxDepth := by
  have hs := (compileWithin_eq_ok_iff { maxDepth := 2 } "$f(%x%,$g())" _).2
    ⟨[.call "f" [[.field "x"], [.call "g" []]]],
      ⟨⟨by decide, by decide⟩, by decide, ⟨by decide, by decide, by decide⟩⟩, rfl⟩
  have ht := (compileWithin_eq_ok_iff { maxDepth := 1, capacity := 20 } "$f(%x%,y)" _).2
    ⟨[.call "f" [[.field "x"], [.plain 'y']]],
      ⟨⟨by decide, by decide⟩, by decide, ⟨by decide, by decide, by decide⟩⟩, rfl⟩
  obtain ⟨hequal, hcount, hdepth, heval⟩ := compileWithin_refines hs ht
  refine ⟨_, _, hs, ht, mt hequal.1 ?_, hcount.trans ?_, hdepth.trans ?_, heval⟩
  · rw [Template.toNodes_ofNodes, Template.toNodes_ofNodes]
    intro h
    cases h
  · rw [Template.toNodes_ofNodes]
    rfl
  · rw [Template.toNodes_ofNodes]
    rfl

end TagTemplate
