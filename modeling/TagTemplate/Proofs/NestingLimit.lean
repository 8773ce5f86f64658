import TagTemplate.Compiled
import TagTemplate.Proofs.Coverage
import TagTemplate.Proofs.Reading.Nesting
import TagTemplate.Proofs.Refinement

/-!
# The limit on nesting

A limit on nesting refuses the templates that nest deeper, and has no other effect
(`compile_depth_exact`). A source that goes beyond it is refused at the first call that has as many
others around it as the limit says; the calls of a tree are listed in the order in which they begin
in the source (`CallSite.InOrder`), so this call can be found in the tree that a higher limit
admits.
-/

namespace TagTemplate

open String (utf8Len)
open Piece (charsArgs sizeSeq nodes nodesArgs depthSeq)

/-! ## The order of calls -/

/-- The calls are listed as they begin in the source, all of them between `lo` and `hi`. -/
structure CallSite.InOrder (lo hi : Nat) (sites : List CallSite) : Prop where
  sorted : sites.Pairwise fun s s' => s.start < s'.start
  inside : ∀ s ∈ sites, lo ≤ s.start ∧ s.start < hi

namespace CallSite

/-- No calls are in order anywhere. -/
theorem inOrder_nil (lo hi : Nat) : InOrder lo hi [] :=
  ⟨.nil, List.forall_mem_nil _⟩

/-- Calls that follow others are listed after them. -/
theorem InOrder.append {lo mid hi : Nat} {as bs : List CallSite} (ha : InOrder lo mid as)
    (hb : InOrder mid hi bs) (hlo : lo ≤ mid) (hhi : mid ≤ hi) : InOrder lo hi (as ++ bs) := by
  refine ⟨List.pairwise_append.2 ⟨ha.sorted, hb.sorted, fun s hs s' hs' => ?_⟩,
    List.forall_mem_append.2 ⟨fun s hs => ?_, fun s hs => ?_⟩⟩
  · exact Nat.lt_of_lt_of_le (ha.inside s hs).2 (hb.inside s' hs').1
  · exact ⟨(ha.inside s hs).1, Nat.lt_of_lt_of_le (ha.inside s hs).2 hhi⟩
  · exact ⟨Nat.le_trans hlo (hb.inside s hs).1, (hb.inside s hs).2⟩

/-- Calls that are in order within limits are so within wider ones. -/
theorem InOrder.mono {lo lo' hi hi' : Nat} {sites : List CallSite} (h : InOrder lo hi sites)
    (hlo : lo' ≤ lo) (hhi : hi ≤ hi') : InOrder lo' hi' sites :=
  ⟨h.sorted, fun s hs =>
    ⟨Nat.le_trans hlo (h.inside s hs).1, Nat.lt_of_lt_of_le (h.inside s hs).2 hhi⟩⟩

end CallSite

/-- Merging literals changes nothing in the calls. -/
theorem Node.sitesSeq_join (around : Nat) (n : Node) (ns : List Node) :
    sitesSeq around (join n ns) = n.sites around ++ sitesSeq around ns := by
  cases n with
  | field | call => rfl
  | literal s i =>
    rcases ns with _ | ⟨m, ns⟩
    · rfl
    · cases m <;> rfl

namespace Piece

open CallSite (InOrder inOrder_nil)
open Node (sitesSeq sitesArgs)

/-- The calls of the arguments of a call are in order if those of each argument are. -/
theorem inOrder_args {args : List (List Piece)}
    (h : ∀ a ∈ args, ∀ around pos,
      InOrder pos (pos + sizeSeq a) (sitesSeq around (nodes pos a))) (around pos : Nat) :
    InOrder pos (pos + (utf8Len (charsArgs args) + 1))
      (sitesArgs around (nodesArgs pos args)) := by
  induction args generalizing pos with
  | nil => exact inOrder_nil _ _
  | cons a as ih =>
    have ha := h a List.mem_cons_self around pos
    cases as with
    | nil =>
      rw [nodesArgs, nodesArgs, sitesArgs, sitesArgs, List.append_nil]
      exact ha.mono (Nat.le_refl _) (Nat.le_succ _)
    | cons b bs =>
      have hcomma : (',' : Char).utf8Size = 1 := rfl
      have hsize : utf8Len (charsArgs (a :: b :: bs)) =
          sizeSeq a + 1 + utf8Len (charsArgs (b :: bs)) := by
        simp [charsArgs, sizeSeq, hcomma]
        omega
      have has := ih (fun c hc => h c (List.mem_cons_of_mem a hc)) (pos + (sizeSeq a + 1))
      rw [nodesArgs, sitesArgs, hsize]
      refine (ha.mono (Nat.le_refl _) ?_).append (has.mono (Nat.le_refl _) ?_) ?_ ?_ <;> omega

/-- The calls of a piece are in order if those of its arguments are. -/
theorem inOrder_piece {p : Piece}
    (h : ∀ a ∈ p.args, ∀ around pos,
      InOrder pos (pos + sizeSeq a) (sitesSeq around (nodes pos a))) (around pos : Nat) :
    InOrder pos (pos + p.size) ((p.node pos).sites around) := by
  cases p with
  | plain | escaped | field => exact inOrder_nil _ _
  | call name args =>
    dsimp only [Piece.args] at h
    have hargs := inOrder_args h (around + 1) (pos + (name.utf8ByteSize + 2))
    have hself : InOrder pos (pos + (name.utf8ByteSize + 2)) [⟨around, pos, name⟩] := by
      refine ⟨List.pairwise_singleton _ _, fun s hs => ?_⟩
      obtain rfl := List.mem_singleton.1 hs
      exact ⟨Nat.le_refl _, Nat.lt_add_of_pos_right (Nat.succ_pos _)⟩
    refine hself.append (hargs.mono (Nat.le_refl _) ?_) (Nat.le_add_right _ _) ?_
    · rw [size_call]
      omega
    · rw [size_call]
      omega

/-- The calls of the tree of a text are in order. -/
theorem inOrder_nodes (ps : List Piece) (around pos : Nat) :
    InOrder pos (pos + sizeSeq ps) (sitesSeq around (nodes pos ps)) := by
  induction ps using consInduction generalizing around pos with
  | nil => exact inOrder_nil _ _
  | cons p ps hargs ih =>
    rw [nodes, Node.sitesSeq_join, sizeSeq_cons, ← Nat.add_assoc]
    exact (inOrder_piece hargs around pos).append (ih around _) (Nat.le_add_right _ _)
      (Nat.le_add_right _ _)

end Piece

/-! ## Templates -/

/-- Limits on nesting that differ admit the same templates as far as these nest no deeper. -/
theorem compile_of_depth_le {source : String} {d d' : Nat} {t : Template}
    (h : compile source d' = .ok t) (hdepth : t.depth ≤ d) : compile source d = .ok t := by
  obtain ⟨ps, hps, rfl⟩ := (compile_eq_ok_iff source d' t).1 h
  rw [Template.depth_ofNodes, Piece.depthSeq_nodes] at hdepth
  exact (compile_eq_ok_iff source d _).2 ⟨ps, ⟨hps.toSpells, hdepth, hps.fits⟩, rfl⟩

/-- The calls of a template are listed as they begin in its source. -/
theorem sorted_sites_of_compile {source : String} {d : Nat} {t : Template}
    (h : compile source d = .ok t) :
    (Node.sitesSeq 0 t.toNodes).Pairwise fun s s' => s.start < s'.start := by
  obtain ⟨ps, -, rfl⟩ := (compile_eq_ok_iff source d t).1 h
  rw [Template.toNodes_ofNodes]
  exact (Piece.inOrder_nodes ps 0 0).sorted

/-- A source whose template nests deeper than the limit is refused at the first call that has as
many others around it as the limit says. -/
theorem compile_of_lt_depth {source : String} {d d' : Nat} {t : Template} (hd : d ≤ d')
    (h : compile source d' = .ok t) (hdepth : d < t.depth) :
    ∃ site, Node.firstSite d t.toNodes = some site ∧
      compile source d = .error (.nestingTooDeep d site.start site.stop) ∧
      Span.Covers source ⟨site.start, site.stop⟩ ('$' :: (site.name.toList ++ ['('])) := by
  obtain ⟨ps, hps, rfl⟩ := (compile_eq_ok_iff source d' t).1 h
  have hread := Reader.read_complete hps
  rcases Reader.read_of_deeper hd (UInt32.size - 1) source with heq | ⟨site, before, after, herror,
    hsource, hstart, hfirst⟩
  · -- The lower limit would admit the template.
    have hok : compile source d = .ok (Template.ofNodes (nodes 0 ps)) := by
      rw [compile, compileWithin, heq, hread]
      rfl
    exact absurd (depth_le_of_compileWithin hok) (Nat.not_le_of_lt hdepth)
  · refine ⟨site, ?_, (compileWithin_eq_error_iff _ _ _).2 herror, before, after, hsource, ?_⟩
    · rw [Template.toNodes_ofNodes]
      exact hfirst _ hread
    · rw [CallSite.stop, Piece.utf8Len_callStart, hstart]

/-- An error that is not about nesting is the error within any higher limit. -/
theorem compile_error_of_le {source : String} {d d' : Nat} {e : CompileError} (hd : d ≤ d')
    (h : compile source d = .error e) (he : ∀ limit, e.reason ≠ .nestingTooDeep limit) :
    compile source d' = .error e := by
  have hread := (compileWithin_eq_error_iff { maxDepth := d } source e).1 h
  refine (compileWithin_eq_error_iff { maxDepth := d' } source e).2 ?_
  rcases Reader.read_of_deeper hd (UInt32.size - 1) source with heq | ⟨site, -, -, herror, -⟩
  · exact heq.symm.trans hread
  · obtain rfl := Except.error.inj (hread.symm.trans herror)
    exact absurd rfl (he d)

/-- Templates with their sources are equal if and only if their sources are. -/
theorem Compiled.eq_iff_of_ofSource {a b : String} {d d' : Nat} {x y : Compiled}
    (hx : Compiled.ofSource a d = .ok x) (hy : Compiled.ofSource b d' = .ok y) :
    x = y ↔ a = b := by
  obtain ⟨s, hs, hx⟩ := Reader.exists_of_bind_eq_ok hx
  obtain ⟨t, ht, hy⟩ := Reader.exists_of_bind_eq_ok hy
  cases hx
  cases hy
  refine ⟨congrArg Compiled.source, ?_⟩
  rintro rfl
  have hsdepth := Nat.le_trans (depth_le_of_compileWithin hs) (Nat.le_max_left d d')
  have htdepth := Nat.le_trans (depth_le_of_compileWithin ht) (Nat.le_max_right d d')
  have hs' := compile_of_depth_le hs hsdepth
  have ht' := compile_of_depth_le ht htdepth
  rw [Except.ok.inj (hs'.symm.trans ht')]

/-- The limit on nesting is exact and has no other effect. A template that a limit admits is
admitted within a lower one if it nests no deeper; otherwise the error is that of the first call, as
they begin in the source, that has exactly as many others around it as the lower limit says, and it
points at the call's name with the `$` and the parenthesis. All else that comes of compiling a
source within a limit comes of it within any higher one. So templates with their sources are equal
if and only if the sources are, whatever the limits were. -/
theorem compile_depth_exact {d d' : Nat} (hd : d ≤ d') (source : String) :
    (∀ t, compile source d' = .ok t →
      (t.depth ≤ d → compile source d = .ok t) ∧
      (d < t.depth → ∃ site, Node.firstSite d t.toNodes = some site ∧
        (Node.sitesSeq 0 t.toNodes).Pairwise (fun s s' => s.start < s'.start) ∧
        compile source d = .error (.nestingTooDeep d site.start site.stop) ∧
        Span.Covers source ⟨site.start, site.stop⟩ ('$' :: (site.name.toList ++ ['('])))) ∧
    (∀ t, compile source d = .ok t → compile source d' = .ok t) ∧
    (∀ e, compile source d = .error e → (∀ limit, e.reason ≠ .nestingTooDeep limit) →
      compile source d' = .error e) ∧
    ∀ a b m m' x y, Compiled.ofSource a m = .ok x → Compiled.ofSource b m' = .ok y →
      (x = y ↔ a = b) := by
  refine ⟨fun t ht => ⟨compile_of_depth_le ht, fun hdepth => ?_⟩, fun t ht => ?_,
    fun e he => compile_error_of_le hd he, fun a b m m' x y => Compiled.eq_iff_of_ofSource⟩
  · obtain ⟨site, hfirst, herror, hcovers⟩ := compile_of_lt_depth hd ht hdepth
    exact ⟨site, hfirst, sorted_sites_of_compile ht, herror, hcovers⟩
  · exact compile_of_depth_le ht (Nat.le_trans (depth_le_of_compileWithin ht) hd)

/-- Two calls inside a third, the first of them with a call inside, after a call that is closed. -/
theorem compile_depth_exact_siblings :
    ∃ t, compile "é$f(x)$g(y,$h($k()),$j())" 3 = .ok t ∧ 1 < t.depth ∧
      Node.firstSite 1 t.toNodes = some ⟨1, 12, "h"⟩ ∧
      compile "é$f(x)$g(y,$h($k()),$j())" 1 = .error (.nestingTooDeep 1 12 15) := by
  let ps : List Piece :=
    [.plain 'é', .call "f" [[.plain 'x']],
      .call "g" [[.plain 'y'], [.call "h" [[.call "k" []]]], [.call "j" []]]]
  have hspells : Piece.Spells ps "é$f(x)$g(y,$h($k()),$j())" := ⟨by decide, by decide⟩
  have ht := compile_of_spells hspells (by decide : _ ≤ 3) (by decide)
  have hdepth : 1 < (Template.ofNodes (nodes 0 ps)).depth := by
    rw [Template.depth_ofNodes]
    decide
  obtain ⟨hexact, -⟩ := compile_depth_exact (by decide : 1 ≤ 3) "é$f(x)$g(y,$h($k()),$j())"
  obtain ⟨site, hfirst, -, herror, -⟩ := (hexact _ ht).2 hdepth
  obtain rfl : site = ⟨1, 12, "h"⟩ := by
    rw [Template.toNodes_ofNodes] at hfirst
    exact Option.some.inj (hfirst.symm.trans rfl)
  exact ⟨_, ht, hdepth, hfirst, herror⟩

end TagTemplate
