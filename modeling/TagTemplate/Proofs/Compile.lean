import TagTemplate.Compile
import TagTemplate.Proofs.Layout
import TagTemplate.Proofs.Reading.Complete

/-!
# What compiles, and to which tree

Compiling accepts the template language and nothing else, as far as the limit on nesting allows, and
a template unfolds to the tree of the derivation of its source (`compile_ok_iff_spells`). The limit
on the size of a template needs no mention: a tree takes up no more than its source has bytes, so a
source that a 32-bit index reaches through is never too large.
-/

namespace TagTemplate

open Piece (Spells nodes depthSeq)

/-- A source compiles exactly to the templates of the trees that can be read from it. -/
theorem compileWithin_eq_ok_iff (limits : Reader.Limits) (source : String) (t : Template) :
    compileWithin limits source = .ok t ↔
      ∃ ps, Reader.Derives limits source ps ∧ t = Template.ofNodes (nodes 0 ps) := by
  rw [compileWithin]
  constructor
  · intro hok
    obtain ⟨ns, hread, hok⟩ := Reader.exists_of_bind_eq_ok hok
    cases hok
    obtain ⟨ps, hps, rfl⟩ := (Reader.read_eq_ok_iff _ source ns).1 hread
    exact ⟨ps, hps, rfl⟩
  · rintro ⟨ps, hps, rfl⟩
    rw [Reader.read_complete hps]
    rfl

/-- The errors of compiling are those of reading. -/
theorem compileWithin_eq_error_iff (limits : Reader.Limits) (source : String) (e : CompileError) :
    compileWithin limits source = .error e ↔ Reader.read limits source = .error e := by
  rw [compileWithin]
  cases Reader.read limits source with
  | ok ns => exact ⟨nofun, nofun⟩
  | error e' => exact ⟨fun h => by cases h; rfl, fun h => by cases h; rfl⟩

/-- `compileWithin_eq_ok_iff` for the capacity that templates have. -/
theorem compile_eq_ok_iff (source : String) (maxDepth : Nat) (t : Template) :
    compile source maxDepth = .ok t ↔
      ∃ ps, Reader.Derives { maxDepth } source ps ∧ t = Template.ofNodes (nodes 0 ps) :=
  compileWithin_eq_ok_iff { maxDepth } source t

/-- A derivation that a 32-bit index reaches through compiles to its tree. -/
theorem compile_of_spells {source : String} {ps : List Piece} {maxDepth : Nat}
    (h : Spells ps source) (hdepth : depthSeq ps ≤ maxDepth)
    (hsize : source.utf8ByteSize ≤ 2 ^ 32 - 1) :
    compile source maxDepth = .ok (Template.ofNodes (nodes 0 ps)) := by
  have hfits := (Piece.usageRoot_nodes_within 0 ps).mono (h.sizeSeq_eq ▸ hsize)
  exact (compile_eq_ok_iff source maxDepth _).2 ⟨ps, ⟨h, hdepth, hfits⟩, rfl⟩

/-- All derivations of a source text have the same tree. -/
theorem nodes_eq_of_spells {source : String} {ps qs : List Piece} (hps : Spells ps source)
    (hqs : Spells qs source) : nodes 0 ps = nodes 0 qs := by
  -- A reader without limits gives one tree, and it gives those of both derivations.
  let limits : Reader.Limits :=
    { maxDepth := max (depthSeq ps) (depthSeq qs), capacity := source.utf8ByteSize }
  have hread : ∀ {rs}, Spells rs source → depthSeq rs ≤ limits.maxDepth →
      Reader.read limits source = .ok (nodes 0 rs) := by
    intro rs h hdepth
    have hfits := Piece.usageRoot_nodes_within 0 rs
    rw [h.sizeSeq_eq] at hfits
    exact Reader.read_complete ⟨h, hdepth, hfits⟩
  have heq := (hread hps (Nat.le_max_left ..)).symm.trans (hread hqs (Nat.le_max_right ..))
  exact Except.ok.inj heq

/-- Compiling accepts exactly the template language, up to the limit on nesting, and the template
unfolds to the tree of the source: whichever way the source derives from the grammar. -/
theorem compile_ok_iff_spells (source : String) (maxDepth : Nat)
    (hsize : source.utf8ByteSize ≤ 2 ^ 32 - 1) :
    ((∃ t, compile source maxDepth = .ok t) ↔
        ∃ ps, Spells ps source ∧ depthSeq ps ≤ maxDepth) ∧
      ∀ t ps, compile source maxDepth = .ok t → Spells ps source → t.toNodes = nodes 0 ps := by
  refine ⟨⟨?_, ?_⟩, ?_⟩
  · rintro ⟨t, hok⟩
    obtain ⟨ps, hps, -⟩ := (compile_eq_ok_iff source maxDepth t).1 hok
    exact ⟨ps, hps.toSpells, hps.depth⟩
  · rintro ⟨ps, hps, hdepth⟩
    exact ⟨_, compile_of_spells hps hdepth hsize⟩
  · intro t ps hok hps
    obtain ⟨qs, hqs, rfl⟩ := (compile_eq_ok_iff source maxDepth t).1 hok
    rw [Template.toNodes_ofNodes, nodes_eq_of_spells hps hqs.toSpells]

/-- A call with a field in one argument and a group in the other. -/
theorem compile_ok_iff_spells_call :
    "$f(%a%,\\%(,))".utf8ByteSize ≤ 2 ^ 32 - 1 ∧
      ∃ t, compile "$f(%a%,\\%(,))" 1 = .ok t ∧
        t.toNodes =
          [.call "f" [[.field "a" ⟨3, 6⟩], [.literal "%(,)" ⟨7, 12⟩]] ⟨0, 13⟩] := by
  have hsize : "$f(%a%,\\%(,))".utf8ByteSize ≤ 2 ^ 32 - 1 := by decide
  have hspells : Spells
      [.call "f" [[.field "a"], [.escaped '%', .plain '(', .plain ',', .plain ')']]]
      "$f(%a%,\\%(,))" :=
    ⟨by decide, by decide⟩
  obtain ⟨haccepts, htree⟩ := compile_ok_iff_spells "$f(%a%,\\%(,))" 1 hsize
  obtain ⟨t, ht⟩ := haccepts.2 ⟨_, hspells, by decide⟩
  refine ⟨hsize, t, ht, ?_⟩
  rw [htree t _ ht hspells]
  rfl

end TagTemplate
