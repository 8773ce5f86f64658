import Mathlib.Data.List.Perm.Basic
import TagTemplate.Proofs.Compile

/-!
# Everything in the tables has one owner

Laying out a tree puts its texts, its sequences and the arguments of its calls into the tables one
after the other, each at the end of its table, while the nodes they belong to may still be waiting
for their own place. `Arena.Owns` is the invariant of these half-built tables: what was added since
some earlier state is owned, piece by piece and without gap or overlap, by the nodes and sequences
that have their place and those that wait for it, and what belongs to a sequence lies before it. A
finished template has nothing left that waits, so its tables are divided among their owners
(`Template.wellFormed_ofNodes`), and from its root one comes to every entry, on paths that end.
-/

namespace TagTemplate

/-! ## Pieces that make up a table -/

namespace Range

/-- Does the piece contain the entry? -/
def Holds (r : Range) (i : Nat) : Prop :=
  r.start ≤ i ∧ i < r.stop

/-- Whether a piece contains an entry is seen from its ends. -/
instance (r : Range) (i : Nat) : Decidable (r.Holds i) :=
  inferInstanceAs (Decidable (_ ∧ _))

/-- The pieces make up a table of `size` entries: they lie inside it, and every entry is in exactly
one of them. -/
structure Partition (rs : List Range) (size : Nat) : Prop where
  inside : ∀ r ∈ rs, r.stop ≤ size
  once : ∀ i < size, rs.countP (fun r => decide (r.Holds i)) = 1

/-- The pieces follow each other from `lo` to `hi`. -/
inductive Chain : Nat → List Range → Nat → Prop
  | nil (n : Nat) : Chain n [] n
  | cons {r : Range} {rs : List Range} {hi : Nat} (h : Chain r.stop rs hi) :
      Chain r.start (r :: rs) hi

/-- The pieces make up what is between `lo` and `hi`, in some order. -/
def Fills (rs : List Range) (lo hi : Nat) : Prop :=
  ∃ chain : List Range, chain.Perm rs ∧ Chain lo chain hi

/-- Pieces that follow each other do not go back. -/
theorem Chain.le {lo hi : Nat} {rs : List Range} (h : Chain lo rs hi) : lo ≤ hi := by
  induction h with
  | nil n => exact Nat.le_refl n
  | @cons r rs hi h ih => exact Nat.le_trans (Nat.le_add_right r.start r.size) ih

/-- Pieces that follow pieces follow each other. -/
theorem Chain.append {lo mid hi : Nat} {rs ss : List Range} (h : Chain lo rs mid)
    (h' : Chain mid ss hi) : Chain lo (rs ++ ss) hi := by
  induction h with
  | nil => exact h'
  | cons h ih => exact .cons (ih h')

/-- Pieces that follow each other up to `hi` end there at the latest. -/
theorem Chain.stop_le {lo hi : Nat} {rs : List Range} (h : Chain lo rs hi) :
    ∀ r ∈ rs, r.stop ≤ hi := by
  induction h with
  | nil => simp
  | @cons r rs hi h ih => exact List.forall_mem_cons.2 ⟨h.le, ih⟩

/-- A chain contains the entries from its beginning to its end once, and no others. -/
theorem Chain.countP_holds {lo hi : Nat} {rs : List Range} (h : Chain lo rs hi) (i : Nat) :
    rs.countP (fun r => decide (r.Holds i)) = if lo ≤ i ∧ i < hi then 1 else 0 := by
  induction h with
  | nil n => rw [List.countP_nil, if_neg (by omega)]
  | @cons r rs hi h ih =>
    have hle := h.le
    have hfirst : r.start ≤ r.stop := Nat.le_add_right ..
    rw [List.countP_cons, ih]
    by_cases hr : r.Holds i
    · have hr' := hr
      obtain ⟨hstart, hstop⟩ := hr'
      rw [if_neg (by omega), if_pos (decide_eq_true hr), if_pos (by omega)]
    · rw [if_neg (show ¬decide (r.Holds i) = true by simpa using hr), Nat.add_zero]
      rw [Holds] at hr
      congr 1
      exact propext ⟨fun _ => by omega, fun _ => by omega⟩

/-- What the pieces of a chain cut out of a table is, in order, what is between its ends. -/
theorem Chain.flatMap_extract {α : Type} {lo hi : Nat} {rs : List Range} (h : Chain lo rs hi)
    (table : Array α) :
    rs.flatMap (fun r => (table.extract r.start r.stop).toList) = (table.extract lo hi).toList := by
  induction h with
  | nil n => simp
  | @cons r rs hi h ih =>
    have hfirst : r.start ≤ r.stop := Nat.le_add_right ..
    rw [List.flatMap_cons, ih, ← Array.toList_append, Array.extract_append_extract,
      Nat.min_eq_left hfirst, Nat.max_eq_right h.le]

/-- No pieces make up what is between a place and itself. -/
theorem fills_nil (n : Nat) : Fills [] n n :=
  ⟨[], .refl _, .nil n⟩

/-- One piece makes up what is between its ends. -/
theorem fills_singleton (r : Range) : Fills [r] r.start r.stop :=
  ⟨[r], .refl _, .cons (.nil _)⟩

/-- Pieces that make up neighbouring parts make up both together. -/
theorem Fills.append {lo mid hi : Nat} {rs ss : List Range} (h : Fills rs lo mid)
    (h' : Fills ss mid hi) : Fills (rs ++ ss) lo hi := by
  obtain ⟨chain, hperm, hchain⟩ := h
  obtain ⟨chain', hperm', hchain'⟩ := h'
  exact ⟨chain ++ chain', hperm.append hperm', hchain.append hchain'⟩

/-- In which order the pieces are does not matter. -/
theorem Fills.perm {lo hi : Nat} {rs ss : List Range} (h : Fills rs lo hi) (hperm : rs.Perm ss) :
    Fills ss lo hi := by
  obtain ⟨chain, hchain, h⟩ := h
  exact ⟨chain, hchain.trans hperm, h⟩

/-- What pieces make up does not go back. -/
theorem Fills.le {lo hi : Nat} {rs : List Range} (h : Fills rs lo hi) : lo ≤ hi := by
  obtain ⟨chain, -, h⟩ := h
  exact h.le

/-- Pieces that fill a table from its beginning make it up. -/
theorem Fills.partition {rs : List Range} {size : Nat} (h : Fills rs 0 size) :
    Partition rs size := by
  obtain ⟨chain, hperm, hchain⟩ := h
  refine ⟨fun r hr => hchain.stop_le r (hperm.mem_iff.2 hr), fun i hi => ?_⟩
  rw [← hperm.countP_eq, hchain.countP_holds, if_pos ⟨Nat.zero_le i, hi⟩]

/-- What the pieces cut out of a table that they fill is all that is in it. -/
theorem Fills.flatMap_extract_perm {α : Type} {rs : List Range} {table : Array α}
    (h : Fills rs 0 table.size) :
    (rs.flatMap fun r => (table.extract r.start r.stop).toList).Perm table.toList := by
  obtain ⟨chain, hperm, hchain⟩ := h
  have hflat := hchain.flatMap_extract table
  rw [Array.extract_size] at hflat
  rw [← hflat]
  exact (hperm.flatMap_right _).symm

/-- Every entry of a table is in one of the pieces that make it up. -/
theorem Partition.exists_holds {rs : List Range} {size i : Nat} (h : Partition rs size)
    (hi : i < size) : ∃ r ∈ rs, r.Holds i := by
  have hpos : 0 < rs.countP (fun r => decide (r.Holds i)) := by
    rw [h.once i hi]
    exact Nat.one_pos
  obtain ⟨r, hr, hholds⟩ := List.countP_pos_iff.1 hpos
  exact ⟨r, hr, of_decide_eq_true hholds⟩

/-- A range that holds entries of a table ends inside it. -/
theorem Cuts.stop_le {α : Type} {r : Range} {table m : List α} (h : r.Cuts table m) :
    r.stop ≤ table.length := by
  obtain ⟨before, after, rfl, rfl⟩ := h
  simp [stop]

end Range

/-! ## Owners -/

open Range (Fills Partition)

/-- The place of the text or name of a node. -/
def Cell.text : Cell → Range
  | .literal text _ => text
  | .field name _ | .call name _ _ => name

/-- The place of the arguments of a node, if it is a call. -/
def Cell.args? : Cell → Option Range
  | .literal _ _ | .field _ _ => none
  | .call _ args _ => some args

/-- The tables hold the text of the node and the sequences of its arguments, which end at the
latest where the sequence of the node may begin. -/
structure Cell.Sound (a : Arena) (bound : Nat) (cell : Cell) : Prop where
  text : ∃ m, cell.text.CutsText a.text m
  args : ∀ r ∈ cell.args?, ∃ seqs, r.Cuts a.args.toList seqs ∧ ∀ seq ∈ seqs, seq.stop ≤ bound

/-- A sound cell stays sound when the tables grow and more may stand before it. -/
theorem Cell.Sound.mono {a b : Arena} {m n : Nat} {cell : Cell} (h : cell.Sound a m)
    (hab : a.Extends b) (hmn : m ≤ n) : cell.Sound b n := by
  obtain ⟨⟨text, htext⟩, hargs⟩ := h
  obtain ⟨more, hmore⟩ := hab.text
  obtain ⟨more', hmore'⟩ := hab.args
  refine ⟨⟨text, hmore ▸ htext.append more⟩, fun r hr => ?_⟩
  obtain ⟨seqs, hseqs, hbound⟩ := hargs r hr
  exact ⟨seqs, hmore' ▸ hseqs.append more', fun seq hseq => Nat.le_trans (hbound seq hseq) hmn⟩

/-- The range holds a sequence of nodes, and what belongs to them lies before it. -/
def Range.Settled (a : Arena) (r : Range) : Prop :=
  ∃ cells, r.Cuts a.cells.toList cells ∧ ∀ cell ∈ cells, cell.Sound a r.start

/-- A settled range stays settled when the tables grow. -/
theorem Range.Settled.mono {a b : Arena} {r : Range} (h : r.Settled a) (hab : a.Extends b) :
    r.Settled b := by
  obtain ⟨cells, hcells, hsound⟩ := h
  obtain ⟨more, hmore⟩ := hab.cells
  exact ⟨cells, hmore ▸ hcells.append more,
    fun cell hcell => (hsound cell hcell).mono hab (Nat.le_refl _)⟩

namespace Arena

/-- The tables `b` are the tables `a` and what was added: the nodes `placed` and `waiting`, of which
the second have no place in the table of nodes yet, and the sequences `listed` and `loose`, of which
the second are no arguments of a call yet. -/
structure Owns (a b : Arena) (placed waiting : List Cell) (listed loose : List Range) : Prop where
  cells : b.cells.toList = a.cells.toList ++ placed
  args : b.args.toList = a.args.toList ++ listed
  text : ∃ more, b.text = a.text ++ more
  texts_fill : Fills ((placed ++ waiting).map Cell.text) a.text.utf8ByteSize b.text.utf8ByteSize
  lists_fill : Fills ((placed ++ waiting).filterMap Cell.args?) a.args.size b.args.size
  seqs_fill : Fills (listed ++ loose) a.cells.size b.cells.size
  sound : ∀ cell ∈ placed ++ waiting, cell.Sound b b.cells.size
  settled : ∀ r ∈ listed ++ loose, r.Settled b

/-- What is added last ends where the table ends. -/
theorem utf8ByteSize_pushText (a : Arena) (text : String) :
    (a.pushText text).2.text.utf8ByteSize = (a.pushText text).1.stop := by
  simp [pushText, Range.stop]

/-- The table of nodes ends where the pushed cells do. -/
theorem size_pushCells (a : Arena) (cells : List Cell) :
    (a.pushCells cells).2.cells.size = (a.pushCells cells).1.stop := by
  simp [pushCells, Range.stop, ← Array.length_toList]

/-- The table of arguments ends where the pushed ones do. -/
theorem size_pushArgs (a : Arena) (args : List Range) :
    (a.pushArgs args).2.args.size = (a.pushArgs args).1.stop := by
  simp [pushArgs, Range.stop, ← Array.length_toList]

namespace Owns

variable {a b c : Arena} {placed placed' waiting waiting' : List Cell}
  {listed listed' loose loose' : List Range}

/-- Tables to which something was added begin with what they were. -/
theorem ext (h : Owns a b placed waiting listed loose) : a.Extends b :=
  ⟨⟨placed, h.cells⟩, ⟨listed, h.args⟩, h.text⟩

/-- Nothing is taken out of the table of nodes. -/
theorem size_le (h : Owns a b placed waiting listed loose) : a.cells.size ≤ b.cells.size :=
  h.seqs_fill.le

/-- Nothing was added to tables that did not change. -/
protected theorem refl (a : Arena) : Owns a a [] [] [] [] :=
  ⟨by simp, by simp, ⟨"", by simp⟩, Range.fills_nil _, Range.fills_nil _, Range.fills_nil _,
    by simp, by simp⟩

/-- Two lists in two parts each may be put together part by part. -/
theorem perm_parts {α : Type} (as bs cs ds : List α) :
    ((as ++ bs) ++ (cs ++ ds)).Perm ((as ++ cs) ++ (bs ++ ds)) := by
  rw [List.append_assoc, List.append_assoc]
  exact (List.perm_append_comm_assoc bs cs ds).append_left as

/-- What is added first and what is added then is owned together. -/
theorem trans (h : Owns a b placed waiting listed loose)
    (h' : Owns b c placed' waiting' listed' loose') :
    Owns a c (placed ++ placed') (waiting ++ waiting') (listed ++ listed') (loose ++ loose') := by
  have hcells := perm_parts placed waiting placed' waiting'
  have hseqs := perm_parts listed loose listed' loose'
  refine ⟨?_, ?_, (h.ext.trans h'.ext).text, ?_, ?_, ?_, fun cell hcell => ?_, fun r hr => ?_⟩
  · rw [h'.cells, h.cells, List.append_assoc]
  · rw [h'.args, h.args, List.append_assoc]
  · have hfill := h.texts_fill.append h'.texts_fill
    rw [← List.map_append] at hfill
    exact hfill.perm (hcells.map _)
  · have hfill := h.lists_fill.append h'.lists_fill
    rw [← List.filterMap_append] at hfill
    exact hfill.perm (hcells.filterMap _)
  · exact (h.seqs_fill.append h'.seqs_fill).perm hseqs
  · rcases List.mem_append.1 (hcells.mem_iff.2 hcell) with hcell | hcell
    · exact (h.sound cell hcell).mono h'.ext h'.size_le
    · exact h'.sound cell hcell
  · rcases List.mem_append.1 (hseqs.mem_iff.2 hr) with hr | hr
    · exact (h.settled r hr).mono h'.ext
    · exact h'.settled r hr

/-- A text goes to the end of the string for a node that has no arguments. -/
theorem pushText (a : Arena) (text : String) {cell : Cell} (hcell : cell.text = (a.pushText text).1)
    (hargs : cell.args? = none) : Owns a (a.pushText text).2 [] [cell] [] [] where
  cells := by simp [Arena.pushText]
  args := by simp [Arena.pushText]
  text := ⟨text, rfl⟩
  texts_fill := by
    rw [List.nil_append, List.map_singleton, hcell, utf8ByteSize_pushText]
    exact Range.fills_singleton _
  lists_fill := by
    rw [List.nil_append, List.filterMap_cons_none hargs]
    exact Range.fills_nil _
  seqs_fill := Range.fills_nil _
  sound := by
    refine List.forall_mem_singleton.2 ⟨⟨text, hcell ▸ a.cutsText_pushText text⟩, ?_⟩
    simp [hargs]
  settled := by simp

/-- A sequence goes to the end of the table of nodes, and its nodes have their places. -/
theorem pushCells (h : Owns a b placed waiting listed loose) :
    Owns a (b.pushCells waiting).2 (placed ++ waiting) [] listed
      (loose ++ [(b.pushCells waiting).1]) := by
  have hext := b.extends_pushCells waiting
  have hsize : b.cells.size ≤ (b.pushCells waiting).2.cells.size :=
    b.size_pushCells waiting ▸ Nat.le_add_right ..
  refine ⟨?_, h.args, h.text, ?_, ?_, ?_, fun cell hcell => ?_, fun r hr => ?_⟩
  · simp [Arena.pushCells, h.cells]
  · rw [List.append_nil]
    exact h.texts_fill
  · rw [List.append_nil]
    exact h.lists_fill
  · rw [← List.append_assoc, size_pushCells]
    exact h.seqs_fill.append (Range.fills_singleton (b.pushCells waiting).1)
  · rw [List.append_nil] at hcell
    exact (h.sound cell hcell).mono hext hsize
  · rw [← List.append_assoc] at hr
    rcases List.mem_append.1 hr with hr | hr
    · exact (h.settled r hr).mono hext
    · rw [List.mem_singleton.1 hr]
      refine ⟨waiting, b.cuts_pushCells waiting, fun cell hcell => ?_⟩
      exact (h.sound cell (List.mem_append_right placed hcell)).mono hext (Nat.le_refl _)

/-- The arguments of a call go to the end of their table and its name to the end of the string,
and the call waits for its own place. -/
theorem call (h : Owns a b placed [] listed loose) (name : String) (span : Span) :
    Owns a ((b.pushArgs loose).2.pushText name).2 placed
      [.call ((b.pushArgs loose).2.pushText name).1 (b.pushArgs loose).1 span]
      (listed ++ loose) [] := by
  have hext := (b.extends_pushArgs loose).trans ((b.pushArgs loose).2.extends_pushText name)
  have hargs := b.cuts_pushArgs loose
  have hab := h.ext
  obtain ⟨hcells, hlisted, -, htexts, hlists, hseqs, hsound, hsettled⟩ := h
  rw [List.append_nil] at htexts hlists hsound
  refine ⟨hcells, ?_, (hab.trans hext).text, ?_, ?_, ?_, fun cell hcell => ?_, fun r hr => ?_⟩
  · simp [Arena.pushArgs, Arena.pushText, hlisted]
  · rw [List.map_append, utf8ByteSize_pushText]
    exact htexts.append (Range.fills_singleton ((b.pushArgs loose).2.pushText name).1)
  · rw [List.filterMap_append]
    have hsize := b.size_pushArgs loose
    exact hsize ▸ hlists.append (Range.fills_singleton (b.pushArgs loose).1)
  · rw [List.append_nil]
    exact hseqs
  · rcases List.mem_append.1 hcell with hcell | hcell
    · exact (hsound cell hcell).mono hext (Nat.le_refl _)
    · rw [List.mem_singleton.1 hcell]
      refine ⟨⟨name, (b.pushArgs loose).2.cutsText_pushText name⟩, fun r hr => ?_⟩
      cases hr
      refine ⟨loose, hargs, fun seq hseq => ?_⟩
      obtain ⟨cells, hcells, -⟩ := hsettled seq (List.mem_append_right listed hseq)
      exact hcells.stop_le
  · rw [List.append_nil] at hr
    exact (hsettled r hr).mono hext

end Owns

end Arena

namespace Node

mutual

/-- Laying out a node adds what is in its arguments and owned there, and what the node owns. -/
theorem layout_owns (a : Arena) : ∀ n : Node, ∃ placed listed,
    Arena.Owns a (n.layout a).2 placed [(n.layout a).1] listed []
  | .literal text _ => ⟨[], [], .pushText a text rfl rfl⟩
  | .field name _ => ⟨[], [], .pushText a name rfl rfl⟩
  | .call name args span => by
    obtain ⟨placed, listed, hargs⟩ := layoutArgs_owns a args
    exact ⟨placed, _, hargs.call name span⟩

/-- The cells of a sequence that is laid out wait for their place, and all that is in them has one.
-/
theorem layoutSeq_owns (a : Arena) : ∀ ns : List Node, ∃ placed listed,
    Arena.Owns a (layoutSeq a ns).2 placed (layoutSeq a ns).1 listed []
  | [] => ⟨[], [], .refl a⟩
  | n :: ns => by
    obtain ⟨placed, listed, hn⟩ := layout_owns a n
    obtain ⟨placed', listed', hns⟩ := layoutSeq_owns (n.layout a).2 ns
    exact ⟨placed ++ placed', listed ++ listed', hn.trans hns⟩

/-- The ranges of arguments that are laid out are loose, and all that is in them has a place. -/
theorem layoutArgs_owns (a : Arena) : ∀ args : List (List Node), ∃ placed listed,
    Arena.Owns a (layoutArgs a args).2 placed [] listed (layoutArgs a args).1
  | [] => ⟨[], [], .refl a⟩
  | s :: ss => by
    obtain ⟨placed, listed, hs⟩ := layoutSeq_owns a s
    obtain ⟨placed', listed', hss⟩ :=
      layoutArgs_owns ((layoutSeq a s).2.pushCells (layoutSeq a s).1).2 ss
    exact ⟨_, _, hs.pushCells.trans hss⟩

end

end Node

/-! ## Well-formed templates -/

/-- The piece of a text begins and ends between two of its characters. -/
def Range.OnBoundaries (r : Range) (text : String) : Prop :=
  String.Pos.Raw.IsValid text ⟨r.start⟩ ∧ String.Pos.Raw.IsValid text ⟨r.stop⟩

/-- A range that holds a text begins and ends between two characters. -/
theorem Range.CutsText.onBoundaries {r : Range} {text m : String} (h : r.CutsText text m) :
    r.OnBoundaries text := by
  obtain ⟨before, after, rfl, rfl⟩ := h
  have hstart : String.Pos.Raw.IsValid (before ++ (m ++ after)) before.rawEndPos :=
    String.Pos.Raw.isValid_rawEndPos.append_right _
  have hstop : String.Pos.Raw.IsValid (before ++ m ++ after) (before ++ m).rawEndPos :=
    String.Pos.Raw.isValid_rawEndPos.append_right _
  rw [← String.append_assoc] at hstart
  refine ⟨hstart, ?_⟩
  rwa [String.rawEndPos, String.utf8ByteSize_append] at hstop

/-- The sequences of the arguments of a node. -/
def Arena.argumentsOf (a : Arena) (cell : Cell) : List Range :=
  cell.args?.toList.flatMap a.argsOf

namespace Template

/-- The places of all texts and names. -/
def texts (t : Template) : List Range :=
  t.cells.toList.map Cell.text

/-- The places of the arguments of all calls. -/
def argLists (t : Template) : List Range :=
  t.cells.toList.filterMap Cell.args?

/-- The places of all sequences: the one at the top, and the arguments of all calls. -/
def sequences (t : Template) : List Range :=
  t.root :: t.argLists.flatMap t.argsOf

/-- The tables of the template are divided among the nodes and sequences in it, and what belongs to
a sequence lies before it. -/
structure WellFormed (t : Template) : Prop where
  root_inside : t.root.stop ≤ t.cells.size
  args_inside : ∀ r ∈ t.args.toList, r.stop ≤ t.cells.size
  boundaries : ∀ r ∈ t.texts, r.OnBoundaries t.text
  earlier : ∀ seq ∈ t.sequences, ∀ cell ∈ t.cellsOf seq, ∀ arg ∈ t.argumentsOf cell,
    arg.stop ≤ seq.start
  sequences_partition : Partition t.sequences t.cells.size
  argLists_partition : Partition t.argLists t.args.size
  texts_partition : Partition t.texts t.text.utf8ByteSize

/-- The finished tables of a tree are owned by their own nodes and sequences. -/
theorem owns_ofNodes (ns : List Node) :
    Arena.Owns {} (ofNodes ns).toArena (ofNodes ns).cells.toList [] (ofNodes ns).args.toList
      [(ofNodes ns).root] := by
  obtain ⟨placed, listed, hseq⟩ := Node.layoutSeq_owns {} ns
  have h := hseq.pushCells
  have hcells : (ofNodes ns).cells.toList = placed ++ (Node.layoutSeq {} ns).1 := h.cells
  have hargs : (ofNodes ns).args.toList = listed := h.args
  rw [hcells, hargs]
  exact h

/-- The template of a tree is well formed. -/
theorem wellFormed_ofNodes (ns : List Node) : (ofNodes ns).WellFormed := by
  have h := owns_ofNodes ns
  generalize ofNodes ns = t at h
  have hsequences : (t.args.toList ++ [t.root]).Perm t.sequences := by
    have hlists := h.lists_fill
    rw [List.append_nil] at hlists
    have hperm := (Range.Fills.flatMap_extract_perm hlists).symm
    exact List.perm_append_comm.trans (hperm.cons t.root)
  have hinside : ∀ r ∈ t.args.toList ++ [t.root], r.stop ≤ t.cells.size := by
    intro r hr
    obtain ⟨cells, hcells, -⟩ := h.settled r hr
    exact hcells.stop_le
  refine ⟨hinside _ (by simp), fun r hr => hinside r (by simp [hr]), fun r hr => ?_, ?_, ?_, ?_, ?_⟩
  · obtain ⟨cell, hcell, rfl⟩ := List.mem_map.1 hr
    obtain ⟨text, htext⟩ := (h.sound cell (by simp [hcell])).text
    exact htext.onBoundaries
  · intro seq hseq cell hcell arg harg
    obtain ⟨cells, hcells, hsound⟩ := h.settled seq (hsequences.mem_iff.2 hseq)
    rw [Arena.cellsOf, hcells.extract_eq] at hcell
    obtain ⟨args, hargs, harg⟩ := List.mem_flatMap.1 harg
    obtain ⟨seqs, hseqs, hbound⟩ := (hsound cell hcell).args args (Option.mem_toList.1 hargs)
    rw [Arena.argsOf, hseqs.extract_eq] at harg
    exact hbound arg harg
  · exact (h.seqs_fill.perm hsequences).partition
  · have hlists := h.lists_fill
    rw [List.append_nil] at hlists
    exact hlists.partition
  · have htexts := h.texts_fill
    rw [List.append_nil] at htexts
    exact htexts.partition

end Template

/-! ## From the root -/

/-- The cells of a range are the entries that it contains. -/
theorem Arena.mem_cellsOf {a : Arena} {r : Range} {cell : Cell} :
    cell ∈ a.cellsOf r ↔ ∃ i, r.Holds i ∧ a.cells[i]? = some cell := by
  rw [cellsOf, Array.mem_toList_iff, Array.mem_extract_iff_getElem]
  constructor
  · rintro ⟨i, hi, rfl⟩
    exact ⟨r.start + i, ⟨Nat.le_add_right .., by omega⟩, Array.getElem?_eq_getElem (by omega)⟩
  · rintro ⟨i, ⟨hstart, hstop⟩, hcell⟩
    obtain ⟨hi, rfl⟩ := Array.getElem?_eq_some_iff.1 hcell
    refine ⟨i - r.start, by omega, ?_⟩
    congr 1
    omega

/-- The cells of a range are cells of the table. -/
theorem Arena.mem_cells {a : Arena} {r : Range} {cell : Cell} (h : cell ∈ a.cellsOf r) :
    cell ∈ a.cells.toList := by
  obtain ⟨i, -, hi⟩ := mem_cellsOf.1 h
  exact Array.mem_toList_iff.2 (Array.mem_of_getElem? hi)

namespace Template

variable {t : Template}

/-- The first sequence is an argument of a call in the second, and the second is in the template. -/
def ArgumentOf (t : Template) (arg seq : Range) : Prop :=
  seq ∈ t.sequences ∧ ∃ cell ∈ t.cellsOf seq, arg ∈ t.argumentsOf cell

/-- One comes from the root to the sequence, through arguments of calls. -/
inductive Reaches (t : Template) : Range → Prop
  | root : t.Reaches t.root
  | argument {arg seq : Range} {cell : Cell} (hseq : t.Reaches seq) (hcell : cell ∈ t.cellsOf seq)
      (harg : arg ∈ t.argumentsOf cell) : t.Reaches arg

/-- A sequence is the root or an argument of some cell of the table. -/
theorem mem_sequences {r : Range} :
    r ∈ t.sequences ↔ r = t.root ∨ ∃ cell ∈ t.cells.toList, r ∈ t.argumentsOf cell := by
  simp only [sequences, argLists, List.mem_cons, List.mem_flatMap, List.mem_filterMap,
    Arena.argumentsOf, Option.mem_toList]
  constructor
  · rintro (rfl | ⟨args, ⟨cell, hcell, hargs⟩, hr⟩)
    · exact .inl rfl
    · exact .inr ⟨cell, hcell, args, hargs, hr⟩
  · rintro (rfl | ⟨cell, hcell, args, hargs, hr⟩)
    · exact .inl rfl
    · exact .inr ⟨args, ⟨cell, hcell, hargs⟩, hr⟩

/-- The arguments of the calls in a sequence are sequences of the template. -/
theorem mem_sequences_of_argument {arg seq : Range} {cell : Cell} (hcell : cell ∈ t.cellsOf seq)
    (harg : arg ∈ t.argumentsOf cell) : arg ∈ t.sequences :=
  mem_sequences.2 (.inr ⟨cell, Arena.mem_cells hcell, harg⟩)

/-- What one comes to from the root are sequences of the template. -/
theorem mem_sequences_of_reaches {r : Range} (h : t.Reaches r) : r ∈ t.sequences := by
  induction h with
  | root => exact List.mem_cons_self
  | argument _ hcell harg _ => exact mem_sequences_of_argument hcell harg

namespace WellFormed

/-- All sequences end inside the table of nodes. -/
theorem stop_le (h : t.WellFormed) {r : Range} (hr : r ∈ t.sequences) : r.stop ≤ t.cells.size :=
  h.sequences_partition.inside r hr

/-- A call is an entry of the sequence it is in, so its arguments end before that sequence does. -/
theorem stop_lt (h : t.WellFormed) {arg seq : Range} (hseq : seq ∈ t.sequences) {cell : Cell}
    (hcell : cell ∈ t.cellsOf seq) (harg : arg ∈ t.argumentsOf cell) : arg.stop < seq.stop := by
  obtain ⟨i, ⟨hstart, hstop⟩, -⟩ := Arena.mem_cellsOf.1 hcell
  have hearlier := h.earlier seq hseq cell hcell arg harg
  omega

/-- Following arguments of arguments comes to an end. -/
theorem wellFounded_argumentOf (h : t.WellFormed) : WellFounded t.ArgumentOf := by
  refine Subrelation.wf ?_ (measure Range.stop).wf
  rintro arg seq ⟨hseq, cell, hcell, harg⟩
  exact h.stop_lt hseq hcell harg

/-- One comes from the root to every sequence of a template. -/
theorem reaches (h : t.WellFormed) {r : Range} (hr : r ∈ t.sequences) : t.Reaches r := by
  -- A sequence that is no root is an argument of a call, and the sequence of the call ends later;
  -- no sequence ends after the table.
  induction hn : t.cells.size - r.stop using Nat.strong_induction_on generalizing r with
  | _ n ih =>
    rcases mem_sequences.1 hr with rfl | ⟨cell, hcell, harg⟩
    · exact .root
    · obtain ⟨i, hi, rfl⟩ := Array.mem_iff_getElem.1 (Array.mem_toList_iff.1 hcell)
      obtain ⟨seq, hseq, hholds⟩ := h.sequences_partition.exists_holds hi
      have hmem : t.cells[i] ∈ t.cellsOf seq :=
        Arena.mem_cellsOf.2 ⟨i, hholds, Array.getElem?_eq_getElem hi⟩
      have hlt := h.stop_lt hseq hmem harg
      have hle := h.stop_le hseq
      exact .argument (ih _ (by omega) hseq rfl) hmem harg

end WellFormed

end Template

end TagTemplate
