import Mathlib.Data.List.Perm.Basic
import TagTemplate.Proofs.Coverage
import TagTemplate.Proofs.Refinement

/-!
# The nodes of a tree in their order

`Node.preorderSeq` lists the nodes of a tree, each in front of those inside it. In a tree that
accounts for its source this is the order in which the nodes begin there
(`Node.inOrder_preorderSeq`), so no two nodes of a template that was compiled are the same
(`preorder_of_compileWithin`).
-/

namespace TagTemplate

open String (utf8Len)

namespace Node

/-! ## The nodes of a tree -/

mutual

/-- The node and the nodes inside it, outer ones first. -/
def preorder : Node → List Node
  | .literal text span => [.literal text span]
  | .field name span => [.field name span]
  | .call name args span => .call name args span :: preorderArgs args

/-- `preorder` over a sequence. -/
def preorderSeq : List Node → List Node
  | [] => []
  | n :: ns => n.preorder ++ preorderSeq ns

/-- `preorder` over the arguments of a call. -/
def preorderArgs : List (List Node) → List Node
  | [] => []
  | a :: as => preorderSeq a ++ preorderArgs as

end

/-- The nodes of arguments are those of the one after those of the other. -/
theorem preorderArgs_eq_flatMap (args : List (List Node)) :
    preorderArgs args = args.flatMap preorderSeq := by
  induction args with
  | nil => rfl
  | cons a as ih => rw [preorderArgs, ih, List.flatMap_cons]

/-- What stands in an argument stands in the arguments. -/
theorem mem_preorderArgs {args : List (List Node)} {a : List Node} {n : Node} (ha : a ∈ args)
    (hn : n ∈ preorderSeq a) : n ∈ preorderArgs args := by
  rw [preorderArgs_eq_flatMap]
  exact List.mem_flatMap.2 ⟨a, ha, hn⟩

/-- As many nodes are listed as are counted. -/
theorem length_preorderSeq (ns : List Node) : (preorderSeq ns).length = countSeq ns := by
  induction ns using seqInduction with
  | nil => rfl
  | literal text span ns ih | field name span ns ih =>
    simp only [preorderSeq, preorder, List.length_append, List.length_singleton, countSeq, count,
      ih]
  | call name args span ns iha ih =>
    have hargs : (preorderArgs args).length = countArgs args := by
      clear ih
      induction args with
      | nil => rfl
      | cons a as ihas =>
        rw [preorderArgs, List.length_append, iha a List.mem_cons_self,
          ihas fun b hb => iha b (List.mem_cons_of_mem a hb), countArgs]
    simp only [preorderSeq, preorder, List.length_append, List.length_cons, countSeq, count, ih,
      hargs]

/-! ## The order of nodes in the source -/

/-- The nodes are listed as they begin in the source, all of them between `lo` and `hi`. -/
structure InOrder (lo hi : Nat) (ns : List Node) : Prop where
  sorted : ns.Pairwise fun m n => m.span.start < n.span.start
  inside : ∀ n ∈ ns, lo ≤ n.span.start ∧ n.span.start < hi

/-- No nodes are in order anywhere. -/
theorem inOrder_nil (lo hi : Nat) : InOrder lo hi [] :=
  ⟨.nil, List.forall_mem_nil _⟩

/-- One node is in order where it begins. -/
theorem inOrder_singleton {lo hi : Nat} {n : Node} (hlo : lo ≤ n.span.start)
    (hhi : n.span.start < hi) : InOrder lo hi [n] :=
  ⟨List.pairwise_singleton _ _, List.forall_mem_singleton.2 ⟨hlo, hhi⟩⟩

/-- Nodes that are in order within limits are so within wider ones. -/
theorem InOrder.mono {lo lo' hi hi' : Nat} {ns : List Node} (h : InOrder lo hi ns)
    (hlo : lo' ≤ lo) (hhi : hi ≤ hi') : InOrder lo' hi' ns :=
  ⟨h.sorted, fun n hn =>
    ⟨Nat.le_trans hlo (h.inside n hn).1, Nat.lt_of_lt_of_le (h.inside n hn).2 hhi⟩⟩

/-- Nodes that follow others are listed after them. -/
theorem InOrder.append {lo mid hi : Nat} {as bs : List Node} (ha : InOrder lo mid as)
    (hb : InOrder mid hi bs) (hlo : lo ≤ mid) (hhi : mid ≤ hi) : InOrder lo hi (as ++ bs) := by
  refine ⟨List.pairwise_append.2 ⟨ha.sorted, hb.sorted, fun m hm n hn => ?_⟩,
    List.forall_mem_append.2 ⟨fun n hn => ?_, fun n hn => ?_⟩⟩
  · exact Nat.lt_of_lt_of_le (ha.inside m hm).2 (hb.inside n hn).1
  · exact ⟨(ha.inside n hn).1, Nat.lt_of_lt_of_le (ha.inside n hn).2 hhi⟩
  · exact ⟨Nat.le_trans hlo (hb.inside n hn).1, (hb.inside n hn).2⟩

/-- Nodes that begin one after the other are all different. -/
theorem nodup_of_sorted {ns : List Node}
    (h : ns.Pairwise fun m n => m.span.start < n.span.start) : ns.Nodup := by
  refine h.imp fun {m n} hlt heq => ?_
  rw [heq] at hlt
  exact Nat.lt_irrefl _ hlt

/-- The argument regions of a call take up a byte more than the first, if there is another. -/
theorem utf8Len_intercalate_cons_cons (r r' : List Char) (rs : List (List Char)) :
    utf8Len ([','].intercalate (r :: r' :: rs)) =
      utf8Len r + 1 + utf8Len ([','].intercalate (r' :: rs)) := by
  have hcomma : (',' : Char).utf8Size = 1 := rfl
  simp [List.intercalate, hcomma]
  omega

/-- A call ends a byte after its arguments. -/
theorem stop_eq_of_covers_call {source name : String} {span : Span} {inner : List Char}
    (h : span.Covers source ('$' :: (name.toList ++ '(' :: (inner ++ [')'])))) :
    span.stop = span.start + (name.utf8ByteSize + 2) + utf8Len inner + 1 := by
  obtain ⟨before, after, -, rfl⟩ := h
  have hdollar : ('$' : Char).utf8Size = 1 := rfl
  have hopen : ('(' : Char).utf8Size = 1 := rfl
  have hclose : (')' : Char).utf8Size = 1 := rfl
  simp [hdollar, hopen, hclose]
  omega

/-- The arguments of a call are in order if each of them is. -/
theorem inOrder_preorderArgs {source : String} {args : List (List Node)}
    (hseq : ∀ a ∈ args, ∀ pos stop, AccountsSeq source pos a stop →
      InOrder pos stop (preorderSeq a)) {pos : Nat} {regions : List (List Char)}
    (h : AccountsArgs source pos args regions) :
    InOrder pos (pos + utf8Len ([','].intercalate regions)) (preorderArgs args) := by
  induction args generalizing pos regions with
  | nil => exact inOrder_nil _ _
  | cons a as ih =>
    cases regions with
    | nil => cases h
    | cons r rs =>
      obtain ⟨-, -, ha, has⟩ := h
      have hain := hseq a List.mem_cons_self _ _ ha
      have hasin := ih (fun b hb => hseq b (List.mem_cons_of_mem a hb)) has
      cases rs with
      | nil =>
        cases as with
        | nil => exact hain.append (inOrder_nil _ _) (Nat.le_add_right _ _) (by simp)
        | cons b bs => cases has
      | cons r' rs =>
        rw [utf8Len_intercalate_cons_cons]
        have hrest := hain.append (hasin.mono (Nat.le_succ _) (Nat.le_refl _))
          (Nat.le_add_right _ _) (by omega)
        exact hrest.mono (Nat.le_refl _) (by omega)

/-- A span that covers some text is not empty. -/
theorem start_lt_stop_of_covers {source : String} {span : Span} {cs : List Char} (hne : cs ≠ [])
    (h : span.Covers source cs) : span.start < span.stop := by
  obtain ⟨before, after, -, rfl⟩ := h
  have hpos : utf8Len cs ≠ 0 := fun h => hne (String.utf8Len_eq_zero.1 h)
  exact Nat.lt_add_of_pos_right (Nat.pos_of_ne_zero hpos)

/-- No node has an empty span. -/
theorem Accounts.start_lt_stop {source : String} {n : Node} (h : n.Accounts source) :
    n.span.start < n.span.stop := by
  cases n with
  | literal text span =>
    obtain ⟨cs, hne, hcovers, -⟩ := h
    exact start_lt_stop_of_covers hne hcovers
  | field name span => exact start_lt_stop_of_covers (List.cons_ne_nil _ _) h
  | call name args span =>
    obtain ⟨regions, hcovers, -⟩ := h
    exact start_lt_stop_of_covers (List.cons_ne_nil _ _) hcovers

/-- The spans of a sequence do not go back. -/
theorem AccountsSeq.le {source : String} {ns : List Node} {pos stop : Nat}
    (h : AccountsSeq source pos ns stop) : pos ≤ stop := by
  induction ns generalizing pos with
  | nil => exact Nat.le_of_eq h
  | cons n ns ih =>
    obtain ⟨rfl, -, hn, -, hns⟩ := h
    exact Nat.le_trans (Nat.le_of_lt hn.start_lt_stop) (ih hns)

/-- A tree that accounts for a piece of the source has its nodes in the order of the source. -/
theorem inOrder_preorderSeq {source : String} {ns : List Node} {pos stop : Nat}
    (h : AccountsSeq source pos ns stop) : InOrder pos stop (preorderSeq ns) := by
  induction ns using seqInduction generalizing pos stop with
  | nil => exact inOrder_nil _ _
  | literal text span ns ih | field name span ns ih =>
    obtain ⟨rfl, -, hn, -, hns⟩ := h
    have hlt := hn.start_lt_stop
    exact (inOrder_singleton (Nat.le_refl _) hlt).append (ih hns) (Nat.le_of_lt hlt) hns.le
  | call name args span ns iha ih =>
    obtain ⟨rfl, -, hn, -, hns⟩ := h
    obtain ⟨regions, hcovers, hargs⟩ := hn
    have hself : InOrder span.start (span.start + (name.utf8ByteSize + 2)) [call name args span] :=
      inOrder_singleton (Nat.le_refl _) (Nat.lt_add_of_pos_right (Nat.succ_pos _))
    have hall := hself.append (inOrder_preorderArgs (fun a ha _ _ => iha a ha) hargs)
      (Nat.le_add_right _ _) (Nat.le_add_right _ _)
    refine (hall.mono (Nat.le_refl _) ?_).append (ih hns) (Nat.le_of_lt ?_) hns.le
    · exact stop_eq_of_covers_call hcovers ▸ Nat.le_succ _
    · exact start_lt_stop_of_covers (List.cons_ne_nil _ _) hcovers

end Node

/-- The nodes of a template that was compiled begin one after the other, and they are as many as the
template counts. -/
theorem preorder_of_compileWithin {limits : Reader.Limits} {source : String} {t : Template}
    (h : compileWithin limits source = .ok t) :
    (Node.preorderSeq t.toNodes).Pairwise (fun m n => m.span.start < n.span.start) ∧
      (Node.preorderSeq t.toNodes).length = t.nodeCount := by
  obtain ⟨ps, hps, rfl⟩ := (compileWithin_eq_ok_iff limits source t).1 h
  rw [Template.toNodes_ofNodes, Template.nodeCount_ofNodes]
  have hsource : source.toList = [] ++ Piece.charsSeq ps ++ [] := by
    rw [hps.chars, List.nil_append, List.append_nil]
  have hin := Node.inOrder_preorderSeq (Piece.accountsSeq_nodes hps.valid hsource)
  exact ⟨hin.sorted, Node.length_preorderSeq _⟩

end TagTemplate
