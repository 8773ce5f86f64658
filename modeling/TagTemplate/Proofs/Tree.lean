import TagTemplate.Reader

/-!
# The theory of trees

Facts about sequences of nodes that hold wherever the nodes come from. `Node.seqInduction` is the
induction over a sequence through the arguments of its calls. `Node.join` puts a node in front of a
sequence and merges literals that meet; `Node.joinSeq` puts a whole sequence there, and the tree of
a text read in two parts is the one part joined to the other. `Node.bareSeq` forgets the spans,
`Node.depthSeq` is the greatest number of calls around each other, and `Node.usageSeq` counts what a
sequence takes up in the tables of a template.
-/

namespace TagTemplate

namespace Node

/-- Induction over a sequence of nodes, through the arguments of its calls. -/
theorem seqInduction {P : List Node → Prop} (nil : P [])
    (literal : ∀ text span ns, P ns → P (.literal text span :: ns))
    (field : ∀ name span ns, P ns → P (.field name span :: ns))
    (call : ∀ name args span ns, (∀ a ∈ args, P a) → P ns → P (.call name args span :: ns)) :
    ∀ ns, P ns := by
  intro ns
  refine Node.rec_2 (motive_1 := fun n => ∀ ns, P ns → P (n :: ns))
    (motive_2 := fun args => ∀ a ∈ args, P a) (motive_3 := P)
    literal field (fun name args span ih ns => call name args span ns ih) ?_ ?_ nil ?_ ns
  · intro a ha
    cases ha
  · intro a as iha ihas b hb
    rcases List.mem_cons.1 hb with rfl | hb
    · exact iha
    · exact ihas b hb
  · intro n ns ihn ihns
    exact ihn ns ihns

/-! ## Joining -/

/-- Puts a node in front of a sequence. A literal that meets a literal becomes one with it. -/
def join : Node → List Node → List Node
  | .literal s i, .literal t j :: ns => .literal (s ++ t) ⟨i.start, j.stop⟩ :: ns
  | n, ns => n :: ns

/-- Is the node a literal? -/
def isLiteral : Node → Bool
  | .literal _ _ => true
  | .field _ _ | .call _ _ _ => false

/-- Puts a sequence in front of another. -/
def joinSeq (ns ms : List Node) : List Node :=
  ns.foldr join ms

/-- A node in front of nothing is one node. -/
@[simp] theorem join_nil (n : Node) : join n [] = [n] := by
  cases n <;> rfl

/-- A field does not merge with what follows. -/
@[simp] theorem join_field (name : String) (span : Span) (ns : List Node) :
    join (.field name span) ns = .field name span :: ns := rfl

/-- A call does not merge with what follows. -/
@[simp] theorem join_call (name : String) (args : List (List Node)) (span : Span)
    (ns : List Node) : join (.call name args span) ns = .call name args span :: ns := rfl

/-- Two literals become one. -/
@[simp] theorem join_literal_literal (s t : String) (i j : Span) (ns : List Node) :
    join (.literal s i) (.literal t j :: ns) = .literal (s ++ t) ⟨i.start, j.stop⟩ :: ns := rfl

/-- A literal does not merge with a field. -/
@[simp] theorem join_literal_field (s : String) (i : Span) (name : String) (span : Span)
    (ns : List Node) :
    join (.literal s i) (.field name span :: ns) = .literal s i :: .field name span :: ns := rfl

/-- A literal does not merge with a call. -/
@[simp] theorem join_literal_call (s : String) (i : Span) (name : String)
    (args : List (List Node)) (span : Span) (ns : List Node) :
    join (.literal s i) (.call name args span :: ns) =
      .literal s i :: .call name args span :: ns := rfl

/-- Only literals merge with what follows. -/
theorem join_of_not_literal {n : Node} (hn : n.isLiteral = false) (ns : List Node) :
    join n ns = n :: ns := by
  cases n with
  | literal s i => cases hn
  | field | call => rfl

/-- A node in front reaches no further than the first node that is no literal. -/
theorem join_append_cons {n : Node} (hn : n.isLiteral = false) (m : Node) (ns ms : List Node) :
    join m (ns ++ n :: ms) = join m ns ++ n :: ms := by
  cases m with
  | field | call => rfl
  | literal s i =>
    rcases ns with _ | ⟨k, ns⟩
    · cases n with
      | literal => cases hn
      | field | call => rfl
    · cases k <;> rfl

/-- Where a node is joined, there is a node. -/
theorem join_ne_nil (n : Node) (ns : List Node) : join n ns ≠ [] := by
  cases n with
  | field | call => simp
  | literal s i =>
    rcases ns with _ | ⟨m, ns⟩
    · simp
    · cases m <;> simp

/-- Two literals in front of a sequence may be merged first. -/
theorem join_join_literal (s t : String) (i j : Span) (ns : List Node) :
    join (.literal s i) (join (.literal t j) ns) =
      join (.literal (s ++ t) ⟨i.start, j.stop⟩) ns := by
  rcases ns with _ | ⟨m, ns⟩
  · simp
  · cases m <;> simp [String.append_assoc]

/-- Nothing in front of a sequence is the sequence. -/
@[simp] theorem joinSeq_nil_left (ms : List Node) : joinSeq [] ms = ms := rfl

/-- A sequence is joined node by node, the last one first. -/
@[simp] theorem joinSeq_cons (n : Node) (ns ms : List Node) :
    joinSeq (n :: ns) ms = join n (joinSeq ns ms) := rfl

/-- Joining a node in front of the first part joins it in front of the whole. -/
theorem joinSeq_join (n : Node) (ns ms : List Node) :
    joinSeq (join n ns) ms = join n (joinSeq ns ms) := by
  cases n with
  | field | call => rfl
  | literal s i =>
    rcases ns with _ | ⟨m, ns⟩
    · rfl
    · cases m with
      | field | call => rfl
      | literal t j => rw [join_literal_literal, joinSeq_cons, joinSeq_cons, join_join_literal]

/-- Joining is associative. -/
theorem joinSeq_assoc (ns ms ks : List Node) :
    joinSeq (joinSeq ns ms) ks = joinSeq ns (joinSeq ms ks) := by
  induction ns with
  | nil => rfl
  | cons n ns ih => rw [joinSeq_cons, joinSeq_join, ih, joinSeq_cons]

/-! ## Trees without spans -/

mutual

/-- The node with all its spans put to nothing. -/
def bare : Node → Node
  | .literal text _ => .literal text ⟨0, 0⟩
  | .field name _ => .field name ⟨0, 0⟩
  | .call name args _ => .call name (bareArgs args) ⟨0, 0⟩

/-- `bare` over a sequence. -/
def bareSeq : List Node → List Node
  | [] => []
  | n :: ns => n.bare :: bareSeq ns

/-- `bare` over the arguments of a call. -/
def bareArgs : List (List Node) → List (List Node)
  | [] => []
  | a :: as => bareSeq a :: bareArgs as

end

/-- `bareArgs` in the natural per-element form. -/
theorem bareArgs_eq_map (args : List (List Node)) : bareArgs args = args.map bareSeq := by
  induction args with
  | nil => rfl
  | cons a as ih => rw [bareArgs, ih, List.map_cons]

/-- Literals that meet become one with or without their spans. -/
theorem bareSeq_join (n : Node) (ns : List Node) :
    bareSeq (join n ns) = join n.bare (bareSeq ns) := by
  cases n with
  | field | call => simp [bareSeq, bare]
  | literal s i =>
    rcases ns with _ | ⟨m, ns⟩
    · simp [bareSeq, bare]
    · cases m <;> simp [bareSeq, bare]

/-! ## Nesting -/

mutual

/-- The greatest number of calls around each other in a node. -/
def depth : Node → Nat
  | .literal _ _ | .field _ _ => 0
  | .call _ args _ => depthArgs args + 1

/-- `depth` over a sequence. -/
def depthSeq : List Node → Nat
  | [] => 0
  | n :: ns => max n.depth (depthSeq ns)

/-- `depth` over the arguments of a call. -/
def depthArgs : List (List Node) → Nat
  | [] => 0
  | a :: as => max (depthSeq a) (depthArgs as)

end

/-- A joined sequence is as deep as the node or the sequence. -/
theorem depthSeq_join (n : Node) (ns : List Node) :
    depthSeq (join n ns) = max n.depth (depthSeq ns) := by
  cases n with
  | field | call => rfl
  | literal s i =>
    rcases ns with _ | ⟨m, ns⟩
    · rfl
    · cases m <;> simp [depthSeq, depth]

/-- The arguments of a call nest no deeper than a bound if each of them does. -/
theorem depthArgs_le_iff (args : List (List Node)) (d : Nat) :
    depthArgs args ≤ d ↔ ∀ a ∈ args, depthSeq a ≤ d := by
  induction args with
  | nil => simp [depthArgs]
  | cons a as ih => rw [depthArgs, Nat.max_le, ih, List.forall_mem_cons]

end Node

/-! ## What a sequence takes up -/

namespace Reader

attribute [ext] Usage

/-- What is taken up is added table by table. -/
instance : Add Usage where
  add u v := ⟨u.text + v.text, u.nodes + v.nodes, u.args + v.args⟩

namespace Usage

@[simp] theorem text_add (u v : Usage) : (u + v).text = u.text + v.text := rfl
@[simp] theorem nodes_add (u v : Usage) : (u + v).nodes = u.nodes + v.nodes := rfl
@[simp] theorem args_add (u v : Usage) : (u + v).args = u.args + v.args := rfl

/-- The addition of what is taken up is associative. -/
protected theorem add_assoc (u v w : Usage) : u + v + w = u + (v + w) :=
  Usage.ext (Nat.add_assoc ..) (Nat.add_assoc ..) (Nat.add_assoc ..)

@[simp] protected theorem zero_add (u : Usage) : ({} : Usage) + u = u :=
  Usage.ext (Nat.zero_add _) (Nat.zero_add _) (Nat.zero_add _)

@[simp] protected theorem add_zero (u : Usage) : u + {} = u := rfl

/-- Nothing is used more than `capacity` times. -/
structure Within (capacity : Nat) (u : Usage) : Prop where
  text : u.text ≤ capacity
  nodes : u.nodes ≤ capacity
  args : u.args ≤ capacity

/-- A part of what there is room for finds room. -/
theorem Within.left {capacity : Nat} {u v : Usage} (h : (u + v).Within capacity) :
    u.Within capacity :=
  ⟨Nat.le_trans (Nat.le_add_right ..) h.text, Nat.le_trans (Nat.le_add_right ..) h.nodes,
    Nat.le_trans (Nat.le_add_right ..) h.args⟩

/-- Two amounts with room of their own find room in both together. -/
theorem Within.add {m n : Nat} {u v : Usage} (hu : u.Within m) (hv : v.Within n) :
    (u + v).Within (m + n) :=
  ⟨Nat.add_le_add hu.text hv.text, Nat.add_le_add hu.nodes hv.nodes,
    Nat.add_le_add hu.args hv.args⟩

/-- What there is room for finds it in more room. -/
theorem Within.mono {m n : Nat} {u : Usage} (h : u.Within m) (hmn : m ≤ n) : u.Within n :=
  ⟨Nat.le_trans h.text hmn, Nat.le_trans h.nodes hmn, Nat.le_trans h.args hmn⟩

end Usage

end Reader

namespace Node

open Reader (Usage)

mutual

/-- What a node takes up in the tables of a template, its own place aside: its text or name, and
everything in its arguments. -/
def usage : Node → Usage
  | .literal text _ => { text := text.utf8ByteSize }
  | .field name _ => { text := name.utf8ByteSize }
  | .call name args _ => usageArgs args + { text := name.utf8ByteSize, args := args.length }

/-- `usage` over a sequence, the places of its nodes aside. -/
def usageSeq : List Node → Usage
  | [] => {}
  | n :: ns => n.usage + usageSeq ns

/-- What the arguments of a call take up, the places of their nodes included. -/
def usageArgs : List (List Node) → Usage
  | [] => {}
  | a :: as => usageSeq a + { nodes := a.length } + usageArgs as

end

/-- Merging literals changes nothing in what they take up. -/
theorem usageSeq_join (n : Node) (ns : List Node) :
    usageSeq (join n ns) = n.usage + usageSeq ns := by
  cases n with
  | field | call => rfl
  | literal s i =>
    rcases ns with _ | ⟨m, ns⟩
    · rfl
    · cases m with
      | field | call => rfl
      | literal t j =>
        refine Usage.ext ?_ ?_ ?_ <;> simp [usageSeq, usage]
        omega

/-- Joined sequences take up what both take up. -/
theorem usageSeq_joinSeq (ns ms : List Node) :
    usageSeq (joinSeq ns ms) = usageSeq ns + usageSeq ms := by
  induction ns with
  | nil => simp [usageSeq]
  | cons n ns ih => rw [joinSeq_cons, usageSeq_join, ih, usageSeq, Usage.add_assoc]

/-- More arguments take up what both parts take up. -/
theorem usageArgs_append (as bs : List (List Node)) :
    usageArgs (as ++ bs) = usageArgs as + usageArgs bs := by
  induction as with
  | nil => simp [usageArgs]
  | cons a as ih => simp only [List.cons_append, usageArgs, ih, Usage.add_assoc]

/-- One argument takes up what its nodes do and their places. -/
theorem usageArgs_singleton (a : List Node) :
    usageArgs [a] = usageSeq a + { nodes := a.length } := by
  rw [usageArgs, usageArgs, Usage.add_zero]

/-- What a sequence takes up, the places of its own nodes included. -/
def usageRoot (ns : List Node) : Usage :=
  usageSeq ns + { nodes := ns.length }

/-- To join a node adds at most one. -/
theorem length_join_le (n : Node) (ns : List Node) : (join n ns).length ≤ ns.length + 1 := by
  cases n with
  | field | call => simp
  | literal s i =>
    rcases ns with _ | ⟨m, ns⟩
    · simp
    · cases m <;> simp

/-- A bound on what a node takes up, its place included, adds to a bound on the sequence after
it. -/
theorem usageRoot_join_within {m k : Nat} {n : Node} {ns : List Node}
    (hn : (n.usage + { nodes := 1 }).Within m) (hns : (usageRoot ns).Within k) :
    (usageRoot (join n ns)).Within (m + k) := by
  have h := hn.add hns
  have hlen := length_join_le n ns
  refine ⟨?_, ?_, ?_⟩
  · have := h.text
    simp only [usageRoot, usageSeq_join, Usage.text_add] at this ⊢
    omega
  · have := h.nodes
    simp only [usageRoot, usageSeq_join, Usage.nodes_add] at this ⊢
    omega
  · have := h.args
    simp only [usageRoot, usageSeq_join, Usage.args_add] at this ⊢
    omega

end Node

end TagTemplate
