import TagTemplate.Proofs.Coverage

/-!
# The grammar is unambiguous

A source text has one derivation at most (`Piece.Spells.unique`). The pieces of the language are a
prefix code: whatever follows a piece, the text says which piece it is and where it ends
(`Piece.head_unique`). For a call this rests on its arguments. A sequence that is balanced ends at
the first comma or closing parenthesis that stands outside its groups, so arguments that are read
from one text are the same, too (`Piece.argument_unique`).
-/

namespace TagTemplate

/-! ## Names -/

/-- A name ends where the text goes on with a character that no name has. -/
theorem name_unique {cs ds xs ys : List Char} {x y : Char}
    (hcs : ∀ c ∈ cs, Reader.isNameChar c = true) (hds : ∀ c ∈ ds, Reader.isNameChar c = true)
    (hx : Reader.isNameChar x = false) (hy : Reader.isNameChar y = false)
    (h : cs ++ x :: xs = ds ++ y :: ys) : cs = ds ∧ x = y ∧ xs = ys := by
  induction cs generalizing ds with
  | nil =>
    cases ds with
    | nil => exact ⟨rfl, List.cons.inj h⟩
    | cons d ds =>
      obtain ⟨rfl, -⟩ := List.cons.inj h
      rw [hds x List.mem_cons_self] at hx
      cases hx
  | cons c cs ih =>
    cases ds with
    | nil =>
      obtain ⟨rfl, -⟩ := List.cons.inj h
      rw [hcs c List.mem_cons_self] at hy
      cases hy
    | cons d ds =>
      obtain ⟨rfl, htail⟩ := List.cons.inj h
      obtain ⟨rfl, hrest⟩ := ih (fun e he => hcs e (List.mem_cons_of_mem c he))
        (fun e he => hds e (List.mem_cons_of_mem c he)) htail
      exact ⟨rfl, hrest⟩

namespace Piece

/-! ## Arguments -/

/-- The character ends an argument if it stands outside the groups of the argument. -/
def EndsArgument (c : Char) : Prop :=
  c = ',' ∨ c = ')'

/-- Wherever the text of the pieces is read as an argument, it is read as these pieces. -/
def Determined (ps : List Piece) : Prop :=
  ∀ ⦃g : Nat⦄ ⦃qs : List Piece⦄ ⦃c d : Char⦄ ⦃xs ys : List Char⦄,
    ValidSeq ps → ValidSeq qs → groupsSeq g ps = some 0 → groupsSeq g qs = some 0 →
    EndsArgument c → EndsArgument d → charsSeq ps ++ c :: xs = charsSeq qs ++ d :: ys →
    ps = qs ∧ c = d ∧ xs = ys

/-- A piece that begins with a character that ends an argument closes a group, or stands in one. -/
theorem groups_eq_none {p : Piece} {c : Char} {xs ys : List Char} (hp : p.Valid)
    (hc : EndsArgument c) (h : c :: xs = p.chars ++ ys) : groups 0 p = none := by
  cases p with
  | plain d =>
    obtain ⟨rfl, -⟩ := List.cons.inj h
    rcases hc with rfl | rfl <;> rfl
  | escaped d | field name | call name args =>
    obtain ⟨rfl, -⟩ := List.cons.inj h
    rcases hc with hc | hc <;> exact absurd hc (by decide)

/-- An argument has ended where the text ends it. -/
theorem eq_nil_of_endsArgument {qs : List Piece} {c d : Char} {xs ys : List Char}
    (hqs : ValidSeq qs) (hbalanced : groupsSeq 0 qs = some 0) (hc : EndsArgument c)
    (h : c :: xs = charsSeq qs ++ d :: ys) : qs = [] := by
  cases qs with
  | nil => rfl
  | cons q qs =>
    rw [charsSeq, List.append_assoc] at h
    rw [groupsSeq, List.foldlM_cons, groups_eq_none hqs.1 hc h] at hbalanced
    cases hbalanced

/-- The end of an argument is read as no pieces. -/
theorem determined_nil : Determined [] := by
  intro g qs c d xs ys _ hqs hg hbalanced hc _ h
  cases hg
  obtain rfl := eq_nil_of_endsArgument hqs hbalanced hc h
  exact ⟨rfl, List.cons.inj h⟩

/-- Arguments that are each determined are determined together: they end with the parenthesis that
closes the call. -/
theorem args_unique {a b : List Piece} {as bs : List (List Piece)} {xs ys : List Char}
    (hargs : ∀ r ∈ a :: as, Determined r) (has : ValidArgs (a :: as)) (hbs : ValidArgs (b :: bs))
    (h : charsArgs (a :: as) ++ ')' :: xs = charsArgs (b :: bs) ++ ')' :: ys) :
    a :: as = b :: bs ∧ xs = ys := by
  have hcomma : EndsArgument ',' := .inl rfl
  have hclose : EndsArgument ')' := .inr rfl
  induction as generalizing a b bs with
  | nil =>
    cases bs with
    | nil =>
      obtain ⟨rfl, -, rfl⟩ := hargs a List.mem_cons_self has.1.1 hbs.1.1 has.1.2 hbs.1.2 hclose
        hclose h
      exact ⟨rfl, rfl⟩
    | cons c cs =>
      rw [charsArgs, charsArgs, List.append_assoc, List.cons_append] at h
      obtain ⟨-, hchar, -⟩ := hargs a List.mem_cons_self has.1.1 hbs.1.1 has.1.2 hbs.1.2 hclose
        hcomma h
      exact absurd hchar (by decide)
  | cons a' as ih =>
    cases bs with
    | nil =>
      rw [charsArgs, charsArgs, List.append_assoc, List.cons_append] at h
      obtain ⟨-, hchar, -⟩ := hargs a List.mem_cons_self has.1.1 hbs.1.1 has.1.2 hbs.1.2 hcomma
        hclose h
      exact absurd hchar (by decide)
    | cons c cs =>
      rw [charsArgs, charsArgs, List.append_assoc, List.append_assoc, List.cons_append,
        List.cons_append] at h
      obtain ⟨rfl, -, h⟩ := hargs a List.mem_cons_self has.1.1 hbs.1.1 has.1.2 hbs.1.2 hcomma
        hcomma h
      obtain ⟨hrest, rfl⟩ := ih (fun r hr => hargs r (List.mem_cons_of_mem a hr)) has.2 hbs.2 h
      exact ⟨by rw [hrest], rfl⟩

/-- Nothing between the parentheses is the text of a single empty argument, which no call has. -/
theorem close_ne_charsArgs {a : List Piece} {as : List (List Piece)} {xs ys : List Char}
    (has : ValidArgs (a :: as)) (hsome : a :: as ≠ [[]]) :
    ')' :: xs ≠ charsArgs (a :: as) ++ ')' :: ys := by
  intro h
  have hone : ∀ r ∈ [([] : List Piece)], Determined r := by
    simpa using determined_nil
  have hvalid : ValidArgs [[]] := ⟨⟨trivial, rfl⟩, trivial⟩
  exact hsome (args_unique hone hvalid has h).1.symm

/-- So are the arguments of two calls, which may have none. -/
theorem callArgs_unique {as bs : List (List Piece)} {xs ys : List Char}
    (hargs : ∀ r ∈ as, Determined r) (has : ValidArgs as) (hbs : ValidArgs bs)
    (hsome : as ≠ [[]]) (hsome' : bs ≠ [[]])
    (h : charsArgs as ++ ')' :: xs = charsArgs bs ++ ')' :: ys) : as = bs ∧ xs = ys := by
  cases as with
  | nil =>
    cases bs with
    | nil => exact ⟨rfl, (List.cons.inj h).2⟩
    | cons b bs => exact absurd h (close_ne_charsArgs hbs hsome')
  | cons a as =>
    cases bs with
    | nil => exact absurd h.symm (close_ne_charsArgs has hsome)
    | cons b bs => exact args_unique hargs has hbs h

/-! ## Pieces -/

/-- A name and the character that ends it are read alike in two pieces. -/
theorem isName_unique {f f' : String} {x y : Char} {xs ys : List Char} (hf : IsName f)
    (hf' : IsName f') (hx : Reader.isNameChar x = false) (hy : Reader.isNameChar y = false)
    (h : f.toList ++ x :: xs = f'.toList ++ y :: ys) : f = f' ∧ xs = ys := by
  obtain ⟨hname, -, hrest⟩ := name_unique hf.2 hf'.2 hx hy h
  exact ⟨String.toList_inj.1 hname, hrest⟩

/-- Pieces are a prefix code: the first character says of what kind the piece is, and the rest of
the piece where it ends. -/
theorem head_unique {p q : Piece} {xs ys : List Char} (hargs : ∀ a ∈ p.args, Determined a)
    (hp : p.Valid) (hq : q.Valid) (h : p.chars ++ xs = q.chars ++ ys) : p = q ∧ xs = ys := by
  cases p with
  | plain c =>
    cases q with
    | plain d =>
      obtain ⟨rfl, hrest⟩ := List.cons.inj h
      exact ⟨rfl, hrest⟩
    | escaped d => exact absurd (List.cons.inj h).1 hp.2.2
    | field name => exact absurd (List.cons.inj h).1 hp.1
    | call name args => exact absurd (List.cons.inj h).1 hp.2.1
  | escaped c =>
    cases q with
    | plain d => exact absurd (List.cons.inj h).1.symm hq.2.2
    | escaped d =>
      obtain ⟨-, htail⟩ := List.cons.inj h
      obtain ⟨rfl, hrest⟩ := List.cons.inj htail
      exact ⟨rfl, hrest⟩
    | field name | call name args => exact absurd (List.cons.inj h).1 (by decide)
  | field name =>
    cases q with
    | plain d => exact absurd (List.cons.inj h).1.symm hq.1
    | field name' =>
      rw [chars, chars, List.cons_append, List.cons_append, List.append_assoc,
        List.append_assoc] at h
      obtain ⟨rfl, hrest⟩ := isName_unique hp hq (by decide) (by decide) (List.cons.inj h).2
      exact ⟨rfl, hrest⟩
    | escaped d | call name args => exact absurd (List.cons.inj h).1 (by decide)
  | call name args =>
    cases q with
    | plain d => exact absurd (List.cons.inj h).1.symm hq.2.1
    | call name' args' =>
      obtain ⟨hname, hsome, hvalid⟩ := hp
      obtain ⟨hname', hsome', hvalid'⟩ := hq
      rw [chars, chars, List.cons_append, List.cons_append, List.append_assoc, List.append_assoc,
        List.cons_append, List.cons_append] at h
      obtain ⟨rfl, hinner⟩ := isName_unique hname hname' (by decide) (by decide)
        (List.cons.inj h).2
      rw [List.append_assoc, List.append_assoc] at hinner
      obtain ⟨rfl, hrest⟩ := callArgs_unique hargs hvalid hvalid' hsome hsome' hinner
      exact ⟨rfl, hrest⟩
    | escaped d | field name => exact absurd (List.cons.inj h).1 (by decide)

/-! ## Sequences -/

/-- A sequence of an argument is read in one way only. -/
theorem argument_unique (ps : List Piece) : Determined ps := by
  induction ps using consInduction with
  | nil => exact determined_nil
  | cons p ps hargs ih =>
    intro g qs c d xs ys hps hqs hg hg' hc hd h
    cases qs with
    | nil =>
      cases hg'
      cases eq_nil_of_endsArgument hps hg hd h.symm
    | cons q qs =>
      rw [charsSeq, charsSeq, List.append_assoc, List.append_assoc] at h
      obtain ⟨rfl, hrest⟩ := head_unique hargs hps.1 hqs.1 h
      rw [groupsSeq, List.foldlM_cons] at hg hg'
      obtain ⟨g₁, hp, hg⟩ := Option.bind_eq_some_iff.1 hg
      rw [hp] at hg'
      obtain ⟨rfl, htail⟩ := ih hps.2 hqs.2 hg hg' hc hd hrest
      exact ⟨rfl, htail⟩

/-- So is a sequence at the top level, where the source ends it. -/
theorem charsSeq_inj {ps qs : List Piece} (hps : ValidSeq ps) (hqs : ValidSeq qs)
    (h : charsSeq ps = charsSeq qs) : ps = qs := by
  induction ps generalizing qs with
  | nil => exact ((charsSeq_eq_nil_iff qs).1 h.symm).symm
  | cons p ps ih =>
    cases qs with
    | nil => cases (charsSeq_eq_nil_iff (p :: ps)).1 h
    | cons q qs =>
      obtain ⟨rfl, hrest⟩ := head_unique (fun a _ => argument_unique a) hps.1 hqs.1 h
      rw [ih hps.2 hqs.2 hrest]

/-- A source text has one derivation at most. -/
theorem Spells.unique {source : String} {ps qs : List Piece} (hps : Spells ps source)
    (hqs : Spells qs source) : ps = qs :=
  charsSeq_inj hps.valid hqs.valid (hps.chars.trans hqs.chars.symm)

end Piece

end TagTemplate
