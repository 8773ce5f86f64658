import TagTemplate.Proofs.Compile
import TagTemplate.Proofs.Ownership
import TagTemplate.Proofs.Reading.Room

/-!
# A template is no larger than its source

The tables of a template are addressed by unsigned 32-bit words. A piece is stored as two of them,
after a check that its end is within a limit, which does its arithmetic in words as well. Here are
those words (`Range.pack?`), and that the reader's reservations, which count in numbers, are decided
as the check decides (`Reader.Limits.reserve_eq_pack?`).

Whatever the reader has read, it has not used more of any table than it has read bytes
(`Reader.Reading.usage_within`), whether the source turns out to be a template or not. So a compiled
template has no more text bytes, nodes and arguments than its source has bytes, a source within the
limit is never too large, and every piece is read back from its words as it is
(`compileWithin_within_source`).
-/

namespace TagTemplate

open String (utf8Len)

/-! ## Pieces in words -/

/-- A number as an unsigned 32-bit word, if it is one. -/
def word? (n : Nat) : Option UInt32 :=
  if n < UInt32.size then some (.ofNat n) else none

/-- A number is the word that stands for it. -/
theorem word?_eq_some_iff {n : Nat} {w : UInt32} : word? n = some w ↔ w.toNat = n := by
  unfold word?
  split
  · next hn =>
    rw [Option.some_inj]
    constructor
    · rintro rfl
      exact UInt32.toNat_ofNat_of_lt' hn
    · rintro rfl
      exact UInt32.ofNat_toNat
  · next hn =>
    refine ⟨nofun, ?_⟩
    rintro rfl
    exact absurd w.toNat_lt_size hn

/-- A piece of a table as a template stores it. -/
structure PackedRange where
  start : UInt32
  size : UInt32
deriving DecidableEq

/-- The piece that the words stand for. -/
def PackedRange.unpack (p : PackedRange) : Range :=
  ⟨p.start.toNat, p.size.toNat⟩

/-- A piece that ends where a word reaches has two words. -/
theorem PackedRange.exists_unpack_eq {r : Range} (h : r.stop < UInt32.size) :
    ∃ p : PackedRange, p.unpack = r := by
  have hstart : (UInt32.ofNat r.start).toNat = r.start :=
    UInt32.toNat_ofNat_of_lt' (Nat.lt_of_le_of_lt (Nat.le_add_right ..) h)
  have hsize : (UInt32.ofNat r.size).toNat = r.size :=
    UInt32.toNat_ofNat_of_lt' (Nat.lt_of_le_of_lt (Nat.le_add_left ..) h)
  refine ⟨⟨.ofNat r.start, .ofNat r.size⟩, ?_⟩
  rw [unpack, hstart, hsize]

namespace Range

/-- The words of a piece that ends within the limit. There are none if a word is too short for the
start, the size or the end of the piece. -/
def pack? (limit : UInt32) (r : Range) : Option PackedRange := do
  let start ← word? r.start
  let size ← word? r.size
  let stop ← word? (start.toNat + size.toNat)
  if stop ≤ limit then some ⟨start, size⟩ else none

/-- The words of a piece are its own, and no others. -/
theorem pack?_eq_some_iff {limit : UInt32} {r : Range} {p : PackedRange} :
    r.pack? limit = some p ↔ p.unpack = r ∧ r.stop ≤ limit.toNat := by
  simp only [pack?, Option.bind_eq_bind, Option.bind_eq_some_iff, word?_eq_some_iff,
    Option.ite_none_right_eq_some, Option.some_inj]
  constructor
  · rintro ⟨start, hstart, size, hsize, stop, hstop, hle, rfl⟩
    rw [UInt32.le_iff_toNat_le, hstop, hstart, hsize] at hle
    refine ⟨?_, hle⟩
    rw [PackedRange.unpack, hstart, hsize]
  · rintro ⟨rfl, hle⟩
    have hlt : p.unpack.stop < UInt32.size := Nat.lt_of_le_of_lt hle limit.toNat_lt_size
    have hstop : (UInt32.ofNat p.unpack.stop).toNat = p.unpack.stop :=
      UInt32.toNat_ofNat_of_lt' hlt
    refine ⟨p.start, rfl, p.size, rfl, .ofNat p.unpack.stop, hstop, ?_, rfl⟩
    rw [UInt32.le_iff_toNat_le, hstop]
    exact hle

/-- Just the pieces that end within the limit have words. -/
theorem exists_pack?_iff {limit : UInt32} {r : Range} :
    (∃ p, r.pack? limit = some p ∧ p.unpack = r) ↔ r.stop ≤ limit.toNat := by
  constructor
  · rintro ⟨p, hp, -⟩
    exact (pack?_eq_some_iff.1 hp).2
  · intro hle
    obtain ⟨p, rfl⟩ := PackedRange.exists_unpack_eq (Nat.lt_of_le_of_lt hle limit.toNat_lt_size)
    exact ⟨p, pack?_eq_some_iff.2 ⟨rfl, hle⟩, rfl⟩

end Range

namespace Reader

section
variable {limits : Limits} {cs : List Char} {st : State}

/-- The reader makes a reservation exactly if the piece has words, and then counts up to its end. -/
theorem Limits.reserve_eq_pack? {limit : UInt32} (h : limits.capacity = limit.toNat)
    (used amount pos : Nat) :
    limits.reserve used amount pos =
      match (⟨used, amount⟩ : Range).pack? limit with
      | some p => .ok p.unpack.stop
      | none => .error (.templateTooLarge limits.capacity pos) := by
  have hiff : (∃ p, (⟨used, amount⟩ : Range).pack? limit = some p ∧ p.unpack = ⟨used, amount⟩) ↔
      used + amount ≤ limits.capacity := h ▸ Range.exists_pack?_iff
  unfold reserve
  split
  · next hle =>
    obtain ⟨p, hp, hunpack⟩ := hiff.2 hle
    rw [hp]
    exact congrArg (Except.ok ∘ Range.stop) hunpack.symm
  · next hle =>
    cases hp : (⟨used, amount⟩ : Range).pack? limit with
    | none => rfl
    | some p => exact absurd (hiff.1 ⟨p, hp, (Range.pack?_eq_some_iff.1 hp).1⟩) hle

/-! ## What the reader has used -/

/-- The finished parts of what was read take up no more than the bytes read. -/
theorem Reading.usage_within (h : Reading limits cs st) : st.usage.Within (utf8Len cs) := by
  have htext : ∀ {frames : List Frame} {cs : List Char} {ps : List Piece} {st : State},
      AtText limits frames cs ps st → st.usage.Within (utf8Len (cs ++ Piece.charsSeq ps)) := by
    intro frames cs ps st h
    have hwithin := h.stack.within_seq ps (Nat.le_refl _)
    rw [← h.usage] at hwithin
    exact hwithin.left
  have hname : ∀ {frames : List Frame} {cs : List Char} {ps : List Piece} {st : State},
      Paused limits frames cs ps st → ∀ ds : List Char,
        st.usage.Within (utf8Len (cs ++ Piece.charsSeq ps ++ ds)) := by
    intro frames cs ps st h ds
    rw [h.usage]
    exact h.stack.within_seq ps (utf8Len_left_le (Nat.le_refl _))
  cases h with
  | text h => exact htext h
  | escape _ h => exact (htext h).mono (utf8Len_left_le (Nat.le_refl _))
  | fieldName _ h | brokenField _ h | callName _ h => exact hname h _

/-- They take up no more than the capacity, either. -/
theorem Reading.usage_fits (h : Reading limits cs st) : st.usage.Within limits.capacity := by
  cases h with
  | text h | escape _ h | fieldName _ h | brokenField _ h | callName _ h => exact h.fits

end

end Reader

/-! ## What a template stores -/

namespace Template

/-- All pieces that a template stores: the sequence at the top, the arguments of calls, where these
are listed, and the texts and names. -/
def ranges (t : Template) : List Range :=
  t.root :: t.args.toList ++ t.argLists ++ t.texts

/-- A piece ends within any bound on the sizes of the tables. -/
theorem WellFormed.stop_le_of_within {t : Template} (h : t.WellFormed) {n : Nat}
    (ht : t.usage.Within n) {r : Range} (hr : r ∈ t.ranges) : r.stop ≤ n := by
  rcases List.mem_append.1 hr with hr | hr
  · rcases List.mem_append.1 hr with hr | hr
    · refine Nat.le_trans ?_ ht.nodes
      rcases List.mem_cons.1 hr with rfl | hr
      · exact h.root_inside
      · exact h.args_inside r hr
    · exact Nat.le_trans (h.argLists_partition.inside r hr) ht.args
  · exact Nat.le_trans (h.texts_partition.inside r hr) ht.text

end Template

/-- The tables of a compiled template are within its source as well as within the capacity. -/
theorem usage_within_of_compileWithin {limits : Reader.Limits} {source : String} {t : Template}
    (h : compileWithin limits source = .ok t) :
    t.usage.Within source.utf8ByteSize ∧ t.usage.Within limits.capacity := by
  obtain ⟨ps, hps, rfl⟩ := (compileWithin_eq_ok_iff limits source t).1 h
  rw [Template.usage_ofNodes]
  have hwithin := Piece.usageRoot_nodes_within 0 ps
  rw [hps.toSpells.sizeSeq_eq] at hwithin
  exact ⟨hwithin, hps.fits⟩

/-- Whatever its limits, a compiled template is well-formed. -/
theorem wellFormed_of_compileWithin {limits : Reader.Limits} {source : String} {t : Template}
    (h : compileWithin limits source = .ok t) : t.WellFormed := by
  obtain ⟨ps, -, rfl⟩ := (compileWithin_eq_ok_iff limits source t).1 h
  exact Template.wellFormed_ofNodes _

/-- The limit that templates have is the greatest word. -/
example : ({} : Reader.Limits).capacity = (0xffffffff : UInt32).toNat := rfl

/-- No table outgrows the source, neither while it is read, whatever follows, nor when it is
compiled; a source within the limit is never too large; and all that a template stores is read back
from its words as it is. -/
theorem compileWithin_within_source (maxDepth : Nat) (limit : UInt32) (source : String) :
    let limits : Reader.Limits := { maxDepth, capacity := limit.toNat }
    (∀ t, compileWithin limits source = .ok t →
      t.text.utf8ByteSize ≤ source.utf8ByteSize ∧ t.nodeCount ≤ source.utf8ByteSize ∧
        t.args.size ≤ source.utf8ByteSize ∧
        ∀ r ∈ t.ranges, ∃ p, r.pack? limit = some p ∧ p.unpack = r) ∧
      (∀ (cs : List Char) (st : Reader.State),
        cs.foldlM (Reader.State.step limits) Reader.State.start = .ok st →
        st.usage.Within (utf8Len cs) ∧ st.usage.Within limit.toNat) ∧
      (source.utf8ByteSize ≤ limit.toNat → ∀ e, compileWithin limits source = .error e →
        ∀ l, e.reason ≠ .templateTooLarge l) := by
  intro limits
  refine ⟨fun t ht => ?_, fun cs st hrun => ?_, fun hsize e he => ?_⟩
  · obtain ⟨hsource, hlimit⟩ := usage_within_of_compileWithin ht
    refine ⟨hsource.text, hsource.nodes, hsource.args, fun r hr => ?_⟩
    exact Range.exists_pack?_iff.2
      ((wellFormed_of_compileWithin ht).stop_le_of_within hlimit hr)
  · have hreading := Reader.reading_of_run hrun
    exact ⟨hreading.usage_within, hreading.usage_fits⟩
  · exact Reader.read_roomy hsize e ((compileWithin_eq_error_iff limits source e).1 he)

/-- A source that is a template if calls may nest, within a limit that it just meets. -/
theorem compileWithin_within_source_call :
    let source := "é$f(%x%,$g(),)"
    let limits (maxDepth : Nat) : Reader.Limits := { maxDepth, capacity := (15 : UInt32).toNat }
    (∃ t, compileWithin (limits 2) source = .ok t ∧
      t.text.utf8ByteSize ≤ 15 ∧ t.nodeCount ≤ 15 ∧ t.args.size ≤ 15 ∧
      ∀ r ∈ t.ranges, ∃ p, r.pack? 15 = some p ∧ p.unpack = r) ∧
    compileWithin (limits 1) source = .error (.nestingTooDeep 1 9 12) ∧
      ∀ l, (CompileError.nestingTooDeep 1 9 12).reason ≠ .templateTooLarge l := by
  intro source limits
  obtain ⟨hok, -, -⟩ := compileWithin_within_source 2 15 source
  obtain ⟨-, -, herror⟩ := compileWithin_within_source 1 15 source
  have hcompile : ∃ t, compileWithin { maxDepth := 2, capacity := (15 : UInt32).toNat }
      "é$f(%x%,$g(),)" = .ok t := ⟨_, rfl⟩
  obtain ⟨t, ht⟩ := hcompile
  have hnested : compileWithin { maxDepth := 1, capacity := (15 : UInt32).toNat }
      "é$f(%x%,$g(),)" = .error (.nestingTooDeep 1 9 12) := rfl
  exact ⟨⟨t, ht, hok t ht⟩, hnested, herror (by decide) _ hnested⟩

end TagTemplate
