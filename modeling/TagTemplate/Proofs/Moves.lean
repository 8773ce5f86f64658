import Mathlib.Data.List.Perm.Subperm
import TagTemplate.Proofs.Accountability

/-!
# What a body asks for, and how often

The moves of a body are the requests and announcements that it makes, one after the other, given
what its operands come to. The events of a run of the body are those of its moves
(`Run.events_ofBody`). A body follows a list of moves if it makes no others, and these in their
order and no more often than they are listed (`Body.Follows`); so bodies that go on follow the one
list and then the other.

A frugal function never asks twice for one operand and announces itself once at most. Eager
functions and functions with typed parameters are frugal, and so are the builtin functions
(`Function.frugal_of_standard`). A script may be anything but frugal.
-/

namespace TagTemplate

variable {α β : Type} {answer : Nat → Except EvalError String}

/-- A thing that a body does on its way. -/
inductive Body.Move
  /-- It asks for an operand. -/
  | ask (index : Nat)
  /-- It announces its start. -/
  | announce
deriving DecidableEq

/-- What comes of a move: what `operand` has for the operand, or `start` for the announcement. -/
def Body.Move.brings {γ : Type} (start : List γ) (operand : Nat → List γ) : Body.Move → List γ
  | .ask i => operand i
  | .announce => start

/-- A part of what moves bring is brought by parts of what there is for them. -/
theorem Body.Move.filterMap_flatMap_brings {γ δ : Type} (f : γ → Option δ) (start : List γ)
    (operand : Nat → List γ) (l : List Body.Move) :
    (l.flatMap (brings start operand)).filterMap f =
      l.flatMap (brings (start.filterMap f) fun i => (operand i).filterMap f) := by
  rw [List.filterMap_flatMap]
  congr 1
  funext move
  cases move <;> rfl

/-- The announcement brings nothing to moves without it. -/
theorem Body.Move.flatMap_brings_congr {γ : Type} {l : List Body.Move} (h : announce ∉ l)
    (start start' : List γ) (operand : Nat → List γ) :
    l.flatMap (brings start operand) = l.flatMap (brings start' operand) := by
  induction l with
  | nil => rfl
  | cons move l ih =>
    rw [List.flatMap_cons, List.flatMap_cons, ih fun hl => h (List.mem_cons_of_mem move hl)]
    cases move with
    | ask i => rfl
    | announce => exact absurd List.mem_cons_self h

/-- Moves bring more if there is more for each operand. -/
theorem Body.Move.subperm_flatMap_brings_of_le {γ : Type} (l : List Body.Move) (start : List γ)
    {us vs : Nat → List γ} (h : ∀ i, (us i).Subperm (vs i)) :
    (l.flatMap (brings start us)).Subperm (l.flatMap (brings start vs)) := by
  induction l with
  | nil => exact .refl _
  | cons move l ih =>
    cases move with
    | ask i => exact (h i).append ih
    | announce => exact (List.Subperm.refl start).append ih

/-- If no move is made twice, the announcement brings something once at most. -/
theorem Body.Move.subperm_flatMap_brings {γ : Type} {l : List Body.Move} (hl : l.Nodup)
    (start : List γ) {us vs : Nat → List γ} (h : ∀ i, (us i).Subperm (vs i)) :
    (l.flatMap (brings start us)).Subperm (start ++ l.flatMap (brings [] vs)) := by
  induction l with
  | nil => exact List.nil_subperm
  | cons move l ih =>
    obtain ⟨hmove, hrest⟩ := List.nodup_cons.1 hl
    replace ih := ih hrest
    cases move with
    | ask i =>
      have hswap := List.perm_append_comm_assoc start (vs i) (l.flatMap (brings [] vs))
      exact ((h i).append ih).trans hswap.symm.subperm
    | announce =>
      have hmore := subperm_flatMap_brings_of_le l start h
      rw [flatMap_brings_congr hmove start [] vs] at hmore
      exact (List.Subperm.refl start).append hmore

namespace Body

/-- The moves of a body, where `answer` is what the operands come to. -/
def moves (answer : Nat → Except EvalError String) : Body α → List Move
  | .done _ => []
  | .request i next => .ask i :: (next (answer i)).moves answer
  | .announce next => .announce :: next.moves answer

/-- A body that goes on makes the moves of its first part, and those of the second if the first has
a value. -/
theorem moves_bind (x : Body α) (f : α → Body β) :
    (x >>= f).moves answer = x.moves answer ++
      match x.run answer with
      | .ok a => (f a).moves answer
      | .error _ => [] := by
  show (x.bind f).moves answer = _
  induction x with
  | done result => cases result <;> rfl
  | request i next ih =>
    rw [bind, moves, ih]
    rfl
  | announce next ih =>
    rw [bind, moves, ih]
    rfl

/-- A body that gives a value goes on with the moves of what follows. -/
theorem moves_bind_of_ok {x : Body α} {f : α → Body β} {a : α} (h : x.run answer = .ok a) :
    (x >>= f).moves answer = x.moves answer ++ (f a).moves answer := by
  rw [moves_bind, h]

end Body

open Body

/-- What happens while a body runs happens in its moves. -/
theorem Run.events_ofBody (operand : Nat → Run String) (start : Event) (body : Body α) :
    (ofBody operand start body).events =
      (body.moves fun i => (operand i).result).flatMap
        (Move.brings [start] fun i => (operand i).events) := by
  induction body with
  | done result => rfl
  | request i next ih => rw [ofBody, moves, List.flatMap_cons, ← ih, Move.brings]
  | announce next ih =>
    rw [ofBody, moves, List.flatMap_cons, ← ih, Move.brings, List.singleton_append]

/-! ## Following a list of moves -/

namespace Body

/-- The body makes moves of the list only, in their order, whatever its operands come to. -/
def Follows (x : Body α) (l : List Move) : Prop :=
  ∀ answer, (x.moves answer).Sublist l

variable {x : Body α} {f : α → Body β} {l m : List Move}

/-- A body that is done makes no moves. -/
theorem follows_done (r : Except EvalError α) (l : List Move) : (done r).Follows l :=
  fun _ => List.nil_sublist l

/-- A body that gives a value at once makes no moves. -/
theorem follows_pure (a : α) (l : List Move) : (pure a : Body α).Follows l :=
  follows_done _ l

/-- Moves in their order are in that order among more moves. -/
theorem Follows.mono (hx : x.Follows l) (h : l.Sublist m) : x.Follows m :=
  fun answer => (hx answer).trans h

/-- A body that goes on follows one list after the other. -/
theorem Follows.bind (hx : x.Follows l) (hf : ∀ a, (f a).Follows m) :
    (x >>= f).Follows (l ++ m) := by
  intro answer
  rw [moves_bind]
  refine (hx answer).append ?_
  split
  · exact hf _ answer
  · exact List.nil_sublist m

/-- What is worked out from the value of a body makes no moves of its own. -/
theorem Follows.bind_still (hx : x.Follows l) (hf : ∀ a, (f a).Follows []) :
    (x >>= f).Follows l := by
  have h := hx.bind hf
  rwa [List.append_nil] at h

/-- The start of a function is announced once. -/
theorem follows_started : started.Follows [.announce] :=
  fun _ => .refl _

/-- The text of an operand is asked for once. -/
theorem follows_text (i : Nat) : (text i).Follows [.ask i] :=
  fun _ => .refl _

/-- The truth of an operand is that of its text, asked for once. -/
theorem follows_truth (i : Nat) : (truth i).Follows [.ask i] :=
  (follows_text i).bind_still fun _ => follows_pure _ _

/-- The integer of an operand is read off its text, asked for once. -/
theorem follows_integer (i : Nat) : (integer i).Follows [.ask i] := by
  refine (follows_text i).bind_still fun t => ?_
  split
  · exact follows_pure _ _
  · exact follows_done _ _

/-- The number of an operand is read off its text, asked for once. -/
theorem follows_number (i : Nat) : (number i).Follows [.ask i] := by
  refine (follows_text i).bind_still fun t => ?_
  split
  · exact follows_pure _ _
  · exact follows_done _ _

/-- A parameter of any type asks once for its operand. -/
theorem follows_convert (p : ParamType) (i : Nat) : (p.convert i).Follows [.ask i] := by
  cases p with
  | text => exact follows_text i
  | integer => exact follows_integer i
  | number => exact follows_number i
  | truth => exact follows_truth i

/-- The requests for `count` operands from `i` on, in order. -/
def asksFrom (i count : Nat) : List Move :=
  (List.range' i count).map .ask

/-- The requests for operands in order are that for the first and those for the rest. -/
theorem asksFrom_succ (i count : Nat) :
    asksFrom i (count + 1) = [.ask i] ++ asksFrom (i + 1) count := by
  rw [asksFrom, List.range'_succ, List.map_cons, List.singleton_append]
  rfl

/-- Requests in order are for different operands. -/
theorem nodup_asksFrom (i count : Nat) : (asksFrom i count).Nodup :=
  List.Pairwise.map Move.ask (fun _ _ hne h => hne (Move.ask.inj h)) (List.nodup_range' 1)

/-- The texts of all operands are asked for in order. -/
theorem follows_textsFrom (i count : Nat) : (textsFrom i count).Follows (asksFrom i count) := by
  induction count generalizing i with
  | zero => exact follows_pure _ _
  | succ count ih =>
    rw [asksFrom_succ]
    exact (follows_text i).bind fun _ => (ih (i + 1)).bind_still fun _ => follows_pure _ _

/-- The operands of typed parameters are asked for in order. -/
theorem follows_applyFrom (ps : List ParamType) (i : Nat) (f : ParamType.Implementation ps) :
    (ParamType.applyFrom ps i f).Follows (asksFrom i ps.length) := by
  induction ps generalizing i with
  | nil => exact follows_done _ _
  | cons p ps ih =>
    rw [List.length_cons, asksFrom_succ]
    exact (follows_convert p i).bind fun a => ih (i + 1) (f a)

/-- If all operands have texts, all are asked for. -/
theorem moves_textsFrom (h : ∀ i, ∃ t, answer i = .ok t) (i count : Nat) :
    (textsFrom i count).moves answer = asksFrom i count ∧
      ∃ ts, (textsFrom i count).run answer = .ok ts := by
  induction count generalizing i with
  | zero => exact ⟨rfl, [], rfl⟩
  | succ count ih =>
    obtain ⟨t, ht⟩ := h i
    obtain ⟨hmoves, ts, hts⟩ := ih (i + 1)
    have htext : (text i).run answer = .ok t := ht
    rw [textsFrom, asksFrom_succ]
    refine ⟨?_, t :: ts, ?_⟩
    · rw [moves_bind_of_ok htext, moves_bind_of_ok hts, hmoves]
      exact congrArg ([Move.ask i] ++ ·) (List.append_nil _)
    · rw [run_bind, htext]
      exact (run_bind ..).trans (congrArg (· >>= _) hts)

end Body

/-! ## Frugal functions -/

namespace Function

/-- A function that asks for no operand twice and announces itself once at most. -/
def Frugal (f : Function) : Prop :=
  ∀ count, ∃ l, l.Nodup ∧ (f.body count).Follows l

/-- A function that announces itself first of all, and not again. -/
def Heralded (f : Function) : Prop :=
  ∀ count answer, ∃ l, (f.body count).moves answer = .announce :: l ∧ .announce ∉ l

/-- An eager function: it evaluates its operands, and perhaps announces itself, before it works on
their texts. -/
inductive Eager : Function → Prop
  | eager (name : String) (arity : Arity) (f : List String → Except EvalError String) :
      Eager (.eager name arity f)
  | announced (name : String) (arity : Arity) (f : List String → Except EvalError String) :
      Eager (.announced name arity f)

/-- A builtin function, an eager function or one with typed parameters. -/
inductive Standard : Function → Prop
  | builtin {f : Function} (hf : f ∈ builtins) : Standard f
  | eager {f : Function} (hf : f.Eager) : Standard f
  | typed (name : String) (params : List ParamType) (f : ParamType.Implementation params) :
      Standard (.typed name params f)

/-- An eager function asks for no operand twice. -/
theorem Eager.frugal {f : Function} (hf : f.Eager) : f.Frugal := by
  intro count
  cases hf with
  | eager name arity f =>
    exact ⟨_, nodup_asksFrom 0 count, (follows_textsFrom 0 count).bind_still fun _ =>
      follows_done _ _⟩
  | announced name arity f =>
    refine ⟨asksFrom 0 count ++ [.announce], ?_, (follows_textsFrom 0 count).bind fun _ =>
      follows_started.bind_still fun _ => follows_done _ _⟩
    have hask : Move.announce ∉ asksFrom 0 count := by simp [asksFrom]
    exact List.nodup_append.2 ⟨nodup_asksFrom 0 count, List.pairwise_singleton _ _,
      fun m hm n hn h => hask (List.mem_singleton.1 hn ▸ h ▸ hm)⟩

/-- An eager function asks for all its operands if they have texts. -/
theorem Eager.moves {f : Function} (hf : f.Eager) (h : ∀ i, ∃ t, answer i = .ok t) (count : Nat) :
    ∃ l, (f.body count).moves answer = asksFrom 0 count ++ l ∧ ∀ i, Move.ask i ∉ l := by
  obtain ⟨hmoves, ts, hts⟩ := moves_textsFrom h 0 count
  cases hf with
  | eager name arity f =>
    exact ⟨[], (moves_bind_of_ok hts).trans (hmoves ▸ rfl), fun i => List.not_mem_nil⟩
  | announced name arity f =>
    exact ⟨[.announce], (moves_bind_of_ok hts).trans (hmoves ▸ rfl), fun i => by simp⟩

/-- A function of one text asks for no operand twice. -/
theorem frugal_onText (name : String) (f : String → String) : (onText name f).Frugal :=
  Eager.frugal (.eager _ _ _)

/-- All builtin functions are frugal, also the conditional ones. -/
theorem frugal_builtin {f : Function} (hf : f ∈ builtins) : f.Frugal := by
  simp only [builtins, List.mem_cons, List.not_mem_nil, or_false] at hf
  obtain rfl | rfl | rfl | rfl | rfl | rfl | rfl | rfl | rfl | rfl | rfl | rfl := hf
  · refine fun _ => ⟨[.ask 0] ++ [.ask 1, .ask 2], by decide, ?_⟩ -- if
    refine (follows_truth 0).bind fun b => ?_
    split
    · exact (follows_text 1).mono (by decide)
    · exact (follows_text 2).mono (by decide)
  · refine fun _ => ⟨[.ask 0] ++ [.ask 1], by decide, ?_⟩ -- and
    refine (follows_truth 0).bind fun b => ?_
    split
    · exact (follows_truth 1).bind_still fun _ => follows_pure _ _
    · exact follows_pure _ _
  · refine fun _ => ⟨[.ask 0] ++ [.ask 1], by decide, ?_⟩ -- or
    refine (follows_truth 0).bind fun b => ?_
    split
    · exact follows_pure _ _
    · exact (follows_truth 1).bind_still fun _ => follows_pure _ _
  · refine fun _ => ⟨[.ask 0] ++ [.ask 1], by decide, ?_⟩ -- default
    refine (follows_text 0).bind fun t => ?_
    split
    · exact follows_text 1
    · exact follows_pure _ _
  · refine fun _ => ⟨[.ask 1] ++ [.ask 0], by decide, ?_⟩ -- left
    refine (follows_integer 1).bind fun n => ?_
    split
    · exact follows_done _ _
    · exact (follows_text 0).bind_still fun _ => follows_pure _ _
  · exact Eager.frugal (.eager _ _ _) -- equal
  -- not, upper, lower, length, trim
  · exact frugal_onText _ _
  · exact frugal_onText _ _
  · exact frugal_onText _ _
  · exact frugal_onText _ _
  · exact frugal_onText _ _
  · exact Eager.frugal (.eager _ _ _) -- concat

/-- No standard function asks for an operand twice. -/
theorem Standard.frugal {f : Function} (hf : f.Standard) : f.Frugal := by
  cases hf with
  | builtin hf => exact frugal_builtin hf
  | eager hf => exact hf.frugal
  | typed name params f =>
    exact fun _ => ⟨_, nodup_asksFrom 0 params.length, follows_applyFrom params 0 f⟩

end Function

end TagTemplate
