import TagTemplate.Proofs.ByteOrder
import TagTemplate.Proofs.Watching

/-!
# Histories of registrations

A registry is made by registering functions one after the other. What it answers depends only on the
last function that the history has under each name, and registrations under different names commute.
The arity that a call is checked against is that of the function it reaches, so remembering arities
apart from the functions comes to the same (`Ledger`).

In every evaluation a function starts only if it is the last one under its name and accepts the
number of operands of the call. So the builtin functions, which take their operands by their places,
find them all (`Function.indexing`).
-/

namespace TagTemplate

/-! ## The last function under a name -/

/-- The function is the last one of the history under the name. -/
def LastNamed (history : List Function) (name : String) (f : Function) : Prop :=
  ∃ before after, history = before ++ f :: after ∧ f.name = name ∧ ∀ g ∈ after, g.name ≠ name

/-- The functions of a history under a name, in their order. -/
def underName (history : List Function) (name : String) : List Function :=
  history.filter (·.name == name)

/-- The functions of two histories under a name are those of the one and then those of the other. -/
theorem underName_append (history more : List Function) (name : String) :
    underName (history ++ more) name = underName history name ++ underName more name :=
  List.filter_append history more

/-- A function stands under its own name. -/
theorem underName_cons_self (f : Function) (history : List Function) :
    underName (f :: history) f.name = f :: underName history f.name :=
  List.filter_cons_of_pos (beq_self_eq_true _)

/-- A function does not stand under another name. -/
theorem underName_cons_of_ne {f : Function} {name : String} (h : f.name ≠ name)
    (history : List Function) : underName (f :: history) name = underName history name :=
  List.filter_cons_of_neg (mt beq_iff_eq.1 h)

/-- No function stands under a name that none has. -/
theorem underName_eq_nil_iff {history : List Function} {name : String} :
    underName history name = [] ↔ ∀ f ∈ history, f.name ≠ name := by
  rw [underName, List.filter_eq_nil_iff]
  exact forall₂_congr fun _ _ => not_congr beq_iff_eq

/-- The last function under a name is the one that no later function of the name follows. -/
theorem getLast?_underName {history : List Function} {name : String} {f : Function} :
    (underName history name).getLast? = some f ↔ LastNamed history name f := by
  rw [List.getLast?_eq_some_iff]
  constructor
  · rintro ⟨fs, h⟩
    obtain ⟨first, last, rfl, -, h⟩ := List.filter_eq_append_iff.1 h
    obtain ⟨before, after, rfl, -, hf, hafter⟩ := List.filter_eq_cons_iff.1 h
    exact ⟨first ++ before, after, (List.append_assoc ..).symm, beq_iff_eq.1 hf,
      underName_eq_nil_iff.1 hafter⟩
  · rintro ⟨before, after, rfl, rfl, hafter⟩
    refine ⟨underName before f.name, ?_⟩
    rw [underName_append, underName_cons_self, underName_eq_nil_iff.2 hafter]

/-- There is a last function under the names of the history, and under no others. -/
theorem exists_lastNamed_iff {history : List Function} {name : String} :
    (∃ f, LastNamed history name f) ↔ name ∈ history.map (·.name) := by
  simp only [← getLast?_underName]
  rw [← Option.isSome_iff_exists, List.getLast?_isSome, Ne, underName_eq_nil_iff]
  push Not
  rw [List.mem_map]

namespace Registry

variable {r s : Registry} {f g : Function} {fs gs : List Function} {name : String}

/-- Two histories are registered one after the other. -/
theorem registerAll_append (r : Registry) (fs gs : List Function) :
    r.registerAll (fs ++ gs) = (r.registerAll fs).registerAll gs :=
  List.foldl_append

/-- Under a name the registry has the last function that was registered, or the one it had. -/
theorem get?_registerAll (r : Registry) (fs : List Function) (name : String) :
    (r.registerAll fs).get? name = (underName fs name).getLast?.or (r.get? name) := by
  induction fs generalizing r with
  | nil => rfl
  | cons f fs ih =>
    rw [registerAll, List.foldl_cons, ← registerAll, ih, get?_register]
    by_cases hf : f.name = name
    · subst hf
      rw [if_pos rfl, underName_cons_self, List.getLast?_cons]
      cases (underName fs f.name).getLast? <;> rfl
    · rw [if_neg hf, underName_cons_of_ne hf]

/-- What is found under a name is the last function that was registered under it. -/
theorem get?_registerAll_empty {history : List Function} :
    (empty.registerAll history).get? name = some f ↔ LastNamed history name f := by
  rw [get?_registerAll, get?_empty, Option.or_none, getLast?_underName]

/-! ## Names -/

/-- The registry contains the names under which it has functions. -/
theorem contains_iff : r.contains name = true ↔ ∃ f, r.get? name = some f := by
  rw [← Option.isSome_iff_exists, contains, get?, Std.TreeMap.contains_eq_isSome_getElem?]

/-- The names of the registry are those under which it has functions. -/
theorem mem_names_iff : name ∈ r.names ↔ ∃ f, r.get? name = some f := by
  rw [← contains_iff, names, Std.TreeMap.mem_keys, contains, Std.TreeMap.contains_iff_mem]

/-- The names come in the order of their bytes, each once. -/
theorem pairwise_names (r : Registry) :
    r.names.Pairwise fun s t => textBytes s < textBytes t := by
  have hkeys : r.names.Pairwise fun s t => compare s t = .lt := Std.TreeMap.ordered_keys
  exact hkeys.imp fun h => textBytes_lt (compareOfLessAndEq_eq_lt.1 h)

/-! ## Registries that answer alike -/

/-- The registries give the same answers, and templates are evaluated alike under them. -/
structure Same (r s : Registry) : Prop where
  names : r.names = s.names
  contains : ∀ name, r.contains name = s.contains name
  get? : ∀ name, r.get? name = s.get? name
  resolve : ∀ name count, r.resolve name count = s.resolve name count
  evaluate : ∀ (ctx : EvalContext) (t : Template),
    t.evaluate { ctx with registry := r } = t.evaluate { ctx with registry := s }

/-- Registries with the same functions are the same to all who ask. -/
theorem same_of_get? (h : ∀ name, r.get? name = s.get? name) : r.Same s where
  names := (Std.TreeMap.Equiv.of_forall_constGet?_eq h).keys_eq
  contains name := Bool.eq_iff_iff.2 <| by rw [contains_iff, contains_iff, h]
  get? := h
  resolve name count := by rw [resolve, resolve, h]
  evaluate ctx t := by
    refine Run.matches_all_iff.1 (Alike.matches_evaluate (fun _ _ => rfl) (fun name => ?_) ctx t)
    show Option.Rel _ (r.get? name) (s.get? name)
    rw [h]
    cases s.get? name with
    | none => exact .none
    | some f => exact .some f.alike_self

/-- Only the order of the registrations under each name matters. -/
theorem same_registerAll (r : Registry) (h : ∀ name, underName fs name = underName gs name) :
    (r.registerAll fs).Same (r.registerAll gs) :=
  same_of_get? fun name => by rw [get?_registerAll, get?_registerAll, h]

/-- Two registrations under different names, wherever they stand in a history, commute. -/
theorem same_registerAll_swap (r : Registry) (hfg : f.name ≠ g.name)
    (before after : List Function) :
    (r.registerAll (before ++ f :: g :: after)).Same
      (r.registerAll (before ++ g :: f :: after)) := by
  refine same_registerAll r fun name => ?_
  rw [underName_append, underName_append]
  by_cases hf : f.name = name
  · subst hf
    rw [underName_cons_self, underName_cons_of_ne hfg.symm, underName_cons_of_ne hfg.symm,
      underName_cons_self]
  · rw [underName_cons_of_ne hf]
    by_cases hg : g.name = name
    · subst hg
      rw [underName_cons_self, underName_cons_self, underName_cons_of_ne hf]
    · rw [underName_cons_of_ne hg, underName_cons_of_ne hg, underName_cons_of_ne hf]

end Registry

/-! ## Remembered arities -/

/-- A function with the arity that it had when it was registered. -/
structure Entry where
  arity : Arity
  function : Function

/-- A registry that remembers arities apart from the functions. -/
structure Ledger where
  entries : Std.TreeMap String Entry := {}

namespace Ledger

/-- Adds a function, in place of one of the same name, and copies its arity. -/
def register (l : Ledger) (f : Function) : Ledger :=
  ⟨l.entries.insert f.name ⟨f.arity, f⟩⟩

/-- The function that a call of the name reaches, by the remembered arity. -/
def resolve (l : Ledger) (name : String) (count : Nat) : Except Anomaly Function :=
  match l.entries[name]? with
  | none => .error (.unknownFunction name)
  | some entry =>
    if entry.arity.accepts count then .ok entry.function
    else .error (.arityMismatch name entry.arity count)

/-- The ledger remembers the functions of the registry, each with its own arity. -/
def Keeps (l : Ledger) (r : Registry) : Prop :=
  ∀ name : String, l.entries[name]? = (r.get? name).map fun f => ⟨f.arity, f⟩

/-- A ledger without functions keeps the arities of a registry without functions. -/
theorem keeps_empty : Keeps {} Registry.empty := by
  intro name
  rw [Registry.get?_empty]
  exact Std.TreeMap.getElem?_emptyc

/-- To register a function keeps its arity with it. -/
theorem Keeps.register {l : Ledger} {r : Registry} (h : l.Keeps r) (f : Function) :
    (l.register f).Keeps (r.register f) := by
  intro name
  rw [Registry.get?_register, Ledger.register, Std.TreeMap.getElem?_insert]
  by_cases hf : f.name = name
  · rw [if_pos (Std.compare_eq_iff_eq.2 hf), if_pos hf]
    rfl
  · rw [if_neg (mt Std.compare_eq_iff_eq.1 hf), if_neg hf]
    exact h name

/-- To register functions keeps their arities with them. -/
theorem Keeps.foldl {l : Ledger} {r : Registry} (h : l.Keeps r) (fs : List Function) :
    (fs.foldl Ledger.register l).Keeps (r.registerAll fs) := by
  induction fs generalizing l r with
  | nil => exact h
  | cons f fs ih => exact ih (h.register f)

/-- A remembered arity is never stale: calls resolve as by the functions' own arities. -/
theorem Keeps.resolve_eq {l : Ledger} {r : Registry} (h : l.Keeps r) (name : String)
    (count : Nat) : l.resolve name count = r.resolve name count := by
  rw [Ledger.resolve, Registry.resolve, h]
  cases r.get? name <;> rfl

end Ledger

/-! ## Starts -/

namespace Registry

/-- The registry of the history in which the function at one place announces its starts and the
others none. -/
def watching (before : List Function) (f : Function) (after : List Function) : Registry :=
  empty.registerAll (before.map .mute ++ f.herald :: after.map .mute)

variable {before after : List Function} {f g : Function} {name : String}

/-- What is registered mute stands mute in the registry. -/
theorem exists_mute_of_get? {fs : List Function}
    (h : (underName (fs.map .mute) name).getLast? = some g) : ∃ g', g = Function.mute g' := by
  have hmem : g ∈ fs.map .mute := List.mem_of_mem_filter (List.mem_of_getLast? h)
  obtain ⟨g', -, rfl⟩ := List.mem_map.1 hmem
  exact ⟨g', rfl⟩

/-- A function that is not mute is the one that is watched, and the last one under its name. -/
theorem get?_watching (h : (watching before f after).get? name = some g) :
    (∃ g', g = Function.mute g') ∨
      g = f.herald ∧ f.name = name ∧ ∀ h ∈ after, h.name ≠ f.name := by
  rw [watching, get?_registerAll, get?_empty, Option.or_none, underName_append,
    List.getLast?_append] at h
  cases hcons : (underName (f.herald :: after.map .mute) name).getLast? with
  | none =>
    rw [hcons, Option.none_or] at h
    exact .inl (exists_mute_of_get? h)
  | some g' =>
    rw [hcons, Option.some_or, Option.some.injEq] at h
    subst h
    by_cases hf : f.name = name
    · subst hf
      have hself : underName (f.herald :: after.map .mute) f.name =
          f.herald :: underName (after.map .mute) f.name := underName_cons_self f.herald _
      rw [hself, List.getLast?_cons] at hcons
      cases hlast : (underName (after.map .mute) f.name).getLast? with
      | some last =>
        rw [hlast, Option.getD_some, Option.some.injEq] at hcons
        exact .inl (exists_mute_of_get? (hcons ▸ hlast))
      | none =>
        rw [hlast, Option.getD_none, Option.some.injEq] at hcons
        refine .inr ⟨hcons.symm, rfl, fun h hh => ?_⟩
        exact underName_eq_nil_iff.1 (List.getLast?_eq_none_iff.1 hlast) h.mute
          (List.mem_map_of_mem hh)
    · have hother : underName (f.herald :: after.map .mute) name =
          underName (after.map .mute) name := underName_cons_of_ne (f := f.herald) hf _
      rw [hother] at hcons
      exact .inl (exists_mute_of_get? hcons)

/-- Watching a function changes nothing but the announcements. -/
theorem evaluate_watching (ctx : EvalContext) (t : Template) (before after : List Function)
    (f : Function) :
    let plain := t.evaluate { ctx with registry := empty.registerAll (before ++ f :: after) }
    let watched := t.evaluate { ctx with registry := watching before f after }
    watched.result = plain.result ∧
      watched.events.filter (!·.isStart) = plain.events.filter (!·.isStart) := by
  intro plain watched
  -- Both are compared with the evaluation in which every function is mute.
  let silent : Registry := empty.registerAll ((before ++ f :: after).map .mute)
  have hmute : ∀ fs : List Function,
      List.Forall₂ (Function.Alike (!·.isStart)) fs (fs.map .mute) := by
    intro fs
    rw [List.forall₂_map_right_iff]
    exact List.forall₂_same.2 fun g _ => Function.alike_mute rfl rfl fun _ => rfl
  have hmuted : ∀ fs : List Function,
      List.Forall₂ (Function.Alike (!·.isStart)) (fs.map .mute) (fs.map .mute) := by
    intro fs
    refine List.forall₂_same.2 fun g hg => ?_
    obtain ⟨g, -, rfl⟩ := List.mem_map.1 hg
    exact Function.alike_mute rfl rfl fun count => (g.body count).mute_mute
  have hplain : Run.Matches (!·.isStart) Eq plain (t.evaluate { ctx with registry := silent }) :=
    (alike_empty.registerAll (hmute _)).matches_evaluate Event.kept_of_isStart ctx t
  have hwatched :
      Run.Matches (!·.isStart) Eq watched (t.evaluate { ctx with registry := silent }) := by
    refine (alike_empty.registerAll ?_).matches_evaluate Event.kept_of_isStart ctx t
    rw [List.map_append, List.map_cons]
    refine List.rel_append (hmuted before) (.cons ?_ (hmuted after))
    exact Function.alike_mute rfl rfl fun count => (f.body count).mute_mute
  exact ⟨hwatched.result.eq.trans hplain.result.eq.symm, hwatched.events.symm.trans hplain.events⟩

/-- The watched function starts only as the last one under its name, in a call of that name with as
many operands as it accepts. -/
theorem start_watching {ctx : EvalContext} {t : Template} {ev : Event} (hev : ev.isStart = true)
    (h : ev ∈ (t.evaluate { ctx with registry := watching before f after }).events) :
    ∃ count, ev = .call f.name count ∧ (∀ g ∈ after, g.name ≠ f.name) ∧
      f.arity.accepts count = true ∧ t.HasCall f.name count := by
  obtain ⟨name, count, g, hcall, hresolve, rfl, answer, hannounce⟩ :=
    Arena.announced_of_mem_events_evalSeq hev h
  rw [resolve] at hresolve
  dsimp only at hresolve
  split at hresolve
  · cases hresolve
  next g' hget =>
  split at hresolve
  next haccepts =>
    cases hresolve
    rcases get?_watching hget with ⟨g', rfl⟩ | ⟨rfl, rfl, hafter⟩
    · exact (Body.announce_notMem_moves_mute _ _ hannounce).elim
    · exact ⟨count, rfl, hafter, haccepts, hcall⟩
  · cases hresolve

end Registry

/-! ## Operands by their places -/

/-- What follows the texts of the operands may take it that there are as many as operands. -/
theorem Body.textsFrom_bind_congr {α : Type} {k k' : List String → Body α} (i count : Nat)
    (h : ∀ ts, ts.length = count → k ts = k' ts) :
    textsFrom i count >>= k = textsFrom i count >>= k' := by
  induction count generalizing i k k' with
  | zero =>
    rw [textsFrom, pure_bind, pure_bind]
    exact h [] rfl
  | succ count ih =>
    simp only [textsFrom, bind_assoc, pure_bind]
    congr 1
    funext t
    exact ih (i + 1) fun ts hts => h (t :: ts) (congrArg Nat.succ hts)

namespace Function

/-- The function that evaluates all its operands and takes what it needs from their texts. If a text
is missing, it goes on as told. -/
def indexing (missing : Body String) (name : String) (arity : Arity)
    (f : List String → Option String) : Function where
  name := name
  arity := arity
  body count := do
    let ts ← Body.texts count
    match f ts with
    | some t => pure t
    | none => missing

/-- Functions that find all they need for every number of operands they accept. -/
theorem alike_indexing (missing : Body String) (name : String) {arity : Arity}
    {f : List String → Except EvalError String} {g : List String → Option String}
    (h : ∀ ts : List String, arity.accepts ts.length = true → ∃ t, g ts = some t ∧ f ts = .ok t) :
    (eager name arity f).Alike (fun _ => true) (indexing missing name arity g) := by
  refine .of_body rfl rfl fun count haccepts => ?_
  refine Body.textsFrom_bind_congr 0 count fun ts hts => ?_
  obtain ⟨t, hg, hf⟩ := h ts (hts ▸ haccepts)
  rw [hg, hf]
  rfl

/-- The function of the text of the first operand. -/
def indexingFirst (missing : Body String) (name : String) (f : String → String) : Function :=
  indexing missing name (.exactly 1) fun ts => ts[0]?.map f

/-- A function of one text acts as one that takes its operand by its place. -/
theorem alike_indexingFirst (missing : Body String) (name : String) (f : String → String) :
    (onText name f).Alike (fun _ => true) (indexingFirst missing name f) := by
  refine alike_indexing missing name fun ts hts => ?_
  obtain ⟨t, rfl⟩ := List.length_eq_one_iff.1 (beq_iff_eq.1 hts)
  exact ⟨f t, rfl, rfl⟩

/-- The builtin functions, the eager ones taking their operands by their places. -/
def indexingBuiltins (missing : Body String) : List Function :=
  [ifThenElse, both, either, orDefault, left,
    indexing missing "equal" (.exactly 2) fun ts => do return marker ((← ts[0]?) == (← ts[1]?)),
    indexingFirst missing "not" fun t => marker (t == ""),
    indexingFirst missing "upper" Text.toUpper,
    indexingFirst missing "lower" Text.toLower,
    indexingFirst missing "length" fun t => t.length.repr,
    indexingFirst missing "trim" Text.trim,
    indexing missing "concat" (.atLeast 1) fun ts => some (String.join ts)]

/-- The builtin functions act as those that take their operands by their places. -/
theorem alike_indexingBuiltins (missing : Body String) :
    List.Forall₂ (Alike fun _ => true) builtins (indexingBuiltins missing) := by
  have hequal : equal.Alike (fun _ => true) (indexing missing "equal" (.exactly 2) fun ts => do
      return marker ((← ts[0]?) == (← ts[1]?))) := by
    refine alike_indexing missing "equal" fun ts hts => ?_
    obtain ⟨s, t, rfl⟩ := List.length_eq_two.1 (beq_iff_eq.1 hts)
    exact ⟨_, rfl, rfl⟩
  have hconcat : concat.Alike (fun _ => true)
      (indexing missing "concat" (.atLeast 1) fun ts => some (String.join ts)) :=
    alike_indexing missing "concat" fun ts _ => ⟨_, rfl, rfl⟩
  have hfirst := alike_indexingFirst missing
  exact .cons (alike_self _) <| .cons (alike_self _) <| .cons (alike_self _) <|
    .cons (alike_self _) <| .cons (alike_self _) <| .cons hequal <| .cons (hfirst ..) <|
    .cons (hfirst ..) <| .cons (hfirst ..) <| .cons (hfirst ..) <| .cons (hfirst ..) <|
    .cons hconcat .nil

end Function

/-- What the eager functions do where an operand is missing has no part in any evaluation. -/
theorem Registry.evaluate_indexingBuiltins (missing : Body String) (history : List Function)
    (ctx : EvalContext) (t : Template) :
    t.evaluate { ctx with registry := builtins.registerAll history } =
      t.evaluate { ctx with
        registry := (empty.registerAll (Function.indexingBuiltins missing)).registerAll
          history } := by
  refine Run.matches_all_iff.1 (Alike.matches_evaluate (fun _ _ => rfl) ?_ ctx t)
  refine Alike.registerAll (alike_empty.registerAll (Function.alike_indexingBuiltins missing)) ?_
  exact List.forall₂_same.2 fun f _ => f.alike_self

/-! ## What a history comes to -/

namespace Registry

/-- The registries that registrations start from, with the functions that they hold. -/
inductive Base : Registry → List Function → Prop
  | empty : Base empty []
  | builtins : Base builtins Function.builtins

/-- A registry to start from is one in which its functions were registered. -/
theorem Base.eq_registerAll {base : Registry} {catalog : List Function} (h : base.Base catalog) :
    base = Registry.empty.registerAll catalog := by
  cases h <;> rfl

/-- To go on from a registry is to register its functions first. -/
theorem Base.registerAll_eq {base : Registry} {catalog : List Function} (h : base.Base catalog)
    (history : List Function) :
    base.registerAll history = Registry.empty.registerAll (catalog ++ history) := by
  rw [h.eq_registerAll, registerAll_append]

/-- The last function under a name wins, whatever has been registered before. The names are those of
all functions so far, in the order of their bytes and each once, and a name leads to the last
function under it. A call of the name is checked against the arity of that function, also where
arities are remembered apart. Registrations under different names commute.

If one registration of the history is watched, an evaluation differs in nothing but the starts of
its function, and there are such only if no function of the same name comes later, and then for
calls of the template with as many operands as the function accepts. And what the eager builtin
functions do where an operand is missing does not matter, since none is. -/
theorem last_registered_wins {base : Registry} {catalog : List Function}
    (hbase : base.Base catalog) (history : List Function) :
    let r := base.registerAll history
    let all := catalog ++ history
    (r.names.Pairwise fun s t => textBytes s < textBytes t) ∧
    (∀ name,
      (name ∈ r.names ↔ name ∈ all.map (·.name)) ∧
      (r.contains name = true ↔ name ∈ all.map (·.name)) ∧
      ((∃ f, r.get? name = some f) ↔ name ∈ all.map (·.name)) ∧
      ∀ f, r.get? name = some f ↔ LastNamed all name f) ∧
    (∀ name count,
      (∀ f, LastNamed all name f → r.resolve name count =
        if f.arity.accepts count then .ok f
        else .error (.arityMismatch name f.arity count)) ∧
      (name ∉ all.map (·.name) → r.resolve name count = .error (.unknownFunction name)) ∧
      (all.foldl Ledger.register {}).resolve name count = r.resolve name count) ∧
    (∀ before f g after, history = before ++ f :: g :: after → f.name ≠ g.name →
      r.Same (base.registerAll (before ++ g :: f :: after))) ∧
    (∀ (ctx : EvalContext) (t : Template) before f after, all = before ++ f :: after →
      let plain := t.evaluate { ctx with registry := r }
      let watched := t.evaluate { ctx with registry := watching before f after }
      watched.result = plain.result ∧
        watched.events.filter (!·.isStart) = plain.events.filter (!·.isStart) ∧
        ∀ ev ∈ watched.events, ev.isStart = true → ∃ count, ev = .call f.name count ∧
          (∀ g ∈ after, g.name ≠ f.name) ∧ f.arity.accepts count = true ∧
          t.HasCall f.name count) ∧
    ∀ (missing : Body String) (ctx : EvalContext) (t : Template),
      t.evaluate { ctx with registry := builtins.registerAll history } =
        t.evaluate { ctx with
          registry := (empty.registerAll (Function.indexingBuiltins missing)).registerAll
            history } := by
  intro r all
  have hr : r = Registry.empty.registerAll all := hbase.registerAll_eq history
  have hget : ∀ name f, r.get? name = some f ↔ LastNamed all name f := by
    intro name f
    rw [hr, get?_registerAll_empty]
  have hnames : ∀ name, (∃ f, r.get? name = some f) ↔ name ∈ all.map (·.name) := by
    intro name
    rw [← exists_lastNamed_iff]
    exact exists_congr (hget name)
  refine ⟨r.pairwise_names, fun name => ?_, fun name count => ⟨fun f hf => ?_, fun hname => ?_, ?_⟩,
    ?_, ?_, fun missing ctx t => evaluate_indexingBuiltins missing history ctx t⟩
  · exact ⟨mem_names_iff.trans (hnames name), contains_iff.trans (hnames name), hnames name,
      hget name⟩
  · rw [resolve, (hget name f).2 hf]
  · have hnone : r.get? name = none := by
      rw [← Option.not_isSome_iff_eq_none, Option.isSome_iff_exists, hnames]
      exact hname
    rw [resolve, hnone]
  · rw [hr]
    exact (Ledger.keeps_empty.foldl all).resolve_eq name count
  · rintro before f g after rfl hfg
    exact base.same_registerAll_swap hfg before after
  · intro ctx t before f after hall plain watched
    obtain ⟨hresult, hevents⟩ := evaluate_watching ctx t before after f
    rw [← hall, ← hr] at hresult hevents
    refine ⟨hresult, hevents, fun ev hev hstart => ?_⟩
    exact start_watching hstart hev

/-- A builtin function that is replaced by one with more operands. -/
theorem last_registered_wins_upper :
    let upper : Function := .eager "upper" (.exactly 2) fun ts => .ok (String.join ts)
    let r := Registry.builtins.registerAll [upper]
    r.get? "upper" = some upper ∧ r.resolve "upper" 2 = .ok upper ∧
      r.resolve "upper" 1 = .error (.arityMismatch "upper" (.exactly 2) 1) ∧
      r.contains "concat" = true ∧ "reverse" ∉ r.names := by
  intro upper r
  obtain ⟨-, hnames, hresolve, -, -, -⟩ := last_registered_wins .builtins [upper]
  have hlast : LastNamed (Function.builtins ++ [upper]) "upper" upper :=
    ⟨Function.builtins, [], rfl, rfl, List.forall_mem_nil _⟩
  refine ⟨((hnames "upper").2.2.2 upper).2 hlast, (hresolve "upper" 2).1 upper hlast,
    (hresolve "upper" 1).1 upper hlast, (hnames "concat").2.1.2 ?_, mt (hnames "reverse").1.1 ?_⟩
  · decide
  · decide

end Registry

end TagTemplate
