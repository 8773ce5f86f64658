import TagTemplate.Function.Scripted
import TagTemplate.Function.TrackData
import TagTemplate.Registry

/-!
# What holds of all bodies that are put together from accessors

The bodies of functions are put together from the accessors for operands, the announcement, values
and failures. `Body.Closed` says of a property that it holds of these parts and is kept by putting
parts after each other; then it holds of the bodies of all families of functions: eager functions,
functions with typed parameters, scripts, and the builtin functions.

Which values a part hands on to the next is told by a second relation, so that a property may depend
on them. `Body.MayGive` is the widest such relation, where operands may come to anything.
-/

namespace TagTemplate

open Body

/-- A text that an accessor or a builtin function refuses, with the anomaly it ends with. -/
inductive Misread : String → Anomaly → Prop
  | integer {t : String} {fault : IntegerFault}
      (h : readInteger (Text.trimChars t.toList) = .error fault) :
      Misread t (.typeMismatch "integer" t)
  | number {t : String} (h : Binary64.read (Text.trimChars t.toList) = none) :
      Misread t (.typeMismatch "number" t)
  | negative {t : String} {n : Int64} (h : readInteger (Text.trimChars t.toList) = .ok n)
      (hn : n.toInt < 0) : Misread t (.typeMismatch "non-negative integer" (intText n.toInt))

/-- A text that is refused is of the wrong type. -/
theorem Misread.kind_eq {t : String} {anomaly : Anomaly} (h : Misread t anomaly) :
    anomaly.kind = .typeMismatch := by
  cases h with
  | integer | number | negative => rfl

/-- The body may end with the value, if its operands come to whatever is needed for that. -/
inductive Body.MayGive {α : Type} : Body α → α → Prop
  | done (a : α) : MayGive (.done (.ok a)) a
  | request {i : Nat} {next : Except EvalError String → Body α} {r : Except EvalError String}
      {a : α} (h : MayGive (next r) a) : MayGive (.request i next) a
  | announce {next : Body α} {a : α} (h : MayGive next a) : MayGive (.announce next) a

/-- The relation says of bodies which values they give: a body that goes on gives a value by way of
one that its first part gives. -/
structure Body.Yields (Gives : ∀ {α : Type}, Body α → α → Prop) : Prop where
  done : ∀ {α : Type} {r : Except EvalError α} {a : α}, Gives (done r) a → r = .ok a
  bind : ∀ {α β : Type} {x : Body α} {f : α → Body β} {b : β}, Gives (x >>= f) b →
    ∃ a, Gives x a ∧ Gives (f a) b

/-- What a body may give says which values it gives. -/
theorem Body.yields_mayGive : Yields MayGive where
  done h := by
    cases h
    rfl
  bind {α β x f b} h := by
    induction x with
    | done result =>
      cases result with
      | ok a => exact ⟨a, .done a, h⟩
      | error e => cases h
    | request i next ih =>
      cases h with
      | request h =>
        obtain ⟨a, hx, hf⟩ := ih _ h
        exact ⟨a, .request hx, hf⟩
    | announce next ih =>
      cases h with
      | announce h =>
        obtain ⟨a, hx, hf⟩ := ih h
        exact ⟨a, .announce hx, hf⟩

/-- The property holds of the parts that bodies are put together from, and of what is put together
from parts that have it. -/
structure Body.Closed (Gives : ∀ {α : Type}, Body α → α → Prop)
    (P : ∀ {α : Type}, Body α → Prop) : Prop where
  yields : Yields Gives
  pure : ∀ {α : Type} (a : α), P (pure a : Body α)
  refuse : ∀ {α : Type} {i : Nat} {t : String} {anomaly : Anomaly}, Gives (text i) t →
    Misread t anomaly → P (fail anomaly : Body α)
  text : ∀ i, P (text i)
  started : P started
  bind : ∀ {α β : Type} {x : Body α} {f : α → Body β}, P x → (∀ a, Gives x a → P (f a)) →
    P (x >>= f)

namespace Body.Closed

variable {Gives : ∀ {α : Type}, Body α → α → Prop} {P : ∀ {α : Type}, Body α → Prop}
  (hP : Closed Gives P)
include hP

/-! ## Accessors -/

/-- The property holds of the accessor for truth. -/
theorem truth (i : Nat) : P (truth i) :=
  hP.bind (hP.text i) fun _ _ => hP.pure _

/-- The property holds of the accessor for integers, which refuses what is no integer. -/
theorem integer (i : Nat) : P (integer i) := by
  refine hP.bind (hP.text i) fun t ht => ?_
  split
  · exact hP.pure _
  · next hfault => exact hP.refuse ht (.integer hfault)

/-- The property holds of the accessor for numbers, which refuses what is no number. -/
theorem number (i : Nat) : P (number i) := by
  refine hP.bind (hP.text i) fun t ht => ?_
  split
  · exact hP.pure _
  · next hnone => exact hP.refuse ht (.number hnone)

/-- An integer is read from the text of its operand. -/
theorem text_of_gives_integer {i : Nat} {n : Int64} (h : Gives (Body.integer i) n) :
    ∃ t, Gives (Body.text i) t ∧ readInteger (Text.trimChars t.toList) = .ok n := by
  obtain ⟨t, ht, hn⟩ := hP.yields.bind h
  refine ⟨t, ht, ?_⟩
  split at hn
  · next m hm =>
    obtain rfl := Except.ok.inj (hP.yields.done hn)
    exact hm
  · cases hP.yields.done hn

/-- The property holds of the accessor for several texts in a row. -/
theorem textsFrom (i count : Nat) : P (textsFrom i count) := by
  induction count generalizing i with
  | zero => exact hP.pure _
  | succ count ih =>
    exact hP.bind (hP.text i) fun _ _ => hP.bind (ih (i + 1)) fun _ _ => hP.pure _

/-- The property holds of the accessor for all texts. -/
theorem texts (count : Nat) : P (texts count) :=
  hP.textsFrom 0 count

/-- The property holds of every conversion to the type of a parameter. -/
theorem convert (p : ParamType) (i : Nat) : P (p.convert i) := by
  cases p with
  | text => exact hP.text i
  | integer => exact hP.integer i
  | number => exact hP.number i
  | truth => exact hP.truth i

/-! ## Families of functions -/

/-- The property holds of eager functions if it holds of their results. -/
theorem eager (name : String) (arity : Arity) {f : List String → Except EvalError String}
    (hf : ∀ ts, P (done (f ts))) (count : Nat) : P ((Function.eager name arity f).body count) :=
  hP.bind (hP.texts count) fun ts _ => hf ts

/-- The property holds of eager functions that announce themselves if it holds of their results. -/
theorem announced (name : String) (arity : Arity) {f : List String → Except EvalError String}
    (hf : ∀ ts, P (done (f ts))) (count : Nat) :
    P ((Function.announced name arity f).body count) :=
  hP.bind (hP.texts count) fun ts _ => hP.bind hP.started fun _ _ => hf ts

end Body.Closed

/-- The implementation comes to the result for some arguments. -/
def ParamType.Implementation.Gives :
    (ps : List ParamType) → ParamType.Implementation ps → Except EvalError String → Prop
  | [], result, r => r = result
  | _ :: ps, f, r => ∃ a, Gives ps (f a) r

namespace Body.Closed

variable {Gives : ∀ {α : Type}, Body α → α → Prop} {P : ∀ {α : Type}, Body α → Prop}
  (hP : Closed Gives P)
include hP

/-- The property holds of the conversion of operands in order if it holds of the results that the
implementation gives. -/
theorem applyFrom {ps : List ParamType} {f : ParamType.Implementation ps}
    (hf : ∀ r, ParamType.Implementation.Gives ps f r → P (done r)) (i : Nat) :
    P (ParamType.applyFrom ps i f) := by
  induction ps generalizing i with
  | nil => exact hf f rfl
  | cons p ps ih =>
    exact hP.bind (hP.convert p i) fun a _ => ih (fun r hr => hf r ⟨a, hr⟩) (i + 1)

/-- The property holds of functions with typed parameters if it holds of the results that the
implementation gives. -/
theorem typed (name : String) {params : List ParamType} {f : ParamType.Implementation params}
    (hf : ∀ r, ParamType.Implementation.Gives params f r → P (done r)) (count : Nat) :
    P ((Function.typed name params f).body count) :=
  hP.applyFrom hf 0

/-- The property holds of every step of a script. -/
theorem step (count : Nat) (s : Function.Step) : P (s.body count) := by
  cases s with
  | text i => exact hP.text i
  | truth i => exact hP.bind (hP.truth i) fun _ _ => hP.pure _
  | integer i => exact hP.bind (hP.integer i) fun _ _ => hP.pure _
  | number i => exact hP.bind (hP.number i) fun _ _ => hP.pure _
  | count => exact hP.pure _
  | isEmpty => exact hP.pure _
  | texts => exact hP.bind (hP.texts count) fun _ _ => hP.pure _

/-- The property holds of all scripts. -/
theorem scripted (name : String) (arity : Arity) (steps : List Function.Step) (count : Nat) :
    P ((Function.scripted name arity steps).body count) := by
  have hsteps : P (Function.Step.bodies count steps) := by
    induction steps with
    | nil => exact hP.pure _
    | cons s ss ih => exact hP.bind (hP.step count s) fun _ _ => hP.bind ih fun _ _ => hP.pure _
  exact hP.bind hP.started fun _ _ => hP.bind hsteps fun _ _ => hP.pure _

/-- The property holds of the eager functions of one operand. -/
theorem onText (name : String) (f : String → String) (count : Nat) :
    P ((Function.onText name f).body count) := by
  refine hP.eager _ _ (fun ts => ?_) count
  split <;> exact hP.pure _

/-- The property holds of all builtin functions, also the conditional ones. -/
theorem builtin {f : Function} (hf : f ∈ Function.builtins) (count : Nat) : P (f.body count) := by
  simp only [Function.builtins, List.mem_cons, List.not_mem_nil, or_false] at hf
  obtain rfl | rfl | rfl | rfl | rfl | rfl | rfl | rfl | rfl | rfl | rfl | rfl := hf
  · refine hP.bind (hP.truth 0) fun b _ => ?_ -- if
    split
    · exact hP.text 1
    · exact hP.text 2
  · refine hP.bind (hP.truth 0) fun b _ => ?_ -- and
    split
    · exact hP.bind (hP.truth 1) fun _ _ => hP.pure _
    · exact hP.pure _
  · refine hP.bind (hP.truth 0) fun b _ => ?_ -- or
    split
    · exact hP.pure _
    · exact hP.bind (hP.truth 1) fun _ _ => hP.pure _
  · refine hP.bind (hP.text 0) fun t _ => ?_ -- default
    split
    · exact hP.text 1
    · exact hP.pure _
  · refine hP.bind (hP.integer 1) fun n hgives => ?_ -- left
    split
    · next hn =>
      obtain ⟨t, ht, hread⟩ := hP.text_of_gives_integer hgives
      exact hP.refuse ht (.negative hread hn)
    · exact hP.bind (hP.text 0) fun _ _ => hP.pure _
  · refine hP.eager _ _ (fun ts => ?_) count -- equal
    split <;> exact hP.pure _
  -- not, upper, lower, length, trim
  · exact hP.onText _ _ count
  · exact hP.onText _ _ count
  · exact hP.onText _ _ count
  · exact hP.onText _ _ count
  · exact hP.onText _ _ count
  · exact hP.eager _ _ (fun _ => hP.pure _) count -- concat

end Body.Closed

/-! ## Registries -/

/-- All functions of the registry have the property. -/
def Registry.All (P : Function → Prop) (r : Registry) : Prop :=
  ∀ name f, r.get? name = some f → P f

namespace Registry

variable {P : Function → Prop}

/-- In the registry without functions all functions have the property. -/
theorem all_empty : empty.All P := by
  intro name f h
  rw [get?_empty] at h
  cases h

/-- A function that has the property may be added. -/
theorem All.register {r : Registry} {f : Function} (hr : r.All P) (hf : P f) :
    (r.register f).All P := by
  intro name g h
  rw [get?_register] at h
  split at h
  · cases h
    exact hf
  · exact hr name g h

/-- Functions that have the property may be added one after the other. -/
theorem All.registerAll {r : Registry} {fs : List Function} (hr : r.All P)
    (hfs : ∀ f ∈ fs, P f) : (r.registerAll fs).All P := by
  induction fs generalizing r with
  | nil => exact hr
  | cons f fs ih =>
    exact ih (hr.register (hfs f List.mem_cons_self)) fun g hg => hfs g (List.mem_cons_of_mem f hg)

end Registry

end TagTemplate
