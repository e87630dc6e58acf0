import StoreCpp.Extensions
import StoreCpp.StepMachine
import Mathlib.Logic.Function.Basic

/-!
# The container of the library

`IOCContainer` keeps instances and creators in maps under the names of their
types.  A creator asks the container for the arguments of the constructor, so
a lookup may call itself; it is run with a bound on the depth of these calls.
No member of the container fills its creators for keys.
-/

namespace StoreCpp

open StepMachine

namespace IOCContainer

/-- An object that the container has made, by its number, or one that a
caller brought along. -/
inductive Object (ω : Type) where
  | made (number : ℕ)
  | given (value : ω)
  deriving DecidableEq

/-- A constructor call `new T(args...)`. -/
structure Made (τ ω : Type) where
  type : τ
  args : List (Option (Object ω))

abbrev Memory (τ ω : Type) := List (Made τ ω)

/-- `Holder<T>`; the pointer in it may be null. -/
structure Holder (τ ω : Type) where
  type : τ
  held : Option (Object ω)

structure Creator (τ : Type) where
  type : τ
  args : List τ

structure Container (τ ω : Type) where
  creatorMap : Str → Option (Creator τ)
  instanceMap : Str → Option (Holder τ ω)
  instanceMapWithKey : Str → Option (Str → Option (Holder τ ω))

def Container.empty {τ ω : Type} : Container τ ω where
  creatorMap _ := none
  instanceMap _ := none
  instanceMapWithKey _ := none

variable {τ ω : Type}

/-- `GetInstance<Ts>()...`. -/
def getInstances
    (getInstance : τ → Memory τ ω →
      Option (Option (Object ω) × Memory τ ω)) :
    List τ → Memory τ ω → Option (List (Option (Object ω)) × Memory τ ω)
  | [], memory => some ([], memory)
  | T :: Ts, memory => do
      let (arg, memory) ← getInstance T memory
      let (args, memory) ← getInstances getInstance Ts memory
      return (arg :: args, memory)

def construct (T : τ) (args : List (Option (Object ω)))
    (memory : Memory τ ω) : Option (Object ω) × Memory τ ω :=
  (some (.made memory.length), memory ++ [⟨T, args⟩])

section Arguments

variable {getInstance getInstance' : τ → Memory τ ω →
    Option (Option (Object ω) × Memory τ ω)}
  {Ts : List τ} {memory : Memory τ ω}
  {answers : List (Option (Object ω)) × Memory τ ω}

theorem getInstances_cons_eq_some {T : τ} :
    getInstances getInstance (T :: Ts) memory = some answers ↔
      ∃ first rest, getInstance T memory = some first ∧
        getInstances getInstance Ts first.2 = some rest ∧
        answers = (first.1 :: rest.1, rest.2) := by
  constructor
  · intro hanswers
    obtain ⟨first, hfirst, hothers⟩ := Option.bind_eq_some_iff.mp hanswers
    obtain ⟨rest, hrest, hboth⟩ := Option.bind_eq_some_iff.mp hothers
    exact ⟨first, rest, hfirst, hrest, (Option.some.inj hboth).symm⟩
  · intro ⟨first, rest, hfirst, hrest, heq⟩
    rw [getInstances, hfirst, Option.bind_eq_bind, Option.bind_some]
    exact Option.bind_eq_some_iff.mpr ⟨rest, hrest, congrArg some heq.symm⟩

theorem getInstances_mono
    (hmono : ∀ T memory answer, getInstance T memory = some answer →
      getInstance' T memory = some answer)
    (hanswers : getInstances getInstance Ts memory = some answers) :
    getInstances getInstance' Ts memory = some answers := by
  induction Ts generalizing memory answers with
  | nil => exact hanswers
  | cons T Ts ih =>
      obtain ⟨first, rest, hfirst, hrest, heq⟩ :=
        getInstances_cons_eq_some.mp hanswers
      apply getInstances_cons_eq_some.mpr
      exact ⟨first, rest, hmono T memory first hfirst, ih hrest, heq⟩

theorem prefix_of_getInstances
    (hinitial : ∀ T memory answer, getInstance T memory = some answer →
      memory <+: answer.2)
    (hanswers : getInstances getInstance Ts memory = some answers) :
    memory <+: answers.2 := by
  induction Ts generalizing memory answers with
  | nil =>
      cases hanswers
      exact List.prefix_rfl
  | cons T Ts ih =>
      obtain ⟨first, rest, hfirst, hrest, heq⟩ :=
        getInstances_cons_eq_some.mp hanswers
      have hothers := ih hrest
      rw [heq]
      exact (hinitial T memory first hfirst).trans hothers

theorem exists_getInstances
    (hTs : ∀ T ∈ Ts, ∀ memory,
      ∃ answer, getInstance T memory = some answer) (memory : Memory τ ω) :
    ∃ answers, getInstances getInstance Ts memory = some answers := by
  induction Ts generalizing memory with
  | nil => exact ⟨_, rfl⟩
  | cons T Ts ih =>
      obtain ⟨first, hfirst⟩ := hTs T List.mem_cons_self memory
      obtain ⟨rest, hrest⟩ :=
        ih (fun U hU => hTs U (List.mem_cons_of_mem _ hU)) first.2
      exact ⟨_, getInstances_cons_eq_some.mpr
        ⟨first, rest, hfirst, hrest, rfl⟩⟩

theorem exists_of_getInstances
    (hanswers : getInstances getInstance Ts memory = some answers) :
    ∀ T ∈ Ts, ∃ memory answer, getInstance T memory = some answer := by
  induction Ts generalizing memory answers with
  | nil => simp
  | cons T Ts ih =>
      obtain ⟨first, rest, hfirst, hrest, _⟩ :=
        getInstances_cons_eq_some.mp hanswers
      intro U hU
      rcases List.mem_cons.mp hU with rfl | hU
      · exact ⟨memory, first, hfirst⟩
      · exact ih hrest U hU

/-- A depth that is enough for each of finitely many types. -/
theorem exists_common_fuel {P : ℕ → τ → Prop}
    (hmono : ∀ fuel fuel' T, fuel ≤ fuel' → P fuel T → P fuel' T)
    (hTs : ∀ T ∈ Ts, ∃ fuel, P fuel T) : ∃ fuel, ∀ T ∈ Ts, P fuel T := by
  induction Ts with
  | nil => exact ⟨0, by simp⟩
  | cons T Ts ih =>
      obtain ⟨first, hfirst⟩ := hTs T List.mem_cons_self
      obtain ⟨rest, hrest⟩ := ih fun U hU => hTs U (List.mem_cons_of_mem _ hU)
      refine ⟨max first rest, ?_⟩
      intro U hU
      rcases List.mem_cons.mp hU with rfl | hU
      · exact hmono first _ _ (le_max_left _ _) hfirst
      · exact hmono rest _ _ (le_max_right _ _) (hrest U hU)

end Arguments

variable [DecidableEq τ]

/-- The instance behind `dynamic_cast<Holder<T>*>`, which must not be null. -/
def Holder.cast (T : τ) (holder : Holder τ ω) : Option (Option (Object ω)) :=
  if holder.type = T then some holder.held else none

namespace Container

/-- `GetInstance<T>()` with at most `fuel` calls inside each other; `typeName`
is `typeid(T).name()`. -/
def getInstance (typeName : τ → Str) (container : Container τ ω) :
    ℕ → τ → Memory τ ω → Option (Option (Object ω) × Memory τ ω)
  | 0, _, _ => none
  | fuel + 1, T, memory =>
      match container.instanceMap (typeName T) with
      | some holder => (holder.cast T).map fun held => (held, memory)
      | none =>
          match container.creatorMap (typeName T) with
          | some creator =>
              if creator.type = T then
                (getInstances (getInstance typeName container fuel)
                  creator.args memory).map fun (args, memory) =>
                    construct T args memory
              else none
          | none => some (none, memory)

def getInstanceWithKey (typeName : τ → Str) (container : Container τ ω)
    (T : τ) (key : Str) : Option (Option (Object ω)) :=
  match container.instanceMapWithKey (typeName T) with
  | some inner =>
      match inner key with
      | some holder => holder.cast T
      | none => some none
  | none => some none

def instanceExist (typeName : τ → Str) (container : Container τ ω)
    (T : τ) : Bool :=
  (container.instanceMap (typeName T)).isSome

def instanceWithKeyExist (typeName : τ → Str) (container : Container τ ω)
    (T : τ) (key : Str) : Bool :=
  match container.instanceMapWithKey (typeName T) with
  | some inner => (inner key).isSome
  | none => false

def registerInstance (typeName : τ → Str) (container : Container τ ω)
    (T : τ) (registered : Option (Object ω)) : Container τ ω :=
  { container with
    instanceMap := Function.update container.instanceMap (typeName T)
      (some ⟨T, registered⟩) }

def registerInstanceWithKey (typeName : τ → Str) (container : Container τ ω)
    (T : τ) (key : Str) (registered : Option (Object ω)) : Container τ ω :=
  let inner := (container.instanceMapWithKey (typeName T)).getD fun _ => none
  { container with
    instanceMapWithKey :=
      Function.update container.instanceMapWithKey (typeName T)
        (some (Function.update inner key (some ⟨T, registered⟩))) }

def registerClass (typeName : τ → Str) (container : Container τ ω)
    (T : τ) (Ts : List τ) : Container τ ω :=
  { container with
    creatorMap := Function.update container.creatorMap (typeName T)
      (some ⟨T, Ts⟩) }

end Container

/-- The operations that register something. -/
inductive Operation (τ ω : Type) where
  | registerInstance (T : τ) (registered : Option (Object ω))
  | registerSingletonClass (T : τ) (Ts : List τ)
  | registerClass (T : τ) (Ts : List τ)
  | registerInstanceWithKey (T : τ) (key : Str)
      (registered : Option (Object ω))

/-- What an operation has registered. -/
inductive Registration (τ ω : Type) where
  | ofInstance (T : τ) (registered : Option (Object ω))
  | ofClass (T : τ) (Ts : List τ)
  | ofInstanceWithKey (T : τ) (key : Str) (registered : Option (Object ω))

/-- The container, the objects that it has made and its registrations, the
latest first. -/
structure State (τ ω : Type) where
  container : Container τ ω
  memory : Memory τ ω
  registrations : List (Registration τ ω)

def State.start : State τ ω where
  container := .empty
  memory := []
  registrations := []

def State.perform (typeName : τ → Str) (fuel : ℕ) (state : State τ ω) :
    Operation τ ω → Option (State τ ω)
  | .registerInstance T registered =>
      some { state with
        container := state.container.registerInstance typeName T registered
        registrations := .ofInstance T registered :: state.registrations }
  | .registerSingletonClass T Ts =>
      (getInstances (state.container.getInstance typeName fuel) Ts
        state.memory).map fun (args, memory) =>
          let (registered, memory) := construct T args memory
          { container :=
              state.container.registerInstance typeName T registered
            memory
            registrations := .ofInstance T registered :: state.registrations }
  | .registerClass T Ts =>
      some { state with
        container := state.container.registerClass typeName T Ts
        registrations := .ofClass T Ts :: state.registrations }
  | .registerInstanceWithKey T key registered =>
      some { state with
        container :=
          state.container.registerInstanceWithKey typeName T key registered
        registrations :=
          .ofInstanceWithKey T key registered :: state.registrations }

/-- Runs of operations, each with the depth of calls that it has room for. -/
def containers (typeName : τ → Str) :
    Machine (State τ ω) (ℕ × Operation τ ω) where
  init state := state = .start
  step state action := state.perform typeName action.1 action.2

/-! ## The registry that the container stands for -/

/-- The instance registered last for the type; it may be null. -/
def registered (T : τ) :
    List (Registration τ ω) → Option (Option (Object ω))
  | [] => none
  | .ofInstance U held :: rest => if U = T then some held else registered T rest
  | .ofClass _ _ :: rest => registered T rest
  | .ofInstanceWithKey _ _ _ :: rest => registered T rest

def registeredClass (T : τ) : List (Registration τ ω) → Option (List τ)
  | [] => none
  | .ofClass U Us :: rest => if U = T then some Us else registeredClass T rest
  | .ofInstance _ _ :: rest => registeredClass T rest
  | .ofInstanceWithKey _ _ _ :: rest => registeredClass T rest

def registeredWithKey (T : τ) (key : Str) :
    List (Registration τ ω) → Option (Option (Object ω))
  | [] => none
  | .ofInstanceWithKey U other held :: rest =>
      if U = T ∧ other = key then some held else registeredWithKey T key rest
  | .ofInstance _ _ :: rest => registeredWithKey T key rest
  | .ofClass _ _ :: rest => registeredWithKey T key rest

/-- What a lookup of a type finds: an instance, a class to make an object of,
or nothing. -/
inductive Found (τ ω : Type) where
  | held (registered : Option (Object ω))
  | created (Ts : List τ)
  | missing

def find (T : τ) (registrations : List (Registration τ ω)) : Found τ ω :=
  match registered T registrations with
  | some held => .held held
  | none =>
      match registeredClass T registrations with
      | some Ts => .created Ts
      | none => .missing

/-- Making an object of the type, and of the types of its arguments in turn,
never comes back to a class that is being made. -/
inductive Resolves (registrations : List (Registration τ ω)) : τ → Prop where
  | found {T : τ} (hfound : ∀ Ts, find T registrations ≠ .created Ts) :
      Resolves registrations T
  | created {T : τ} {Ts : List τ} (hfound : find T registrations = .created Ts)
      (hargs : ∀ U ∈ Ts, Resolves registrations U) : Resolves registrations T

/-- With enough depth the lookup returns this object and leaves this memory. -/
def Container.Answers (typeName : τ → Str) (container : Container τ ω) (T : τ)
    (memory : Memory τ ω) (answer : Option (Object ω) × Memory τ ω) : Prop :=
  ∃ fuel, container.getInstance typeName fuel T memory = some answer

/-- `GetInstance<T>` returns what was found for the type, at each call; an
object of a class is made after all objects that exist at the call. -/
def Container.Realizes (typeName : τ → Str) (container : Container τ ω)
    (T : τ) : Found τ ω → Prop
  | .held registered =>
      ∀ memory, container.Answers typeName T memory (registered, memory)
  | .created _ => ∀ memory, ∃ later args, memory <+: later ∧
      container.Answers typeName T memory
        (some (.made later.length), later ++ [⟨T, args⟩])
  | .missing => ∀ memory, container.Answers typeName T memory (none, memory)

def Operation.type : Operation τ ω → τ
  | .registerInstance T _ => T
  | .registerSingletonClass T _ => T
  | .registerClass T _ => T
  | .registerInstanceWithKey T _ _ => T

def Operation.key : Operation τ ω → Option Str
  | .registerInstanceWithKey _ key _ => some key
  | _ => none

/-- The container answers every lookup as its registrations say, and an
operation changes only lookups of its own type and key. -/
structure State.Refines (typeName : τ → Str) (state : State τ ω) : Prop where
  getInstance : ∀ T, Resolves state.registrations T →
    state.container.Realizes typeName T (find T state.registrations)
  getInstanceWithKey : ∀ T key,
    state.container.getInstanceWithKey typeName T key =
      some (registeredWithKey T key state.registrations).join
  instanceExist : ∀ T, state.container.instanceExist typeName T =
    (registered T state.registrations).isSome
  instanceWithKeyExist : ∀ T key,
    state.container.instanceWithKeyExist typeName T key =
      (registeredWithKey T key state.registrations).isSome
  others : ∀ fuel op later, state.perform typeName fuel op = some later →
    (∀ T, ¬ (op.type = T ∧ op.key = none) →
      find T later.registrations = find T state.registrations) ∧
    ∀ T key, ¬ (op.type = T ∧ op.key = some key) →
      later.container.getInstanceWithKey typeName T key =
        state.container.getInstanceWithKey typeName T key

/-! ## The maps -/

/-- The maps hold exactly the latest registrations. -/
structure State.Represents (typeName : τ → Str) (state : State τ ω) :
    Prop where
  instances : ∀ T, state.container.instanceMap (typeName T) =
    (registered T state.registrations).map (Holder.mk T)
  creators : ∀ T, state.container.creatorMap (typeName T) =
    (registeredClass T state.registrations).map (Creator.mk T)
  keyed : ∀ T key,
    (state.container.instanceMapWithKey (typeName T)).bind (· key) =
      (registeredWithKey T key state.registrations).map (Holder.mk T)

section Names

variable {typeName : τ → Str} (hname : Function.Injective typeName)
include hname

theorem State.Represents.registerInstance {state : State τ ω}
    (hstate : state.Represents typeName) (T : τ)
    (held : Option (Object ω)) (memory : Memory τ ω) :
    State.Represents typeName {
      container := state.container.registerInstance typeName T held
      memory
      registrations := .ofInstance T held :: state.registrations } where
  instances U := by
    by_cases hU : T = U
    · subst hU
      simp [Container.registerInstance, registered]
    · have hne : typeName U ≠ typeName T := fun heq => hU (hname heq).symm
      simp [Container.registerInstance, registered, hU,
        Function.update_of_ne hne, hstate.instances U]
  creators := hstate.creators
  keyed := hstate.keyed

theorem State.Represents.registerClass {state : State τ ω}
    (hstate : state.Represents typeName) (T : τ) (Ts : List τ) :
    State.Represents typeName {
      state with
      container := state.container.registerClass typeName T Ts
      registrations := .ofClass T Ts :: state.registrations } where
  instances := hstate.instances
  creators U := by
    by_cases hU : T = U
    · subst hU
      simp [Container.registerClass, registeredClass]
    · have hne : typeName U ≠ typeName T := fun heq => hU (hname heq).symm
      simp [Container.registerClass, registeredClass, hU,
        Function.update_of_ne hne, hstate.creators U]
  keyed := hstate.keyed

theorem State.Represents.registerInstanceWithKey {state : State τ ω}
    (hstate : state.Represents typeName) (T : τ) (key : Str)
    (held : Option (Object ω)) :
    State.Represents typeName {
      state with
      container :=
        state.container.registerInstanceWithKey typeName T key held
      registrations :=
        .ofInstanceWithKey T key held :: state.registrations } where
  instances := hstate.instances
  creators := hstate.creators
  keyed U other := by
    have hold := hstate.keyed U other
    by_cases hU : T = U
    · subst hU
      by_cases hkey : key = other
      · subst hkey
        simp [Container.registerInstanceWithKey, registeredWithKey]
      · cases hinner : state.container.instanceMapWithKey (typeName T) with
        | none =>
            rw [hinner] at hold
            simp [Container.registerInstanceWithKey, registeredWithKey, hkey,
              Function.update_of_ne (Ne.symm hkey), hinner, ← hold]
        | some inner =>
            rw [hinner] at hold
            simp [Container.registerInstanceWithKey, registeredWithKey, hkey,
              Function.update_of_ne (Ne.symm hkey), hinner, ← hold]
    · have hne : typeName U ≠ typeName T := fun heq => hU (hname heq).symm
      simp [Container.registerInstanceWithKey, registeredWithKey, hU,
        Function.update_of_ne hne, hold]

theorem State.Represents.perform {state later : State τ ω}
    (hstate : state.Represents typeName) {fuel : ℕ} {op : Operation τ ω}
    (hperform : state.perform typeName fuel op = some later) :
    later.Represents typeName := by
  cases op with
  | registerInstance T held =>
      cases hperform
      exact hstate.registerInstance hname T held _
  | registerSingletonClass T Ts =>
      obtain ⟨made, _, hlater⟩ := Option.map_eq_some_iff.mp hperform
      rw [← hlater]
      exact hstate.registerInstance hname T _ _
  | registerClass T Ts =>
      cases hperform
      exact hstate.registerClass hname T Ts
  | registerInstanceWithKey T key held =>
      cases hperform
      exact hstate.registerInstanceWithKey hname T key held

theorem represents_of_run {state : State τ ω}
    {actions : List (ℕ × Operation τ ω)}
    (hrun : (containers typeName).run .start actions = some state) :
    state.Represents typeName := by
  apply Machine.run_invariant _ hrun
  · constructor <;> simp [State.start, Container.empty, registered,
      registeredClass, registeredWithKey]
  · intro before action after hbefore hstep
    exact hbefore.perform hname hstep

end Names

/-! ## Lookups -/

section Lookups

variable {typeName : τ → Str} {state : State τ ω}
  (hstate : state.Represents typeName)

theorem find_eq_held {T : τ} {registrations : List (Registration τ ω)}
    {held : Option (Object ω)}
    (hregistered : registered T registrations = some held) :
    find T registrations = .held held := by
  rw [find, hregistered]

theorem find_eq_created {T : τ} {registrations : List (Registration τ ω)}
    {Ts : List τ} (hregistered : registered T registrations = none)
    (hclass : registeredClass T registrations = some Ts) :
    find T registrations = .created Ts := by
  rw [find, hregistered]
  dsimp only
  rw [hclass]

theorem find_eq_missing {T : τ} {registrations : List (Registration τ ω)}
    (hregistered : registered T registrations = none)
    (hclass : registeredClass T registrations = none) :
    find T registrations = .missing := by
  rw [find, hregistered]
  dsimp only
  rw [hclass]

/-- One call of `GetInstance`, by what is found for the type. -/
def lookUp (getInstance : τ → Memory τ ω →
      Option (Option (Object ω) × Memory τ ω)) (T : τ) (memory : Memory τ ω) :
    Found τ ω → Option (Option (Object ω) × Memory τ ω)
  | .held held => some (held, memory)
  | .created Ts =>
      (getInstances getInstance Ts memory).map fun (args, memory) =>
        construct T args memory
  | .missing => some (none, memory)

include hstate in
theorem getInstance_succ (fuel : ℕ) (T : τ) (memory : Memory τ ω) :
    state.container.getInstance typeName (fuel + 1) T memory =
      lookUp (state.container.getInstance typeName fuel) T memory
        (find T state.registrations) := by
  rw [Container.getInstance, hstate.instances T, hstate.creators T]
  cases hregistered : registered T state.registrations with
  | some held =>
      rw [find_eq_held hregistered]
      simp [Holder.cast, lookUp]
  | none =>
      cases hclass : registeredClass T state.registrations with
      | some Ts =>
          rw [find_eq_created hregistered hclass]
          simp [lookUp]
      | none =>
          rw [find_eq_missing hregistered hclass]
          rfl

include hstate in
theorem getInstance_mono_succ {fuel : ℕ} {T : τ} {memory : Memory τ ω}
    {answer : Option (Object ω) × Memory τ ω}
    (hanswer : state.container.getInstance typeName fuel T memory =
      some answer) :
    state.container.getInstance typeName (fuel + 1) T memory =
      some answer := by
  induction fuel generalizing T memory answer with
  | zero => cases hanswer
  | succ fuel ih =>
      rw [getInstance_succ hstate] at hanswer ⊢
      cases hfind : find T state.registrations with
      | held held =>
          rw [hfind] at hanswer
          exact hanswer
      | missing =>
          rw [hfind] at hanswer
          exact hanswer
      | created Ts =>
          rw [hfind] at hanswer
          obtain ⟨made, hmade, hconstruct⟩ := Option.map_eq_some_iff.mp hanswer
          have hlater := getInstances_mono (fun _ _ _ h => ih h) hmade
          exact Option.map_eq_some_iff.mpr ⟨made, hlater, hconstruct⟩

include hstate in
theorem getInstance_mono {fuel fuel' : ℕ} (hle : fuel ≤ fuel') {T : τ}
    {memory : Memory τ ω} {answer : Option (Object ω) × Memory τ ω}
    (hanswer : state.container.getInstance typeName fuel T memory =
      some answer) :
    state.container.getInstance typeName fuel' T memory = some answer := by
  induction fuel', hle using Nat.le_induction with
  | base => exact hanswer
  | succ fuel' _ ih => exact getInstance_mono_succ hstate ih

include hstate in
/-- Lookups keep every object that exists. -/
theorem prefix_of_getInstance {fuel : ℕ} {T : τ} {memory : Memory τ ω}
    {answer : Option (Object ω) × Memory τ ω}
    (hanswer : state.container.getInstance typeName fuel T memory =
      some answer) : memory <+: answer.2 := by
  induction fuel generalizing T memory answer with
  | zero => cases hanswer
  | succ fuel ih =>
      rw [getInstance_succ hstate] at hanswer
      cases hfind : find T state.registrations with
      | held held =>
          rw [hfind] at hanswer
          cases hanswer
          exact List.prefix_rfl
      | missing =>
          rw [hfind] at hanswer
          cases hanswer
          exact List.prefix_rfl
      | created Ts =>
          rw [hfind] at hanswer
          obtain ⟨made, hmade, hconstruct⟩ := Option.map_eq_some_iff.mp hanswer
          rw [← hconstruct]
          exact (prefix_of_getInstances (fun _ _ _ h => ih h) hmade).trans
            (List.prefix_append _ _)

include hstate in
theorem exists_fuel_of_resolves {T : τ}
    (hT : Resolves state.registrations T) :
    ∃ fuel, ∀ memory, ∃ answer,
      state.container.getInstance typeName fuel T memory = some answer := by
  induction hT with
  | @found T hfound =>
      refine ⟨1, fun memory => ?_⟩
      rw [getInstance_succ hstate]
      cases hfind : find T state.registrations with
      | held held => exact ⟨_, rfl⟩
      | missing => exact ⟨_, rfl⟩
      | created Ts => exact absurd hfind (hfound Ts)
  | @created T Ts hfound _ ih =>
      obtain ⟨fuel, hfuel⟩ := exists_common_fuel
        (P := fun fuel U => ∀ memory, ∃ answer,
          state.container.getInstance typeName fuel U memory = some answer)
        (fun first later U hle hU memory => by
          obtain ⟨answer, hanswer⟩ := hU memory
          exact ⟨answer, getInstance_mono hstate hle hanswer⟩) ih
      refine ⟨fuel + 1, fun memory => ?_⟩
      obtain ⟨made, hmade⟩ := exists_getInstances hfuel memory
      rw [getInstance_succ hstate, hfound, lookUp, hmade]
      exact ⟨_, rfl⟩

include hstate in
/-- Only lookups of types that resolve return. -/
theorem resolves_of_getInstance {fuel : ℕ} {T : τ} {memory : Memory τ ω}
    {answer : Option (Object ω) × Memory τ ω}
    (hanswer : state.container.getInstance typeName fuel T memory =
      some answer) : Resolves state.registrations T := by
  induction fuel generalizing T memory answer with
  | zero => cases hanswer
  | succ fuel ih =>
      rw [getInstance_succ hstate] at hanswer
      cases hfind : find T state.registrations with
      | held held => exact Resolves.found fun Ts heq => by simp [hfind] at heq
      | missing => exact Resolves.found fun Ts heq => by simp [hfind] at heq
      | created Ts =>
          rw [hfind] at hanswer
          obtain ⟨made, hmade, _⟩ := Option.map_eq_some_iff.mp hanswer
          apply Resolves.created hfind
          intro U hU
          obtain ⟨_, _, hargument⟩ := exists_of_getInstances hmade U hU
          exact ih hargument

include hstate in
theorem realizes_of_resolves {T : τ} (hT : Resolves state.registrations T) :
    state.container.Realizes typeName T (find T state.registrations) := by
  obtain ⟨fuel, hfuel⟩ := exists_fuel_of_resolves hstate hT
  have hnext : ∀ memory, ∃ answer, lookUp
      (state.container.getInstance typeName fuel) T memory
        (find T state.registrations) = some answer ∧
      state.container.Answers typeName T memory answer := by
    intro memory
    obtain ⟨answer, hanswer⟩ := hfuel memory
    have hsucc := getInstance_mono_succ hstate hanswer
    rw [getInstance_succ hstate] at hsucc
    exact ⟨answer, hsucc, fuel, hanswer⟩
  cases hfind : find T state.registrations with
  | held held =>
      intro memory
      obtain ⟨answer, hlookUp, hanswers⟩ := hnext memory
      rw [hfind] at hlookUp
      cases hlookUp
      exact hanswers
  | missing =>
      intro memory
      obtain ⟨answer, hlookUp, hanswers⟩ := hnext memory
      rw [hfind] at hlookUp
      cases hlookUp
      exact hanswers
  | created Ts =>
      intro memory
      obtain ⟨answer, hlookUp, hanswers⟩ := hnext memory
      rw [hfind] at hlookUp
      obtain ⟨made, hmade, hconstruct⟩ := Option.map_eq_some_iff.mp hlookUp
      have hinitial := prefix_of_getInstances
        (fun _ _ _ h => prefix_of_getInstance hstate h) hmade
      rw [← hconstruct] at hanswers
      exact ⟨made.2, made.1, hinitial, hanswers⟩

include hstate in
theorem getInstanceWithKey_eq (T : τ) (key : Str) :
    state.container.getInstanceWithKey typeName T key =
      some (registeredWithKey T key state.registrations).join := by
  have hkeyed := hstate.keyed T key
  unfold Container.getInstanceWithKey
  cases hinner : state.container.instanceMapWithKey (typeName T) with
  | none =>
      rw [hinner] at hkeyed
      rw [Option.map_eq_none_iff.mp hkeyed.symm]
      rfl
  | some inner =>
      rw [hinner, Option.bind_some] at hkeyed
      dsimp only
      rw [hkeyed]
      cases registeredWithKey T key state.registrations with
      | none => rfl
      | some held => simp [Holder.cast]

include hstate in
theorem instanceWithKeyExist_eq (T : τ) (key : Str) :
    state.container.instanceWithKeyExist typeName T key =
      (registeredWithKey T key state.registrations).isSome := by
  have hkeyed := hstate.keyed T key
  have hsome : (registeredWithKey T key state.registrations).isSome =
      ((registeredWithKey T key state.registrations).map
        (Holder.mk T)).isSome := by simp
  rw [hsome, ← hkeyed, Container.instanceWithKeyExist]
  cases state.container.instanceMapWithKey (typeName T) with
  | none => rfl
  | some inner => rfl

/-- A registration leaves what is found for all other types. -/
theorem State.find_perform {fuel : ℕ} {op : Operation τ ω}
    {later : State τ ω} (hperform : state.perform typeName fuel op = some later)
    {T : τ} (hother : ¬ (op.type = T ∧ op.key = none)) :
    find T later.registrations = find T state.registrations := by
  cases op with
  | registerInstance U held =>
      cases hperform
      have hne : U ≠ T := fun heq => hother ⟨heq, rfl⟩
      simp [find, registered, registeredClass, hne]
  | registerSingletonClass U Us =>
      obtain ⟨made, _, hlater⟩ := Option.map_eq_some_iff.mp hperform
      have hne : U ≠ T := fun heq => hother ⟨heq, rfl⟩
      rw [← hlater]
      simp [find, registered, registeredClass, hne]
  | registerClass U Us =>
      cases hperform
      have hne : U ≠ T := fun heq => hother ⟨heq, rfl⟩
      simp [find, registered, registeredClass, hne]
  | registerInstanceWithKey U key held =>
      cases hperform
      rfl

theorem State.registeredWithKey_perform {fuel : ℕ} {op : Operation τ ω}
    {later : State τ ω} (hperform : state.perform typeName fuel op = some later)
    {T : τ} {key : Str} (hother : ¬ (op.type = T ∧ op.key = some key)) :
    registeredWithKey T key later.registrations =
      registeredWithKey T key state.registrations := by
  cases op with
  | registerInstance U held =>
      cases hperform
      rfl
  | registerSingletonClass U Us =>
      obtain ⟨made, _, hlater⟩ := Option.map_eq_some_iff.mp hperform
      rw [← hlater]
      rfl
  | registerClass U Us =>
      cases hperform
      rfl
  | registerInstanceWithKey U other held =>
      cases hperform
      have hne : ¬ (U = T ∧ other = key) :=
        fun heq => hother ⟨heq.1, congrArg some heq.2⟩
      rw [registeredWithKey, if_neg hne]

end Lookups

/-- With types that have names of their own, every container is a registry of
what was registered last, and exactly the lookups that resolve return. -/
theorem container_refines {typeName : τ → Str}
    (hname : Function.Injective typeName) {state : State τ ω}
    {actions : List (ℕ × Operation τ ω)}
    (hrun : (containers typeName).run .start actions = some state) :
    state.Refines typeName ∧
      ∀ T memory answer,
        state.container.Answers typeName T memory answer →
          Resolves state.registrations T := by
  have hstate := represents_of_run hname hrun
  constructor
  · constructor
    · intro T hT
      exact realizes_of_resolves hstate hT
    · exact getInstanceWithKey_eq hstate
    · intro T
      rw [Container.instanceExist, hstate.instances T, Option.isSome_map]
    · exact instanceWithKeyExist_eq hstate
    · intro fuel op later hperform
      have hlater := hstate.perform hname hperform
      constructor
      · intro T hother
        exact State.find_perform hperform hother
      · intro T key hother
        rw [getInstanceWithKey_eq hlater, getInstanceWithKey_eq hstate,
          State.registeredWithKey_perform hperform hother]
  · intro T memory answer ⟨fuel, hanswer⟩
    exact resolves_of_getInstance hstate hanswer

/-- `RogueOne` made by the container, and a pool under its key. -/
def rogueOneRun : List (ℕ × Operation Str Unit) := [
  (1, .registerClass "RogueOne".toList []),
  (2, .registerSingletonClass "MockClient".toList ["RogueOne".toList]),
  (1, .registerInstanceWithKey "ConnectionPool".toList "store:pg".toList
    (some (.given ())))]

theorem rogueOneRun_refines :
    ∃ state, (containers id).run .start rogueOneRun = some state ∧
      state.Refines id ∧
      ∀ T memory answer, state.container.Answers id T memory answer →
        Resolves state.registrations T := by
  have hsome : ((containers id).run .start rogueOneRun).isSome = true := rfl
  obtain ⟨state, hrun⟩ := Option.isSome_iff_exists.mp hsome
  exact ⟨state, hrun, container_refines Function.injective_id hrun⟩

/-- Two classes that take each other as an argument. -/
def circularRun : List (ℕ × Operation Str Unit) := [
  (1, .registerClass "Droid".toList ["Participant".toList]),
  (1, .registerClass "Participant".toList ["Droid".toList])]

/-- `T` and `const T`, which have one name. -/
structure QualifiedType where
  name : Str
  isConst : Bool
  deriving DecidableEq

def constantRun : List (ℕ × Operation QualifiedType Unit) := [
  (1, .registerInstance ⟨"Droid".toList, true⟩ (some (.given ())))]

theorem circularRun_never_answers {state : State Str Unit}
    (hrun : (containers id).run .start circularRun = some state) (fuel : ℕ) :
    ∀ memory,
      state.container.getInstance id fuel "Droid".toList memory = none ∧
      state.container.getInstance id fuel "Participant".toList memory =
        none := by
  have hstate := represents_of_run Function.injective_id hrun
  cases hrun
  induction fuel with
  | zero => exact fun memory => ⟨rfl, rfl⟩
  | succ fuel ih =>
      intro memory
      rw [getInstance_succ hstate, getInstance_succ hstate]
      constructor
      · show lookUp _ _ _ (Found.created ["Participant".toList]) = none
        simp only [lookUp, getInstances, (ih memory).2]
        rfl
      · show lookUp _ _ _ (Found.created ["Droid".toList]) = none
        simp only [lookUp, getInstances, (ih memory).1]
        rfl

/-- Classes that need each other are never made, and a lookup of a type fails
on an instance of its `const` form. -/
theorem container_fails :
    (¬ ∀ (actions : List (ℕ × Operation Str Unit)) (state : State Str Unit),
      (containers id).run .start actions = some state →
        ∀ T, state.container.Realizes id T (find T state.registrations)) ∧
    ¬ ∀ (actions : List (ℕ × Operation QualifiedType Unit))
        (state : State QualifiedType Unit),
      (containers QualifiedType.name).run .start actions = some state →
        ∀ T, Resolves state.registrations T →
          state.container.Realizes QualifiedType.name T
            (find T state.registrations) := by
  constructor
  · intro hclaim
    have hsome : ((containers id).run .start circularRun).isSome = true := rfl
    obtain ⟨state, hrun⟩ := Option.isSome_iff_exists.mp hsome
    have hnever := circularRun_never_answers hrun
    have hrealizes := hclaim _ _ hrun "Droid".toList
    cases hrun
    obtain ⟨_, _, _, fuel, hanswer⟩ := hrealizes []
    rw [(hnever fuel []).1] at hanswer
    cases hanswer
  · intro hclaim
    have hsome : ((containers QualifiedType.name).run .start
        constantRun).isSome = true := rfl
    obtain ⟨state, hrun⟩ := Option.isSome_iff_exists.mp hsome
    have hrealizes := hclaim _ _ hrun ⟨"Droid".toList, false⟩
    cases hrun
    have hresolves := hrealizes (Resolves.found fun Ts heq => by cases heq)
    obtain ⟨fuel, hanswer⟩ := hresolves []
    cases fuel with
    | zero => cases hanswer
    | succ fuel => cases hanswer

end IOCContainer

end StoreCpp
