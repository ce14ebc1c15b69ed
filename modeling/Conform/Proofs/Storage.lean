import Conform.Proofs.Declaration
import Conform.Proofs.Fields
import Mathlib.Data.Option.Defs

/-!
Programs over named sessions, and ways to keep the sessions of a program. What one session shows
may depend on a memory that all of them share, so that a program can disturb a session without
naming it; two ways to keep sessions are compared by what is seen of every session at the end.
-/

namespace Conform

variable {m : Type → Type} {ι α : Type}

/-- What can be seen of a session, its evaluation included. -/
structure Observation (m : Type → Type) (ι α : Type) where
  input : ι
  size : Nat
  isEmpty : Bool
  hasFallback : Bool
  headings : List Heading
  evaluation : m (Option α)

def Session.observe [Monad m] [Observed m] [Inspectable ι] (session : Session m ι α) :
    Observation m ι α where
  input := session.input
  size := session.size
  isEmpty := session.isEmpty
  hasFallback := session.hasFallback
  headings := session.headings
  evaluation := session.evaluate

/-- An operation on named sessions. A name that is taken stands for the new session from then on. -/
inductive Command (m : Type → Type) (ι α : Type) where
  | start (target : String) (input : ι)
  | extend (target source : String) (declaration : Declaration m ι α)
  | copy (target source : String)

def Command.target : Command m ι α → String
  | .start target _ => target
  | .extend target _ _ => target
  | .copy target _ => target

/-- A way to keep sessions: by handles, with a memory behind them. -/
structure Storage (m : Type → Type) (ι α : Type) where
  Memory : Type
  Handle : Type
  blank : Memory
  start : ι → Handle
  extend : Memory → Handle → Declaration m ι α → Memory × Handle
  observe : Memory → Handle → Observation m ι α

namespace Storage

/-- Sessions as they are: values, with nothing behind them. -/
def values [Monad m] [Observed m] [Inspectable ι] : Storage m ι α where
  Memory := Unit
  Handle := Session m ι α
  blank := ()
  start := .new
  extend _ session declaration := ((), session.extend declaration)
  observe _ session := session.observe

structure State (storage : Storage m ι α) where
  memory : storage.Memory
  handles : Fields storage.Handle none

variable (storage : Storage m ι α)

def initial : storage.State :=
  ⟨storage.blank, .nil⟩

variable {storage}

/-- The session that an operation makes, with the memory behind it; absent when the operation names
a session that there is not. -/
def made? (state : storage.State) : Command m ι α → Option (storage.Memory × storage.Handle)
  | .start _ input => some (state.memory, storage.start input)
  | .extend _ source declaration =>
    (state.handles.find? source).map fun handle => storage.extend state.memory handle declaration
  | .copy _ source => (state.handles.find? source).map fun handle => (state.memory, handle)

def step? (state : storage.State) (command : Command m ι α) : Option storage.State :=
  (made? state command).map fun made =>
    ⟨made.1, state.handles.insert command.target made.2⟩

/-- What is seen of every session. -/
def State.observations (state : storage.State) : Fields (Observation m ι α) none :=
  state.handles.map (storage.observe state.memory)

variable (storage)

/-- Runs a program from its first operation on. -/
def run? (program : List (Command m ι α)) : Option storage.State :=
  program.foldlM step? storage.initial

/-- What is seen of every session at the end of a program. -/
def observed? (program : List (Command m ι α)) : Option (Fields (Observation m ι α) none) :=
  (storage.run? program).map State.observations

variable {storage}

/-- An operation binds no name but its target. -/
theorem find?_of_step? {state next : storage.State} {command : Command m ι α} {name : String}
    (ran : step? state command = some next) (other : name ≠ command.target) :
    next.handles.find? name = state.handles.find? name := by
  obtain ⟨made, _, rfl⟩ := Option.map_eq_some_iff.mp ran
  rw [Fields.find?_insert, if_neg other.symm]

theorem run?_append_eq_some_iff {program : List (Command m ι α)} {command : Command m ι α}
    {final : storage.State} :
    storage.run? (program ++ [command]) = some final ↔
      ∃ state, storage.run? program = some state ∧ step? state command = some final := by
  rw [run?, List.foldlM_append, Option.bind_eq_bind, Option.bind_eq_some_iff]
  simp [run?]

end Storage

/-- A relation between the handles of two ways to keep sessions. Every operation relates the handles
that it makes and keeps all others related, whatever it does to the memories behind them. -/
structure Simulation (first second : Storage m ι α) where
  Related : first.Memory → second.Memory → first.Handle → second.Handle → Prop
  start (memory : first.Memory) (image : second.Memory) (input : ι) :
    Related memory image (first.start input) (second.start input)
  extend {memory : first.Memory} {image : second.Memory} {handle : first.Handle}
    {counterpart : second.Handle} (related : Related memory image handle counterpart)
    (declaration : Declaration m ι α) :
    Related (first.extend memory handle declaration).1
      (second.extend image counterpart declaration).1
      (first.extend memory handle declaration).2
      (second.extend image counterpart declaration).2
  keep {memory : first.Memory} {image : second.Memory} {handle kept : first.Handle}
    {counterpart keptCounterpart : second.Handle}
    (related : Related memory image handle counterpart)
    (others : Related memory image kept keptCounterpart) (declaration : Declaration m ι α) :
    Related (first.extend memory handle declaration).1
      (second.extend image counterpart declaration).1 kept keptCounterpart
  observe {memory : first.Memory} {image : second.Memory} {handle : first.Handle}
    {counterpart : second.Handle} (related : Related memory image handle counterpart) :
    first.observe memory handle = second.observe image counterpart

namespace Simulation

section

variable {β γ δ ε : Type} {R : β → γ → Prop} {left : Option β} {right : Option γ}

private theorem rel_mono {S : β → γ → Prop} (related : Option.Rel R left right)
    (weaker : ∀ x y, R x y → S x y) : Option.Rel S left right := by
  cases related with
  | none => exact .none
  | some related => exact .some (weaker _ _ related)

private theorem rel_bind {S : δ → ε → Prop} {f : β → Option δ} {g : γ → Option ε}
    (related : Option.Rel R left right) (next : ∀ x y, R x y → Option.Rel S (f x) (g y)) :
    Option.Rel S (left.bind f) (right.bind g) := by
  cases related with
  | none => exact .none
  | some related => exact next _ _ related

private theorem rel_map {S : δ → ε → Prop} {f : β → δ} {g : γ → ε}
    (related : Option.Rel R left right) (next : ∀ x y, R x y → S (f x) (g y)) :
    Option.Rel S (left.map f) (right.map g) := by
  rw [Option.map_eq_bind, Option.map_eq_bind]
  exact rel_bind related fun x y own => .some (next x y own)

private theorem map_eq_of_rel {f : β → δ} {g : γ → δ} (related : Option.Rel R left right)
    (same : ∀ x y, R x y → f x = g y) : left.map f = right.map g := by
  cases related with
  | none => rfl
  | some related => exact congrArg some (same _ _ related)

end

variable {first second : Storage m ι α} (simulation : Simulation first second)

/-- The same names are bound, and to related handles. -/
def Bound (memory : first.Memory) (image : second.Memory) (handles : Fields first.Handle none)
    (counterparts : Fields second.Handle none) : Prop :=
  ∀ name, Option.Rel (simulation.Related memory image) (handles.find? name)
    (counterparts.find? name)

def Agree (state : first.State) (image : second.State) : Prop :=
  simulation.Bound state.memory image.memory state.handles image.handles

variable {simulation} {state : first.State} {image : second.State}

theorem made?_related (agree : simulation.Agree state image) (command : Command m ι α) :
    Option.Rel (fun made counterpart =>
        simulation.Related made.1 counterpart.1 made.2 counterpart.2 ∧
          simulation.Bound made.1 counterpart.1 state.handles image.handles)
      (Storage.made? state command) (Storage.made? image command) := by
  cases command with
  | start target input => exact .some ⟨simulation.start _ _ input, agree⟩
  | extend target source declaration =>
    refine rel_map (agree source) fun handle counterpart related => ?_
    refine ⟨simulation.extend related declaration, fun name => ?_⟩
    exact rel_mono (agree name) fun _ _ other => simulation.keep related other declaration
  | copy target source =>
    exact rel_map (agree source) fun handle counterpart related => ⟨related, agree⟩

theorem step?_agree (agree : simulation.Agree state image) (command : Command m ι α) :
    Option.Rel simulation.Agree (Storage.step? state command) (Storage.step? image command) := by
  refine rel_map (made?_related agree command) fun made counterpart related name => ?_
  obtain ⟨own, others⟩ := related
  rw [Fields.find?_insert, Fields.find?_insert]
  by_cases target : command.target = name
  · rw [if_pos target, if_pos target]
    exact .some own
  · rw [if_neg target, if_neg target]
    exact others name

/-- Two runs stop at the same operation, or the states after it agree again. -/
theorem foldlM_agree (agree : simulation.Agree state image) (program : List (Command m ι α)) :
    Option.Rel simulation.Agree (program.foldlM Storage.step? state)
      (program.foldlM Storage.step? image) := by
  induction program generalizing state image with
  | nil => exact .some agree
  | cons command program ih =>
    rw [List.foldlM_cons, List.foldlM_cons]
    exact rel_bind (step?_agree agree command) fun _ _ agree => ih agree

theorem observations_eq (agree : simulation.Agree state image) :
    state.observations = image.observations := by
  apply Fields.ext
  intro name
  rw [Storage.State.observations, Storage.State.observations, Fields.find?_map, Fields.find?_map]
  exact map_eq_of_rel (agree name) fun _ _ related => simulation.observe related

/-- At the end of every program the same is seen of every session. -/
theorem observed?_eq (simulation : Simulation first second) (program : List (Command m ι α)) :
    first.observed? program = second.observed? program := by
  have blank : simulation.Agree first.initial second.initial := fun _ => .none
  exact map_eq_of_rel (foldlM_agree blank program) fun _ _ agree => observations_eq agree

end Simulation

end Conform
