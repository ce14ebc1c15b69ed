import Conform.Proofs.Making
import Conform.Shared.Registers

/-!
Sources: where the nodes in registers come from when an instruction has run. Either the instruction
makes them, or they were in registers before.
-/

namespace Conform

namespace Shared

theorem node_item? (value : Shared) (index : Nat) :
    (value.item? index).map node = value.node.step? (.index index) := by
  obtain ⟨node, content, same⟩ := value
  cases node with
  | list stamp nodes =>
    rw [Node.content_list] at same
    subst same
    simp only [item?, Node.step?]
    split
    · rename_i here there
      exact here.symm
    · rename_i absent
      cases here : nodes[index]? with
      | none => rfl
      | some node => exact (absent node node.content here (by simp [here])).elim
  | scalar stamp value => rfl
  | record stamp fields => rfl

theorem node_field? (value : Shared) (name : String) :
    (value.field? name).map node = value.node.step? (.field name) := by
  obtain ⟨node, content, same⟩ := value
  cases node with
  | record stamp nodes =>
    rw [Node.content_record] at same
    subst same
    simp only [field?, Node.step?]
    split
    · rename_i here there
      exact here.symm
    · rename_i absent
      cases here : nodes.find? name with
      | none => rfl
      | some node => exact (absent node node.content here (by simp [here])).elim
  | scalar stamp value => rfl
  | list stamp items => rfl

end Shared

namespace Registers

/-- Where a node comes from in one step: it was made, in a place of what was made, or it was in a
register before. -/
inductive Source where
  | made (place : List Nat)
  | held (register : String) (segments : List Segment)

/-- Where the nodes of a new node come from whose parts are taken from registers. -/
def assembled? (part? : Segment → Option String) : List Segment → Option Source
  | [] => some (.made [])
  | segment :: segments => (part? segment).map fun register => .held register segments

/-- The register from which a part of a list is taken. -/
def itemSource? (sources : List String) : Segment → Option String
  | .index position => sources[position]?
  | .field _ => none

/-- The register from which a part of a record is taken. -/
def fieldSource? (sources : List (String × String)) : Segment → Option String
  | .field name => (Fields.lastIndex? name (sources.map Prod.fst)).bind fun last =>
    (sources[last]?).map Prod.snd
  | .index _ => none

namespace Instruction

/-- The register that an instruction changes, given what is held before it. A look-up that finds
nothing changes none. -/
def target? (holds : String → List Segment → Bool) : Instruction → Option String
  | .create target _ | .copy target _ | .list target _ | .record target _ => target
  | .item target source index => if holds source [.index index] then target else none
  | .field target source name => if holds source [.field name] then target else none
  | .drop source => some source
  | _ => none

/-- Where the node at the end of steps in the changed register comes from. -/
def written? : Instruction → List Segment → Option Source
  | .create _ blueprint, segments => (blueprint.place? segments).map .made
  | .copy _ source, segments => some (.held source segments)
  | .list _ sources, segments => assembled? (itemSource? sources) segments
  | .record _ sources, segments => assembled? (fieldSource? sources) segments
  | .item _ source index, segments => some (.held source (.index index :: segments))
  | .field _ source name, segments => some (.held source (.field name :: segments))
  | _, _ => none

/-- Where the node at the end of steps in a register comes from. -/
def source? (instruction : Instruction) (holds : String → List Segment → Bool) (register : String)
    (segments : List Segment) : Option Source :=
  if instruction.target? holds = some register then instruction.written? segments
  else some (.held register segments)

/-- The places of the nodes that an instruction makes. -/
def Makes (instruction : Instruction) (place : List Nat) : Prop :=
  ∃ segments, instruction.written? segments = some (.made place)

theorem makes_of_source? {instruction : Instruction} {holds : String → List Segment → Bool}
    {register : String} {segments : List Segment} {place : List Nat}
    (found : instruction.source? holds register segments = some (.made place)) :
    instruction.Makes place := by
  rw [source?] at found
  split at found
  · exact ⟨segments, found⟩
  · cases found

end Instruction

namespace Machine

/-- The node at the end of steps in a register. -/
def node? (machine : Machine) (register : String) (segments : List Segment) : Option Node :=
  (machine.get? register).bind fun value => value.node.at? segments

/-- A node that is in some register, at whatever depth. -/
def Holds (machine : Machine) (node : Node) : Prop :=
  ∃ register segments, machine.node? register segments = some node

def holds (machine : Machine) (register : String) (segments : List Segment) : Bool :=
  (machine.node? register segments).isSome

/-- Every stamp that is to come is later than those of the nodes that are held. -/
def Fresh (machine : Machine) : Prop :=
  ∀ node, machine.Holds node → node.stamp < machine.nextStamp

end Machine

/-- The node that a source stands for. -/
def Source.node? (machine : Machine) (made : List Nat → Node) : Source → Option Node
  | .made place => some (made place)
  | .held register segments => machine.node? register segments

/-- What an instruction does to a machine: every node comes from where the instruction says, and the
nodes that it makes are new and made after their parts. -/
structure Follows (instruction : Instruction) (machine next : Machine) (made : List Nat → Node) :
    Prop where
  grows : machine.nextStamp ≤ next.nextStamp
  sources : ∀ register segments, next.node? register segments =
    (instruction.source? machine.holds register segments).bind (Source.node? machine made)
  new : ∀ {place}, instruction.Makes place →
    machine.nextStamp ≤ (made place).stamp ∧ (made place).stamp < next.nextStamp
  distinct : ∀ {place other}, instruction.Makes place → instruction.Makes other →
    (made place).stamp = (made other).stamp → place = other
  older : ∀ {place segment part}, instruction.Makes place →
    (made place).step? segment = some part → part.stamp < (made place).stamp

section

variable {machine : Machine} {instruction : Instruction} {made : List Nat → Node}

theorem Machine.node?_eq {register : String} {value : Shared}
    (found : machine.get? register = some value) (segments : List Segment) :
    machine.node? register segments = value.node.at? segments := by
  rw [Machine.node?, found, Option.bind_some]

theorem node?_write (target : Option String) (value : Shared) (register : String)
    (segments : List Segment) : (machine.write target value).node? register segments =
      if target = some register then value.node.at? segments
      else machine.node? register segments := by
  cases target with
  | none => rfl
  | some name =>
    simp only [Machine.node?, Machine.write, Machine.get?, Fields.find?_insert, Option.some.injEq]
    split <;> rfl

theorem nextStamp_write (target : Option String) (value : Shared) :
    (machine.write target value).nextStamp = machine.nextStamp := by
  cases target <;> rfl

theorem node?_eq_of_write {value : Shared} (stamp : Nat) {target : Option String}
    (changed : instruction.target? machine.holds = target)
    (written : ∀ segments, value.node.at? segments =
      (instruction.written? segments).bind (Source.node? machine made))
    (register : String) (segments : List Segment) :
    ({ machine with nextStamp := stamp }.write target value).node? register segments =
      (instruction.source? machine.holds register segments).bind (Source.node? machine made) := by
  rw [node?_write, Instruction.source?, changed, written]
  split <;> rfl

/-- An instruction that makes nothing only moves what is there. -/
theorem Follows.of_moves {next : Machine} (stamp : next.nextStamp = machine.nextStamp)
    (quiet : ∀ place, ¬ instruction.Makes place)
    (moved : ∀ register segments, next.node? register segments =
      (instruction.source? machine.holds register segments).bind (Source.node? machine made)) :
    Follows instruction machine next made where
  grows := Nat.le_of_eq stamp.symm
  sources := moved
  new makes := absurd makes (quiet _)
  distinct makes := absurd makes (quiet _)
  older makes := absurd makes (quiet _)

theorem Follows.of_unchanged (quiet : ∀ place, ¬ instruction.Makes place)
    (unchanged : instruction.target? machine.holds = none) :
    Follows instruction machine machine made := by
  refine .of_moves rfl quiet ?_
  intro register segments
  rw [Instruction.source?, unchanged]
  rfl

/-- A look-up writes the part that it finds. -/
theorem Follows.of_found {value : Shared} {found : Option Shared} {source : String}
    {segment : Segment} {target : Option String} (here : machine.get? source = some value)
    (there : found.map Shared.node = value.node.step? segment)
    (changed : instruction.target? machine.holds =
      if machine.holds source [segment] then target else none)
    (written : ∀ segments, instruction.written? segments =
      some (.held source (segment :: segments))) :
    Follows instruction machine (machine.writeFound target found) made := by
  have quiet (place : List Nat) : ¬ instruction.Makes place := by
    rintro ⟨segments, made⟩
    rw [written] at made
    cases made
  have reached (segments : List Segment) : machine.node? source (segment :: segments) =
      (found.map Shared.node).bind fun part => part.at? segments := by
    rw [Machine.node?_eq here, Node.at?, there]
  have holds : machine.holds source [segment] = found.isSome := by
    rw [Machine.holds, reached]
    cases found <;> rfl
  rw [holds] at changed
  cases found with
  | none => exact .of_unchanged quiet changed
  | some part =>
    refine .of_moves (nextStamp_write _ _) quiet ?_
    refine node?_eq_of_write machine.nextStamp changed fun segments => ?_
    rw [written]
    exact (reached segments).symm

/-- An instruction that makes one node puts it together from what is there. -/
theorem Follows.of_assembled {value : Shared} {target : Option String}
    {part? : Segment → Option String} (fresh : machine.Fresh)
    (stamp : value.node.stamp = machine.nextStamp)
    (changed : instruction.target? machine.holds = target)
    (written : ∀ segments, instruction.written? segments = assembled? part? segments)
    (step : ∀ segment, value.node.step? segment =
      ((part? segment).bind machine.get?).map Shared.node) :
    Follows instruction machine
      ({ machine with nextStamp := machine.nextStamp + 1 }.write target value)
      fun _ => value.node where
  grows := by
    rw [nextStamp_write]
    exact Nat.le_succ _
  sources := by
    refine node?_eq_of_write _ changed fun segments => ?_
    rw [written]
    cases segments with
    | nil => rfl
    | cons segment segments =>
      rw [Node.at?, step, assembled?]
      cases part? segment with
      | none => rfl
      | some register => exact Option.bind_map
  new _ := by
    rw [nextStamp_write, stamp]
    exact ⟨Nat.le_refl _, Nat.lt_succ_self _⟩
  distinct := by
    have root {place : List Nat} (makes : instruction.Makes place) : place = [] := by
      obtain ⟨segments, found⟩ := makes
      rw [written] at found
      cases segments with
      | nil =>
        cases found
        rfl
      | cons segment segments =>
        obtain ⟨_, _, ⟨⟩⟩ := Option.map_eq_some_iff.mp found
    intro place other makes makes' _
    rw [root makes, root makes']
  older := by
    intro _ segment part _ found
    rw [step] at found
    obtain ⟨held, there, rfl⟩ := Option.map_eq_some_iff.mp found
    obtain ⟨register, _, here⟩ := Option.bind_eq_some_iff.mp there
    rw [stamp]
    exact fresh held.node ⟨register, [], Machine.node?_eq here []⟩

theorem Follows.of_built {blueprint : Blueprint} {value : Shared} {target : Option String}
    {stamp : Nat} (built : blueprint.Built machine.nextStamp made stamp)
    (same : value.node = made []) :
    Follows (.create target blueprint) machine
      ({ machine with nextStamp := stamp }.write target value) made := by
  have place {place : List Nat} (makes : (Instruction.create target blueprint).Makes place) :
      blueprint.Place place := by
    obtain ⟨segments, found⟩ := makes
    obtain ⟨_, there, ⟨⟩⟩ := Option.map_eq_some_iff.mp found
    exact ⟨segments, there⟩
  refine ⟨?_, node?_eq_of_write _ rfl fun segments => ?_, ?_, ?_, ?_⟩
  · rw [nextStamp_write]
    exact Nat.le_of_lt built.lt
  · rw [same, built.at_eq, Instruction.written?, Option.bind_map]
    cases blueprint.place? segments <;> rfl
  · intro _ makes
    rw [nextStamp_write]
    exact built.new (place makes)
  · intro _ _ makes makes'
    exact built.distinct (place makes) (place makes')
  · intro _ _ _ makes
    exact built.older (place makes)

section

variable {α β γ : Type} {f : α → Option β} {sources : List α} {targets : List β}

theorem map_eq_of_mapM {g : β → γ} {h : α → γ} (all : sources.mapM f = some targets)
    (same : ∀ source target, f source = some target → g target = h source) :
    targets.map g = sources.map h := by
  induction sources generalizing targets with
  | nil =>
    cases all
    rfl
  | cons source sources ih =>
    rw [List.mapM_cons] at all
    obtain ⟨first, here, all⟩ := Option.bind_eq_some_iff.mp all
    obtain ⟨rest, there, all⟩ := Option.bind_eq_some_iff.mp all
    cases all
    rw [List.map_cons, List.map_cons, same source first here, ih there]

theorem getElem?_of_mapM (all : sources.mapM f = some targets) (index : Nat) :
    targets[index]? = (sources[index]?).bind f := by
  have same : (targets[index]?).map some = (sources[index]?).map f := by
    rw [← List.getElem?_map, map_eq_of_mapM all fun _ _ found => found.symm, List.getElem?_map]
  cases there : sources[index]? with
  | none => simpa [there] using same
  | some source =>
    rw [there, Option.map_some] at same
    obtain ⟨target, here, found⟩ := Option.map_eq_some_iff.mp same
    rw [here, found, Option.bind_some]

end

/-- The fields that are read from registers for a record. -/
theorem find?_of_mapM {sources : List (String × String)} {pairs : List (String × Shared)}
    (found : (sources.mapM fun (name, source) => do return (name, ← machine.get? source)) =
      some pairs) (name : String) :
    (Fields.ofList pairs).find? name =
      (fieldSource? sources (.field name)).bind machine.get? := by
  have names : pairs.map Prod.fst = sources.map Prod.fst := by
    refine map_eq_of_mapM found fun source pair read => ?_
    obtain ⟨_, _, ⟨⟩⟩ := Option.bind_eq_some_iff.mp read
    rfl
  rw [Fields.find?_ofList, names, fieldSource?, Option.bind_assoc]
  refine Option.bind_congr fun last _ => ?_
  rw [getElem?_of_mapM found]
  cases sources[last]? with
  | none => rfl
  | some source =>
    obtain ⟨name, register⟩ := source
    cases held : machine.get? register <;> simp [held]

/-- Every instruction does what it says. -/
theorem exists_follows {next : Machine} {answer : Answer} (fresh : machine.Fresh)
    (ran : machine.step? instruction = some (answer, next)) :
    ∃ made, Follows instruction machine next made := by
  cases instruction with
  | create target blueprint =>
    obtain ⟨made, value, stamp, run, built, same⟩ := blueprint.buildable machine.nextStamp
    rw [Machine.step?, Machine.writeNew, run] at ran
    cases ran
    exact ⟨made, .of_built built same⟩
  | copy target source =>
    obtain ⟨value, found, ran⟩ := Option.bind_eq_some_iff.mp ran
    cases ran
    refine ⟨fun _ => value.node, .of_moves (nextStamp_write _ _) ?_ ?_⟩
    · rintro place ⟨segments, ⟨⟩⟩
    · refine node?_eq_of_write machine.nextStamp rfl fun segments => ?_
      exact (Machine.node?_eq found segments).symm
  | list target sources =>
    obtain ⟨items, found, ran⟩ := Option.bind_eq_some_iff.mp ran
    cases ran
    refine ⟨_, .of_assembled fresh rfl rfl (fun _ => rfl) fun segment => ?_⟩
    cases segment with
    | field name => rfl
    | index position =>
      rw [itemSource?, ← getElem?_of_mapM found]
      exact List.getElem?_map
  | record target sources =>
    obtain ⟨pairs, found, ran⟩ := Option.bind_eq_some_iff.mp ran
    cases ran
    refine ⟨_, .of_assembled fresh rfl rfl (fun _ => rfl) fun segment => ?_⟩
    cases segment with
    | index position => rfl
    | field name =>
      rw [← find?_of_mapM found]
      exact Fields.find?_map _ _ _
  | item target source index =>
    obtain ⟨value, found, ran⟩ := Option.bind_eq_some_iff.mp ran
    cases ran
    exact ⟨fun _ => value.node, .of_found found (value.node_item? index) rfl fun _ => rfl⟩
  | field target source name =>
    obtain ⟨value, found, ran⟩ := Option.bind_eq_some_iff.mp ran
    cases ran
    exact ⟨fun _ => value.node, .of_found found (value.node_field? name) rfl fun _ => rfl⟩
  | drop source =>
    cases ran
    refine ⟨fun _ => .scalar 0 .null, .of_moves rfl ?_ ?_⟩
    · rintro place ⟨segments, ⟨⟩⟩
    · intro register segments
      simp only [Instruction.source?, Instruction.target?, Machine.node?, Machine.get?,
        Fields.find?_erase, Option.some.injEq]
      split <;> rfl
  | strictEqual left right | equal left right | sameNode left right =>
    obtain ⟨_, _, ran⟩ := Option.bind_eq_some_iff.mp ran
    obtain ⟨_, _, ran⟩ := Option.bind_eq_some_iff.mp ran
    cases ran
    exact ⟨fun _ => .scalar 0 .null, .of_unchanged (by rintro place ⟨segments, ⟨⟩⟩) rfl⟩
  | length source | text source =>
    obtain ⟨_, _, ran⟩ := Option.bind_eq_some_iff.mp ran
    cases ran
    exact ⟨fun _ => .scalar 0 .null, .of_unchanged (by rintro place ⟨segments, ⟨⟩⟩) rfl⟩

end

end Registers

end Conform
