import Conform.Path
import Conform.Proofs.Fields
import Conform.Shared

/-!
New nodes: which nodes a blueprint makes, and where they are found in what is built. Each gets a
stamp of its own, later than those of its parts.
-/

namespace Conform

namespace Node

/-- The part one step away. -/
def step? : Node → Segment → Option Node
  | .list _ items, .index position => items[position]?
  | .record _ fields, .field name => fields.find? name
  | _, _ => none

/-- The part at the end of steps. -/
def at? (node : Node) : List Segment → Option Node
  | [] => some node
  | segment :: segments => (node.step? segment).bind fun part => part.at? segments

end Node

theorem Mint.run_bind {α β : Type} {first : Mint α} {rest : α → Mint β} {start middle : Nat}
    {result : α} {outcome : β × Nat} (ran : first.run start = (result, middle))
    (continued : (rest result).run middle = outcome) : (first >>= rest).run start = outcome := by
  rw [StateT.run_bind, ran]
  exact continued

namespace Blueprint

/-- The parts of a blueprint, in the order in which they are made. -/
def parts : Blueprint → List Blueprint
  | .scalar _ => []
  | .list items => items
  | .record pairs => pairs.map Prod.snd
  | .repeated _ item => [item]

@[elab_as_elim]
theorem induction {motive : Blueprint → Prop}
    (whole : ∀ blueprint : Blueprint, (∀ part ∈ blueprint.parts, motive part) → motive blueprint)
    (blueprint : Blueprint) : motive blueprint := by
  refine @Blueprint.rec motive (fun items => ∀ item ∈ items, motive item)
    (fun pairs => ∀ part ∈ pairs.map Prod.snd, motive part) (fun pair => motive pair.2)
    ?scalar (fun items => whole (.list items)) (fun pairs => whole (.record pairs)) ?repeated
    ?noItem ?item ?noPair ?pair (fun _ _ own => own) blueprint
  case scalar =>
    intro value
    refine whole (.scalar value) ?_
    intro part member
    cases member
  case repeated =>
    intro count item own
    refine whole (.repeated count item) ?_
    intro part member
    rwa [List.mem_singleton.mp member]
  case noItem =>
    intro item member
    cases member
  case item =>
    intro head tail own others
    exact List.forall_mem_cons.mpr ⟨own, others⟩
  case noPair =>
    intro part member
    cases member
  case pair =>
    intro head tail own others
    exact List.forall_mem_cons.mpr ⟨own, others⟩

/-- Which of its parts is found under a step in what is built. -/
def slot? : Blueprint → Segment → Option Nat
  | .list _, .index position => some position
  | .record pairs, .field name => Fields.lastIndex? name (pairs.map Prod.fst)
  | .repeated count _, .index position => if position < count then some 0 else none
  | _, _ => none

/-- Where the node at the end of steps is made: which part it is of which part. -/
def place? (blueprint : Blueprint) : List Segment → Option (List Nat)
  | [] => some []
  | segment :: segments =>
    (blueprint.slot? segment).bind fun slot =>
      (blueprint.parts[slot]?).bind fun part => (part.place? segments).map (slot :: ·)

/-- The places of the nodes that can be found in what is built. -/
def Place (blueprint : Blueprint) (place : List Nat) : Prop :=
  ∃ segments, blueprint.place? segments = some place

theorem Place.eq_cons {blueprint : Blueprint} {place : List Nat} (reached : blueprint.Place place) :
    place = [] ∨ ∃ slot part rest,
      place = slot :: rest ∧ blueprint.parts[slot]? = some part ∧ part.Place rest := by
  obtain ⟨segments, found⟩ := reached
  cases segments with
  | nil => exact .inl (Option.some.inj found).symm
  | cons segment segments =>
    obtain ⟨slot, _, found⟩ := Option.bind_eq_some_iff.mp found
    obtain ⟨part, there, found⟩ := Option.bind_eq_some_iff.mp found
    obtain ⟨rest, inside, rfl⟩ := Option.map_eq_some_iff.mp found
    exact .inr ⟨slot, part, rest, rfl, there, segments, inside⟩

/-- The nodes made for a blueprint, by their places: they bear different stamps from `start` up to
`next`, and a part of a node has an earlier stamp than the node. -/
structure Built (blueprint : Blueprint) (start : Nat) (made : List Nat → Node) (next : Nat) :
    Prop where
  at_eq : ∀ segments, (made []).at? segments = (blueprint.place? segments).map made
  new : ∀ {place}, blueprint.Place place → start ≤ (made place).stamp ∧ (made place).stamp < next
  distinct : ∀ {place other}, blueprint.Place place → blueprint.Place other →
    (made place).stamp = (made other).stamp → place = other
  older : ∀ {place segment part}, blueprint.Place place → (made place).step? segment = some part →
    part.stamp < (made place).stamp

/-- Blueprints are built one after the other. -/
inductive BuiltAll : List Blueprint → Nat → List (List Nat → Node) → Nat → Prop where
  | nil {start : Nat} : BuiltAll [] start [] start
  | cons {blueprint : Blueprint} {blueprints : List Blueprint} {start middle next : Nat}
      {made : List Nat → Node} {others : List (List Nat → Node)}
      (first : Built blueprint start made middle) (rest : BuiltAll blueprints middle others next) :
      BuiltAll (blueprint :: blueprints) start (made :: others) next

theorem place_nil (blueprint : Blueprint) : blueprint.Place [] :=
  ⟨[], rfl⟩

variable {blueprint : Blueprint} {blueprints : List Blueprint} {start next : Nat}
  {made : List Nat → Node} {all : List (List Nat → Node)}

theorem Built.lt (built : Built blueprint start made next) : start < next :=
  Nat.lt_of_le_of_lt (built.new blueprint.place_nil).1 (built.new blueprint.place_nil).2

/-- The nodes of a whole, by their places. -/
def whole (node : Node) (all : List (List Nat → Node)) : List Nat → Node
  | [] => node
  | slot :: place => all.getD slot (fun _ => node) place

namespace BuiltAll

theorem le (built : BuiltAll blueprints start all next) : start ≤ next := by
  induction built with
  | nil => exact Nat.le_refl _
  | cons first rest ih => exact Nat.le_trans (Nat.le_of_lt first.lt) ih

theorem length_eq (built : BuiltAll blueprints start all next) :
    all.length = blueprints.length := by
  induction built with
  | nil => rfl
  | cons first rest ih => rw [List.length_cons, List.length_cons, ih]

theorem get (built : BuiltAll blueprints start all next) {slot : Nat}
    (there : blueprints[slot]? = some blueprint) :
    ∃ made lower upper, all[slot]? = some made ∧ Built blueprint lower made upper ∧
      start ≤ lower ∧ upper ≤ next := by
  induction built generalizing slot with
  | nil => cases there
  | cons first rest ih =>
    cases slot with
    | zero =>
      cases there
      exact ⟨_, _, _, rfl, first, Nat.le_refl _, rest.le⟩
    | succ slot =>
      obtain ⟨made, lower, upper, here, own, above, below⟩ := ih there
      exact ⟨made, lower, upper, here, own, Nat.le_trans (Nat.le_of_lt first.lt) above, below⟩

theorem whole_cons {slot : Nat} (here : all[slot]? = some made) (node : Node) (place : List Nat) :
    whole node all (slot :: place) = made place := by
  rw [whole, List.getD_eq_getElem?_getD, here, Option.getD_some]

theorem within (built : BuiltAll blueprints start all next) {slot : Nat}
    (there : blueprints[slot]? = some blueprint) {place : List Nat}
    (reached : blueprint.Place place) (node : Node) :
    start ≤ (whole node all (slot :: place)).stamp ∧
      (whole node all (slot :: place)).stamp < next := by
  obtain ⟨made, lower, upper, here, own, above, below⟩ := built.get there
  rw [whole_cons here]
  exact ⟨Nat.le_trans above (own.new reached).1, Nat.lt_of_lt_of_le (own.new reached).2 below⟩

/-- What is built later has later stamps. -/
theorem apart (built : BuiltAll blueprints start all next) {slot later : Nat}
    {part other : Blueprint} {place rest : List Nat} (before : slot < later)
    (there : blueprints[slot]? = some part) (behind : blueprints[later]? = some other)
    (reached : part.Place place) (beyond : other.Place rest) (node : Node) :
    (whole node all (slot :: place)).stamp < (whole node all (later :: rest)).stamp := by
  induction built generalizing slot later with
  | nil => cases there
  | cons first others ih =>
    cases later with
    | zero => cases before
    | succ later =>
      cases slot with
      | zero =>
        cases there
        exact Nat.lt_of_lt_of_le (first.new reached).2 (others.within behind beyond node).1
      | succ slot => exact ih (Nat.lt_of_succ_lt_succ before) there behind

end BuiltAll

/-- A whole is built when its parts are built and it gets the next stamp: each part is stamped in a
range of its own, and the whole after them. -/
theorem Built.of_parts {node : Node} (built : BuiltAll blueprint.parts start all next)
    (last : node.stamp = next)
    (step : ∀ segment, node.step? segment = (blueprint.slot? segment).bind fun slot =>
      (all[slot]?).map fun made => made []) :
    Built blueprint start (whole node all) (next + 1) where
  at_eq segments := by
    cases segments with
    | nil => rfl
    | cons segment segments =>
      rw [Node.at?, whole, step, place?]
      cases blueprint.slot? segment with
      | none => rfl
      | some slot =>
        rw [Option.bind_some, Option.bind_some]
        cases there : blueprint.parts[slot]? with
        | none =>
          have absent : all[slot]? = none := by
            rw [List.getElem?_eq_none_iff, built.length_eq]
            exact List.getElem?_eq_none_iff.mp there
          rw [absent]
          rfl
        | some part =>
          obtain ⟨made, _, _, here, own, _⟩ := built.get there
          rw [here, Option.map_some, Option.bind_some, Option.bind_some, own.at_eq, Option.map_map]
          exact Option.map_congr fun place _ => (BuiltAll.whole_cons here node place).symm
  new reached := by
    obtain rfl | ⟨slot, part, rest, rfl, there, inside⟩ := reached.eq_cons
    · rw [whole, last]
      exact ⟨built.le, Nat.lt_succ_self next⟩
    · obtain ⟨above, below⟩ := built.within there inside node
      exact ⟨above, Nat.lt_succ_of_lt below⟩
  distinct reached other same := by
    have newest {slot : Nat} {part : Blueprint} {rest : List Nat}
        (there : blueprint.parts[slot]? = some part) (inside : part.Place rest) :
        (whole node all (slot :: rest)).stamp ≠ (whole node all []).stamp := by
      rw [whole.eq_1, last]
      exact Nat.ne_of_lt (built.within there inside node).2
    obtain rfl | ⟨slot, part, rest, rfl, there, inside⟩ := reached.eq_cons
    · obtain rfl | ⟨slot, part, rest, rfl, there, inside⟩ := other.eq_cons
      · rfl
      · exact absurd same.symm (newest there inside)
    · obtain rfl | ⟨slot', part', rest', rfl, there', inside'⟩ := other.eq_cons
      · exact absurd same (newest there inside)
      · obtain before | rfl | after := Nat.lt_trichotomy slot slot'
        · exact absurd same (Nat.ne_of_lt (built.apart before there there' inside inside' node))
        · obtain rfl := Option.some.inj (there.symm.trans there')
          obtain ⟨made, _, _, here, own, _⟩ := built.get there
          rw [BuiltAll.whole_cons here, BuiltAll.whole_cons here] at same
          rw [own.distinct inside inside' same]
        · exact absurd same.symm (Nat.ne_of_lt (built.apart after there' there inside' inside node))
  older reached found := by
    obtain rfl | ⟨slot, part, rest, rfl, there, inside⟩ := reached.eq_cons
    · rw [whole, step] at found
      obtain ⟨slot, _, found⟩ := Option.bind_eq_some_iff.mp found
      obtain ⟨made, here, rfl⟩ := Option.map_eq_some_iff.mp found
      obtain ⟨inRange, _⟩ := List.getElem?_eq_some_iff.mp here
      rw [built.length_eq] at inRange
      rw [← BuiltAll.whole_cons here node, whole.eq_1, last]
      exact (built.within (List.getElem?_eq_getElem inRange) (place_nil _) node).2
    · obtain ⟨made, _, _, here, own, _⟩ := built.get there
      rw [BuiltAll.whole_cons here] at found ⊢
      exact own.older inside found

/-- What it means that a blueprint is built right, from whatever stamp on. -/
def Buildable (blueprint : Blueprint) : Prop :=
  ∀ start, ∃ made value next, blueprint.build.run start = (value, next) ∧
    Built blueprint start made next ∧ value.node = made []

theorem run_buildItems {items : List Blueprint} (each : ∀ item ∈ items, item.Buildable)
    (start : Nat) :
    ∃ all values next, (buildItems items).run start = (values, next) ∧
      BuiltAll items start all next ∧ values.map Shared.node = all.map (· []) := by
  induction items generalizing start with
  | nil => exact ⟨[], [], start, rfl, .nil, rfl⟩
  | cons item items ih =>
    obtain ⟨own, others⟩ := List.forall_mem_cons.mp each
    obtain ⟨made, value, middle, run, first, same⟩ := own start
    obtain ⟨all, values, next, runs, rest, alike⟩ := ih others middle
    refine ⟨made :: all, value :: values, next, ?_, .cons first rest, ?_⟩
    · exact Mint.run_bind run (Mint.run_bind runs rfl)
    · rw [List.map_cons, List.map_cons, same, alike]

theorem run_buildPairs {pairs : List (String × Blueprint)}
    (each : ∀ part ∈ pairs.map Prod.snd, part.Buildable) (start : Nat) :
    ∃ all values next, (buildPairs pairs).run start = (values, next) ∧
      BuiltAll (pairs.map Prod.snd) start all next ∧
      values.map Prod.fst = pairs.map Prod.fst ∧
      values.map (fun pair => pair.2.node) = all.map (· []) := by
  induction pairs generalizing start with
  | nil => exact ⟨[], [], start, rfl, .nil, rfl, rfl⟩
  | cons pair pairs ih =>
    obtain ⟨name, part⟩ := pair
    obtain ⟨own, others⟩ := List.forall_mem_cons.mp each
    obtain ⟨made, value, middle, run, first, same⟩ := own start
    obtain ⟨all, values, next, runs, rest, names, alike⟩ := ih others middle
    refine ⟨made :: all, (name, value) :: values, next, ?_, .cons first rest, ?_, ?_⟩
    · exact Mint.run_bind run (Mint.run_bind runs rfl)
    · rw [List.map_cons, List.map_cons, names]
    · rw [List.map_cons, List.map_cons, same, alike]

theorem buildable (blueprint : Blueprint) : blueprint.Buildable := by
  induction blueprint using induction with
  | whole blueprint each =>
    intro start
    cases blueprint with
    | scalar value =>
      refine ⟨whole (.scalar start value) [], _, start + 1, rfl,
        Built.of_parts BuiltAll.nil rfl ?_, rfl⟩
      intro segment
      cases segment <;> rfl
    | list items =>
      obtain ⟨all, values, next, runs, built, alike⟩ := run_buildItems each start
      refine ⟨whole (.list next (values.map Shared.node)) all, _, next + 1,
        Mint.run_bind runs rfl, Built.of_parts built rfl ?_, rfl⟩
      intro segment
      cases segment with
      | field name => rfl
      | index position =>
        rw [Node.step?, alike, List.getElem?_map]
        rfl
    | record pairs =>
      obtain ⟨all, values, next, runs, built, names, alike⟩ := run_buildPairs each start
      refine ⟨whole (.record next ((Fields.ofList values).map Shared.node)) all, _, next + 1,
        Mint.run_bind runs rfl, Built.of_parts built rfl ?_, rfl⟩
      intro segment
      cases segment with
      | index position => rfl
      | field name =>
        rw [Node.step?, Fields.find?_map, Fields.find?_ofList, names, Option.map_bind]
        refine Option.bind_congr fun slot _ => ?_
        rw [← List.getElem?_map, ← alike, List.getElem?_map]
        exact Option.map_map Shared.node Prod.snd values[slot]?
    | repeated count item =>
      obtain ⟨made, value, next, run, own, same⟩ := each item (List.mem_singleton_self item) start
      refine ⟨whole (.list next ((List.replicate count value).map Shared.node)) [made], _, next + 1,
        Mint.run_bind run rfl, Built.of_parts (.cons own .nil) rfl ?_, rfl⟩
      intro segment
      cases segment with
      | field name => rfl
      | index position =>
        rw [Node.step?, List.map_replicate, List.getElem?_replicate, slot?, same]
        split <;> rfl

end Blueprint

end Conform
