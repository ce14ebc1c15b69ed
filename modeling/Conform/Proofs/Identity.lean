import Conform.Proofs.Equality
import Conform.Proofs.Sources

/-!
Identity: which registers hold the same node. A program read backwards tells where the node in a
register was made, and two nodes are the same when they were made by one operation in one place.
-/

namespace Conform

/-- Strict equality of nodes: scalars are the same in content, lists and records the same node. -/
inductive Node.StrictlyEqual : Node → Node → Prop where
  | scalar {stamp other : Nat} {value counterpart : Scalar} (same : value.Same counterpart) :
      StrictlyEqual (.scalar stamp value) (.scalar other counterpart)
  | list {stamp : Nat} {items others : List Node} :
      StrictlyEqual (.list stamp items) (.list stamp others)
  | record {stamp : Nat} {fields others : Fields Node none} :
      StrictlyEqual (.record stamp fields) (.record stamp others)

namespace Node

variable {node middle other : Node}

theorem strictEqual_iff : node.strictEqual other = true ↔ node.StrictlyEqual other := by
  constructor
  · intro equal
    cases node with
    | scalar stamp value =>
      cases other with
      | scalar => exact .scalar (Scalar.equal_iff_same.mp equal)
      | list | record => cases equal
    | list stamp items =>
      cases other with
      | list => exact beq_iff_eq.mp equal ▸ .list
      | scalar | record => cases equal
    | record stamp fields =>
      cases other with
      | record => exact beq_iff_eq.mp equal ▸ .record
      | scalar | list => cases equal
  · intro equal
    cases equal with
    | scalar same => exact Scalar.equal_iff_same.mpr same
    | list | record => exact beq_self_eq_true _

theorem strictEqual_comm (node other : Node) :
    node.strictEqual other = other.strictEqual node := by
  cases node <;> cases other <;> first | rfl | skip
  case scalar.scalar => exact Scalar.equal_comm _ _
  all_goals exact Bool.beq_comm

theorem strictEqual_self_iff (node : Node) :
    node.strictEqual node = true ↔ ∀ x, node.content = .number x → x.isNaN = false := by
  cases node with
  | scalar stamp value =>
    refine (Scalar.equal_self_iff value).trans (forall_congr' fun x => ?_)
    exact imp_congr_left ⟨congrArg Value.scalar, Value.scalar.inj⟩
  | list | record => exact iff_of_true (beq_self_eq_true _) nofun

theorem StrictlyEqual.trans (left : node.StrictlyEqual middle)
    (right : middle.StrictlyEqual other) : node.StrictlyEqual other := by
  cases left with
  | scalar same =>
    cases right with
    | scalar again => exact .scalar (same.trans again)
  | list =>
    cases right
    exact .list
  | record =>
    cases right
    exact .record

theorem eq_list_of_kind (kind : node.content.kind = .list) :
    ∃ stamp items, node = .list stamp items := by
  cases node with
  | list stamp items => exact ⟨stamp, items, rfl⟩
  | scalar _ value => cases value <;> cases kind
  | record => cases kind

theorem eq_record_of_kind (kind : node.content.kind = .record) :
    ∃ stamp fields, node = .record stamp fields := by
  cases node with
  | record stamp fields => exact ⟨stamp, fields, rfl⟩
  | scalar _ value => cases value <;> cases kind
  | list => cases kind

/-- Lists and records are strictly equal when they bear one stamp. -/
theorem strictEqual_iff_of_whole (alike : node.content.kind = other.content.kind)
    (whole : node.content.kind = .list ∨ node.content.kind = .record) :
    node.strictEqual other = true ↔ node.stamp = other.stamp := by
  rcases whole with list | record
  · obtain ⟨_, _, rfl⟩ := eq_list_of_kind (alike.symm.trans list)
    obtain ⟨_, _, rfl⟩ := eq_list_of_kind list
    exact beq_iff_eq
  · obtain ⟨_, _, rfl⟩ := eq_record_of_kind (alike.symm.trans record)
    obtain ⟨_, _, rfl⟩ := eq_record_of_kind record
    exact beq_iff_eq

theorem strictEqual_eq_false (first : node.content.kind = .list)
    (second : other.content.kind = .record) : node.strictEqual other = false := by
  obtain ⟨_, _, rfl⟩ := eq_list_of_kind first
  obtain ⟨_, _, rfl⟩ := eq_record_of_kind second
  rfl

theorem strictEqual_iff_of_scalar {own : Scalar} (scalar : node.content = .scalar own) :
    node.strictEqual other = true ↔
      ∃ counterpart, other.content = .scalar counterpart ∧ own.Same counterpart := by
  cases node with
  | scalar stamp value =>
    cases scalar
    cases other with
    | scalar _ value =>
      rw [strictEqual, Scalar.equal_iff_same]
      constructor
      · intro same
        exact ⟨value, rfl, same⟩
      · rintro ⟨_, ⟨⟩, same⟩
        exact same
    | list | record => exact iff_of_false Bool.false_ne_true nofun
  | list | record => cases scalar

/-- Where a stamp stands for one node, nodes that are strictly equal have equal contents if there is
a number wherever one should be. -/
theorem StrictlyEqual.equal_content_iff (equal : node.StrictlyEqual other)
    (unique : node.stamp = other.stamp → node = other) :
    node.content.equal other.content = true ↔ node.content.WithoutNaN := by
  cases equal with
  | @scalar stamp stamp' value counterpart same =>
    have self : value.equal value = true := by
      have back := Scalar.equal_iff_same.mpr same
      rw [Scalar.equal_comm] at back
      exact Scalar.equal_iff_same.mpr (same.trans (Scalar.equal_iff_same.mp back))
    exact iff_of_true (Scalar.equal_iff_same.mpr same)
      ((Value.equal_self_iff (.scalar value)).mp self)
  | list | record =>
    rw [← unique rfl]
    exact Value.equal_self_iff _

theorem at?_append (node : Node) (first rest : List Segment) :
    node.at? (first ++ rest) = (node.at? first).bind fun part => part.at? rest := by
  induction first generalizing node with
  | nil => rfl
  | cons segment first ih =>
    rw [List.cons_append, at?, at?, Option.bind_assoc]
    exact Option.bind_congr fun part _ => ih part

end Node

namespace Registers

/-- An operation of a program that makes nodes, by its position, and a place in what it makes. -/
structure Origin where
  operation : Nat
  place : List Nat
  deriving DecidableEq, Repr

def Source.origin? (operation : Nat) (earlier : String → List Segment → Option Origin) :
    Source → Option Origin
  | .made place => some ⟨operation, place⟩
  | .held register segments => earlier register segments

/-- The origin of the node at the end of steps in a register, traced back through a program whose
last instruction comes first. -/
def origin? : List Instruction → String → List Segment → Option Origin
  | [], _, _ => none
  | instruction :: earlier, register, segments =>
    (instruction.source? (fun register segments => (origin? earlier register segments).isSome)
      register segments).bind (Source.origin? earlier.length (origin? earlier))

/-- An origin that can be reached from some register. -/
def Reaches (history : List Instruction) (origin : Origin) : Prop :=
  ∃ register segments, origin? history register segments = some origin

/-- A machine holds what a program says: in every place the node with the origin of that place, and
nodes with different origins bear different stamps. -/
structure Traced (history : List Instruction) (machine : Machine) (made : Origin → Node) :
    Prop where
  node?_eq : ∀ register segments,
    machine.node? register segments = (origin? history register segments).map made
  past : ∀ {origin}, Reaches history origin → origin.operation < history.length
  fresh : ∀ {origin}, Reaches history origin → (made origin).stamp < machine.nextStamp
  distinct : ∀ {origin other}, Reaches history origin → Reaches history other →
    (made origin).stamp = (made other).stamp → origin = other
  older : ∀ {origin segment part}, Reaches history origin →
    (made origin).step? segment = some part → part.stamp < (made origin).stamp

/-- The nodes of all operations, when the last one makes new nodes. -/
def extend (operation : Nat) (fresh : List Nat → Node) (made : Origin → Node) (origin : Origin) :
    Node :=
  if origin.operation = operation then fresh origin.place else made origin

variable {history program : List Instruction} {instruction : Instruction}
  {machine next final : Machine} {made : Origin → Node} {fresh : List Nat → Node}
  {answers : List Answer}

theorem traced_initial (made : Origin → Node) : Traced [] .initial made where
  node?_eq _ _ := rfl
  past := nofun
  fresh := nofun
  distinct := nofun
  older := nofun

theorem reaches_cons {origin : Origin} (reached : Reaches (instruction :: history) origin) :
    (∃ place, instruction.Makes place ∧ origin = ⟨history.length, place⟩) ∨
      Reaches history origin := by
  obtain ⟨register, segments, found⟩ := reached
  obtain ⟨source, there, found⟩ := Option.bind_eq_some_iff.mp found
  cases source with
  | made place =>
    cases found
    exact .inl ⟨place, Instruction.makes_of_source? there, rfl⟩
  | held register segments => exact .inr ⟨register, segments, found⟩

/-- A node that was there before, or a new one. -/
theorem Follows.held_or_new (follows : Follows instruction machine next fresh) {node : Node}
    (held : next.Holds node) : machine.Holds node ∨ machine.nextStamp ≤ node.stamp := by
  obtain ⟨register, segments, found⟩ := held
  rw [follows.sources] at found
  obtain ⟨source, there, found⟩ := Option.bind_eq_some_iff.mp found
  cases source with
  | made place =>
    cases found
    exact .inr (follows.new (Instruction.makes_of_source? there)).1
  | held register segments => exact .inl ⟨register, segments, found⟩

namespace Traced

theorem holds_iff (traced : Traced history machine made) {node : Node} :
    machine.Holds node ↔ ∃ origin, Reaches history origin ∧ made origin = node := by
  constructor
  · rintro ⟨register, segments, found⟩
    rw [traced.node?_eq] at found
    obtain ⟨origin, there, same⟩ := Option.map_eq_some_iff.mp found
    exact ⟨origin, ⟨register, segments, there⟩, same⟩
  · rintro ⟨origin, ⟨register, segments, there⟩, rfl⟩
    refine ⟨register, segments, ?_⟩
    rw [traced.node?_eq, there, Option.map_some]

theorem machine_fresh (traced : Traced history machine made) : machine.Fresh := by
  intro node held
  obtain ⟨origin, reached, rfl⟩ := traced.holds_iff.mp held
  exact traced.fresh reached

theorem holds_eq (traced : Traced history machine made) :
    machine.holds = fun register segments => (origin? history register segments).isSome := by
  funext register segments
  rw [Machine.holds, traced.node?_eq, Option.isSome_map]

/-- A stamp belongs to one node only. -/
theorem eq_of_stamp_eq (traced : Traced history machine made) {node other : Node}
    (held : machine.Holds node) (held' : machine.Holds other) (same : node.stamp = other.stamp) :
    node = other := by
  obtain ⟨origin, reached, rfl⟩ := traced.holds_iff.mp held
  obtain ⟨origin', reached', rfl⟩ := traced.holds_iff.mp held'
  rw [traced.distinct reached reached' same]

theorem extend_of_place (place : List Nat) :
    extend history.length fresh made ⟨history.length, place⟩ = fresh place :=
  if_pos rfl

theorem extend_of_reaches (traced : Traced history machine made) {origin : Origin}
    (reached : Reaches history origin) :
    extend history.length fresh made origin = made origin :=
  if_neg (Nat.ne_of_lt (traced.past reached))

/-- One instruction goes on in the traces. Old and new never meet, since what is made now has later
stamps than all that was held. -/
theorem step (traced : Traced history machine made)
    (follows : Follows instruction machine next fresh) :
    Traced (instruction :: history) next (extend history.length fresh made) where
  node?_eq register segments := by
    rw [follows.sources, traced.holds_eq, origin?, Option.map_bind]
    refine Option.bind_congr fun source _ => ?_
    cases source with
    | made place => exact congrArg some (extend_of_place place).symm
    | held register segments =>
      rw [Source.node?, traced.node?_eq]
      refine Option.map_congr fun origin there => ?_
      exact (traced.extend_of_reaches ⟨register, segments, there⟩).symm
  past reached := by
    obtain ⟨place, _, rfl⟩ | earlier := reaches_cons reached
    · exact Nat.lt_succ_self _
    · exact Nat.lt_succ_of_lt (traced.past earlier)
  fresh reached := by
    obtain ⟨place, makes, rfl⟩ | earlier := reaches_cons reached
    · rw [extend_of_place]
      exact (follows.new makes).2
    · rw [traced.extend_of_reaches earlier]
      exact Nat.lt_of_lt_of_le (traced.fresh earlier) follows.grows
  distinct reached reached' same := by
    have apart {place : List Nat} {origin : Origin} (makes : instruction.Makes place)
        (earlier : Reaches history origin) : (fresh place).stamp ≠ (made origin).stamp :=
      Nat.ne_of_gt (Nat.lt_of_lt_of_le (traced.fresh earlier) (follows.new makes).1)
    obtain ⟨place, makes, rfl⟩ | earlier := reaches_cons reached
    · rw [extend_of_place] at same
      obtain ⟨place', makes', rfl⟩ | earlier' := reaches_cons reached'
      · rw [extend_of_place] at same
        rw [follows.distinct makes makes' same]
      · rw [traced.extend_of_reaches earlier'] at same
        exact absurd same (apart makes earlier')
    · rw [traced.extend_of_reaches earlier] at same
      obtain ⟨place', makes', rfl⟩ | earlier' := reaches_cons reached'
      · rw [extend_of_place] at same
        exact absurd same.symm (apart makes' earlier)
      · rw [traced.extend_of_reaches earlier'] at same
        exact traced.distinct earlier earlier' same
  older reached found := by
    obtain ⟨place, makes, rfl⟩ | earlier := reaches_cons reached
    · rw [extend_of_place] at found ⊢
      exact follows.older makes found
    · rw [traced.extend_of_reaches earlier] at found ⊢
      exact traced.older earlier found

/-- What a program holds in the end it held before or made with a later stamp. The history grows at
its front while the program is read from its front. -/
theorem run (traced : Traced history machine made)
    (ran : machine.run? program = some (answers, final)) :
    (∃ made, Traced (program.reverse ++ history) final made) ∧
      machine.nextStamp ≤ final.nextStamp ∧
      ∀ node, final.Holds node → machine.Holds node ∨ machine.nextStamp ≤ node.stamp := by
  induction program generalizing history machine made answers with
  | nil =>
    cases ran
    exact ⟨⟨made, traced⟩, Nat.le_refl _, fun _ held => .inl held⟩
  | cons instruction program ih =>
    obtain ⟨⟨answer, next⟩, stepped, ran⟩ := Option.bind_eq_some_iff.mp ran
    obtain ⟨⟨rest, last⟩, ran, same⟩ := Option.bind_eq_some_iff.mp ran
    cases same
    obtain ⟨fresh, follows⟩ := exists_follows traced.machine_fresh stepped
    obtain ⟨whole, grows, kept⟩ := ih (traced.step follows) ran
    refine ⟨?_, Nat.le_trans follows.grows grows, ?_⟩
    · rwa [List.reverse_cons, List.append_assoc, List.singleton_append]
    · intro node held
      obtain held | new := kept node held
      · exact follows.held_or_new held
      · exact .inr (Nat.le_trans follows.grows new)

theorem part (traced : Traced history machine made) {node part : Node} {segment : Segment}
    (held : machine.Holds node) (found : node.step? segment = some part) :
    machine.Holds part ∧ part.stamp < node.stamp := by
  constructor
  · obtain ⟨register, outer, reached⟩ := held
    obtain ⟨value, read, reached⟩ := Option.bind_eq_some_iff.mp reached
    refine ⟨register, outer ++ [segment], ?_⟩
    rw [Machine.node?_eq read, Node.at?_append, reached, Option.bind_some, Node.at?, found]
    rfl
  · obtain ⟨origin, reached, rfl⟩ := traced.holds_iff.mp held
    exact traced.older reached found

/-- The parts of a node, at whatever depth, are made before it. -/
theorem stamp_lt (traced : Traced history machine made) {node part : Node} {segment : Segment}
    {segments : List Segment} (held : machine.Holds node)
    (found : node.at? (segment :: segments) = some part) : part.stamp < node.stamp := by
  induction segments generalizing node segment with
  | nil =>
    obtain ⟨inner, here, ⟨⟩⟩ := Option.bind_eq_some_iff.mp found
    exact (traced.part held here).2
  | cons next segments ih =>
    obtain ⟨inner, here, there⟩ := Option.bind_eq_some_iff.mp found
    obtain ⟨inside, own⟩ := traced.part held here
    exact Nat.lt_trans (ih inside there) own

end Traced

/-- What strict equality says of the values of two registers that a program has come to. -/
structure Compared (program : List Instruction) (left right : String) (value other : Shared) :
    Prop where
  symmetric : value.strictEqual other = other.strictEqual value
  /-- A scalar is strictly equal to the scalars that are the same in content. -/
  scalar : ∀ own, value.content = .scalar own →
    (value.strictEqual other = true ↔
      ∃ counterpart, other.content = .scalar counterpart ∧ own.Same counterpart)
  /-- Lists and records are strictly equal when one operation made them in one place. -/
  whole : value.kind = other.kind → value.kind = .list ∨ value.kind = .record →
    (value.strictEqual other = true ↔ ∃ origin, origin? program.reverse left [] = some origin ∧
      origin? program.reverse right [] = some origin)
  apart : value.kind = .list → other.kind = .record → value.strictEqual other = false
  /-- What is strictly equal is equal in content, unless it holds what is no number. -/
  content : value.strictEqual other = true →
    (value.content.equal other.content = true ↔ value.content.WithoutNaN)

theorem Traced.exists_origin (traced : Traced history machine made) {register : String}
    {value : Shared} (read : machine.get? register = some value) :
    ∃ origin, origin? history register [] = some origin ∧ made origin = value.node := by
  have found := traced.node?_eq register []
  rw [Machine.node?_eq read] at found
  exact Option.map_eq_some_iff.mp found.symm

theorem Traced.compared (traced : Traced program.reverse machine made) {left right : String}
    {value other : Shared} (read : machine.get? left = some value)
    (read' : machine.get? right = some other) : Compared program left right value other := by
  obtain ⟨origin, there, same⟩ := traced.exists_origin read
  obtain ⟨origin', there', same'⟩ := traced.exists_origin read'
  have unique := traced.eq_of_stamp_eq ⟨left, [], Machine.node?_eq read []⟩
    ⟨right, [], Machine.node?_eq read' []⟩
  obtain ⟨node, content, rfl⟩ := value
  obtain ⟨node', content', rfl⟩ := other
  refine ⟨node.strictEqual_comm node', fun _ => Node.strictEqual_iff_of_scalar,
    fun alike whole => ?_, Node.strictEqual_eq_false, fun equal => ?_⟩
  · rw [there, there']
    refine (Node.strictEqual_iff_of_whole alike whole).trans ?_
    constructor
    · intro stamps
      have made := (congrArg Node.stamp same).trans (stamps.trans (congrArg Node.stamp same').symm)
      have one := traced.distinct ⟨left, [], there⟩ ⟨right, [], there'⟩ made
      exact ⟨origin, rfl, congrArg some one.symm⟩
    · rintro ⟨_, ⟨⟩, ⟨⟩⟩
      exact congrArg Node.stamp (same.symm.trans same')
  · exact (Node.strictEqual_iff.mp equal).equal_content_iff unique

/-- Identity of values, in every state that a program comes to. A stamp stands for one node then and
ever after, and what a node holds bears earlier stamps. Strict equality is equality of origins for
lists and records, and equality of content for scalars; it is symmetric and transitive, and fails
to be reflexive for what is no number. What bears a stamp that was used before cannot be new, so it
was held already. -/
theorem registers_identity (ran : Machine.initial.run? program = some (answers, machine)) :
    machine.Fresh ∧
    (∀ node segment segments part, machine.Holds node →
      node.at? (segment :: segments) = some part → part.stamp < node.stamp) ∧
    (∀ later others final node other, machine.run? later = some (others, final) →
      machine.Holds node → final.Holds other → node.stamp = other.stamp → node = other) ∧
    (∀ left right value other, machine.get? left = some value →
      machine.get? right = some other → Compared program left right value other) ∧
    (∀ first second third : Shared, first.strictEqual second = true →
      second.strictEqual third = true → first.strictEqual third = true) ∧
    ∀ value : Shared, value.strictEqual value = true ↔
      ∀ x, value.content = .number x → x.isNaN = false := by
  obtain ⟨⟨made, traced⟩, _⟩ := (traced_initial fun _ => .scalar 0 .null).run ran
  rw [List.append_nil] at traced
  refine ⟨traced.machine_fresh, fun _ _ _ _ held => traced.stamp_lt held, ?_,
    fun _ _ _ _ => traced.compared, ?_, ?_⟩
  · intro later others final node other continued held held' same
    obtain ⟨⟨made', traced'⟩, _, kept⟩ := traced.run continued
    obtain before | new := kept other held'
    · exact traced.eq_of_stamp_eq held before same
    · have old := traced.machine_fresh node held
      omega
  · intro first second third left right
    have both := (Node.strictEqual_iff.mp left).trans (Node.strictEqual_iff.mp right)
    exact Node.strictEqual_iff.mpr both
  · rintro ⟨node, content, rfl⟩
    exact node.strictEqual_self_iff

/-- An empty list that occurs twice in a list, taken out, put into a record and taken out again, and
another empty list from next to it. -/
theorem registers_identity_empty :
    ∃ answers machine value other apart,
      Machine.initial.run? [
        .create (some "all") (.list [.list [], .repeated 2 (.list [])]),
        .item (some "apart") "all" 0, .item (some "twice") "all" 1, .drop "all",
        .item (some "first") "twice" 0, .item (some "second") "twice" 1,
        .record (some "pair") [("x", "apart"), ("x", "second")],
        .field (some "again") "pair" "x"] = some (answers, machine) ∧
      machine.get? "first" = some value ∧ machine.get? "again" = some other ∧
      machine.get? "apart" = some apart ∧
      value.strictEqual other = true ∧ value.strictEqual apart ≠ true := by
  obtain ⟨_, _, _, compared, _⟩ := @registers_identity [
    .create (some "all") (.list [.list [], .repeated 2 (.list [])]),
    .item (some "apart") "all" 0, .item (some "twice") "all" 1, .drop "all",
    .item (some "first") "twice" 0, .item (some "second") "twice" 1,
    .record (some "pair") [("x", "apart"), ("x", "second")],
    .field (some "again") "pair" "x"] _ _ rfl
  refine ⟨_, _, _, _, _, rfl, rfl, rfl, rfl, ?_, ?_⟩
  · exact ((compared "first" "again" _ _ rfl rfl).whole rfl (.inl rfl)).mpr ⟨⟨0, [1, 0]⟩, rfl, rfl⟩
  · intro equal
    obtain ⟨_, ⟨⟩, again⟩ := ((compared "first" "apart" _ _ rfl rfl).whole rfl (.inl rfl)).mp equal
    cases again

end Registers

end Conform
