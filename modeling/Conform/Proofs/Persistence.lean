import Conform.Proofs.Storage

/-!
Persistence: sessions that share their clauses, node by node, behave as if each had a vector of its
own. Sessions are kept in three ways, as values, as chains of shared nodes and as private copies,
and the same is seen of all three.
-/

namespace Conform

variable {m : Type → Type} {ι α : Type}

/-- A clause with the address of the one that was declared before it. -/
structure ClauseNode (m : Type → Type) (ι α : Type) where
  clause : Clause m ι α
  previous : Option Nat

namespace ClauseNode

/-- The clauses on the way from an address, the newest first. The nodes are listed from the latest
on, and the address of each is the number of those before it. -/
def chain : List (ClauseNode m ι α) → Option Nat → List (Clause m ι α)
  | _, none => []
  | [], some _ => []
  | node :: older, some address =>
    if address = older.length then node.clause :: chain older node.previous
    else chain older (some address)

@[simp]
theorem chain_none (nodes : List (ClauseNode m ι α)) : chain nodes none = [] := by
  simp only [chain]

/-- A new node is on no chain that begins at an old one. -/
theorem chain_cons_of_old {nodes : List (ClauseNode m ι α)} {last : Option Nat}
    (node : ClauseNode m ι α) (old : ∀ address, last = some address → address < nodes.length) :
    chain (node :: nodes) last = chain nodes last := by
  cases last with
  | none => rw [chain_none, chain_none]
  | some address => rw [chain, if_neg (Nat.ne_of_lt (old address rfl))]

theorem chain_cons_self (nodes : List (ClauseNode m ι α)) (node : ClauseNode m ι α) :
    chain (node :: nodes) (some nodes.length) = node.clause :: chain nodes node.previous := by
  rw [chain, if_pos rfl]

end ClauseNode

/-- A session that keeps the address of its last clause, and how many there are. -/
structure Chained (m : Type → Type) (ι α : Type) where
  input : ι
  last : Option Nat
  size : Nat
  fallback : Option (m α)

namespace Chained

/-- A declared clause takes one new node in front of the chain, and nothing else is touched. -/
def extend (nodes : List (ClauseNode m ι α)) (chained : Chained m ι α)
    (declaration : Declaration m ι α) : List (ClauseNode m ι α) × Chained m ι α :=
  let fallback := declaration.fallback?.or chained.fallback
  match declaration.clause? with
  | some clause => (⟨clause, chained.last⟩ :: nodes,
    { chained with last := some nodes.length, size := chained.size + 1, fallback })
  | none => (nodes, { chained with fallback })

/-- A chain stands for a session: it leads through old nodes to the same clauses. -/
structure Stands (nodes : List (ClauseNode m ι α)) (chained : Chained m ι α)
    (session : Session m ι α) : Prop where
  input : chained.input = session.input
  clauses : (ClauseNode.chain nodes chained.last).reverse = session.clauses.toList
  old : ∀ address, chained.last = some address → address < nodes.length
  size : chained.size = (ClauseNode.chain nodes chained.last).length
  fallback : chained.fallback = session.fallback

theorem stands_new (nodes : List (ClauseNode m ι α)) (input : ι) :
    Stands nodes ⟨input, none, 0, none⟩ (.new input) where
  input := rfl
  clauses := by rw [ClauseNode.chain_none]; rfl
  old := nofun
  size := by rw [ClauseNode.chain_none]; rfl
  fallback := rfl

variable {nodes : List (ClauseNode m ι α)} {chained : Chained m ι α} {session : Session m ι α}

/-- A new node leaves the chains of all sessions as they were. -/
theorem Stands.cons (stands : Stands nodes chained session) (node : ClauseNode m ι α) :
    Stands (node :: nodes) chained session := by
  have same := ClauseNode.chain_cons_of_old node stands.old
  refine ⟨stands.input, ?_, ?_, ?_, stands.fallback⟩
  · rw [same, stands.clauses]
  · intro address last
    exact Nat.lt_succ_of_lt (stands.old address last)
  · rw [same, stands.size]

/-- The node of a new clause has an address that no node had before, and leads to the old chain. -/
theorem Stands.extend (stands : Stands nodes chained session) (declaration : Declaration m ι α) :
    Stands (chained.extend nodes declaration).1 (chained.extend nodes declaration).2
      (session.extend declaration) := by
  have fallback : declaration.fallback?.or chained.fallback =
      (session.extend declaration).fallback := by
    rw [Session.fallback_extend, stands.fallback]
  have input := stands.input.trans (session.input_extend declaration).symm
  have clauses := session.clauses_extend declaration
  rw [Chained.extend]
  cases declared : declaration.clause? with
  | none =>
    rw [declared, Option.toList_none, List.append_nil] at clauses
    exact ⟨input, stands.clauses.trans clauses.symm, stands.old, stands.size, fallback⟩
  | some clause =>
    have chain := ClauseNode.chain_cons_self nodes ⟨clause, chained.last⟩
    rw [declared] at clauses
    refine ⟨input, ?_, ?_, ?_, fallback⟩
    · rw [chain, List.reverse_cons, stands.clauses, clauses]
      rfl
    · rintro address ⟨⟩
      exact Nat.lt_succ_self _
    · rw [chain, List.length_cons, stands.size]

/-- A declaration on one session leaves the chains of all others as they were. -/
theorem Stands.keep {other : Chained m ι α} (stands : Stands nodes chained session)
    (declaration : Declaration m ι α) :
    Stands (other.extend nodes declaration).1 chained session := by
  rw [Chained.extend]
  cases declaration.clause? with
  | none => exact stands
  | some clause => exact stands.cons ⟨clause, other.last⟩

end Chained

/-- A session with its own vector of clauses and its own fallback. -/
structure Owned (m : Type → Type) (ι α : Type) where
  input : ι
  clauses : Array (Clause m ι α)
  fallback : Option (m α)

namespace Owned

/-- A declaration is made on a copy of the whole vector, at its end. -/
def extend (owned : Owned m ι α) (declaration : Declaration m ι α) : Owned m ι α where
  input := owned.input
  clauses := owned.clauses ++ declaration.clause?.toArray
  fallback := declaration.fallback?.or owned.fallback

/-- The same session with its clauses copied. -/
def ofSession (session : Session m ι α) : Owned m ι α :=
  ⟨session.input, session.clauses.toList.toArray, session.fallback⟩

theorem ofSession_extend (session : Session m ι α) (declaration : Declaration m ι α) :
    ofSession (session.extend declaration) = (ofSession session).extend declaration := by
  simp [ofSession, extend]

end Owned

section

variable [Monad m] [Observed m] [Inspectable ι]

/-- The first clause at or after an index that fires. -/
def Clause.scan (input : ι) (clauses : Array (Clause m ι α)) (index : Nat) :
    m (Option (Nat × Clause m ι α)) :=
  if inRange : index < clauses.size then do
    if ← clauses[index].passes input then
      if clauses[index].fires input then return some (index, clauses[index])
      Session.noteSkipped input index clauses[index]
    else emit (.guardRejected index)
    scan input clauses (index + 1)
  else pure none
termination_by clauses.size - index

/-- What is left to scan at an index is the list from there on. -/
theorem Clause.scan_eq_select (input : ι) (clauses : Array (Clause m ι α)) (index : Nat) :
    scan input clauses index = Session.select input index (clauses.toList.drop index) := by
  induction index using scan.induct clauses with
  | case1 index inRange ih =>
    rw [scan, dif_pos inRange, List.drop_eq_getElem_cons (by simpa using inRange),
      Session.select, ih]
    rfl
  | case2 index beyond =>
    rw [scan, dif_neg beyond, List.drop_eq_nil_of_le (by simpa using beyond), Session.select]

/-- What is seen of an input with a vector of clauses, their kept number, and a fallback. -/
def Observation.ofVector (input : ι) (clauses : Array (Clause m ι α)) (size : Nat)
    (fallback : Option (m α)) : Observation m ι α where
  input
  size
  isEmpty := size == 0
  hasFallback := fallback.isSome
  headings := (clauses.map Clause.heading).toList
  evaluation := do
    emit (.evaluation size (Inspectable.content input).kind)
    match ← Clause.scan input clauses 0 with
    | some (index, clause) =>
      emit (.fired index clause.heading)
      return some (← clause.transform input)
    | none =>
      match fallback with
      | some produce =>
        emit .fallback
        return some (← produce)
      | none =>
        emit .exhausted
        return none

theorem Session.observe_eq_ofVector {session : Session m ι α} {clauses : Array (Clause m ι α)}
    (same : session.clauses.toList = clauses.toList) :
    session.observe = .ofVector session.input clauses clauses.size session.fallback := by
  have headings : session.headings = (clauses.map Clause.heading).toList := by
    rw [Session.headings, same, Array.toList_map]
  have size : session.size = clauses.size := by
    rw [Session.size, GrowingList.size_toList, same, Array.length_toList]
  have selected : Clause.scan session.input clauses 0 =
      Session.select session.input 0 session.clauses.toList := by
    rw [Clause.scan_eq_select, List.drop_zero, same]
  unfold Session.observe Observation.ofVector
  rw [headings, Session.evaluate, selected, Session.isEmpty, size]
  rfl

/-- What is seen of a chain: its clauses are collected from the last to the first, and turned
around. -/
def Chained.observe (nodes : List (ClauseNode m ι α)) (chained : Chained m ι α) :
    Observation m ι α :=
  .ofVector chained.input (ClauseNode.chain nodes chained.last).reverse.toArray chained.size
    chained.fallback

theorem Chained.Stands.observe_eq {nodes : List (ClauseNode m ι α)} {chained : Chained m ι α}
    {session : Session m ι α} (stands : chained.Stands nodes session) :
    chained.observe nodes = session.observe := by
  have size : (ClauseNode.chain nodes chained.last).reverse.toArray.size = chained.size := by
    rw [List.size_toArray, List.length_reverse, stands.size]
  have same : session.clauses.toList =
      (ClauseNode.chain nodes chained.last).reverse.toArray.toList := stands.clauses.symm
  rw [Session.observe_eq_ofVector same, size, ← stands.input, ← stands.fallback, Chained.observe]

def Owned.observe (owned : Owned m ι α) : Observation m ι α :=
  .ofVector owned.input owned.clauses owned.clauses.size owned.fallback

theorem Owned.observe_ofSession (session : Session m ι α) :
    (ofSession session).observe = session.observe :=
  (Session.observe_eq_ofVector rfl).symm

namespace Storage

/-- Sessions as chains of nodes in a memory that only grows. -/
def chains : Storage m ι α where
  Memory := List (ClauseNode m ι α)
  Handle := Chained m ι α
  blank := []
  start input := ⟨input, none, 0, none⟩
  extend nodes chained declaration := chained.extend nodes declaration
  observe nodes chained := chained.observe nodes

/-- Sessions that share nothing. -/
def copies : Storage m ι α where
  Memory := Unit
  Handle := Owned m ι α
  blank := ()
  start input := ⟨input, #[], none⟩
  extend _ owned declaration := ((), owned.extend declaration)
  observe _ owned := owned.observe

def simulationOfChains : Simulation (chains : Storage m ι α) values where
  Related nodes _ chained session := chained.Stands nodes session
  start nodes _ input := Chained.stands_new nodes input
  extend stands declaration := stands.extend declaration
  keep _ stands declaration := stands.keep declaration
  observe stands := stands.observe_eq

def simulationOfCopies : Simulation (copies : Storage m ι α) values where
  Related _ _ owned session := owned = .ofSession session
  start _ _ _ := rfl
  extend := by
    rintro _ _ _ session rfl declaration
    exact (Owned.ofSession_extend session declaration).symm
  keep _ other _ := other
  observe := by
    rintro _ _ _ session rfl
    exact Owned.observe_ofSession session

theorem size_eq_of_observed? {program : List (Command m ι α)}
    {seen : Fields (Observation m ι α) none} {name : String} {observation : Observation m ι α}
    (observed : values.observed? program = some seen) (found : seen.find? name = some observation) :
    observation.size = observation.headings.length := by
  obtain ⟨state, _, rfl⟩ := Option.map_eq_some_iff.mp observed
  rw [State.observations, Fields.find?_map] at found
  obtain ⟨session, _, rfl⟩ := Option.map_eq_some_iff.mp found
  exact session.clauses.size_toList.trans (List.length_map _).symm

theorem find?_of_observed?_append {program : List (Command m ι α)} {command : Command m ι α}
    {seen later : Fields (Observation m ι α) none} {name : String}
    (observed : values.observed? program = some seen)
    (after : values.observed? (program ++ [command]) = some later) (other : name ≠ command.target) :
    later.find? name = seen.find? name := by
  obtain ⟨state, ran, rfl⟩ := Option.map_eq_some_iff.mp observed
  obtain ⟨final, ranOn, rfl⟩ := Option.map_eq_some_iff.mp after
  obtain ⟨before, ranToo, stepped⟩ := run?_append_eq_some_iff.mp ranOn
  cases ran.symm.trans ranToo
  rw [State.observations, State.observations, Fields.find?_map, Fields.find?_map,
    find?_of_step? stepped other]
  rfl

/-- Sessions persist: whatever the program, sessions that are values and sessions that are chains of
shared nodes look like sessions that share nothing. The number of clauses that is kept is that of
the clauses, and an operation changes nothing of the sessions that it does not name. -/
theorem persistence (program : List (Command m ι α)) :
    (values.observed? program = copies.observed? program ∧
        chains.observed? program = copies.observed? program) ∧
      ∀ seen, values.observed? program = some seen →
        (∀ name observation, seen.find? name = some observation →
          observation.size = observation.headings.length) ∧
        ∀ command later, values.observed? (program ++ [command]) = some later →
          ∀ name, name ≠ command.target → later.find? name = seen.find? name := by
  have copied := simulationOfCopies.observed?_eq program
  have chained := simulationOfChains.observed?_eq program
  refine ⟨⟨copied.symm, chained.trans copied.symm⟩, ?_⟩
  intro seen observed
  constructor
  · intro name observation found
    exact size_eq_of_observed? observed found
  · intro command later after name other
    exact find?_of_observed?_append observed after other

/-- Two branches and a copy of one session, which is continued itself afterwards. -/
theorem persistence_branches :
    ((chains.observed? [.start "base" (Value.ofInt 3),
          .extend "left" "base" (.accept .anyNumber fun _ => 1),
          .extend "right" "base" (.otherwise 2), .copy "copy" "left",
          .extend "left" "left" (.refuse .anyNumber fun _ => 3),
          .extend "base" "right" (.refuse .anyString fun _ => 4)]).map fun seen =>
        seen.toList.map fun entry =>
          (entry.1, entry.2.size, entry.2.hasFallback, Id.run entry.2.evaluation)) =
      some [("base", 1, true, some 4), ("copy", 1, false, some 1), ("left", 2, false, some 1),
        ("right", 0, true, some 2)] := by
  rw [(persistence _).1.2, ← (persistence _).1.1]
  rfl

end Storage

end

end Conform
