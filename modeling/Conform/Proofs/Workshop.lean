import Conform.Proofs.Persistence
import Conform.Script

/-!
Scripts as programs: whatever the steps of a script do besides, they make sessions only by
operations on sessions, so that its sessions look like sessions that share nothing.
-/

namespace Conform.Script

/-- The sessions of a script, kept as values. -/
def kept (sessions : Sessions) : (Storage.values : Storage Run Shared Result).State :=
  ⟨(), sessions⟩

/-- Sessions that some program makes. -/
def Built (sessions : Sessions) : Prop :=
  ∃ program, Storage.values.run? program = some (kept sessions)

theorem built_nil : Built .nil :=
  ⟨[], rfl⟩

theorem Built.insert {sessions : Sessions} {session : ScriptSession}
    {command : Command Run Shared Result} (built : Built sessions)
    (made : Storage.made? (kept sessions) command = some ((), session)) :
    Built (sessions.insert command.target session) := by
  obtain ⟨program, ran⟩ := built
  refine ⟨program ++ [command], Storage.run?_append_eq_some_iff.mpr ⟨_, ran, ?_⟩⟩
  rw [Storage.step?, made]
  rfl

theorem declare_eq_extend (session : ScriptSession) (polarity : Polarity) (pattern : Pattern)
    (guard : Option (Shared → Run Bool)) (transform : Shared → Run Result) :
    ∃ declaration, declare session polarity pattern guard transform =
      session.extend declaration := by
  cases polarity with
  | affirmative =>
    cases guard with
    | none => exact ⟨.accept pattern transform, rfl⟩
    | some guard => exact ⟨.acceptIf pattern guard transform, rfl⟩
  | negated =>
    cases guard with
    | none => exact ⟨.refuse pattern transform, rfl⟩
    | some guard => exact ⟨.refuseIf pattern guard transform, rfl⟩

namespace Workshop

variable {workshop next : Workshop} {session : ScriptSession} {target : Option String}
  {source : String}

/-- Making closures leaves the sessions as they are. -/
theorem sessions_of_setup? {β : Type} {make : Setup β} {result : β}
    (made : workshop.setup? make = some (result, next)) : next.sessions = workshop.sessions := by
  obtain ⟨_, _, same⟩ := Option.map_eq_some_iff.mp made
  cases same
  rfl

theorem built_store (built : Built workshop.sessions)
    (made : ∀ name, ∃ command, command.target = name ∧
      Storage.made? (kept workshop.sessions) command = some ((), session)) :
    Built (workshop.store target session).2.sessions := by
  cases target with
  | none => exact built
  | some name =>
    obtain ⟨command, rfl, made⟩ := made name
    exact built.insert made

theorem built_store_extend (built : Built workshop.sessions)
    (found : workshop.sessions.find? source = some session)
    (declaration : Declaration Run Shared Result) :
    Built (workshop.store target (session.extend declaration)).2.sessions := by
  refine built_store built fun name => ⟨.extend name source declaration, rfl, ?_⟩
  exact Option.map_eq_some_iff.mpr ⟨session, found, rfl⟩

theorem built_of_step? {step : Step} {answer : Answer} (built : Built workshop.sessions)
    (ran : workshop.step? step = some (answer, next)) : Built next.sessions := by
  cases step with
  | start target index =>
    obtain ⟨input, _, same⟩ := Option.bind_eq_some_iff.mp ran
    cases same
    exact built_store built fun name => ⟨.start name input, rfl, rfl⟩
  | copy target source =>
    obtain ⟨session, found, same⟩ := Option.bind_eq_some_iff.mp ran
    cases same
    refine built_store built fun name => ⟨.copy name source, rfl, ?_⟩
    exact Option.map_eq_some_iff.mpr ⟨session, found, rfl⟩
  | clause target source polarity pattern guard expression =>
    obtain ⟨session, found, ran⟩ := Option.bind_eq_some_iff.mp ran
    obtain ⟨⟨guard, middle⟩, guardMade, ran⟩ := Option.bind_eq_some_iff.mp ran
    obtain ⟨⟨transform, last⟩, transformMade, same⟩ := Option.bind_eq_some_iff.mp ran
    obtain ⟨declaration, declared⟩ := declare_eq_extend session polarity pattern guard transform
    have unchanged : last.sessions = workshop.sessions :=
      (sessions_of_setup? transformMade).trans (sessions_of_setup? guardMade)
    have stored : last.store target (declare session polarity pattern guard transform) =
        (answer, next) := Option.some.inj same
    rw [← unchanged] at built found
    have extended : Built (last.store target (session.extend declaration)).2.sessions :=
      built_store_extend built found declaration
    rwa [← declared, stored] at extended
  | typedClause target source pattern type label =>
    obtain ⟨session, found, same⟩ := Option.bind_eq_some_iff.mp ran
    cases same
    exact built_store_extend built found (.accept pattern _)
  | fallback target source expression =>
    obtain ⟨session, found, ran⟩ := Option.bind_eq_some_iff.mp ran
    obtain ⟨⟨produce, last⟩, produceMade, same⟩ := Option.bind_eq_some_iff.mp ran
    cases same
    rw [← sessions_of_setup? produceMade] at built found
    exact built_store_extend built found (.otherwise _)
  | overview source view =>
    obtain ⟨session, _, same⟩ := Option.bind_eq_some_iff.mp ran
    cases same
    exact built
  | evaluate source mode observer =>
    obtain ⟨session, _, ran⟩ := Option.bind_eq_some_iff.mp ran
    obtain ⟨⟨mode, last⟩, modeMade, same⟩ := Option.bind_eq_some_iff.mp ran
    cases same
    rw [← sessions_of_setup? modeMade] at built
    exact built
  | refused error =>
    cases ran
    exact built

theorem built_of_run? {steps : List Step} {answers : List Answer} (built : Built workshop.sessions)
    (ran : workshop.run? steps = some (answers, next)) : Built next.sessions := by
  induction steps generalizing workshop answers with
  | nil =>
    cases ran
    exact built
  | cons step steps ih =>
    obtain ⟨⟨answer, middle⟩, stepped, ran⟩ := Option.bind_eq_some_iff.mp ran
    obtain ⟨⟨others, final⟩, continued, same⟩ := Option.bind_eq_some_iff.mp ran
    cases same
    exact ih (built_of_step? built stepped) continued

/-- At the end of a script, its sessions look like sessions that share nothing. -/
theorem observed_of_run? {blueprints : List Blueprint} {steps : List Step} {answers : List Answer}
    (ran : (ofBlueprints blueprints).run? steps = some (answers, next)) :
    ∃ program, Storage.copies.observed? program = some (next.sessions.map Session.observe) := by
  obtain ⟨program, built⟩ := built_of_run? built_nil ran
  refine ⟨program, ?_⟩
  rw [Storage.simulationOfCopies.observed?_eq program, Storage.observed?, built]
  rfl

end Workshop

end Conform.Script
