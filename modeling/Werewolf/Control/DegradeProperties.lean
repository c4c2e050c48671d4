import Werewolf.Control.DispatchProperties
import Werewolf.Control.SampleHost

/-! Indeterminate writes. All but one kind end the administration of the node:
that of an archived statement is taken for a write that failed. -/

namespace Werewolf.Control
open Library Procedure Governance Policy
open State hiding name
open Storage hiding name

variable {permit : Liberty → Prop} {host : Host} {environment : Environment}
  {environments : Nat → Environment} {system before after : System} {command : Command}

section Noticing

def Ended (node : Node) : Prop := node.storageDegraded = true ∨ node.dying = true

def Noticed (system : System) : Prop := system.indeterminate = true → Ended system.node

theorem Settles.noticed {publish : Node → Node} {den : Den} {ended : Option Storage.Outcome}
    (settles : Settles publish before den ended after) (noticed : Noticed before)
    (published : Ended before.node → Ended (publish before.node)) : Noticed after := by
  cases settles with
  | durable => exact fun unsure => published (noticed unsure)
  | unsure => exact fun _ => .inl rfl
  | refused => exact noticed
  | stopped => exact noticed

theorem Transition.noticed (transition : Transition permit host before after)
    (archives : ¬ permit .losesArchive) (noticed : Noticed before) : Noticed after := by
  have degrades := transition.moved.degrades
  cases transition with
  | moves moved retains revives =>
    intro unsure
    rcases noticed unsure with degraded | dying
    · exact .inl (degrades degraded)
    · rcases revives dying with still | ⟨_, untouched, _⟩
      · exact .inr still
      · exact absurd (untouched.symm.trans unsure) (by decide)
  | stored fares moved same =>
    rcases store_cases before _ _ _ with kept | settles
    · rw [kept]
      exact noticed
    · refine settles.noticed noticed (fun ended => ?_)
      exact ended.imp moved.degrades same.trans
  | committed fares alive selected moved =>
    rcases commitProtected_cases host before _ _ _ _ with kept | settles
    · rw [kept]
      exact noticed
    · refine settles.noticed noticed (fun ended => ?_)
      exact ended.imp (moved _).degrades (fun dying => absurd (alive.1.symm.trans dying) (by decide))
  | archived fares alive applied unnoticed =>
    rcases replaceFile_cases before _ _ with kept | noted
    · rw [kept]
      exact noticed
    · rw [noted]
      intro unsure
      simp only [System.note, Bool.or_eq_true, decide_eq_true_eq] at unsure
      rcases unsure with unsure | lost
      · exact noticed unsure
      · exact absurd (unnoticed lost) archives
  | entombed fares dying =>
    rcases replaceFile_cases before _ _ with kept | noted
    · rw [kept]
      exact noticed
    · rw [noted]
      exact fun _ => .inr dying
  | destroyed fares dying =>
    intro _
    rw [finish_node]
    exact .inr dying
  | migrated =>
    rcases migrate_settles host before _ with kept | settles
    · rw [kept]
      exact noticed
    · exact settles.noticed noticed id

def attentive : Liberty → Prop
  | .losesArchive => False
  | _ => True

def KeepsArchives (host : Host) (environments : Nat → Environment) (system : System) (command : Command) : Prop :=
  EachStatement host (fun environment system statement pin => ∀ next,
    Applies host system statement pin next → ¬ LosesArchive environment statement next)
    environments system command

theorem permits_attentive (keeps : system.node.dying = false →
    system.node.storageDegraded = false → KeepsArchives host environments system command) :
    Permits attentive host environments system command where
  fares _ := ⟨fun _ => trivial, trivial, fun _ => trivial, trivial, trivial⟩
  trigger _ := trivial
  reset _ := ⟨trivial, trivial, fun _ => trivial⟩
  retire _ _ := ⟨trivial, fun _ => trivial⟩
  recommits _ := trivial
  statements alive healthy := (keeps alive healthy).mono (fun _ _ _ _ kept next applies =>
    ⟨kept next applies, fun _ => .inr trivial, fun _ _ => trivial⟩)

end Noticing

section Losing

theorem enact_lost {statement : Statement} {next : Head} (running : system.running = true)
    (lost : LosesArchive environment statement next) (host : Host) (node : Node) (generation : UInt64) :
    ∃ den, execute (enact host environment statement node generation next) system =
      (.error .governanceSaveFailed, { system with den := den, indeterminate := true }) := by
  have lost : (replace ⟨governanceArchiveName next.sequence, statement.encode⟩
      environment.archive).2 = some (.reported .indeterminateAfterRename) := lost
  have archived : system.replaceFile ⟨governanceArchiveName next.sequence, statement.encode⟩
      environment.archive = (some (.reported .indeterminateAfterRename), { system with
        den := replaced system.den ⟨governanceArchiveName next.sequence, statement.encode⟩ environment.archive
        indeterminate := true }) := by
    simp [System.replaceFile, running, lost, System.written, System.note]
  refine ⟨replaced system.den ⟨governanceArchiveName next.sequence, statement.encode⟩ environment.archive, ?_⟩
  simp only [enact, replaceFile, execute_bind, execute_alter, archived]
  rfl

theorem applyStatement_lost {statement : Statement} {pin : Option Hash} {next : Head}
    (running : system.running = true) (applies : Applies host system statement pin next)
    (lost : LosesArchive environment statement next) :
    ∃ den, execute (applyStatement host environment statement pin) system =
      (.error .governanceSaveFailed, { system with den := den, indeterminate := true }) := by
  obtain ⟨selected, applied⟩ := applies
  obtain ⟨generation, selected⟩ := Option.isSome_iff_exists.mp selected
  obtain ⟨den, result⟩ := enact_lost running lost host system.node generation
  refine ⟨den, ?_⟩
  rw [← result]
  simp only [applyStatement, live, execute_bind, execute_alter, selected, Procedure.expect, execute_pure, applied]

theorem applyAll_keeps : ∀ (statements : List Statement) (environments : Nat → Environment) (system : System),
      Governable system → (∀ statement ∈ statements, Encodable statement) →
      (∀ code last, execute (applyAll host environments statements) system =
        (.ok (some code), last) → last.running = true → Noticed last) →
      AlongSync host (fun environment system statement pin => ∀ next,
        Applies host system statement pin next → ¬ LosesArchive environment statement next)
        environments statements system
  | [], _, _, _, _, _ => trivial
  | statement :: rest, environments, system, governable, encodable, noticed => by
    refine ⟨fun next applies lost => ?_, fun status next applied => ?_⟩
    · have alive := governable.alive (fun _ governed => alive_of_applied applies.2 governed)
      obtain ⟨den, stopped⟩ := applyStatement_lost (governable.runs alive) applies lost
      have result : execute (applyAll host environments (statement :: rest)) system =
          (.ok (some .governanceSaveFailed), { system with den := den, indeterminate := true }) := by
        simp only [applyAll, attempt, execute_bind, execute_alter, stopped, execute_pure]
      rcases noticed _ _ result (governable.runs alive) rfl with degraded | dying
      · exact absurd (governable.healthy.symm.trans degraded) (by decide)
      · exact absurd (alive.symm.trans dying) (by decide)
    · refine applyAll_keeps rest _ next (governable.next (encodable statement List.mem_cons_self) applied)
        (fun other member => encodable other (List.mem_cons_of_mem _ member))
        (fun code last result => noticed code last ?_)
      simp only [applyAll, attempt, execute_bind, execute_alter, applied]
      exact result

theorem keepsArchives_of_noticed (running : system.running = true)
    (alive : system.node.dying = false) (healthy : system.node.storageDegraded = false)
    (noticed : (execute (carryOut host environments system.node command) system).2.running = true →
      Noticed (execute (carryOut host environments system.node command) system).2) :
    KeepsArchives host environments system command := by
  have governable : Governable system :=
    ⟨fun dying => absurd (alive.symm.trans dying) (by decide), healthy, fun _ => running⟩
  cases command with
  | governanceApply bytes pin =>
    intro statement decoded next applies lost
    obtain ⟨den, result⟩ := applyStatement_lost running applies lost
    simp only [carryOut, governanceApply, decoded, Procedure.expect, execute_bind, execute_pure, result] at noticed
    rcases noticed running rfl with degraded | dying
    · exact absurd (healthy.symm.trans degraded) (by decide)
    · exact absurd (alive.symm.trans dying) (by decide)
  | governanceSyncApply statements conflict =>
    intro decoded read
    refine applyAll_keeps decoded environments system governable (fun statement member => ?_)
      (fun code last result => ?_)
    · obtain ⟨_, _, bytes⟩ := mem_of_mapM read member
      exact .of_toOption bytes
    · simp only [carryOut, governanceSyncApply, read, Procedure.expect, execute_bind, execute_pure, result] at noticed
      exact noticed
  | _ => trivial

end Losing

section Replying

theorem ended_refuses (ended : Ended system.node) (mutates : command.mutates = true) :
    ∃ code, serve host command environments system = (.error code, system.fresh) := by
  rcases dispatch_cases host environments command system.fresh with
    refused | ⟨alive, healthy, _⟩
  · exact refused
  · rcases ended with degraded | dying
    · exact absurd ((healthy mutates).symm.trans degraded) (by decide)
    · exact absurd (alive.symm.trans dying) (by decide)

def Event.restarts : Event → Bool
  | .restart _ => true
  | _ => false

/-- Until the next restart every command that mutates is refused. -/
def Refuses (host : Host) (system : System) : Prop :=
  ∀ events : List Event, (∀ event ∈ events, event.restarts = false) → ∀ command environments, command.mutates = true →
      ∃ code, serve host command environments (run (step host) system events) =
        (.error code, (run (step host) system events).fresh)

theorem ended_step {event : Event} (ready : system.running = true → Ready system)
    (stays : event.restarts = false) (ended : Ended system.node) :
    Ended (step host system event).node := by
  cases event with
  | restart => cases stays
  | inbound operation =>
    simp only [step]
    split
    · exact ended
    · exact ended
  | command command environments =>
    simp only [step]
    split
    · rename_i running
      rcases dispatch_cases host environments command system.fresh with
        ⟨code, refused⟩ | ⟨alive, _, _⟩
      · rw [serve, refused]
        exact ended
      · -- Of a node that is not dying, the degradation outlives every transition.
        have degraded := ended.resolve_right (fun dying =>
          absurd (alive.symm.trans dying) (by decide))
        exact .inl (serve_invariant (fun system => system.node.storageDegraded = true) running
          (ready running) permits_anything
          (fun _ _ transition degraded => transition.moved.degrades degraded) degraded)
    · exact ended

theorem Ended.refuses (reachable : Reachable host system) (ended : Ended system.node) : Refuses host system := by
  intro events stays command environments mutates
  refine ended_refuses ?_ mutates
  refine (run_invariant_of_steps (fun system => (system.running = true → Ready system) ∧
    Ended system.node) (fun _ event => event.restarts = false) ?_ ⟨reachable.ready, ended⟩ events
    (fun before event after split => stays event (by simp [split]))).2
  exact fun state event holds stays => ⟨ready_step event holds.1, ended_step holds.1 stays holds.2⟩

/-- A command after whose indeterminate write the node is neither degraded nor
dying is one that lost the archive of a statement, and every such command does
that. -/
theorem indeterminate_ends_administration_iff (host : Host) (system : System) (reachable : Reachable host system)
    (running : system.running = true) (environments : Nat → Environment) (command : Command) :
    (let after := (serve host command environments system).2
     after.running = true → after.indeterminate = true →
       (after.node.storageDegraded = true ∨ after.node.dying = true) ∧ Refuses host after) ↔
      system.node.dying = true ∨ system.node.storageDegraded = true ∨
        KeepsArchives host environments system.fresh command := by
  dsimp only
  constructor
  · intro noticed
    cases dying : system.node.dying with
    | true => exact .inl rfl
    | false =>
        cases degraded : system.node.storageDegraded with
        | true => exact .inr (.inl rfl)
        | false =>
            have carried : serve host command environments system =
                execute (carryOut host environments system.node command) system.fresh :=
              dispatch_carried host environments dying (fun _ => degraded)
            rw [carried] at noticed
            exact .inr (.inr (keepsArchives_of_noticed running dying degraded
              (fun continues unsure => (noticed continues unsure).1)))
  · intro keeps continues unsure
    have noticed : Noticed (serve host command environments system).2 :=
      serve_invariant Noticed running (reachable.ready running) (permits_attentive (fun alive healthy => by
          rcases keeps with dying | degraded | keeps
          · exact absurd (alive.symm.trans dying) (by decide)
          · exact absurd (healthy.symm.trans degraded) (by decide)
          · exact keeps))
        (fun _ _ transition => transition.noticed id) (fun unsure => (by cases unsure))
    have after : step host system (.command command environments) =
        (serve host command environments system).2 := if_pos running
    exact ⟨noticed unsure, (noticed unsure).refuses (after ▸ reachable.step _)⟩

namespace Sample

def unsure (_ : Nat) : Environment :=
  { Sample.environment with
    documents := fun _ => .indeterminateAfterRename true
    archive := .indeterminateAfterRename true
    protectedState := fun _ => .indeterminateAfterRename true }

def migrated : System := step Sample.host started (smoothly .manifestMigrate)

theorem migrated_reachable : Reachable Sample.host migrated :=
  (Reachable.of_restart rfl Sample.environment).step _

def genesis : Statement := Governance.Sample.signedWith 0 Governance.Sample.genesis

def found : Command :=
  .governanceApply genesis.encode (some (genesis.core.hash Sample.host.toCrypto))

end Sample

open Sample

/-- A switch whose file may or may not be there degrades the node. -/
theorem unsure_switch_ends_administration :
    (serve Sample.host (.governanceAutoSync "off") Sample.unsure Sample.started).2.indeterminate =
        true ∧
      ((serve Sample.host (.governanceAutoSync "off") Sample.unsure
          Sample.started).2.node.storageDegraded = true ∨
        (serve Sample.host (.governanceAutoSync "off") Sample.unsure
          Sample.started).2.node.dying = true) := by
  have unsure : (serve Sample.host (.governanceAutoSync "off") Sample.unsure
      Sample.started).2.indeterminate = true := by decide +kernel
  exact ⟨unsure, ((indeterminate_ends_administration_iff Sample.host Sample.started
    (.of_restart rfl Sample.environment) (by decide +kernel) Sample.unsure
    (.governanceAutoSync "off")).mpr (.inr (.inr trivial)) (by decide +kernel) unsure).1⟩

/-- A genesis whose archive may or may not be there is refused, and the node goes
on taking commands. -/
theorem lost_archive_goes_unnoticed : Reachable Sample.host migrated ∧ migrated.running = true ∧
      (let result := serve Sample.host found unsure migrated
       result.1 = .error .governanceSaveFailed ∧ result.2.running = true ∧
         result.2.indeterminate = true ∧ result.2.node.storageDegraded = false ∧
         result.2.node.dying = false) :=
  ⟨migrated_reachable, by decide +kernel⟩

end Replying

end Werewolf.Control
