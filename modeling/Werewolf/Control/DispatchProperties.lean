import Werewolf.Control.ConfigurationProperties
import Werewolf.Control.GovernanceProperties
import Werewolf.Control.MutationProperties
import Werewolf.Control.WriteProperties

/-! A command goes through no transitions but those it is permitted. So whatever
transitions, inbound sessions and starts preserve holds after every run. -/

namespace Werewolf.Control
open Library Procedure Governance Policy
open State hiding name
open Storage hiding name
open Relation (ReflTransGen)

variable {permit : Liberty → Prop} {host : Host} {environments : Nat → Environment}
  {system : System} {command : Command}

/-- The command may save the whole protected state, with the lock of the gate as
the Silver bit, for the sake of something else. -/
def Command.recommits : Command → Bool
  | .packAdd .. | .packSetAddress .. | .packRevoke .. | .packRemove .. => true
  | .targetPolicySet .. | .targetAllow .. | .targetRemove .. => true
  | .fangProfileAdd .. | .fangProfileRemove .. => true
  | .fangOpenProfile .. | .fangDeactivateProfile .. | .fangClose .. => true
  | .governanceApply .. | .governanceSyncApply .. => true
  | _ => false

structure Permits (permit : Liberty → Prop) (host : Host) (environments : Nat → Environment)
    (system : System) (command : Command) : Prop where
  fares : ∀ index, (environments index).Fares permit
  trigger : command = .silverTrigger → permit .fences
  reset : command = .silverReset → permit .opens ∧ permit .releases ∧
    (Superseded host system.node → permit .supersedes)
  retire : ∀ confirm, command = .denRetire confirm → permit .revives ∧
    (Reinstates host (environments 0) system.node confirm → permit .opens)
  recommits : command.recommits = true → permit .recommits
  statements : system.node.dying = false → system.node.storageDegraded = false →
    EachStatement host (Tolerates permit host) environments system command

structure Serving (system : System) : Prop where
  running : system.running = true
  untouched : system.indeterminate = false
  ready : Ready system

theorem Serving.absent (serving : Serving system) (alive : system.node.dying = false) :
    system.den tombstoneFile = none := by
  cases found : system.den tombstoneFile with
  | none => rfl
  | some data =>
    have dying := serving.ready (by rw [found]; rfl)
    exact absurd (alive.symm.trans dying) (by decide)

theorem carryOut_follows (serving : Serving system) (alive : system.node.dying = false)
    (permits : Permits permit host environments system command)
    (healthy : command.mutates = true → system.node.storageDegraded = false) :
    Traces (Transition permit host) system (carryOut host environments system.node command) := by
  have fares := permits.fares 0
  cases command with
  | silverTrigger => exact silverTrigger_follows fares alive (permits.trigger rfl)
  | silverReset =>
    obtain ⟨opens, releases, supersedes⟩ := permits.reset rfl
    exact silverReset_follows fares alive opens releases supersedes
  | peltInit => exact peltInit_follows fares
  | denRetire confirm =>
    obtain ⟨revives, opens⟩ := permits.retire confirm rfl
    exact retire_follows fares serving.untouched (serving.absent alive) revives opens
  | manifestMigrate => exact manifestMigrate_follows fares alive
  | packAdd => exact packAdd_follows fares alive (permits.recommits rfl) _ _ _ _
  | packSetAddress => exact packSetAddress_follows fares alive (permits.recommits rfl) _ _
  | packRevoke => exact takeOut_follows fares alive (permits.recommits rfl) _ _
  | packRemove => exact takeOut_follows fares alive (permits.recommits rfl) _ _
  | targetPolicySet => exact targetPolicySet_follows fares alive (permits.recommits rfl) _
  | targetAllow => exact targetAllow_follows fares alive (permits.recommits rfl) _ _
  | targetRemove => exact targetRemove_follows fares alive (permits.recommits rfl) _ _
  | fangProfileAdd => exact fangProfileAdd_follows fares alive (permits.recommits rfl) _
  | fangProfileRemove => exact fangProfileRemove_follows fares alive (permits.recommits rfl) _
  | fangOpenProfile => exact fangOpenProfile_follows fares alive (permits.recommits rfl) _
  | fangDeactivateProfile =>
    exact fangDeactivateProfile_follows fares alive (permits.recommits rfl) _
  | fangOpen => exact fangOpen_follows fares alive _ _ _
  | fangClose => exact fangClose_follows fares alive (permits.recommits rfl) _
  | fangCleanup => exact fangCleanup_follows
  | fangList => exact fangCleanup_follows
  | serviceAdd =>
    exact persistServices_follows fares (fun _ added => serviceAdd_valid added) _
  | serviceRemove =>
    exact persistServices_follows fares (fun _ removed => serviceRemove_valid removed) _
  | servicePublish =>
    exact persistPublished_follows fares (fun _ published => servicePublish_valid published) _
  | serviceUnpublish =>
    exact persistPublished_follows fares (fun _ removed => serviceUnpublish_valid removed) _
  | serviceProviderAdd =>
    exact persistServices_follows fares (fun _ added => serviceProviderAdd_valid added) _
  | serviceProviderRemove =>
    exact persistServices_follows fares (fun _ removed => serviceProviderRemove_valid removed) _
  | serviceConnect => exact serviceConnect_follows fares alive _ _
  | routeSet => exact persistRoutes_follows fares (fun _ set => routeSet_valid set) _
  | routeRemove => exact persistRoutes_follows fares (fun _ removed => routeRemove_valid removed) _
  | discoverAdvertise => exact discoverAdvertise_follows fares _
  | discoverNetwork => exact discoverNetwork_follows fares
  | governanceAutoSync => exact governanceAutoSync_follows fares _
  | governanceApply =>
    have healthy := healthy rfl
    exact governanceApply_follows fares
      ⟨fun dying => absurd (alive.symm.trans dying) (by decide), healthy, fun _ => serving.running⟩
      (permits.recommits rfl) (permits.statements alive healthy)
  | governanceSyncApply =>
    have healthy := healthy rfl
    exact governanceSyncApply_follows permits.fares
      ⟨fun dying => absurd (alive.symm.trans dying) (by decide), healthy, fun _ => serving.running⟩
      (permits.recommits rfl) (permits.statements alive healthy) _

theorem dispatch_carried (host : Host) (environments : Nat → Environment) (alive : system.node.dying = false)
    (healthy : command.mutates = true → system.node.storageDegraded = false) :
    execute (dispatch host environments command) system =
      execute (carryOut host environments system.node command) system := by
  have accepted : (command.mutates && system.node.storageDegraded) = false := by
    cases mutates : command.mutates with
    | false => rfl
    | true => exact healthy mutates
  simp only [dispatch, live, execute_bind, execute_alter, alive, accepted]
  rfl

theorem dispatch_cases (host : Host) (environments : Nat → Environment) (command : Command) (system : System) :
    (∃ code, execute (dispatch host environments command) system = (.error code, system)) ∨
      (system.node.dying = false ∧ (command.mutates = true → system.node.storageDegraded = false) ∧
        execute (dispatch host environments command) system =
          execute (carryOut host environments system.node command) system) := by
  cases dying : system.node.dying with
  | true => exact .inl ⟨.lifecycleDying, by
      simp only [dispatch, live, execute_bind, execute_alter, dying]; rfl⟩
  | false =>
    cases refused : (command.mutates && system.node.storageDegraded) with
    | true => exact .inl ⟨.storageDegraded, by
        simp only [dispatch, live, execute_bind, execute_alter, dying, refused]; rfl⟩
    | false =>
      have healthy (mutates : command.mutates = true) :
          system.node.storageDegraded = false := by simpa [mutates] using refused
      exact .inr ⟨rfl, healthy, dispatch_carried host environments dying healthy⟩

theorem dispatch_follows (serving : Serving system) (permits : Permits permit host environments system command) :
    Traces (Transition permit host) system (dispatch host environments command) := by
  refine follows_live (follows_check (fun alive => follows_check (fun accepted => ?_)))
  simp only [Bool.not_eq_true', Bool.and_eq_false_iff] at alive accepted
  exact carryOut_follows serving alive permits (fun mutates =>
    accepted.resolve_left (fun reads => absurd (mutates.symm.trans reads) (by decide)))

section Serving

variable {weaker stronger holds : Environment → System → Statement → Option Hash → Prop}

theorem serve_invariant (invariant : System → Prop) (running : system.running = true)
    (ready : Ready system) (permits : Permits permit host environments system.fresh command)
    (preserved : ∀ before after, Transition permit host before after → invariant before →
      invariant after) (holds : invariant system.fresh) :
    invariant (serve host command environments system).2 := by
  have serving : Serving system.fresh := ⟨running, rfl, ready⟩
  exact invariant_of_steps invariant preserved (dispatch_follows serving permits).1 holds

theorem alongSync_of_invariant (invariant : System → Prop) (recommits : permit .recommits)
    (preserved : ∀ before after, Transition permit host before after → invariant before → invariant after) :
    ∀ (statements : List Statement) (environments : Nat → Environment) (system : System),
      (∀ index, (environments index).Fares permit) → Governable system →
      (∀ statement ∈ statements, Encodable statement) → invariant system →
      AlongSync host (fun environment system statement pin => invariant system →
        Tolerates permit host environment system statement pin) environments statements system →
      AlongSync host (Tolerates permit host) environments statements system
  | [], _, _, _, _, _, _, _ => trivial
  | statement :: rest, environments, system, fares, governable, encodable, holds, along => by
    refine ⟨along.1 holds, fun status next applied => ?_⟩
    have follows := applyStatement_follows (fares 0) governable recommits
      (encodable statement List.mem_cons_self) (along.1 holds)
    rw [Procedure.Follows, applied] at follows
    exact alongSync_of_invariant invariant recommits preserved rest _ next
      (fun index => fares (index + 1)) (follows.2 status rfl)
      (fun other member => encodable other (List.mem_cons_of_mem _ member))
      (invariant_of_steps invariant preserved follows.1 holds) (along.2 status next applied)

theorem EachStatement.of_invariant (invariant : System → Prop) (fares : ∀ index, (environments index).Fares permit)
    (recommits : command.recommits = true → permit .recommits) (governable : Governable system)
    (preserved : ∀ before after, Transition permit host before after → invariant before →
      invariant after) (holds : invariant system)
    (each : EachStatement host (fun environment system statement pin => invariant system →
      Tolerates permit host environment system statement pin) environments system command) :
    EachStatement host (Tolerates permit host) environments system command := by
  cases command with
  | governanceApply => exact fun statement decoded => each statement decoded holds
  | governanceSyncApply =>
    intro decoded read
    refine alongSync_of_invariant invariant (recommits rfl) preserved decoded environments system
      fares governable (fun statement member => ?_) holds (each decoded read)
    obtain ⟨_, _, bytes⟩ := mem_of_mapM read member
    exact .of_toOption bytes
  | _ => trivial

def anything (_ : Liberty) : Prop := True

theorem tolerates_anything (host : Host) (environment : Environment) (system : System)
    (statement : Statement) (pin : Option Hash) :
    Tolerates anything host environment system statement pin :=
  fun _ _ => ⟨fun _ => trivial, fun _ => .inr trivial, fun _ _ => trivial⟩

theorem Governable.next {environment : Environment} {statement : Statement} {status : Status}
    {next : System} (governable : Governable system) (encodable : Encodable statement)
    (applied : execute (applyStatement host environment statement none) system =
      (.ok status, next)) : Governable next := by
  have follows := applyStatement_follows ⟨fun _ => trivial, trivial, fun _ => trivial, trivial,
    trivial⟩ governable trivial encodable (tolerates_anything host environment system statement none)
  rw [Procedure.Follows, applied] at follows
  exact follows.2 status rfl

theorem alongSync_mono (implies : ∀ environment system statement pin,
      stronger environment system statement pin → weaker environment system statement pin) :
    ∀ (statements : List Statement) (environments : Nat → Environment) (system : System),
      AlongSync host stronger environments statements system →
      AlongSync host weaker environments statements system
  | [], _, _, _ => trivial
  | _ :: rest, _, _, ⟨first, later⟩ =>
    ⟨implies _ _ _ _ first, fun status next applied =>
      alongSync_mono implies rest _ next (later status next applied)⟩

theorem EachStatement.mono (implies : ∀ environment system statement pin,
      stronger environment system statement pin → weaker environment system statement pin)
    (each : EachStatement host stronger environments system command) :
    EachStatement host weaker environments system command := by
  cases command with
  | governanceApply bytes pin =>
    exact fun statement decoded => implies _ _ _ _ (each statement decoded)
  | governanceSyncApply statements conflict =>
    exact fun decoded read => alongSync_mono implies decoded _ _ (each decoded read)
  | _ => trivial

theorem alongSync_of_forall (always : ∀ environment system statement pin, holds environment system statement pin) :
    ∀ (statements : List Statement) (environments : Nat → Environment) (system : System),
      AlongSync host holds environments statements system
  | [], _, _ => trivial
  | _ :: rest, _, _ =>
    ⟨always _ _ _ _, fun _ next _ => alongSync_of_forall always rest _ next⟩

theorem EachStatement.of_forall
    (always : ∀ environment system statement pin, holds environment system statement pin) :
    EachStatement host holds environments system command := by
  cases command with
  | governanceApply => exact fun _ _ => always _ _ _ _
  | governanceSyncApply => exact fun decoded _ => alongSync_of_forall always decoded _ _
  | _ => trivial

theorem permits_anything : Permits anything host environments system command where
  fares _ := ⟨fun _ => trivial, trivial, fun _ => trivial, trivial, trivial⟩
  trigger _ := trivial
  reset _ := ⟨trivial, trivial, fun _ => trivial⟩
  retire _ _ := ⟨trivial, fun _ => trivial⟩
  recommits _ := trivial
  statements _ _ := .of_forall (tolerates_anything host)

end Serving

section Running

theorem start_some {environment : Environment} {den after : Den} {node : Node}
    (started : start host environment den = (some node, after)) :
    after = den ∧ den tombstoneFile = none ∧ loadStartupState host den = some node ∧
      ∀ head, node.governance = some head → head.deadAt = none := by
  unfold start at started
  split at started
  · cases started
  · rename_i absent
    split at started
    · cases started
    · rename_i loaded found
      split at started
      · rename_i ungoverned
        cases started
        refine ⟨rfl, absent, found, fun head governed => ?_⟩
        cases ungoverned.symm.trans governed
      · rename_i head governed
        split at started
        · cases started
        · rename_i living
          cases started
          refine ⟨rfl, absent, found, fun other same => ?_⟩
          cases governed.symm.trans same
          simpa using living

def Untouched (before after : Den) : Prop :=
  after = before ∨ (after tombstoneFile).isSome

theorem bury_den (environment : Environment) (tombstone : Tombstone) (den : Den) :
    Untouched den (bury host environment tombstone den) := by
  unfold bury
  split
  · exact .inl rfl
  · rename_i data _
    dsimp only
    by_cases visible : (replace ⟨tombstoneFile, data⟩ environment.tombstone).1 = true
    · have present : (replaced den ⟨tombstoneFile, data⟩ environment.tombstone
          tombstoneFile).isSome := by simp [replaced, visible, Den.apply]
      split
      · exact .inr (finish_tombstone present)
      · exact .inr present
    · have failed : (replace ⟨tombstoneFile, data⟩ environment.tombstone).2 ≠ none :=
        fun durable => visible ((replace_spec _ _).1 durable)
      rw [if_neg failed]
      exact .inl (by simp [replaced, visible])

theorem start_den (environment : Environment) (den : Den) : Untouched den (start host environment den).2 := by
  unfold start
  split
  · rename_i data present
    have present : (den tombstoneFile).isSome := by rw [present]; rfl
    dsimp only [atStartup]
    split
    · exact .inl rfl
    · split
      · exact .inl rfl
      · split
        · exact .inr (finish_tombstone present)
        · split
          · exact .inl rfl
          · exact bury_den _ _ _
  · split
    · exact .inl rfl
    · split
      · exact .inl rfl
      · split
        · unfold deadHeadAtStartup
          split
          · exact .inl rfl
          · exact bury_den _ _ _
        · exact .inl rfl

theorem Inbound.onGate_locked (operation : Inbound) (gate : Authority.Gate) :
    (operation.onGate gate).locked = gate.locked := by
  cases operation with
  | connection =>
    simp only [Inbound.onGate]
    cases result : gate.allocate with
    | none => rfl
    | some issued =>
      obtain ⟨_, _, same, _⟩ := Authority.Gate.allocate_some result
      simp [same]
  | ticket sender =>
    simp only [Inbound.onGate]
    cases result : gate.ticket sender with
    | none => rfl
    | some issued => exact Authority.Gate.ticket_locked result
  | reserve issued transport =>
    simp only [Inbound.onGate]
    cases result : gate.reserve issued transport with
    | none => rfl
    | some reserved => exact Authority.Gate.reserve_locked result
  | publish lease =>
    simp only [Inbound.onGate]
    cases result : gate.publish lease with
    | none => rfl
    | some published => exact Authority.Gate.publish_locked result
  | release lease => rfl

theorem transition_inbound (operation : Inbound) (system : System) : Transition permit host system
      { system with node := { system.node with gate := operation.onGate system.node.gate } } :=
  transition_calm ⟨operation.onGate_locked _, rfl⟩

section Rules

variable (invariant : System → Prop) {event : Event}
  (permits : ∀ command environments, event = .command command environments →
    system.running = true → Permits permit host environments system.fresh command)
  (preserved : ∀ before after, Transition permit host before after → invariant before →
    invariant after)
  (fresh : invariant system → invariant system.fresh)
  (started : ∀ environment node, event = .restart environment →
    loadStartupState host system.den = some node → system.den tombstoneFile = none →
    (∀ head, node.governance = some head → head.deadAt = none) →
    invariant ⟨node, system.den, true, false⟩)

include permits preserved fresh started

theorem step_preserves (unstarted : ∀ environment, event = .restart environment →
      (start host environment system.den).1 = none →
      invariant ⟨system.node, (start host environment system.den).2, false, false⟩)
    (ready : system.running = true → Ready system) (holds : invariant system) :
    invariant (step host system event) := by
  cases event with
  | command command environments =>
    simp only [step]
    split
    · rename_i running
      exact serve_invariant invariant running (ready running)
        (permits command environments rfl running) preserved (fresh holds)
    · exact holds
  | inbound operation =>
    simp only [step]
    split
    · exact preserved _ _ (transition_inbound operation system) holds
    · exact holds
  | restart environment =>
    have failed := unstarted environment rfl
    simp only [step]
    cases result : start host environment system.den with
    | mk node den =>
      rw [result] at failed
      cases node with
      | none => exact failed rfl
      | some node =>
        obtain ⟨rfl, absent, loaded, living⟩ := start_some result
        exact started environment node rfl loaded absent living

/-- The rule for runs: an invariant of running systems that transitions preserve
and starts establish. What is left of a stopped system says nothing. -/
theorem step_invariant (ready : system.running = true → Ready system)
    (holds : system.running = true → invariant system) :
    (step host system event).running = true → invariant (step host system event) := by
  cases event with
  | command command environments =>
    intro running
    simp only [step] at running ⊢
    split at running
    · rename_i before
      rw [if_pos before]
      exact serve_invariant invariant before (ready before) (permits command environments rfl before)
        preserved (fresh (holds before))
    · rename_i before
      exact absurd running before
  | inbound operation =>
    intro running
    simp only [step] at running ⊢
    split at running
    · rename_i before
      rw [if_pos before]
      exact preserved _ _ (transition_inbound operation system) (holds before)
    · rename_i before
      exact absurd running before
  | restart environment =>
    intro running
    simp only [step] at running ⊢
    cases result : start host environment system.den with
    | mk node den =>
      rw [result] at running
      cases node with
      | none => cases running
      | some node =>
        obtain ⟨rfl, absent, loaded, living⟩ := start_some result
        exact started environment node rfl loaded absent living

end Rules

theorem ready_step (event : Event) (ready : system.running = true → Ready system) :
    (step host system event).running = true → Ready (step host system event) :=
  step_invariant Ready (fun _ _ _ _ => permits_anything) (fun _ _ transition => transition.ready) id
    (fun _ _ _ _ absent _ present => by simp [absent] at present) ready ready

def Reachable (host : Host) (system : System) : Prop :=
  ∃ first events, first.running = false ∧ run (step host) first events = system

theorem Reachable.run (reachable : Reachable host system) (events : List Event) :
    Reachable host (run (step host) system events) := by
  obtain ⟨first, before, stopped, rfl⟩ := reachable
  exact ⟨first, before ++ events, stopped, run_append _ _ _ _⟩

theorem Reachable.step (reachable : Reachable host system) (event : Event) :
    Reachable host (step host system event) := reachable.run [event]

theorem Reachable.of_restart (stopped : system.running = false) (environment : Environment) :
    Reachable host (Control.step host system (.restart environment)) :=
  ⟨system, [.restart environment], stopped, rfl⟩

theorem Reachable.invariant (invariant : System → Prop)
    (preserved : ∀ system event, invariant system → invariant (Control.step host system event))
    (stopped : ∀ system, system.running = false → invariant system)
    (reachable : Reachable host system) : invariant system := by
  obtain ⟨first, events, off, rfl⟩ := reachable
  exact run_invariant invariant preserved (stopped first off) events

theorem Reachable.ready (reachable : Reachable host system) : system.running = true → Ready system :=
  reachable.invariant (fun system => system.running = true → Ready system)
    (fun _ event ready => ready_step event ready)
    (fun _ off running => absurd (off.symm.trans running) (by decide))

end Running

end Werewolf.Control
