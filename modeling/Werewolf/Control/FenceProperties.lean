import Werewolf.Authority.SessionProperties
import Werewolf.Control.DispatchProperties
import Werewolf.Control.SampleHost
import Werewolf.Transport.AuthenticationProperties

/-! The gate of a node that Silver, the network or its end bars: it is locked in
every reachable state. And the lock of a trigger: who else opens the gate. A reset
also opens a gate that was open. -/

namespace Werewolf.Control
open Library Procedure Governance Policy
open State hiding name
open Storage hiding name
open Authority (Gate)
open Transport (Daemon Admission Suite Surroundings TcpRpc QuicRpc answerTcp answerQuic
  answerTcp_some answerQuic_some)

variable {permit : Liberty → Prop} {host : Host} {system : System}

section Barred

def Barred (external : External) (node : Node) : Prop :=
  node.silver = .active ∨ node.unadmitted external = true ∨ node.dying = true

def Node.daemon (node : Node) (admission : Admission) : Daemon :=
  ⟨node.pelt, node.peers, node.gate, admission⟩

theorem Moves.barred {external : External} {before after : Node} (moves : Moves permit external before after)
    (locked : Barred external before → before.gate.locked = true)
    (barred : Barred external after) : after.gate.locked = true := by
  -- A gate that is open now was open before, or opened for a node that nothing bars.
  by_contra unlocked
  have unlocked : after.gate.locked = false := Bool.eq_false_iff.mpr unlocked
  have free : ¬ Barred external before := by
    intro bars
    rcases moves.opens unlocked with was | ⟨_, silver, admitted, alive⟩
    · exact absurd (was.symm.trans (locked bars)) (by decide)
    · rcases barred with active | unadmitted | dying
      · exact silver active
      · exact absurd (admitted.symm.trans unadmitted) (by decide)
      · exact absurd (alive.symm.trans dying) (by decide)
  simp only [Barred, not_or] at free
  rcases barred with active | unadmitted | dying
  · exact (moves.triggers active).elim free.1 (fun lock => absurd (unlocked.symm.trans lock) (by decide))
  · exact (moves.excluded unadmitted).elim free.2.1 (fun lock => absurd (unlocked.symm.trans lock) (by decide))
  · exact (moves.dies dying).elim free.2.2 (fun lock => absurd (unlocked.symm.trans lock) (by decide))

theorem loadStartupState_some {den : Den} {node : Node} (loaded : loadStartupState host den = some node) :
    ∃ state, loadProtected host den = some (node.generation, state) ∧
      node.peers = state.peers ∧ node.targetPolicy = state.targetPolicy ∧
      node.governance = state.governance ∧
      node.gate = Gate.initial (startsLocked host state node.pelt) ∧
      node.silver = (if state.silverLocked then .active else .armed) ∧
      node.storageDegraded = false ∧ node.dying = false := by
  simp only [loadStartupState, bind_eq_some, return_eq_some] at loaded
  obtain ⟨⟨number, state⟩, found, _, _, _, _, _, _, _, _, _, _, _, _, pelt, _, _, _, rfl⟩ := loaded
  exact ⟨state, found, rfl, rfl, rfl, rfl, rfl, rfl, rfl⟩

theorem started_locked {den : Den} {node : Node} (loaded : loadStartupState host den = some node)
    (living : ∀ head, node.governance = some head → head.deadAt = none)
    (barred : Barred host.toExternal node) : node.gate.locked = true := by
  obtain ⟨state, _, _, _, governance, gate, silver, _, alive⟩ := loadStartupState_some loaded
  rw [gate]
  rcases barred with active | unadmitted | dying
  · rw [silver] at active
    split at active
    · rename_i locked
      simp [Gate.initial, startsLocked, locked]
    · cases active
  · cases governed : node.governance with
    | none => simp [Node.unadmitted, State.unadmitted, governed] at unadmitted
    | some head =>
      rw [Node.unadmitted, Node.ownKey, governance] at unadmitted
      have alive := living head governed
      simp only [Gate.initial, startsLocked, unadmitted, Bool.and_true]
      simp [← governance, governed, alive]
  · exact absurd (alive.symm.trans dying) (by decide)

theorem barred_locked (reachable : Reachable host system) :
    system.running = true → Barred host.toExternal system.node → system.node.gate.locked = true := by
  have holds := reachable.invariant (fun system => (system.running = true → Ready system) ∧
    (system.running = true → Barred host.toExternal system.node → system.node.gate.locked = true)) ?_ ?_
  · exact holds.2
  · intro system event ⟨ready, locked⟩
    refine ⟨ready_step event ready, ?_⟩
    exact step_invariant (fun system => Barred host.toExternal system.node →
        system.node.gate.locked = true) (fun _ _ _ _ => permits_anything)
      (fun _ _ transition locked => transition.moved.barred locked) id
      (fun _ _ _ loaded _ living => started_locked loaded living) ready locked
  · intro system off
    exact ⟨fun running => absurd (off.symm.trans running) (by decide),
      fun running => absurd (off.symm.trans running) (by decide)⟩

/-- In every reachable state a barred node is locked: it issues no ticket and
answers no RPC, on either transport. -/
theorem barred_node_serves_nobody (host : Host) (system : System) (reachable : Reachable host system)
    (running : system.running = true) (barred : system.node.silver = .active ∨
      system.node.unadmitted host.toExternal = true ∨ system.node.dying = true) :
    system.node.gate.locked = true ∧ (∀ sender, system.node.gate.ticket sender = none) ∧
      ∀ (suite : Suite) (admission : Admission) (around : Surroundings),
        (∀ message, answerTcp suite (system.node.daemon admission) around message = none) ∧
        ∀ message, answerQuic suite (system.node.daemon admission) around message = none := by
  have locked := barred_locked reachable running barred
  refine ⟨locked, fun sender => ?_, fun suite admission around =>
    ⟨fun message => ?_, fun message => ?_⟩⟩
  · simp [Gate.ticket, locked, Authority.require]
  · refine Option.eq_none_iff_forall_ne_some.mpr (fun request answered => ?_)
    obtain ⟨_, _, _, _, unlocked⟩ := answerTcp_some answered
    exact absurd (unlocked.symm.trans locked) (by decide)
  · refine Option.eq_none_iff_forall_ne_some.mpr (fun request answered => ?_)
    obtain ⟨_, _, _, _, _, unlocked⟩ := answerQuic_some answered
    exact absurd (unlocked.symm.trans locked) (by decide)

namespace Sample

def opened : System :=
  run (step Sample.host) started [smoothly .peltInit, smoothly .silverReset]

theorem opened_reachable : Reachable Sample.host opened :=
  (Reachable.of_restart rfl environment).run _

def silenced : System := step Sample.host opened (smoothly .silverTrigger)

end Sample

/-- An open node that is triggered issues no more tickets. -/
theorem triggered_node_serves_nobody :
    Sample.opened.node.gate.locked = false ∧ Sample.silenced.node.silver = .active ∧
      ∀ sender, Sample.silenced.node.gate.ticket sender = none := by
  have spec : Sample.opened.node.gate.locked = false ∧ Sample.silenced.node.silver = .active ∧
      Sample.silenced.running = true := by decide +kernel
  exact ⟨spec.1, spec.2.1, (barred_node_serves_nobody Sample.host Sample.silenced
    (Sample.opened_reachable.step _) spec.2.2 (.inl spec.2.1)).2.1⟩

end Barred

section Triggered

variable {environments : Nat → Environment}

private theorem settle_gate {ended : Option Storage.Outcome} {publish : Node → Node}
    (failed : (system.settle ended publish).1 = false) :
    (system.settle ended publish).2.node.gate = system.node.gate := by
  unfold System.settle at failed ⊢
  split at failed
  · cases failed
  · rfl
  · rfl

theorem persistSilver_execute (host : Host) (system : System) (environment : Environment)
    (locked : Bool) (publish : Node → Node) :
    ∃ saved next, execute (persistSilver host environment locked publish) system = (.ok saved, next) ∧
      (saved = true → ∃ number, next.node = publish { system.node with generation := number }) ∧
      (saved = false → next.node.gate = system.node.gate) := by
  cases selected : system.node.generation with
  | none =>
    have same : { system.node with generation := none } = system.node := by rw [← selected]
    refine ⟨_, _, by simp only [persistSilver, persistProtectedOrLegacy, live, store,
      execute_bind, execute_alter, selected]; rfl, fun saved => ⟨none, ?_⟩, fun failed => ?_⟩
    · rw [same]
      unfold System.store at saved ⊢
      split at saved
      · rename_i running
        rw [if_pos running, (settle_true saved).2]
        rfl
      · cases saved
    · unfold System.store at failed ⊢
      split at failed
      · rename_i running
        rw [if_pos running, settle_gate failed]
        rfl
      · rename_i stopped
        rw [if_neg stopped]
  | some generation =>
    refine ⟨_, _, by simp only [persistSilver, persistProtectedOrLegacy, live, commitProtected,
      execute_bind, execute_alter, selected]; rfl, fun saved => ?_, fun failed => ?_⟩
    · obtain ⟨number, den, after⟩ := commitProtected_true saved
      exact ⟨number, by rw [after]⟩
    · unfold System.commitProtected at failed ⊢
      split at failed
      · rename_i running
        rw [if_pos running, settle_gate failed]
      · rename_i stopped
        rw [if_neg stopped]

theorem silverReset_failed {environment : Environment}
    (failed : (execute (silverReset host environment) system).1 ≠ .ok .silverReset) :
    (execute (silverReset host environment) system).2.node.gate = system.node.gate := by
  obtain ⟨saved, next, executed, published, kept⟩ := persistSilver_execute host system environment
    false (liftSilver host system.node.gate.epoch)
  simp only [silverReset, live, execute_bind, execute_alter, executed] at failed ⊢
  cases saved with
  | false => exact kept rfl
  | true =>
    obtain ⟨number, after⟩ := published rfl
    cases opens : (system.node.unadmitted host.toExternal ||
        (system.node.gate.openAfterDurable system.node.gate.epoch).isSome) with
    | true =>
      rw [opens] at failed
      exact absurd rfl failed
    | false =>
      simp only [Bool.or_eq_false_iff, Option.isSome_eq_false_iff, Option.isNone_iff_eq_none] at opens
      -- Nothing is published where the gate cannot be opened.
      have superseded : liftSilver host system.node.gate.epoch { system.node with generation := number } =
            { system.node with generation := number } := by
        have admitted : ({ system.node with generation := number } : Node).unadmitted
            host.toExternal = false := opens.1
        simp [liftSilver, admitted, opens.2]
      show next.node.gate = system.node.gate
      rw [after, superseded]

theorem serve_reset_failed (failed : (serve host .silverReset environments system).1 ≠ .ok .silverReset) :
    (serve host .silverReset environments system).2.node.gate = system.node.gate := by
  have dispatched : serve host .silverReset environments system =
      execute (dispatch host environments .silverReset) system.fresh := rfl
  rw [dispatched] at failed ⊢
  rcases dispatch_cases host environments .silverReset system.fresh with
    ⟨code, refused⟩ | ⟨_, _, carried⟩
  · rw [refused]
    rfl
  · rw [carried] at failed ⊢
    exact silverReset_failed failed

/-- The step is not one that ends what a trigger began: a restart, or a reset
that succeeds. -/
def Ongoing (host : Host) (system : System) : Event → Prop
  | .command .silverReset environments =>
      (serve host .silverReset environments system).1 ≠ .ok .silverReset
  | .command _ _ => True
  | .inbound _ => True
  | .restart _ => False

/-- While the status does not say that Silver is active, no retirement fails
before its Tombstone is written and no statement admits the node. -/
def Undisturbed (host : Host) (system : System) : Event → Prop
  | .command command environments =>
      system.node.silver = .active ∨ (∀ confirm, command = .denRetire confirm →
          ¬ Reinstates host (environments 0) system.node confirm) ∧
        EachStatement host (fun _ system statement pin =>
          ∀ next, Applies host system statement pin next → ¬ Admits host system next)
          environments system.fresh command
  | _ => True

def closed : Liberty → Prop
  | .opens => False
  | .releases => False
  | _ => True

theorem permits_closed {command : Command} (running : system.running = true) (other : command ≠ .silverReset)
    (undisturbed : Undisturbed host system (.command command environments)) :
    Permits closed host environments system.fresh command where
  fares _ := ⟨fun _ => trivial, trivial, fun _ => trivial, trivial, trivial⟩
  trigger _ := trivial
  reset same := absurd same other
  retire confirm same := ⟨trivial, fun reinstates => by
    rcases undisturbed with active | ⟨stays, _⟩
    · exact reinstates.silver active
    · exact stays confirm same reinstates⟩
  recommits _ := trivial
  statements alive healthy := by
    rcases undisturbed with active | ⟨_, excluded⟩
    · refine .of_invariant (fun system => system.node.silver = .active)
        (fun _ => ⟨fun _ => trivial, trivial, fun _ => trivial, trivial, trivial⟩) (fun _ => trivial)
        ⟨fun dying => absurd (alive.symm.trans dying) (by decide), healthy, fun _ => running⟩
        (fun _ _ transition active => (transition.moved.releases active).resolve_right id) active ?_
      exact .of_forall (fun _ _ _ _ active _ _ =>
        ⟨fun _ => trivial, fun _ => .inr trivial, fun _ silver => absurd active silver⟩)
    · refine excluded.mono (fun _ _ _ _ excluded next applies => ?_)
      exact ⟨fun _ => trivial, fun _ => .inr trivial,
        fun admits _ => absurd admits (excluded next applies)⟩

theorem locked_step {event : Event} (ready : system.running = true → Ready system)
    (ongoing : Ongoing host system event) (undisturbed : Undisturbed host system event)
    (locked : system.running = true → system.node.gate.locked = true) :
    (step host system event).running = true → (step host system event).node.gate.locked = true := by
  by_cases reset : ∃ environments, event = .command .silverReset environments
  · obtain ⟨environments, rfl⟩ := reset
    intro running
    simp only [step] at running ⊢
    split at running
    · rename_i before
      rw [if_pos before, ← locked before]
      exact congrArg Gate.locked (serve_reset_failed ongoing)
    · rename_i before
      exact absurd running before
  · refine step_invariant (fun system => system.node.gate.locked = true)
      (fun command environments same running => permits_closed running ?_ (same ▸ undisturbed))
      (fun _ _ transition locked => ?_) id (fun _ _ restarts => ?_) ready locked
    · rintro rfl
      exact reset ⟨environments, same⟩
    · by_contra unlocked
      rcases transition.moved.opens (Bool.eq_false_iff.mpr unlocked) with was | ⟨opens, _⟩
      · exact absurd (was.symm.trans locked) (by decide)
      · exact opens
    · subst restarts
      exact absurd ongoing id

/-- The lock of a trigger, whether or not its save succeeded, lasts until a reset
succeeds: in every run of a process whose steps are undisturbed. -/
theorem trigger_locks_until_reset (host : Host) (system : System) (reachable : Reachable host system)
    (environments : Nat → Environment)
    (triggered : (serve host .silverTrigger environments system).2.node.gate.locked = true) (events : List Event)
    (ongoing : ∀ before event after, events = before ++ event :: after →
      Ongoing host (run (step host) (step host system (.command .silverTrigger environments)) before) event)
    (undisturbed : ∀ before event after, events = before ++ event :: after →
      Undisturbed host (run (step host) (step host system (.command .silverTrigger environments)) before) event) :
    let last := run (step host) (step host system (.command .silverTrigger environments)) events
    last.running = true → last.node.gate.locked = true := by
  refine (run_invariant_of_steps (fun system => (system.running = true → Ready system) ∧
    (system.running = true → system.node.gate.locked = true))
    (fun system event => Ongoing host system event ∧ Undisturbed host system event) ?_ ?_ events
    (fun before event after split => ⟨ongoing before event after split, undisturbed before event after split⟩)).2
  · intro state event ⟨ready, locked⟩ ⟨ongoing, undisturbed⟩
    exact ⟨ready_step event ready, locked_step ready ongoing undisturbed locked⟩
  · refine ⟨(reachable.step _).ready, fun running => ?_⟩
    simp only [step] at running ⊢
    split at running
    · rename_i before
      rw [if_pos before]
      exact triggered
    · rename_i before
      exact absurd running before

namespace Sample

def memberKey : String := base64Encode (List.replicate 32 2)

def memberFingerprint : String := "wwp1:02-44-07-DF-31-4F-9C-1D"

def joining : Event := smoothly (.packAdd "howler" memberFingerprint "tcp://127.0.0.1:7000" memberKey)

def unsaved (_ : Nat) : Environment := { environment with documents := fun _ => .notCommitted }

def unburied (_ : Nat) : Environment := { environment with tombstone := .notCommitted }

end Sample

/-- After a trigger that was not saved, changes of the Pack leave the lock. -/
theorem unsaved_trigger_survives_removal :
    (serve Sample.host .silverTrigger Sample.unsaved Sample.opened).1 = .error .silverSaveFailed ∧
      (run (step Sample.host) (step Sample.host Sample.opened (.command .silverTrigger Sample.unsaved))
        [Sample.joining]).node.peers.length = 1 ∧
      (run (step Sample.host) (step Sample.host Sample.opened (.command .silverTrigger Sample.unsaved))
        [Sample.joining, Sample.smoothly (.packRemove "howler")]).node.gate.locked = true := by
  have spec :
      let result := serve Sample.host .silverTrigger Sample.unsaved Sample.opened
      let after := run (step Sample.host) (step Sample.host Sample.opened (.command .silverTrigger Sample.unsaved))
      result.1 = .error .silverSaveFailed ∧ (after [Sample.joining]).node.peers.length = 1 ∧
        result.2.node.gate.locked = true ∧
        (after [Sample.joining, Sample.smoothly (.packRemove "howler")]).running = true := by
    decide +kernel
  refine ⟨spec.1, spec.2.1, trigger_locks_until_reset Sample.host Sample.opened
    Sample.opened_reachable Sample.unsaved spec.2.2.1 _ ?_ ?_ spec.2.2.2⟩
  · exact forall_steps_cons.mpr ⟨trivial, forall_steps_cons.mpr ⟨trivial, forall_steps_nil⟩⟩
  · exact forall_steps_cons.mpr ⟨.inr ⟨fun _ same => (by cases same), trivial⟩,
      forall_steps_cons.mpr ⟨.inr ⟨fun _ same => (by cases same), trivial⟩, forall_steps_nil⟩⟩

/-- A retirement whose Tombstone is not written opens the gate that a trigger
locked, where the trigger was not saved. -/
theorem failed_retirement_opens_triggered_gate : Reachable Sample.host Sample.opened ∧
      (let triggered := serve Sample.host .silverTrigger Sample.unsaved Sample.opened
       let retired := serve Sample.host (.denRetire Sample.pelt.fingerprint) Sample.unburied
         triggered.2
       triggered.1 = .error .silverSaveFailed ∧ triggered.2.node.gate.locked = true ∧
         retired.1 = .error .retireSaveFailed ∧ retired.2.running = true ∧
         retired.2.node.gate.locked = false) :=
  ⟨Sample.opened_reachable, by decide +kernel⟩

end Triggered

namespace Sample

def serving : System :=
  run (step Sample.host) opened
    [joining, .inbound (.ticket memberFingerprint),
      .inbound (.reserve ⟨⟨[0x02, 0x44, 0x07, 0xDF, 0x31, 0x4F, 0x9C, 0x1D], rfl⟩, 1, 2⟩ .tcp),
      .inbound (.publish 2)]

end Sample

/-- A reset while Silver is not active ends the epoch of a running session and does
not tell it so. -/
theorem reset_of_open_gate_strands_session :
    Reachable Sample.host Sample.serving ∧ Sample.serving.node.silver = .armed ∧
      (let reset := serve Sample.host .silverReset (fun _ => Sample.environment) Sample.serving
       reset.1 = .ok .silverReset ∧ ∃ entry, reset.2.node.gate.sessions.lookup 2 = some entry ∧
           Sample.serving.node.gate.current entry.ticket = true ∧
           reset.2.node.gate.current entry.ticket = false ∧ entry.cancelled = false) := by
  have shown : Sample.serving.node.silver = .armed ∧
      (let reset := serve Sample.host .silverReset (fun _ => Sample.environment) Sample.serving
       let entry : Authority.Entry :=
         ⟨⟨⟨[0x02, 0x44, 0x07, 0xDF, 0x31, 0x4F, 0x9C, 0x1D], rfl⟩, 1, 2⟩, .tcp, true, false⟩
       reset.1 = .ok .silverReset ∧ reset.2.node.gate.sessions.lookup 2 = some entry ∧
         Sample.serving.node.gate.current entry.ticket = true ∧
         reset.2.node.gate.current entry.ticket = false ∧ entry.cancelled = false) := by
    decide +kernel
  exact ⟨Sample.opened_reachable.run _, shown.1, shown.2.1, _, shown.2.2⟩

end Werewolf.Control
