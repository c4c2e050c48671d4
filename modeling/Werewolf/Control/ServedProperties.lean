import Werewolf.Control.HeadProperties

/-! Whom a governed node serves. No command, failed write, crash or start brings a
member back that the head excludes, and every receiver looks its sender up in the
Pack. -/

namespace Werewolf.Control
open Library Governance State Authority Transport
open Storage hiding name

variable {host : Host}

theorem startable_run (roundTrip : host.RoundTrip) (faithful : host.Faithful) {first : System}
    (stopped : first.running = false) {environment : Environment}
    (started : (step host first (.restart environment)).running = true)
    (manifest : (step host first (.restart environment)).node.generation.isSome) (events : List Event) :
    let system := run (step host) (step host first (.restart environment)) events
    (system.running = true → Ready system) ∧ ((system.den tombstoneFile).isSome ∨ Startable host system) := by
  refine run_invariant (fun system => (system.running = true → Ready system) ∧
      ((system.den tombstoneFile).isSome ∨ Startable host system))
    (fun system event holds => ⟨ready_step event holds.1, startable_step roundTrip faithful event holds.1 holds.2⟩)
    ⟨(Reachable.of_restart stopped environment).ready, .inr ?_⟩ events
  simp only [step] at started manifest ⊢
  cases result : start host environment first.den with
  | mk node den =>
    rw [result] at started manifest
    cases node with
    | none => cases started
    | some node =>
      obtain ⟨rfl, _, loaded, living⟩ := start_some result
      exact startable_of_loaded roundTrip loaded manifest living _ _

/-- The sender has a record in the Pack that the head does not exclude, and the
signature verifies under the key of that record. -/
def Vouched (suite : Suite) (external : External) (head : Head) (peers : List PeerRecord)
    (sender : String) (transcript : Option (List UInt8)) (signature : String) : Prop :=
  ∃ record ∈ peers, record.fingerprint = sender ∧ excludes external head record = false ∧
    ∃ stored retained, record.publicKeyB64 = some stored ∧ transcript = some retained ∧
      verify suite stored retained signature = some ()

/-- After any run of a manifest-enabled node, unless its Den is being destroyed,
whoever gets a lease or an answer is a member that the live head does not exclude.
The Pack and the head are those that the receiver read under the lock. A QUIC OPEN and
either RPC is also verified under the key that the head spared. -/
theorem excluded_members_are_not_served (roundTrip : host.RoundTrip) (faithful : host.Faithful) (first : System)
    (stopped : first.running = false) (environment : Environment)
    (started : (step host first (.restart environment)).running = true)
    (manifest : (step host first (.restart environment)).node.generation.isSome) (events : List Event) :
    let system := run (step host) (step host first (.restart environment)) events
    (system.den tombstoneFile).isSome ∨ ∀ head, system.node.governance = some head →
      ∀ (suite : Suite) (admission : Admission) (around : Surroundings),
        let daemon := system.node.daemon admission
        let vouched := Vouched suite host.toExternal head system.node.peers
        (∀ message lease, tcpServerHandshake suite daemon around message = some lease →
          ∃ record ∈ system.node.peers, record.fingerprint = message.senderFingerprint ∧
            excludes host.toExternal head record = false) ∧
        (∀ message lease, quicServerHandshake suite daemon around message = some lease →
          vouched message.senderFingerprint (message.transcript around.binding) message.signature) ∧
        (∀ message request, answerTcp suite daemon around message = some request →
          vouched message.senderFingerprint (message.transcript suite.toExternal) message.signature) ∧
        ∀ message request, answerQuic suite daemon around message = some request →
          vouched message.senderFingerprint (message.transcript around.binding) message.signature := by
  intro system
  refine (startable_run roundTrip faithful stopped started manifest events).2.imp id
    (fun startable head governed suite admission around => ?_)
  have spared (record : PeerRecord) (member : record ∈ system.node.peers) :
      excludes host.toExternal head record = false :=
    startable.live.sound.members head governed record member
  refine ⟨fun message lease granted => ?_, fun message lease granted => ?_,
    fun message request answered => ?_, fun message request answered => ?_⟩
  · obtain ⟨_, _, ⟨record, member, named⟩, _⟩ := tcpServerHandshake_some granted
    exact ⟨record, member, named, spared record member⟩
  · obtain ⟨retained, signed, stored, found, verified⟩ := quicServerHandshake_some granted
    obtain ⟨record, member, named, holds⟩ := storedKey_some found
    exact ⟨record, member, named, spared record member, stored, retained, holds, signed, verified⟩
  · obtain ⟨retained, signed, ⟨record, member, named, holds⟩, verified, _⟩ := answerTcp_some answered
    exact ⟨record, member, named, spared record member, _, retained, holds, signed, verified⟩
  · obtain ⟨retained, signed, stored, found, verified, _⟩ := answerQuic_some answered
    obtain ⟨record, member, named, holds⟩ := storedKey_some found
    exact ⟨record, member, named, spared record member, stored, retained, holds, signed, verified⟩

namespace Sample

/-- A member whose key is not the revoked one. -/
def sparing : ProtectedState :=
  { bare false (some revokedHead) with
    peers := [⟨"howler", memberFingerprint, "tcp://127.0.0.1:7000", .packmate, some memberKey⟩] }

theorem restart_sparing : step Sample.host (stopped (holding Sample.host sparing))
    (.restart environment) = ⟨awake Sample.host sparing, holding Sample.host sparing, true, false⟩ := by
  refine restart_holding roundTrip (by decide +kernel) ⟨?_, by decide +kernel, ?_⟩ ?_ environment
  · intro fingerprint endpoints found
    simp at found
  · intro head governed
    rw [← Option.some.inj governed]
    decide +kernel
  · intro head governed
    rw [← Option.some.inj governed]
    exact revokedHead_facts.2.2.2.1

end Sample

open Sample

theorem revoking_node_serves_its_member :
    let system := step Sample.host (stopped (holding Sample.host sparing))
      (.restart environment)
    system.node.governance = some Sample.revokedHead ∧ ((system.den tombstoneFile).isSome ∨
      ∀ (suite : Suite) (admission : Admission) (around : Surroundings) message lease,
        tcpServerHandshake suite (system.node.daemon admission) around message = some lease →
          ∃ record ∈ system.node.peers, record.fingerprint = message.senderFingerprint ∧
            excludes Sample.host.toExternal Sample.revokedHead record = false) := by
  have begins := restart_sparing
  have governed : (step Sample.host (stopped (holding Sample.host sparing))
      (.restart environment)).node.governance = some Sample.revokedHead := by
    rw [begins]
    rfl
  have served := excluded_members_are_not_served Sample.roundTrip Sample.faithful
    (stopped (holding Sample.host sparing)) rfl environment
    (by rw [begins]) (by rw [begins]; rfl) []
  rw [run_nil] at served
  exact ⟨governed, served.imp id (fun members suite admission around =>
    (members Sample.revokedHead governed suite admission around).1)⟩

end Werewolf.Control
