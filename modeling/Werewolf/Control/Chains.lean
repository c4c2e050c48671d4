import Werewolf.Control.Transition

/-! The parts of the commands go through transitions: changes of the gate and of
the Fangs, saves of a candidate, and the end of a node. -/

namespace Werewolf.Control
open Library Procedure Governance Policy
open State hiding name
open Storage hiding name
open Authority (Gate)
open Relation (ReflTransGen)

variable {permit : Liberty → Prop} {host : Host} {environment : Environment} {α β : Type}

section Moves

variable {external : External} {before after : Node}

theorem Moves.of_same (locked : after.gate.locked = before.gate.locked) (silver : after.silver = before.silver)
    (governance : after.governance = before.governance) (pelt : after.pelt = before.pelt)
    (dying : after.dying = before.dying) (degrades : before.storageDegraded = true → after.storageDegraded = true) :
    Moves permit external before after where
  opens unlocked := .inl (locked ▸ unlocked)
  locks lock := .inl (locked ▸ lock)
  triggers active := .inl (silver ▸ active)
  excluded unadmitted := by
    simp only [Node.unadmitted, Node.ownKey, governance, pelt] at unadmitted ⊢
    exact .inl unadmitted
  dies dying' := .inl (dying ▸ dying')
  degrades := degrades
  releases active := .inl (silver.trans active)

structure Calm (before after : Node) : Prop where
  locked : after.gate.locked = before.gate.locked
  rest : after = { before with gate := after.gate, fangs := after.fangs, mode := after.mode }

theorem Calm.refl (node : Node) : Calm node node := ⟨rfl, rfl⟩

theorem Calm.trans {middle : Node} (first : Calm before middle) (second : Calm middle after) : Calm before after := by
  refine ⟨second.locked.trans first.locked, ?_⟩
  rw [second.rest, first.rest]

theorem Calm.moves (calm : Calm before after) : Moves permit external before after := by
  refine .of_same calm.locked ?_ ?_ ?_ ?_ ?_ <;> rw [calm.rest]
  exact id

theorem Calm.retains (calm : Calm before after) : Retains before after := by
  constructor <;> rw [calm.rest]

theorem Calm.dying (calm : Calm before after) : after.dying = before.dying := by rw [calm.rest]

theorem Calm.pelt (calm : Calm before after) : after.pelt = before.pelt := by rw [calm.rest]

theorem Calm.storageDegraded (calm : Calm before after) :
    after.storageDegraded = before.storageDegraded := by rw [calm.rest]

theorem Calm.protectedFromLive (calm : Calm before after) : protectedFromLive after = protectedFromLive before := by
  rw [Control.protectedFromLive, calm.locked, calm.rest]
  rfl

end Moves

section Rules

variable {relation : System → System → Prop} {system : System} {rest : α → Action β}
  {after : β → System → Prop}

theorem follows_live {rest : Node → Action β} (second : Follows relation system (rest system.node) after) :
    Follows relation system (live >>= rest) after :=
  follows_alter_bind .refl second

theorem follows_update_bind {change : Node → Node} {rest : Unit → Action β}
    (step : relation system { system with node := change system.node })
    (second : Follows relation { system with node := change system.node } (rest ()) after) :
    Follows relation system (update change >>= rest) after :=
  follows_alter_bind (.single step) second

theorem follows_update {change : Node → Node} {after : Unit → System → Prop}
    (step : relation system { system with node := change system.node })
    (holds : after () { system with node := change system.node }) :
    Follows relation system (update change) after :=
  follows_alter (.single step) holds

theorem transition_degrade (system : System) : Transition permit host system system.degrade :=
  .moves (.of_same rfl rfl rfl rfl rfl (fun _ => rfl)) ⟨rfl, rfl, rfl, rfl, rfl⟩ .inl

theorem transition_calm {node : Node} (calm : Calm system.node node) :
    Transition permit host system { system with node := node } :=
  .moves calm.moves calm.retains (fun dying => .inl (calm.dying.trans dying))

theorem follows_saved {action : Action Bool} {code : Code} {status : Status} (saves : Traces relation system action) :
    Traces relation system (do let saved ← action; check saved code; return status) :=
  follows_bind saves (fun _ _ _ => follows_check (fun _ => follows_pure trivial))

end Rules

section Calmly

def Settled (base system : System) : Prop :=
  ∃ node, system = { base with node := node } ∧ Calm base.node node

theorem Settled.refl (system : System) : Settled system system := ⟨system.node, rfl, .refl _⟩

variable {base system : System}

theorem follows_calm {change : Node → Node} (calm : ∀ node, Calm node (change node)) (settled : Settled base system) :
    Follows (Transition permit host) system (update change) (fun _ => Settled base) := by
  obtain ⟨node, rfl, since⟩ := settled
  exact follows_update (transition_calm (calm node)) ⟨change node, rfl, since.trans (calm node)⟩

theorem follows_onGate {operation : Gate → Option Gate} {code : Code}
    (keeps : ∀ gate after, operation gate = some after → after.locked = gate.locked) (settled : Settled base system) :
    Follows (Transition permit host) system (onGate operation code) (fun _ => Settled base) := by
  refine follows_live (follows_expect (fun gate operated => ?_))
  obtain ⟨node, rfl, since⟩ := settled
  have calm : Calm node { node with gate := gate } := ⟨keeps _ _ operated, rfl⟩
  exact follows_update (transition_calm calm) ⟨_, rfl, since.trans calm⟩

theorem denyPeer_follows (peer : String) (settled : Settled base system) :
    Follows (Transition permit host) system (denyPeer peer) (fun _ => Settled base) :=
  follows_onGate (fun _ _ denied => Gate.denyPeer_locked denied) settled

private theorem withoutSessions_locked {gate after : Gate} {text : String} {drained : Bool}
    (ended : withoutSessions gate text drained = some after) : after.locked = gate.locked := by
  simp only [withoutSessions, bind_eq_some, return_eq_some] at ended
  obtain ⟨_, _, _, _, rfl⟩ := ended
  rfl

theorem cleanup_follows (peer : String) (settled : Settled base system) :
    Follows (Transition permit host) system (cleanup environment peer) (fun _ => Settled base) :=
  follows_onGate (fun _ _ ended => withoutSessions_locked ended) settled

theorem terminatePeer_follows (peer : String) (settled : Settled base system) :
    Follows (Transition permit host) system (terminatePeer peer) (fun _ => Settled base) :=
  follows_calm (fun _ => ⟨rfl, rfl⟩) settled

theorem publishRemoval_follows (peer : String) (settled : Settled base system) :
    Follows (Transition permit host) system (publishRemoval peer) (fun _ => Settled base) := by
  refine follows_live ?_
  cases removal : system.node.gate.removed peer with
  | some gate =>
    obtain ⟨node, rfl, since⟩ := settled
    have calm : Calm node { node with gate := gate } := ⟨Gate.removed_locked removal, rfl⟩
    exact follows_update (transition_calm calm) ⟨_, rfl, since.trans calm⟩
  | none => exact follows_alter_bind (.single (transition_degrade system)) follows_throw

theorem deny_follows (name peer : String) (settled : Settled base system) :
    Follows (Transition permit host) system (do denyPeer peer; terminatePeer name) (fun _ => Settled base) :=
  follows_bind (denyPeer_follows peer settled) (fun _ _ settled =>
    terminatePeer_follows name settled)

end Calmly

section Saving

structure Publication (permit : Liberty → Prop) (host : Host) (system : System)
    (candidate : ProtectedState) (publish : Node → Node) : Prop where
  alive : ∀ number, (publish { system.node with generation := number }).dying = false
  moved : ∀ number, Moves permit host.toExternal system.node
    (publish { system.node with generation := number })
  shows : ∀ number, Shows candidate (publish { system.node with generation := number }) ∧
    (publish { system.node with generation := number }).generation = number
  sound : host.Faithful → Sound host.toExternal (protectedFromLive system.node) →
    Sound host.toExternal candidate
  succeeds : Succeeds host.toCrypto system.den system.node.governance candidate.governance
  bit : ∀ number,
    candidate.silverLocked =
      decide ((publish { system.node with generation := number }).silver = .active) ∨
    (permit .recommits ∧ candidate.silverLocked = system.node.gate.locked ∧
      (publish { system.node with generation := number }).silver = system.node.silver) ∨
    permit .supersedes

variable {system : System} {candidate : ProtectedState} {publish : Node → Node}

structure Publishes (number : Option UInt64) (before after : Node) : Prop where
  gate : after.gate = before.gate
  silver : after.silver = before.silver
  pelt : after.pelt = before.pelt
  dying : after.dying = before.dying
  storageDegraded : after.storageDegraded = before.storageDegraded
  generation : after.generation = number

theorem Publication.of_records (alive : system.node.dying = false) (recommits : permit .recommits)
    (bit : candidate.silverLocked = system.node.gate.locked)
    (governance : candidate.governance = system.node.governance)
    (publishes : ∀ number, Publishes number system.node (publish { system.node with generation := number }))
    (shows : ∀ number, Shows candidate (publish { system.node with generation := number }))
    (sound : host.Faithful → Sound host.toExternal (protectedFromLive system.node) →
      Sound host.toExternal candidate) :
    Publication permit host system candidate publish where
  alive number := (publishes number).dying.trans alive
  moved number :=
    .of_same (congrArg Gate.locked (publishes number).gate) (publishes number).silver
      ((shows number).governance.trans governance) (publishes number).pelt (publishes number).dying
      (fun degraded => (publishes number).storageDegraded.trans degraded)
  shows number := ⟨shows number, (publishes number).generation⟩
  sound := sound
  succeeds := governance ▸ .same
  bit number := .inr (.inl ⟨recommits, bit, (publishes number).silver⟩)

theorem settle_true {ended : Option Storage.Outcome} (saved : (system.settle ended publish).1 = true) :
    ended = none ∧ (system.settle ended publish).2 = { system.note none with
      node := publish system.node } := by
  unfold System.settle at saved ⊢
  split at saved
  · exact ⟨rfl, rfl⟩
  · cases saved
  · cases saved

theorem transition_commit {generation : UInt64} (publication : Publication permit host system candidate publish)
    (alive : system.node.dying = false) (selected : system.node.generation = some generation)
    {fates : Nat → Replacement} (fares : ∀ index, permit (.fares (fates index))) :
    Transition permit host system (system.commitProtected host generation candidate fates publish).2 :=
  .committed fares ⟨alive, publication.alive⟩ selected publication.moved publication.shows
    publication.sound publication.succeeds publication.bit

theorem commitProtected_true {generation : UInt64} {fates : Nat → Replacement}
    (saved : (system.commitProtected host generation candidate fates publish).1 = true) :
    ∃ number den, (system.commitProtected host generation candidate fates publish).2 =
      { system with node := publish { system.node with generation := number }, den := den } := by
  unfold System.commitProtected at saved ⊢
  split at saved
  · rename_i running
    refine ⟨(System.transaction (commit host.toPlatform system.den generation candidate fates).2).1,
      system.den.apply (commit host.toPlatform system.den generation candidate fates).1, ?_⟩
    rw [if_pos running, (settle_true saved).2]
    simp [System.note]
  · cases saved

theorem follows_store_flat {write : Write} {fate : Replacement} {publish : Node → Node} (fares : permit (.fares fate))
    (flat : system.node.generation = none) (publishes : Publishes none system.node (publish system.node))
    (governance : (publish system.node).governance = system.node.governance) (file : write.file ∈ flatFiles) :
    Follows (Transition permit host) system (store write fate publish)
      (fun _ next => next.node.generation = none) := by
  refine follows_alter (.single (.stored fares ?_ publishes.dying
    (.inr ⟨file, flat, publishes.generation, governance⟩))) ?_
  · exact .of_same (congrArg Gate.locked publishes.gate) publishes.silver governance publishes.pelt
      publishes.dying (fun degraded => publishes.storageDegraded.trans degraded)
  · simp only [System.store, System.settle]
    split
    · split
      · exact publishes.generation
      · exact flat
      · exact flat
    · exact flat

theorem follows_persist {legacy : Write} (fares : environment.Fares permit)
    (publication : Publication permit host system candidate publish) (alive : system.node.dying = false)
    (governance : candidate.governance = system.node.governance) (flat : legacy.file ∈ flatFiles) :
    Traces (Transition permit host) system (persistProtectedOrLegacy host environment candidate legacy publish) := by
  refine follows_live ?_
  cases selected : system.node.generation with
  | some generation =>
    exact follows_alter (.single (transition_commit publication alive selected fares.protectedState)) trivial
  | none =>
    have same : { system.node with generation := none } = system.node := by rw [← selected]
    have moved := publication.moved none
    have shows := publication.shows none
    have living := publication.alive none
    rw [same] at moved shows living
    exact follows_alter (.single (.stored (fares.documents 0) moved (living.trans alive.symm)
      (.inr ⟨flat, selected, shows.2, shows.1.governance.trans governance⟩))) trivial

theorem follows_store {write : Write} {fate : Replacement} {publish : Node → Node} (fares : permit (.fares fate))
    (moved : Moves permit host.toExternal system.node (publish system.node))
    (retains : Retains system.node (publish system.node))
    (alive : (publish system.node).dying = system.node.dying) (side : write.file ∈ sideFiles)
    (accepted : host.Faithful → write.data.length ≤ documentLimit → host.accepts write.file write.data = true) :
    Traces (Transition permit host) system (store write fate publish) :=
  follows_alter (.single (.stored fares moved alive (.inl ⟨side, retains, accepted⟩))) trivial

end Saving

end Werewolf.Control
