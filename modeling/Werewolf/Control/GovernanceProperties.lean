import Werewolf.Control.Chains
import Werewolf.Storage.CommitProperties

/-! Silver, governance and the end of a node go through transitions. These are
the commands that lock and open the gate, so what they may do is stated for each
of them. -/

namespace Werewolf.Control
open Library Procedure Governance Policy
open State hiding name
open Storage hiding name
open Authority (Gate)

variable {permit : Liberty → Prop} {host : Host} {environment : Environment} {system : System}

section Terminal

theorem replaceFile_none {write : Write} {fate : Replacement} (durable : (system.replaceFile write fate).1 = none) :
    (system.replaceFile write fate).2 = { system with den := system.den.apply [write] } ∧
      write.data.length ≤ documentLimit := by
  unfold System.replaceFile at durable ⊢
  split at durable
  · rename_i running
    have durable : (replace write fate).2 = none := durable
    obtain ⟨visible, fits, _⟩ := replace_spec write fate
    refine ⟨?_, fits (visible durable)⟩
    simp [running, System.written, System.note, replaced, durable, visible durable]
  · cases durable

theorem replaceFile_node (write : Write) (fate : Replacement) :
    (system.replaceFile write fate).2.node = system.node := by
  unfold System.replaceFile
  split
  · rfl
  · rfl

theorem finish_node (tombstone : Tombstone) : (system.finish host environment tombstone).node = system.node := by
  unfold System.finish
  split
  · rfl
  · rfl

theorem Moves.of_dying {external : External} {before after : Node} (locked : after.gate.locked = true)
    (dying : after.dying = true) (silver : after.silver = before.silver)
    (degrades : before.storageDegraded = true → after.storageDegraded = true) :
    Moves permit external before after where
  opens unlocked := absurd (locked.symm.trans unlocked) (by decide)
  locks _ := .inr (.inr (.inl dying))
  triggers active := .inl (silver ▸ active)
  excluded _ := .inr locked
  dies _ := .inr locked
  degrades := degrades
  releases active := .inl (silver.trans active)

theorem transition_lockNode (system : System) :
    Transition permit host system { system with node := lockNode system.node } :=
  .moves (.of_dying rfl rfl rfl id) ⟨rfl, rfl, rfl, rfl, rfl⟩ (fun _ => .inl rfl)

def tombstoneEnding (host : Host) (environment : Environment) (tombstone : Tombstone) : Option Storage.Outcome :=
  match tombstone.encode host with
  | none => some (.reported (.notCommitted .replacement))
  | some data => (replace ⟨tombstoneFile, data⟩ environment.tombstone).2

structure Entombs (host : Host) (environment : Environment) (tombstone : Tombstone)
    (before : System) (ended : Option Storage.Outcome) (after : System) : Prop where
  node : after.node = before.node
  durable : ended = none → (after.den tombstoneFile).isSome
  undone : ∀ error, ended = some (.reported (.notCommitted error)) → after = before ∧
    tombstoneEnding host environment tombstone = some (.reported (.notCommitted error))

theorem writeTombstone_follows (fares : environment.Fares permit)
    (dying : system.node.dying = true) (tombstone : Tombstone) :
    Follows (Transition permit host) system (writeTombstone host environment tombstone)
      (Entombs host environment tombstone system) := by
  unfold writeTombstone
  cases encoded : tombstone.encode host with
  | none =>
    refine follows_pure ⟨rfl, fun ended => (by cases ended), ?_⟩
    rintro error ended
    exact ⟨rfl, by rw [tombstoneEnding, encoded]; exact ended⟩
  | some data =>
    refine follows_alter (.single (.entombed fares.tombstone dying))
      ⟨replaceFile_node _ _, fun ended => ?_, fun error ended => ?_⟩
    · rw [(replaceFile_none ended).1]
      simp [Den.apply]
    · unfold System.replaceFile at ended ⊢
      split at ended
      · rename_i running
        have ended : (replace ⟨tombstoneFile, data⟩ environment.tombstone).2 =
          some (.reported (.notCommitted error)) := ended
        have invisible := (replace_spec ⟨tombstoneFile, data⟩ environment.tombstone).2.2.1 error ended
        refine ⟨?_, by rw [tombstoneEnding, encoded]; exact ended⟩
        simp only [running, System.written, System.note, replaced, invisible, ended, if_true,
          Bool.false_eq_true, if_false, Bool.true_and, Option.some.injEq, reduceCtorEq, ne_eq,
          Outcome.reported.injEq, not_false_eq_true, decide_true, decide_false, Bool.or_false]
        rw [← running]
      · cases ended

theorem finishDen_follows (fares : environment.Fares permit) (dying : system.node.dying = true)
    (entombed : (system.den tombstoneFile).isSome) (tombstone : Tombstone) :
    Follows (Transition permit host) system (finishDen host environment tombstone)
      (fun _ next => next.node = system.node) :=
  follows_alter (.single (.destroyed fares.completion dying entombed)) (finish_node tombstone)

theorem die_follows (fares : environment.Fares permit) (statement : Statement) :
    Follows (Transition permit host) system (die host environment statement)
      (fun _ next => next.node = lockNode system.node) := by
  refine follows_update_bind (transition_lockNode system) ?_
  cases Tombstone.ofDeath host statement .incomplete with
  | none => exact follows_pure rfl
  | some tombstone =>
    refine follows_bind (writeTombstone_follows fares rfl tombstone) (fun ended next entombs => ?_)
    split
    · rename_i durable
      refine (finishDen_follows fares ?_ (entombs.durable durable) tombstone).imp (fun _ _ same => ?_)
      · rw [entombs.node]
        rfl
      · exact same.trans entombs.node
    · exact follows_pure entombs.node

theorem transition_reinstate (untouched : system.indeterminate = false)
    (absent : system.den tombstoneFile = none) (revives : permit .revives)
    (opens : system.node.silver ≠ .active → system.node.unadmitted host.toExternal = false → permit .opens)
    (locked : system.node.gate.locked = true) :
    Transition permit host system { system with node := reinstate host system.node } := by
  have same : (reinstate host system.node).unadmitted host.toExternal = system.node.unadmitted host.toExternal := rfl
  refine .moves ⟨fun unlocked => ?_, fun _ => .inl locked, .inl, .inl,
    fun dying => (by cases dying), id, .inl⟩ ⟨rfl, rfl, rfl, rfl, rfl⟩
    (fun _ => .inr ⟨revives, untouched, absent⟩)
  by_cases free : (system.node.silver ≠ .active && !system.node.unadmitted host.toExternal) = true
  · simp only [ne_eq, decide_not, Bool.and_eq_true, Bool.not_eq_true', decide_eq_false_iff_not] at free
    exact .inr ⟨opens free.1 free.2, free.1, same.trans free.2, rfl⟩
  · have kept : (reinstate host system.node).gate = system.node.gate := by
      simp only [reinstate, if_neg free]
    rw [kept] at unlocked
    exact .inl unlocked

structure Reinstates (host : Host) (environment : Environment) (node : Node) (confirm : String) :
    Prop where
  confirmed : ∃ pelt, node.pelt = some pelt ∧ pelt.fingerprint = confirm
  silver : node.silver ≠ .active
  admitted : node.unadmitted host.toExternal = false
  undone : ∃ tombstone error, Tombstone.retirement host .incomplete = some tombstone ∧
    tombstoneEnding host environment tombstone = some (.reported (.notCommitted error))

theorem retire_follows {confirm : String} (fares : environment.Fares permit)
    (untouched : system.indeterminate = false) (absent : system.den tombstoneFile = none) (revives : permit .revives)
    (opens : Reinstates host environment system.node confirm → permit .opens) :
    Traces (Transition permit host) system (retire host environment confirm) := by
  refine follows_live (follows_expect (fun pelt found => follows_check (fun confirmed => ?_)))
  refine follows_update_bind (.moves (.of_dying rfl rfl rfl id) ⟨rfl, rfl, rfl, rfl, rfl⟩
    (fun _ => .inl rfl)) (follows_expect (fun tombstone retiring => ?_))
  refine follows_bind (writeTombstone_follows fares rfl tombstone) (fun ended next entombs => ?_)
  match ended with
  | none =>
    refine follows_update_bind (transition_lockNode next) ?_
    refine follows_bind (finishDen_follows fares rfl ?_ tombstone) (fun _ _ _ => follows_pure trivial)
    exact entombs.durable rfl
  | some (.reported (.notCommitted error)) =>
    obtain ⟨rfl, undone⟩ := entombs.undone error rfl
    refine follows_update_bind (transition_reinstate untouched absent revives ?_ rfl) follows_throw
    exact fun silver admitted => opens ⟨⟨pelt, found, of_decide_eq_true confirmed⟩, silver, admitted,
      tombstone, error, retiring, undone⟩
  | some (.reported .indeterminateAfterRename) =>
    exact follows_alter_bind (.single (transition_degrade next)) follows_throw
  | some (.reported (.durablyCommitted _)) => exact follows_throw
  | some .stopped => exact follows_throw

end Terminal

section Silver

theorem transition_lock (fences : system.node.silver = .active ∨ permit .fences) : Transition permit host system
      { system with node := { system.node with gate := system.node.gate.lock.1 } } := by
  refine .moves ⟨fun unlocked => (by cases unlocked), fun _ => ?_, .inl, fun _ => .inr rfl,
    fun _ => .inr rfl, id, .inl⟩ ⟨rfl, rfl, rfl, rfl, rfl⟩ .inl
  rcases fences with active | fences
  · exact .inr (.inl active)
  · exact .inr (.inr (.inr fences))

theorem lockGate_follows (fences : system.node.silver = .active ∨ permit .fences) (code : Code) :
    Follows (Transition permit host) system (lockGate code) (fun _ next => next =
        { system with node := { system.node with gate := system.node.gate.lock.1 } }) := by
  refine follows_live (follows_update_bind (transition_lock fences) ?_)
  cases system.node.gate.lock.2 with
  | true => exact follows_pure rfl
  | false => exact follows_throw

theorem silverTrigger_follows (fares : environment.Fares permit)
    (alive : system.node.dying = false) (fences : permit .fences) :
    Traces (Transition permit host) system (silverTrigger host environment) := by
  refine follows_bind (lockGate_follows (.inr fences) _) ?_
  rintro _ _ rfl
  refine follows_saved (follows_live (follows_persist fares ⟨fun _ => alive, fun _ => ?_,
    fun _ => ⟨⟨rfl, rfl, rfl⟩, rfl⟩, fun _ sound => ⟨sound.policy, sound.pack, sound.members⟩,
    .same, fun _ => .inl rfl⟩ alive rfl (show silverFile ∈ flatFiles by decide)))
  exact ⟨.inl, .inl, fun _ => .inr rfl, .inl, .inl, id, fun _ => .inl rfl⟩

theorem liftSilver_rest (expected : UInt64) (node : Node) : liftSilver host expected node = { node with
      gate := (liftSilver host expected node).gate
      mode := (liftSilver host expected node).mode
      silver := (liftSilver host expected node).silver } := by
  unfold liftSilver
  split
  · rfl
  · split
    · rfl
    · rfl

theorem liftSilver_moves {node : Node} (alive : node.dying = false) (opens : permit .opens)
    (releases : permit .releases) (number : Option UInt64) :
    Moves permit host.toExternal node (liftSilver host node.gate.epoch { node with generation := number }) := by
  unfold liftSilver
  split
  · exact ⟨.inl, .inl, fun active => (by cases active), .inl, .inl, id, fun _ => .inr releases⟩
  · rename_i admitted
    split
    · rename_i gate opened
      have unlocked := (Gate.openAfterDurable_some opened).2
      exact ⟨fun _ => .inr ⟨opens, fun active => (by cases active), Bool.eq_false_iff.mpr admitted, alive⟩,
        fun locked => absurd (unlocked.symm.trans locked) (by decide),
        fun active => (by cases active), .inl, .inl, id, fun _ => .inr releases⟩
    · exact .of_same rfl rfl rfl rfl rfl id

theorem liftSilver_active {expected : UInt64} {node : Node}
    (active : (liftSilver host expected node).silver = .active) :
    node.silver = .active ∧ node.unadmitted host.toExternal = false ∧ node.gate.openAfterDurable expected = none := by
  unfold liftSilver at active
  split at active
  · cases active
  · rename_i admitted
    split at active
    · cases active
    · rename_i superseded
      exact ⟨active, Bool.eq_false_iff.mpr admitted, superseded⟩

structure Superseded (host : Host) (node : Node) : Prop where
  silver : node.silver = .active
  admitted : node.unadmitted host.toExternal = false
  exhausted : node.gate.openAfterDurable node.gate.epoch = none

theorem silverReset_follows (fares : environment.Fares permit)
    (alive : system.node.dying = false) (opens : permit .opens) (releases : permit .releases)
    (supersedes : Superseded host system.node → permit .supersedes) :
    Traces (Transition permit host) system (silverReset host environment) := by
  have publication : Publication permit host system { protectedFromLive system.node with silverLocked := false }
      (liftSilver host system.node.gate.epoch) := by
    refine ⟨fun number => ?_, fun number => ?_, fun number => ?_,
      fun _ sound => ⟨sound.policy, sound.pack, sound.members⟩, .same, fun number => ?_⟩
    · rw [liftSilver_rest]
      exact alive
    · exact liftSilver_moves alive opens releases number
    · rw [liftSilver_rest]
      exact ⟨⟨rfl, rfl, rfl⟩, rfl⟩
    · by_cases active : (liftSilver host system.node.gate.epoch
          { system.node with generation := number }).silver = .active
      · obtain ⟨silver, admitted, superseded⟩ := liftSilver_active active
        exact .inr (.inr (supersedes ⟨silver, admitted, superseded⟩))
      · exact .inl (decide_eq_false active).symm
  refine follows_live (follows_bind (follows_live (follows_persist fares publication alive rfl
    (show silverFile ∈ flatFiles by decide))) (fun _ _ _ => ?_))
  exact follows_check (fun _ => follows_check (fun _ => follows_pure trivial))

end Silver

section Governing

variable {statement : Statement} {next : Head}

def Applies (host : Host) (system : System) (statement : Statement) (pin : Option Hash) (next : Head) : Prop :=
  system.node.generation.isSome ∧
    apply host.toCrypto system.node.governance statement pin = .ok (.applied next)

def Fences (host : Host) (system : System) (next : Head) : Prop :=
  system.node.unadmitted host.toExternal = false ∧ admitsOwn (system.node.ownKey host.toExternal) next = false

def Admits (host : Host) (system : System) (next : Head) : Prop :=
  system.node.unadmitted host.toExternal = true ∧ admitsOwn (system.node.ownKey host.toExternal) next = true

def LosesArchive (environment : Environment) (statement : Statement) (next : Head) : Prop :=
  (replace ⟨governanceArchiveName next.sequence, statement.encode⟩ environment.archive).2 =
    some (.reported .indeterminateAfterRename)

def Tolerates (permit : Liberty → Prop) (host : Host) (environment : Environment)
    (system : System) (statement : Statement) (pin : Option Hash) : Prop :=
  ∀ next, Applies host system statement pin next → (LosesArchive environment statement next → permit .losesArchive) ∧
    (Fences host system next → system.node.silver = .active ∨ permit .fences) ∧
    (Admits host system next → system.node.silver ≠ .active → permit .opens)

structure Governable (system : System) : Prop where
  ended : system.node.dying = true →
    ∃ head, system.node.governance = some head ∧ head.deadAt.isSome
  healthy : system.node.storageDegraded = false
  runs : system.node.dying = false → system.running = true

structure Encodable (statement : Statement) : Prop where
  decoded : Statement.decode statement.encode = .ok statement
  fits : statement.encode.length ≤ maxStatementLen

theorem Encodable.of_decode {bytes : List UInt8}
    (decoded : Statement.decode bytes = .ok statement) : Encodable statement :=
  ⟨Statement.decode_encode_of_decode decoded, by
    obtain ⟨same, fits⟩ := Statement.encode_of_decode decoded
    exact same ▸ fits⟩

theorem readArchive_written (encodable : Encodable statement) (den : Den) (sequence : UInt64) :
    readArchive (den.apply [⟨governanceArchiveName sequence, statement.encode⟩]) sequence = some statement := by
  have present : Storage.read (den.apply [⟨governanceArchiveName sequence, statement.encode⟩])
      (governanceArchiveName sequence) maxStatementLen = .ok (some statement.encode) := by
    simp [Storage.read, Den.apply, Nat.not_lt.mpr encodable.fits]
  simp [readArchive, present, encodable.decoded, Except.toOption]

theorem alive_of_applied {crypto : Crypto} {governance : Option Head} {pin : Option Hash}
    {head : Head} (applied : apply crypto governance statement pin = .ok (.applied next))
    (governed : governance = some head) : head.deadAt = none := by
  subst governed
  obtain ⟨_, _, advances, _⟩ := applyTo_applied applied
  exact advances.alive

theorem Governable.alive (governable : Governable system)
    (living : ∀ head, system.node.governance = some head → head.deadAt = none) :
    system.node.dying = false := by
  by_contra dying
  obtain ⟨head, governed, dead⟩ := governable.ended (Bool.eq_true_of_not_eq_false dying)
  simp [living head governed] at dead

theorem sound_enacted {external : External} {state : ProtectedState} (next : Head) (sound : Sound external state) :
    Sound external { state with
      peers := withoutRevoked (state.peers.filter (excludes external next)) state.peers
      governance := some next } where
  policy := sound.policy
  pack := pack_sublist List.filter_sublist sound.pack
  members head governed peer found := by
    cases governed
    obtain ⟨member, kept⟩ := List.mem_filter.mp found
    by_contra excluded
    have revoked : peer ∈ state.peers.filter (excludes external next) :=
      List.mem_filter.mpr ⟨member, Bool.eq_true_of_not_eq_false excluded⟩
    simp only [Bool.not_eq_true', List.any_eq_false, decide_eq_true_eq] at kept
    exact kept peer revoked rfl

theorem fence_follows {fences : Bool} (allowed : fences = true → system.node.silver = .active ∨ permit .fences) :
    Follows (Transition permit host) system (fence fences) (fun _ next => ∃ gate fangs, next =
          { system with node := { system.node with gate := gate, fangs := fangs } } ∧
        gate.locked = (fences || system.node.gate.locked)) := by
  cases fences with
  | false => exact follows_pure ⟨system.node.gate, system.node.fangs, rfl, by simp⟩
  | true =>
    refine follows_bind (lockGate_follows (allowed rfl) _) ?_
    rintro _ _ rfl
    exact follows_update (transition_calm ⟨rfl, rfl⟩) ⟨_, _, rfl, rfl⟩

theorem transition_open (alive : system.node.dying = false) (silver : system.node.silver ≠ .active)
    (admitted : system.node.unadmitted host.toExternal = false) (opens : permit .opens) (epoch : UInt64) :
    Transition permit host system { system with node := { system.node with
      gate := (system.node.gate.openAfterDurable epoch).getD system.node.gate } } := by
  refine .moves ⟨fun _ => .inr ⟨opens, silver, admitted, alive⟩, fun locked => ?_, .inl, .inl, .inl,
    id, .inl⟩ ⟨rfl, rfl, rfl, rfl, rfl⟩ .inl
  cases opened : system.node.gate.openAfterDurable epoch with
  | none => exact .inl (by simpa [opened] using locked)
  | some gate =>
    have unlocked := (Gate.openAfterDurable_some opened).2
    simp [opened, unlocked] at locked

theorem reopen_follows {reopens : Bool} {epoch : UInt64} (alive : system.node.dying = false)
    (admitted : reopens = true → system.node.unadmitted host.toExternal = false)
    (opens : reopens = true → system.node.silver ≠ .active → permit .opens) :
    Follows (Transition permit host) system (update (reopen reopens epoch))
      (fun _ next => ∃ gate, next = { system with node := { system.node with gate := gate } }) := by
  by_cases free : (reopens && system.node.silver ≠ .active) = true
  · have opened : reopen reopens epoch system.node = { system.node with
        gate := (system.node.gate.openAfterDurable epoch).getD system.node.gate } := if_pos free
    simp only [ne_eq, decide_not, Bool.and_eq_true, Bool.not_eq_true', decide_eq_false_iff_not] at free
    refine follows_update ?_ ⟨_, by rw [opened]⟩
    rw [opened]
    exact transition_open alive free.2 (admitted free.1) (opens free.1 free.2) epoch
  · have kept : reopen reopens epoch system.node = system.node := if_neg free
    refine follows_update ?_ ⟨system.node.gate, by rw [kept]⟩
    rw [kept]
    exact transition_calm (.refl _)

theorem denyAll_follows (peers : List PeerRecord) (system : System) : Follows (Transition permit host) system
      (peers.forM (fun peer => do denyPeer peer.fingerprint; terminatePeer peer.name))
      (fun _ => Settled system) :=
  follows_forM (fun peer _ settled => deny_follows peer.name peer.fingerprint settled) peers system (.refl system)

theorem removeAll_follows (peers : List PeerRecord) (system : System) : Follows (Transition permit host) system
      (peers.forM (fun peer => publishRemoval peer.fingerprint)) (fun _ => Settled system) :=
  follows_forM (fun peer _ settled => publishRemoval_follows peer.fingerprint settled) peers system (.refl system)

theorem cleanupAll_follows (peers : List PeerRecord) (system : System) : Follows (Transition permit host) system
      (peers.forM (fun peer => cleanup environment peer.fingerprint)) (fun _ => Settled system) :=
  follows_forM (fun peer _ settled => cleanup_follows peer.fingerprint settled) peers system (.refl system)

theorem conclude_follows {reopens : Bool} {epoch : UInt64} (fares : environment.Fares permit)
    (governable : Governable system) (alive : system.node.dying = false)
    (governed : system.node.governance = some next)
    (admitted : reopens = true → admitsOwn (system.node.ownKey host.toExternal) next = true)
    (opens : reopens = true → system.node.silver ≠ .active → permit .opens) :
    Follows (Transition permit host) system
      (conclude host environment statement next reopens epoch) (fun _ => Governable) := by
  unfold conclude
  split
  · rename_i dead
    refine (die_follows fares statement).imp (fun _ after locked =>
      ⟨fun _ => ⟨next, ?_, dead⟩, ?_, fun living => ?_⟩)
    · rw [locked]
      exact governed
    · rw [locked]
      exact governable.healthy
    · rw [locked] at living
      cases living
  · refine (reopen_follows alive (fun reopens => ?_) opens).imp ?_
    · simp [Node.unadmitted, State.unadmitted, governed, admitted reopens]
    · rintro _ _ ⟨gate, rfl⟩
      exact ⟨governable.ended, governable.healthy, governable.runs⟩

theorem enacted_publication {pin : Option Hash} {node : Node} (recommits : permit .recommits)
    (alive : system.node.dying = false) (retains : Retains system.node node)
    (pelt : node.pelt = system.node.pelt) (dying : node.dying = system.node.dying)
    (applied : apply host.toCrypto system.node.governance statement pin = .ok (.applied next))
    {den : Den} (archived : readArchive den next.sequence = some statement)
    (locked : Fences host system next → node.gate.locked = true) :
    Publication permit host { system with den := den, node := node } { protectedFromLive node with
        peers := withoutRevoked (system.node.peers.filter (excludes host.toExternal next)) system.node.peers
        governance := some next }
      (fun node => { node with
        peers := withoutRevoked (system.node.peers.filter (excludes host.toExternal next)) system.node.peers
        governance := some next }) where
  alive _ := dying.trans alive
  moved _ := by
    refine ⟨.inl, .inl, .inl, fun unadmitted => ?_, .inl, id, .inl⟩
    have excluded : admitsOwn (system.node.ownKey host.toExternal) next = false := by
      simpa [Node.unadmitted, State.unadmitted, Node.ownKey, pelt] using unadmitted
    have same : node.unadmitted host.toExternal = system.node.unadmitted host.toExternal := by
      simp only [Node.unadmitted, Node.ownKey, pelt, retains.governance]
    cases before : system.node.unadmitted host.toExternal with
    | true => exact .inl (same.trans before)
    | false => exact .inr (locked ⟨before, excluded⟩)
  shows _ := ⟨⟨rfl, rfl, rfl⟩, rfl⟩
  sound _ sound := by
    rw [← retains.peers]
    exact sound_enacted next sound
  succeeds := .next (retains.governance ▸ applied) archived
  bit _ := .inr (.inl ⟨recommits, rfl, rfl⟩)

theorem enact_follows {pin : Option Hash} {generation : UInt64} (fares : environment.Fares permit)
    (governable : Governable system) (recommits : permit .recommits)
    (encodable : Encodable statement) (selected : system.node.generation = some generation)
    (applied : apply host.toCrypto system.node.governance statement pin = .ok (.applied next))
    (tolerates : Tolerates permit host environment system statement pin) :
    Follows (Transition permit host) system
      (enact host environment statement system.node generation next) (fun _ => Governable) := by
  obtain ⟨noticed, fences, opens⟩ := tolerates next ⟨by rw [selected]; rfl, applied⟩
  have alive : system.node.dying = false :=
    governable.alive (fun _ governed => alive_of_applied applied governed)
  -- The archive comes first, and only a durable one goes on.
  refine follows_alter_bind (.single (.archived fares.archive ⟨alive, governable.healthy⟩ applied noticed))
    (follows_check (fun durable => ?_))
  rw [(replaceFile_none (of_decide_eq_true durable)).1]
  have archived := readArchive_written encodable system.den next.sequence
  revert archived
  generalize system.den.apply [⟨governanceArchiveName next.sequence, statement.encode⟩] = den
  intro archived
  -- An admitted node that the head does not admit is locked before the commit.
  refine follows_bind (fence_follows (fun fencing => ?_)) ?_
  · simp only [Bool.and_eq_true, Bool.not_eq_true'] at fencing
    exact fences fencing
  rintro _ _ ⟨gate, fangs, rfl, locked⟩
  refine follows_bind (denyAll_follows _ _) ?_
  rintro _ _ ⟨node, rfl, calm⟩
  obtain ⟨generationKept, peersKept, _, governanceKept, silverKept⟩ := calm.retains
  have publication := enacted_publication recommits alive ⟨generationKept, peersKept, calm.retains.3,
    governanceKept, silverKept⟩ calm.pelt calm.dying applied archived
    (fun fenced => calm.locked.trans (locked.trans (by simp [fenced.1, fenced.2])))
  refine follows_live (follows_alter_bind (.single (transition_commit publication
    (calm.dying.trans alive) (generationKept.trans selected) fares.protectedState))
    (follows_check (fun saved => ?_)))
  obtain ⟨number, _, after⟩ := commitProtected_true saved
  rw [after]
  -- The head is committed and published; what is left concerns sessions and the gate.
  refine follows_bind (removeAll_follows _ _) ?_
  rintro _ _ ⟨removed, rfl, calmRemoved⟩
  refine follows_bind (cleanupAll_follows _ _) ?_
  rintro _ _ ⟨cleaned, rfl, calmCleaned⟩
  have later := calmRemoved.trans calmCleaned
  have living : cleaned.dying = false := later.dying.trans (calm.dying.trans alive)
  have keeps : cleaned.ownKey host.toExternal = system.node.ownKey host.toExternal := by
    simp only [Node.ownKey, later.pelt, calm.pelt]
  refine follows_bind (conclude_follows fares ⟨fun dying => ?_, ?_, ?_⟩ living later.retains.governance
    (fun reopens => ?_) (fun reopens silver => ?_)) (fun _ _ governable => follows_pure governable)
  · exact absurd (living.symm.trans dying) (by decide)
  · exact later.storageDegraded.trans (calm.storageDegraded.trans governable.healthy)
  · exact fun _ => governable.runs alive
  · simp only [Bool.and_eq_true] at reopens
    exact keeps ▸ reopens.2
  · simp only [Bool.not_not, Bool.and_eq_true] at reopens
    exact opens reopens (fun active => silver (later.retains.silver.trans (silverKept.trans active)))

theorem recordFork_follows {generation : UInt64} {head : Head} (fares : environment.Fares permit)
    (alive : system.node.dying = false) (recommits : permit .recommits)
    (selected : system.node.generation = some generation) (governed : system.node.governance = some head) :
    Traces (Transition permit host) system
      (recordFork host environment system.node generation { head with forked := true }) := by
  have publication : Publication permit host system
      { protectedFromLive system.node with governance := some { head with forked := true } }
      (fun node => { node with governance := some { head with forked := true } }) := by
    refine ⟨fun _ => alive, fun _ => ⟨.inl, .inl, .inl, fun unadmitted => .inl ?_, .inl, id, .inl⟩,
      fun _ => ⟨⟨rfl, rfl, rfl⟩, rfl⟩, fun _ sound => ⟨sound.policy, sound.pack, ?_⟩,
      .fork governed, fun _ => .inr (.inl ⟨recommits, rfl, rfl⟩)⟩
    · rw [Node.unadmitted, governed]
      exact unadmitted
    · rintro _ ⟨⟩
      exact sound.members head governed
  exact follows_alter_bind (.single (transition_commit publication alive selected fares.protectedState))
    (follows_pure trivial)

theorem applyStatement_follows {pin : Option Hash} (fares : environment.Fares permit) (governable : Governable system)
    (recommits : permit .recommits) (encodable : Encodable statement)
    (tolerates : Tolerates permit host environment system statement pin) :
    Follows (Transition permit host) system (applyStatement host environment statement pin)
      (fun _ => Governable) := by
  refine follows_live (follows_expect (fun generation selected => ?_))
  split
  · exact follows_pure governable
  · rename_i next applied
    exact enact_follows fares governable recommits encodable selected applied tolerates
  · rename_i fenced forked
    cases governed : system.node.governance with
    | none =>
      rw [governed] at forked
      obtain ⟨_, _, _, started⟩ := applyGenesis_ok_iff.mp forked
      cases started
    | some head =>
      rw [governed] at forked
      obtain ⟨_, _, conflicts, rfl⟩ := applyTo_fork forked
      have alive : system.node.dying = false := governable.alive (fun other same => by
        cases governed.symm.trans same
        exact conflicts.alive)
      exact follows_bind (recordFork_follows fares alive recommits selected governed) (fun _ _ _ => follows_throw)
  · exact follows_throw
  · exact follows_throw
  · exact follows_throw

theorem conflictHead_some {crypto : Crypto} {governance : Option Head} {pair : List Statement}
    {fenced : Head} (conflict : conflictHead crypto governance pair = some fenced) :
    ∃ head, governance = some head ∧ head.deadAt = none ∧ fenced = { head with forked := true } := by
  unfold conflictHead at conflict
  split at conflict
  · rename_i head left right
    simp only [Option.ite_none_left_eq_some, Bool.or_eq_true, Bool.not_eq_true', not_or,
      Bool.not_eq_false, Option.some.injEq] at conflict
    obtain ⟨⟨⟨_, valid⟩, _⟩, rfl⟩ := conflict
    refine ⟨head, rfl, ?_, rfl⟩
    split at valid
    · rename_i applied
      exact alive_of_applied applied rfl
    · cases valid
  · cases conflict

theorem recordConflict_follows (fares : environment.Fares permit) (governable : Governable system)
    (recommits : permit .recommits) (pair : List Statement) :
    Traces (Transition permit host) system (recordConflict host environment pair) := by
  refine follows_live ?_
  split
  · rename_i generation fenced selected conflict
    obtain ⟨head, governed, living, rfl⟩ := conflictHead_some conflict
    have alive : system.node.dying = false := governable.alive (fun other same => by
      cases governed.symm.trans same
      exact living)
    exact follows_bind (recordFork_follows fares alive recommits selected governed)
      (fun _ _ _ => follows_pure trivial)
  · exact follows_pure trivial

end Governing

section Syncing

variable (host) in
def AlongSync (holds : Environment → System → Statement → Option Hash → Prop)
    (environments : Nat → Environment) : List Statement → System → Prop
  | [], _ => True
  | statement :: rest, system =>
      holds (environments 0) system statement none ∧ ∀ status next,
          execute (applyStatement host (environments 0) statement none) system = (.ok status, next) →
          AlongSync holds (fun index => environments (index + 1)) rest next

variable (host) in
def EachStatement (holds : Environment → System → Statement → Option Hash → Prop)
    (environments : Nat → Environment) (system : System) : Command → Prop
  | .governanceApply bytes pin =>
      ∀ statement, (Statement.decode bytes).toOption = some statement → holds (environments 0) system statement pin
  | .governanceSyncApply statements _ =>
      ∀ decoded, statements.mapM (fun bytes => (Statement.decode bytes).toOption) = some decoded →
        AlongSync host holds environments decoded system
  | _ => True

theorem Encodable.of_toOption {bytes : List UInt8} {statement : Statement}
    (decoded : (Statement.decode bytes).toOption = some statement) : Encodable statement := by
  cases result : Statement.decode bytes with
  | ok value =>
    rw [result] at decoded
    cases decoded
    exact .of_decode result
  | error _ =>
    rw [result] at decoded
    cases decoded

theorem governanceApply_follows {bytes : List UInt8} {pin : Option Hash}
    (fares : environment.Fares permit) (governable : Governable system) (recommits : permit .recommits)
    (tolerates : ∀ statement, (Statement.decode bytes).toOption = some statement →
      Tolerates permit host environment system statement pin) :
    Traces (Transition permit host) system (governanceApply host environment bytes pin) :=
  follows_expect (fun statement decoded =>
    (applyStatement_follows fares governable recommits (.of_toOption decoded)
      (tolerates statement decoded)).imp (fun _ _ _ => trivial))

theorem applyAll_follows (recommits : permit .recommits) :
    ∀ (statements : List Statement) (environments : Nat → Environment) (system : System),
      (∀ index, (environments index).Fares permit) → Governable system →
      (∀ statement ∈ statements, Encodable statement) →
      AlongSync host (Tolerates permit host) environments statements system →
      Follows (Transition permit host) system (applyAll host environments statements)
        (fun stopped next => stopped = none → Governable next)
  | [], _, _, _, governable, _, _ => follows_pure (fun _ => governable)
  | statement :: rest, environments, system, fares, governable, encodable, tolerates => by
    have first := applyStatement_follows (fares 0) governable recommits
      (encodable statement List.mem_cons_self) tolerates.1
    refine follows_attempt_bind first (fun status next applied governable => ?_)
      (fun _ _ => follows_pure (fun continues => (by cases continues)))
    exact applyAll_follows recommits rest _ next (fun index => fares (index + 1)) governable
      (fun statement member => encodable statement (List.mem_cons_of_mem _ member))
      (tolerates.2 status next applied)

theorem governanceSyncApply_follows {environments : Nat → Environment} {statements : List (List UInt8)}
    (fares : ∀ index, (environments index).Fares permit) (governable : Governable system)
    (recommits : permit .recommits)
    (tolerates : ∀ decoded, statements.mapM (fun bytes => (Statement.decode bytes).toOption) = some decoded →
      AlongSync host (Tolerates permit host) environments decoded system) (conflict : Option (List (List UInt8))) :
    Traces (Transition permit host) system (governanceSyncApply host environments statements conflict) := by
  refine follows_expect (fun decoded read => ?_)
  have encodable : ∀ statement ∈ decoded, Encodable statement := by
    intro statement member
    obtain ⟨_, _, bytes⟩ := mem_of_mapM read member
    exact .of_toOption bytes
  refine follows_bind (applyAll_follows recommits decoded environments system fares governable
    encodable (tolerates decoded read)) (fun stopped next ended => ?_)
  split
  · exact follows_bind (recordConflict_follows (fares _) (ended rfl) recommits _) (fun _ _ _ => follows_pure trivial)
  · exact follows_pure trivial

end Syncing

end Werewolf.Control
